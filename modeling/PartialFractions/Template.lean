import PartialFractions.Factor
import PartialFractions.Formula
import PartialFractions.Label

/-!
The template of a decomposition: for each factor and each level up to its multiplicity a place for
unknown constants over that power of the factor. Multiplied by the denominator, the template
becomes the expanded identity for the numerator.
-/
namespace PartialFractions

variable {K : Type}

/-- How many unknown constants a place over a factor of that kind takes. -/
def FactorKind.places : FactorKind → Nat
  | .linear => 1
  | _ => 2

structure Slot (K : Type) where
  factor : Factor K
  /-- the factors before and behind this one -/
  others : List (Factor K)
  /-- the power of the factor, from 1 up to its multiplicity -/
  level : Nat
  /-- the number of its first label -/
  index : Nat

namespace Slot

/-- The unknown numerator: a constant over a linear factor, else a term in x and a constant. -/
def numerator (s : Slot K) : Formula K :=
  match s.factor.kind with
  | .linear => .latex (Label.ofNat s.index)
  | _ => .sum [.beside [.latex (Label.ofNat s.index), "x"], .latex (Label.ofNat (s.index + 1))]

def leadingFactor (s : Slot K) : Formula K :=
  match s.factor.kind with
  | .linear => s.numerator
  | _ => .group s.numerator

end Slot

def Factor.raised (f : Factor K) (exponent : Int) : Formula K :=
  .power (.group (.latex f.content)) exponent

namespace Template

/-- The slots of `factors`, which stand behind `before`, with labels from `index` on. -/
def slotsFrom (before : List (Factor K)) (index : Nat) : List (Factor K) → List (Slot K)
  | [] => []
  | f :: rest =>
    let levels := f.multiplicity.toNat
    (List.range levels).map (fun j => ⟨f, before ++ rest, j + 1, index + j * f.kind.places⟩)
      ++ slotsFrom (before ++ [f]) (index + levels * f.kind.places) rest

def slots (factors : List (Factor K)) : List (Slot K) := slotsFrom [] 0 factors

def term (s : Slot K) : Formula K :=
  .quotient s.numerator (if s.level = 1 then .latex s.factor.content else s.factor.raised s.level)

def formula (factors : List (Factor K)) : Formula K := .sum ((slots factors).map term)

/-- The unknown numerator times what the denominator has beyond its power of the factor. -/
def expandedTerm (s : Slot K) : Formula K :=
  let own := s.factor.multiplicity - s.level
  .beside (s.leadingFactor :: (if 0 < own then [s.factor.raised own] else [])
    ++ s.others.map fun f => f.raised f.multiplicity)

def expanded (factors : List (Factor K)) : Formula K := .sum ((slots factors).map expandedTerm)

variable [Neg K] [Scalar K]

/-- A formula times the scale; a scale of 1 is not shown. -/
def scaled (f : Formula K) (scale : K) : Formula K :=
  if Scalar.same scale (Scalar.ofNat 1) then f
  else if Scalar.same scale (-Scalar.ofNat 1) then .beside ["-", .group f]
  else .beside [.number scale, .group f]

/-- The first lines of every derivation: the fraction is the template, the template over one
denominator, and the numerators are equal. -/
def identityLines (numerator denominator : String) (factors : List (Factor K)) (scale : K) :
    List (Formula K) :=
  let given : Formula K := .quotient numerator denominator
  let cleared := scaled (expanded factors) scale
  [.equation given (formula factors), .equation given (.quotient cleared denominator),
    .equation numerator cleared]

end Template

end PartialFractions
