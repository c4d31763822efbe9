import PartialFractions.Number.Scalar
import PartialFractions.Text.Blank
import PartialFractions.Text.Quoted

/-!
Factors of a denominator: a content with a multiplicity. The root of a linear factor stands in its
content, or it was computed and the content was made from it.
-/
namespace PartialFractions

open Text

/-- A factor is linear or quadratic; one of another kind is treated as a quadratic one. -/
inductive FactorKind
  | linear
  | quadratic
  | other (name : String)
  deriving DecidableEq, Repr

namespace FactorKind

def name : FactorKind → String
  | .linear => "linear"
  | .quadratic => "quadratic"
  | .other name => name

def ofName (name : String) : FactorKind :=
  if name = "linear" then .linear else if name = "quadratic" then .quadratic else .other name

end FactorKind

inductive Root (K : Type)
  | written (text : String)
  | computed (value : K)
  deriving Repr

namespace Root

variable {K : Type} [Add K] [Scalar K]

def text : Root K → String
  | .written text => text
  | .computed v => Scalar.text v

/-- The root as a number; a zero that was computed has no sign. -/
def value? : Root K → Option K
  | .written text => Scalar.read? text.toList
  | .computed v => some (v + Scalar.ofNat 0)

end Root

structure Factor (K : Type) where
  kind : FactorKind
  content : String
  multiplicity : Int
  root : Option (Root K)
  deriving Repr

namespace Factor

/-- The root that a linear content shows: 0 in x, and k with its sign turned in x ± k. -/
def shownRoot? (content : List Char) : Option (List Char) :=
  match squeeze content with
  | ['x'] => some ['0']
  | 'x' :: '+' :: k => some ('-' :: k)
  | 'x' :: '-' :: k => some ('+' :: k)
  | _ => none

def showsPower : List Char → Bool
  | [] => false
  | c :: rest => (c = 'x' && (rest.dropWhile isBlank).head? == some '^') || showsPower rest

variable {K : Type}

/-- The factor with that content: quadratic if x has an exponent in it. -/
def ofContent (content : List Char) (multiplicity : Int) : Factor K :=
  { content := String.ofList content
    multiplicity
    kind := if showsPower content then .quadratic else .linear
    root := if showsPower content then none
      else (shownRoot? content).map fun s => .written (String.ofList s) }

/-- A power of x outside the brackets. -/
def bare (multiplicity : Int) : Factor K := ⟨.linear, "x", multiplicity, some (.written "0")⟩

variable [Neg K] [Scalar K]

def ofRoot (root : K) (multiplicity : Int) : Factor K :=
  { kind := .linear
    content :=
      if Scalar.isPositive root then "x - " ++ Scalar.text root
      else "x + " ++ Scalar.text (if Scalar.isNegative root then -root else root)
    multiplicity
    root := some (.computed root) }

def description (f : Factor K) : String :=
  let root := match f.root with
    | some r => ", root=" ++ quoted r.text
    | none => ""
  "Factor(type=" ++ quoted f.kind.name ++ ", content=" ++ quoted f.content ++ ", multiplicity="
    ++ toString f.multiplicity ++ root ++ ")"

end Factor

end PartialFractions
