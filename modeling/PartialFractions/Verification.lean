import PartialFractions.Decomposition
import PartialFractions.Verification.Evaluation
import PartialFractions.Verification.Reader

/-!
Verification of solved constants: the fraction is compared with the sum that the constants make of
it, at a few sample points where the denominator does not vanish. Both sides are read from the
texts again, apart from the readers that the constants came from.
-/
namespace PartialFractions.Verification

variable {K : Type} [Add K] [Sub K] [Mul K] [Div K] [Neg K] [Scalar K]

/-- The points of comparison: 0.37, 1.91, -2.63 and 4.17. -/
def samplePoints : List K :=
  [(false, 37), (false, 191), (true, 263), (false, 417)].map fun (negative, digits) =>
    Scalar.ofNumeral (.decimal negative digits (-2))

structure Sides (K : Type) where
  denominator : Arithmetic K
  fraction : Arithmetic K
  /-- the sum that the constants make of the fraction -/
  rebuilt : Arithmetic K

def rebuild : List K → List (Arithmetic K) → Arithmetic K
  | [a, b], [f, g] => .add (.divide (.constant a) f) (.divide (.constant b) g)
  | [a, b, c, d], [f, g] =>
    .add (.divide (.add (.multiply (.constant a) .x) (.constant b)) f)
      (.divide (.add (.multiply (.constant c) .x) (.constant d)) g)
  | _, _ => .constant (Scalar.ofNat 0)

section Sides

variable [Parsing K]

def partsOf (d : Decomposition K) : Except Fault (Arithmetic K × Arithmetic K) := do
  let numerator ← Arithmetic.read d.fraction.numerator.toList
  let denominator ← Arithmetic.read d.fraction.denominator.toList
  return (numerator, denominator)

/-- The two sides. The fraction is read first, then the constants are solved. -/
def Sides.ofDecomposition (d : Decomposition K) : Except Failure (Sides K) := do
  let (numerator, denominator) ← (partsOf d).mapError .fault
  let constants ← d.constants
  let contents ← (d.factorization.factors.mapM fun f => Arithmetic.read f.content.toList).mapError
    .fault
  return ⟨denominator, .divide numerator denominator, rebuild (constants.map (·.2)) contents⟩

end Sides

def size (v : K) : K := if Scalar.isNegative v then -v else v

structure Mismatch (K : Type) where
  point : K
  expected : K
  actual : K

variable [Evaluation K]

/-- Compares the two sides at a point where the denominator is not smaller than the tolerance. The
tolerance is relative to values above 1. -/
def compareAt (tolerance : K) (sides : Sides K) (point : K) :
    Except Fault (Option (Mismatch K)) := do
  let denominator ← Evaluation.valueAt sides.denominator point
  if Scalar.below (size denominator) tolerance then return none
  let expected ← Evaluation.valueAt sides.fraction point
  let actual ← Evaluation.valueAt sides.rebuilt point
  let one : K := Scalar.ofNat 1
  let bound := if Scalar.below one (size expected) then size expected else one
  if Scalar.below (tolerance * bound) (size (expected - actual)) then
    return some ⟨point, expected, actual⟩
  else return none

def firstAmong (tolerance : K) (sides : Sides K) : List K → Except Fault (Option (Mismatch K))
  | [] => .ok none
  | point :: rest => do
    match ← compareAt tolerance sides point with
    | some mismatch => return some mismatch
    | none => firstAmong tolerance sides rest

variable [Parsing K]

def firstMismatch (tolerance : K) (d : Decomposition K) : Except Failure (Option (Mismatch K)) := do
  (firstAmong tolerance (← Sides.ofDecomposition d) samplePoints).mapError .fault

def passes (tolerance : K) (d : Decomposition K) : Except Failure Bool :=
  (firstMismatch tolerance d).map (·.isNone)

/-- Whether the fraction is a quotient of polynomials, which an algebra system can decompose. -/
def isRational (d : Decomposition Float) : Bool :=
  match partsOf d with
  | .ok (numerator, denominator) =>
    ((Arithmetic.divide numerator denominator).expression Symbolic.Value.ofFloat).isRational
  | .error _ => false

/-- The coefficients of the polynomial that an expression is, as it is written or in its normal
form. -/
def polynomial? (e : Arithmetic Empty) : Option Symbolic.Coefficients :=
  e.coefficients?.orElse fun _ => (e.expression (nomatch ·)).coefficients?

/-- The exact coefficients of the polynomial that the text writes, the highest power first. -/
def exactCoefficients [Parsing Empty] (s : List Char) : Except Fault (List Rat) := do
  match polynomial? (← Arithmetic.read s) with
  | some p => return if p.strip.isEmpty then [0] else p.strip.reverse
  | none => throw .unreadableFormula

def exactText (v : Rat) : String :=
  if v.den = 1 then toString v.num else toString v.num ++ "/" ++ toString v.den

end PartialFractions.Verification
