import PartialFractions.Exponent
import PartialFractions.Number.Integer
import PartialFractions.Number.Scalar
import PartialFractions.Text.Cut

/-!
Trinomials a x² + b x + c. The text is a sum; of several summands with the same power the last one
counts, and a summand that is no number times a power of x up to 2 is refused.
-/
namespace PartialFractions

open Text Number

structure Trinomial (K : Type) where
  a : K
  b : K
  c : K
  deriving DecidableEq, Repr

/-- The number in front of a power: nothing stands for 1 and a minus sign alone for -1. A text that
is no number is told with the summand it belongs to. -/
def leadingNumber {K : Type} [Neg K] [Scalar K] (s summand : List Char) : Except Refusal K :=
  match s with
  | [] => .ok (Scalar.ofNat 1)
  | ['-'] => .ok (-Scalar.ofNat 1)
  | _ =>
    match Scalar.read? s with
    | some v => .ok v
    | none => .error (.badPolynomial (String.ofList summand))

namespace Trinomial

/-- The summands of a sum; a minus sign belongs to the summand behind it. -/
def summands (s : List Char) : List (List Char) :=
  let signed := (squeeze s).flatMap fun c => if c = '-' then ['+', '-'] else [c]
  (pieces '+' signed).filter (! ·.isEmpty)

/-- The text before the first x that has an exponent, and the digits of the exponent. -/
def power? : List Char → Option (List Char × List Char)
  | [] => none
  | c :: rest =>
    match if c = 'x' then exponent? rest else none with
    | some (digits, _) => some ([], digits)
    | none => (power? rest).map fun (before, digits) => (c :: before, digits)

def splitPower (summand : List Char) : Except Fault (List Char × Nat) :=
  match power? summand with
  | some (before, digits) => (readDigits digits).map (before, ·)
  | none =>
    match cut? 'x' summand with
    | some (before, _) => .ok (before, 1)
    | none => .ok (summand, 0)

variable {K : Type} [Neg K] [Scalar K]

/-- The trinomial with `v` as the coefficient of a power up to 2. -/
def set? (t : Trinomial K) (v : K) : Nat → Option (Trinomial K)
  | 0 => some { t with c := v }
  | 1 => some { t with b := v }
  | 2 => some { t with a := v }
  | _ => none

def put (t : Trinomial K) (summand : List Char) : Except Failure (Trinomial K) := do
  let (before, power) ← (splitPower summand).mapError .fault
  let v ← (leadingNumber before summand).mapError .refused
  match t.set? v power with
  | some updated => return updated
  | none => throw (.refused (.badPolynomial (String.ofList summand)))

def read (s : List Char) : Except Failure (Trinomial K) :=
  let zero := Scalar.ofNat 0
  (summands s).foldlM put ⟨zero, zero, zero⟩

end Trinomial

end PartialFractions
