import PartialFractions.Number.Power

/-!
Binary numbers of 64 bits taken apart: a finite one is ± mantissa · 2 ^ exponent, where the mantissa
has 53 bits unless the exponent is the least one.
-/
namespace PartialFractions.Number

inductive Binary
  | undefined
  | infinite (negative : Bool)
  | finite (negative : Bool) (mantissa : Nat) (exponent : Int)
  deriving DecidableEq, Repr

namespace Binary

def leastExponent : Int := -1074

private def isNegative : Float.Model.UnpackedFloat.Sign → Bool
  | .negative => true
  | .positive => false

def ofFloat (v : Float) : Binary :=
  match v.toModel.unpack with
  | .notANumber => .undefined
  | .infinity s => .infinite (isNegative s)
  | .zero s => .finite (isNegative s) 0 leastExponent
  | .finite s m e _ => .finite (isNegative s) m e

theorem ofFloat_zero {v : Float} {s : Float.Model.UnpackedFloat.Sign}
    (h : v.toModel.unpack = .zero s) :
    ∃ negative, ofFloat v = .finite negative 0 leastExponent := by
  rw [ofFloat, h]
  exact ⟨_, rfl⟩

theorem ofFloat_positive {v : Float} {m : Nat} {e : Int} {hm : 0 < m}
    (h : v.toModel.unpack = .finite .positive m e hm) : ofFloat v = .finite false m e := by
  rw [ofFloat, h]
  rfl

theorem ofFloat_negative {v : Float} {m : Nat} {e : Int} {hm : 0 < m}
    (h : v.toModel.unpack = .finite .negative m e hm) : ofFloat v = .finite true m e := by
  rw [ofFloat, h]
  rfl

/-- Whether mantissa · 2 ^ exponent is a whole number. -/
def isWhole (mantissa : Nat) (exponent : Int) : Bool := mantissa % power 2 (-exponent) = 0

def wholePart (mantissa : Nat) (exponent : Int) : Nat :=
  mantissa * power 2 exponent / power 2 (-exponent)

end Binary

end PartialFractions.Number
