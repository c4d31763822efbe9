import Mathlib
import PartialFractions.Number.Scalar

/-!
Exact numbers: the elements of an ordered field with two infinities and an undefined number. They
are computed with like floating-point numbers, but nothing is rounded and zero has no sign. A sum, a
difference or a product is finite only if both of its parts are.
-/
namespace PartialFractions

class Shown (K : Type) where
  text : K → String

/-- What exact numbers need beyond the operations of an ordered field. -/
class Notated (K : Type) extends Shown K where
  /-- the square root of a positive number -/
  root : K → K

inductive Exact (K : Type)
  | finite (value : K)
  | infinite (negative : Bool)
  | undefined
  deriving DecidableEq

namespace Exact

variable {K : Type}

def value? : Exact K → Option K
  | finite v => some v
  | _ => none

variable [Field K]

def neg : Exact K → Exact K
  | finite a => finite (-a)
  | infinite s => infinite (!s)
  | undefined => undefined

def add : Exact K → Exact K → Exact K
  | finite a, finite b => finite (a + b)
  | finite _, infinite t => infinite t
  | infinite s, finite _ => infinite s
  | infinite s, infinite t => if s = t then infinite s else undefined
  | _, _ => undefined

instance : Neg (Exact K) := ⟨neg⟩
instance : Add (Exact K) := ⟨add⟩
instance : Sub (Exact K) := ⟨fun a b => add a (neg b)⟩

@[simp] theorem neg_finite (a : K) : -finite a = finite (-a) := rfl

@[simp] theorem finite_add (a b : K) : finite a + finite b = finite (a + b) := rfl

@[simp] theorem finite_sub (a b : K) : finite a - finite b = finite (a - b) := by
  rw [sub_eq_add_neg]
  rfl

theorem neg_eq_finite {x : Exact K} {v : K} (h : -x = finite v) : x = finite (-v) := by
  cases x with
  | finite a =>
    cases h
    simp
  | infinite s => cases h
  | undefined => cases h

/-- A finite sum has finite summands: what is not a number stays so. -/
theorem add_eq_finite {x y : Exact K} {v : K} (h : x + y = finite v) :
    ∃ a b, x = finite a ∧ y = finite b ∧ a + b = v := by
  cases x with
  | finite a =>
    cases y with
    | finite b => exact ⟨a, b, rfl, rfl, Exact.finite.inj h⟩
    | infinite t => cases h
    | undefined => cases h
  | infinite s =>
    cases y with
    | finite b => cases h
    | infinite t =>
      change (if s = t then infinite s else undefined) = finite v at h
      split at h <;> cases h
    | undefined => cases h
  | undefined => cases y <;> cases h

variable [LinearOrder K]

/-- An infinity times a number; a product with zero is undefined. -/
def scaleInfinity (negative : Bool) (a : K) : Exact K :=
  if a = 0 then undefined else infinite (negative ^^ decide (a < 0))

def mul : Exact K → Exact K → Exact K
  | finite a, finite b => finite (a * b)
  | finite a, infinite t => scaleInfinity t a
  | infinite s, finite b => scaleInfinity s b
  | infinite s, infinite t => infinite (s ^^ t)
  | _, _ => undefined

/-- A quotient; one by zero is undefined. -/
def div : Exact K → Exact K → Exact K
  | finite a, finite b => if b = 0 then undefined else finite (a / b)
  | finite _, infinite _ => finite 0
  | infinite s, finite b => scaleInfinity s b
  | _, _ => undefined

instance : Mul (Exact K) := ⟨mul⟩
instance : Div (Exact K) := ⟨div⟩

def same : Exact K → Exact K → Bool
  | finite a, finite b => a = b
  | infinite s, infinite t => s = t
  | _, _ => false

def below : Exact K → Exact K → Bool
  | finite a, finite b => a < b
  | finite _, infinite t => !t
  | infinite s, finite _ => s
  | infinite s, infinite t => s && !t
  | _, _ => false

def ofNumeral : Numeral → Exact K
  | .decimal negative digits exponent =>
    finite (if negative then -(digits * 10 ^ exponent) else digits * 10 ^ exponent)
  | .infinity negative => infinite negative
  | .undefined => undefined

def sqrt [Notated K] : Exact K → Exact K
  | finite a => if a < 0 then undefined else finite (Notated.root a)
  | infinite false => infinite false
  | _ => undefined

def text [Shown K] : Exact K → String
  | finite a => Shown.text a
  | infinite negative => if negative then "-inf" else "inf"
  | undefined => "nan"

instance [Notated K] : Scalar (Exact K) where
  ofNat n := finite n
  ofNumeral := ofNumeral
  sqrt := sqrt
  same := same
  below := below
  text := text
  roundedText _ v := .ok (text v)

instance : Notated ℚ where
  root := Rat.sqrt
  text := toString

@[simp] theorem finite_mul (a b : K) : finite a * finite b = finite (a * b) := rfl

@[simp] theorem finite_div (a : K) {b : K} (hb : b ≠ 0) : finite a / finite b = finite (a / b) :=
  if_neg hb

theorem scaleInfinity_ne_finite (s : Bool) (a v : K) : scaleInfinity s a ≠ finite v := by
  unfold scaleInfinity
  split <;> simp

/-- A finite product has finite parts. -/
theorem mul_eq_finite {x y : Exact K} {v : K} (h : x * y = finite v) :
    ∃ a b, x = finite a ∧ y = finite b ∧ a * b = v := by
  cases x with
  | finite a =>
    cases y with
    | finite b => exact ⟨a, b, rfl, rfl, Exact.finite.inj h⟩
    | infinite t => exact absurd h (scaleInfinity_ne_finite t a v)
    | undefined => cases h
  | infinite s =>
    cases y with
    | finite b => exact absurd h (scaleInfinity_ne_finite s b v)
    | infinite t => cases h
    | undefined => cases h
  | undefined => cases y <;> cases h

/-- A quotient is finite if its dividend is, over a divisor that is infinite or not zero. -/
theorem div_eq_finite {x y : Exact K} {v : K} (h : x / y = finite v) :
    ∃ a, x = finite a ∧
      ((∃ b, y = finite b ∧ b ≠ 0 ∧ a / b = v) ∨ ∃ s, y = infinite s ∧ v = 0) := by
  cases x with
  | finite a =>
    refine ⟨a, rfl, ?_⟩
    cases y with
    | finite b =>
      change (if b = 0 then undefined else finite (a / b)) = finite v at h
      split at h
      · cases h
      · rename_i hb
        exact Or.inl ⟨b, rfl, hb, Exact.finite.inj h⟩
    | infinite s => exact Or.inr ⟨s, rfl, (Exact.finite.inj h).symm⟩
    | undefined => cases h
  | infinite s =>
    cases y with
    | finite b => exact absurd h (scaleInfinity_ne_finite s b v)
    | infinite t => cases h
    | undefined => cases h
  | undefined => cases y <;> cases h

variable [Notated K]

@[simp] theorem scalar_ofNat (n : ℕ) : Scalar.ofNat n = finite (n : K) := rfl

@[simp] theorem scalar_ofNumeral (n : Numeral) : Scalar.ofNumeral n = (ofNumeral n : Exact K) := rfl

@[simp] theorem same_finite (a b : K) : Scalar.same (finite a) (finite b) = decide (a = b) := rfl

@[simp] theorem isZero_finite (a : K) : Scalar.isZero (finite a) = decide (a = 0) := by
  rw [Scalar.isZero, scalar_ofNat, same_finite, Nat.cast_zero]

theorem isPositive_finite (a : K) : Scalar.isPositive (finite a) = decide (0 < a) := by
  have hbelow : Scalar.isPositive (finite a) = decide (((0 : ℕ) : K) < a) := rfl
  rw [hbelow, Nat.cast_zero]

theorem isNegative_finite (a : K) : Scalar.isNegative (finite a) = decide (a < 0) := by
  have hbelow : Scalar.isNegative (finite a) = decide (a < ((0 : ℕ) : K)) := rfl
  rw [hbelow, Nat.cast_zero]

theorem eq_of_same_finite {x : Exact K} {b : K} (h : Scalar.same x (finite b) = true) :
    x = finite b := by
  cases x with
  | finite a => simpa using h
  | infinite s => cases h
  | undefined => cases h

end Exact

end PartialFractions
