import PartialFractions.Proofs.ArithmeticNotation
import PartialFractions.Proofs.DenotedPolynomials
import PartialFractions.Proofs.ExactNumbers

/-!
Rational values of arithmetic expressions. An expression in x alone has a value wherever nothing on
the way is divided by zero, and one that denotes a polynomial has the values of the polynomial. An
evaluation is exact if it gives these values.
-/
namespace PartialFractions.Verification

open Polynomial Symbolic

namespace Arithmetic

/-- The value of an expression where x is `v`. Symbols have none, and exponents have to be whole. -/
@[simp] def rationalAt? (v : ℚ) : Arithmetic (Exact ℚ) → Option ℚ
  | .literal l => some l.toRat
  | .constant c => c.value?
  | .x => some v
  | .symbol _ => none
  | .negate e => (e.rationalAt? v).map Neg.neg
  | .add a b => do return (← a.rationalAt? v) + (← b.rationalAt? v)
  | .subtract a b => do return (← a.rationalAt? v) - (← b.rationalAt? v)
  | .multiply a b => do return (← a.rationalAt? v) * (← b.rationalAt? v)
  | .divide a b => do
    let p ← a.rationalAt? v
    let q ← b.rationalAt? v
    if q = 0 then none else some (p / q)
  | .power base exponent => do
    let b ← base.rationalAt? v
    let k ← exponent.rationalAt? v
    if k.den = 1 ∧ (0 ≤ k.num ∨ b ≠ 0) then some (b ^ k.num) else none

variable {e a b : Arithmetic (Exact ℚ)} {v p q : ℚ}

theorem rationalAt?_add (ha : a.rationalAt? v = some p) (hb : b.rationalAt? v = some q) :
    (a.add b).rationalAt? v = some (p + q) := by
  simp [ha, hb]

theorem rationalAt?_subtract (ha : a.rationalAt? v = some p) (hb : b.rationalAt? v = some q) :
    (a.subtract b).rationalAt? v = some (p - q) := by
  simp [ha, hb]

theorem rationalAt?_multiply (ha : a.rationalAt? v = some p) (hb : b.rationalAt? v = some q) :
    (a.multiply b).rationalAt? v = some (p * q) := by
  simp [ha, hb]

theorem rationalAt?_divide (ha : a.rationalAt? v = some p) (hb : b.rationalAt? v = some q)
    (hq : q ≠ 0) : (a.divide b).rationalAt? v = some (p / q) := by
  simp [ha, hb, hq]

theorem rationalAt?_power {k : ℤ} (ha : a.rationalAt? v = some p) (hb : b.rationalAt? v = some k)
    (hk : 0 ≤ k ∨ p ≠ 0) : (a.power b).rationalAt? v = some (p ^ k) := by
  simp [ha, hb, hk]

theorem wholeOf?_eq_some {cs : Coefficients} {k : ℤ} (h : wholeOf? cs = some k) :
    cs.polynomial = C (k : ℚ) := by
  obtain ⟨c, hc, h⟩ := Option.bind_eq_some_iff.mp h
  obtain ⟨hden, hnum⟩ := Option.ite_none_right_eq_some.mp h
  obtain rfl := Option.some.inj hnum
  rw [Coefficients.constant?_eq_some hc, Rat.coe_int_num_of_den_eq_one hden]

/-- If the expression is a polynomial, it has the value of the polynomial where x is `v`. -/
def AgreesAt (v : ℚ) (e : Arithmetic (Exact ℚ)) : Prop :=
  ∀ cs, e.coefficients? = some cs → e.rationalAt? v = some (cs.polynomial.eval v)

namespace AgreesAt

theorem negate (ha : AgreesAt v a) : AgreesAt v a.negate := by
  intro cs h
  obtain ⟨ps, hps, rfl⟩ := Option.map_eq_some_iff.mp h
  simp [ha _ hps]

theorem add (ha : AgreesAt v a) (hb : AgreesAt v b) : AgreesAt v (a.add b) := by
  intro cs h
  obtain ⟨ps, hps, h⟩ := Option.bind_eq_some_iff.mp h
  obtain ⟨qs, hqs, h⟩ := Option.bind_eq_some_iff.mp h
  obtain rfl := Option.some.inj h
  rw [rationalAt?_add (ha _ hps) (hb _ hqs), Coefficients.polynomial_add, eval_add]

theorem subtract (ha : AgreesAt v a) (hb : AgreesAt v b) : AgreesAt v (a.subtract b) := by
  intro cs h
  obtain ⟨ps, hps, h⟩ := Option.bind_eq_some_iff.mp h
  obtain ⟨qs, hqs, h⟩ := Option.bind_eq_some_iff.mp h
  obtain rfl := Option.some.inj h
  rw [rationalAt?_subtract (ha _ hps) (hb _ hqs)]
  simp [sub_eq_add_neg]

theorem multiply (ha : AgreesAt v a) (hb : AgreesAt v b) : AgreesAt v (a.multiply b) := by
  intro cs h
  obtain ⟨ps, hps, h⟩ := Option.bind_eq_some_iff.mp h
  obtain ⟨qs, hqs, h⟩ := Option.bind_eq_some_iff.mp h
  obtain rfl := Option.some.inj h
  rw [rationalAt?_multiply (ha _ hps) (hb _ hqs), Coefficients.polynomial_mul, eval_mul]

/-- Only a number other than zero divides a polynomial. -/
theorem divide (ha : AgreesAt v a) (hb : AgreesAt v b) : AgreesAt v (a.divide b) := by
  intro cs h
  obtain ⟨ps, hps, h⟩ := Option.bind_eq_some_iff.mp h
  obtain ⟨qs, hqs, h⟩ := Option.bind_eq_some_iff.mp h
  obtain ⟨c, hc, h⟩ := Option.bind_eq_some_iff.mp h
  obtain ⟨hne, h⟩ := Option.ite_none_left_eq_some.mp h
  obtain rfl := Option.some.inj h
  have hvalue := hb _ hqs
  rw [Coefficients.constant?_eq_some hc, eval_C] at hvalue
  rw [rationalAt?_divide (ha _ hps) hvalue hne, Coefficients.polynomial_scale, eval_mul, eval_C,
    one_div_mul_eq_div]

/-- An exponent is a whole number, and below zero only of a number other than zero. -/
theorem power (ha : AgreesAt v a) (hb : AgreesAt v b) : AgreesAt v (a.power b) := by
  intro cs h
  obtain ⟨ps, hps, h⟩ := Option.bind_eq_some_iff.mp h
  obtain ⟨-, -, h⟩ := Option.bind_eq_some_iff.mp h
  obtain ⟨qs, hqs, h⟩ := Option.bind_eq_some_iff.mp h
  obtain ⟨k, hwhole, h⟩ := Option.bind_eq_some_iff.mp h
  have hbase := ha _ hps
  have hexponent := hb _ hqs
  rw [wholeOf?_eq_some hwhole, eval_C] at hexponent
  cases k with
  | ofNat n =>
    obtain rfl := Option.some.inj h
    rw [rationalAt?_power hbase hexponent (Or.inl (Int.natCast_nonneg n)),
      Coefficients.polynomial_pow, eval_pow]
    rfl
  | negSucc n =>
    obtain ⟨c, hc, h⟩ := Option.bind_eq_some_iff.mp h
    obtain ⟨hne, h⟩ := Option.ite_none_left_eq_some.mp h
    obtain rfl := Option.some.inj h
    rw [Coefficients.constant?_eq_some hc, eval_C] at hbase
    rw [rationalAt?_power hbase hexponent (Or.inr hne), Coefficients.polynomial_singleton, eval_C,
      zpow_negSucc, one_div]

end AgreesAt

/-- An expression that is a polynomial has its values. -/
theorem agreesAt (v : ℚ) (e : Arithmetic (Exact ℚ)) : AgreesAt v e := by
  induction e with
  | literal l =>
    intro cs h
    obtain rfl := Option.some.inj h
    simp
  | x =>
    intro cs h
    obtain rfl := Option.some.inj h
    simp
  | constant c => nofun
  | symbol name => nofun
  | negate e ih => exact ih.negate
  | add a b iha ihb => exact iha.add ihb
  | subtract a b iha ihb => exact iha.subtract ihb
  | multiply a b iha ihb => exact iha.multiply ihb
  | divide a b iha ihb => exact iha.divide ihb
  | power a b iha ihb => exact iha.power ihb

def Represents (e : Arithmetic (Exact ℚ)) (p : ℚ[X]) : Prop :=
  ∀ v, e.rationalAt? v = some (p.eval v)

theorem Denotes.represents {p : ℚ[X]} (h : e.Denotes p) : e.Represents p := by
  obtain ⟨cs, hcs, rfl⟩ := h
  exact fun v => agreesAt v e cs hcs

end Arithmetic

def Writes (s : String) (p : ℚ[X]) : Prop :=
  ∃ e : Arithmetic (Exact ℚ), e.Written (formulaText s.toList) ∧ e.Represents p

/-- Where an expression has a rational value, its evaluation gives that value. -/
def EvaluatesExactly [Evaluation (Exact ℚ)] : Prop :=
  ∀ (e : Arithmetic (Exact ℚ)) (v w : ℚ), e.rationalAt? v = some w →
    Evaluation.valueAt e (.finite v) = .ok (.finite w)

end PartialFractions.Verification
