import PartialFractions.Proofs.NumberTexts
import PartialFractions.Proofs.OppositeNumbers

/-!
Rounding to the nearest floating-point number, ties to the even mantissa. The rationals that are
rounded to m · 2 ^ e form an interval around it. Its ends lie in the middle between two numbers and
belong to it if m is even.
-/
namespace PartialFractions.Number

open Float.Model
open Float.Model.UnpackedFloat (Sign)

namespace Binary

def value : Binary → ℚ
  | .finite negative m q => Scalar.signed negative (m * 2 ^ q)
  | _ => 0

def mantissa : Binary → ℕ
  | .finite _ m _ => m
  | _ => 0

end Binary

def exactValue (v : Float) : ℚ := (Binary.ofFloat v).value

def mantissa (v : Float) : ℕ := (Binary.ofFloat v).mantissa

/-- A rational is rounded to a number: no finite number is nearer to it, if another one is equally
near then the mantissa is even, and the rational is below the middle between the greatest number
and 2 ^ 1024. -/
structure RoundsTo (x : ℚ) (v : Float) : Prop where
  isFinite : v.isFinite = true
  nearest : ∀ w : Float, w.isFinite = true → |x - exactValue v| ≤ |x - exactValue w|
  even : ∀ w : Float, w.isFinite = true → exactValue w ≠ exactValue v →
    |x - exactValue w| = |x - exactValue v| → mantissa v % 2 = 0
  inRange : |x| < 2 ^ 1024 - 2 ^ 970

/-- How far below m · 2 ^ q its interval reaches, in units of 2 ^ q. -/
def halfBelow (m : ℕ) (q : ℤ) : ℚ := if narrowBelow m q then 1 / 4 else 1 / 2

structure InInterval (m : ℕ) (q : ℤ) (x : ℚ) : Prop where
  low : (m - halfBelow m q) * 2 ^ q ≤ x
  high : x ≤ (m + 1 / 2) * 2 ^ q
  low_of_odd : m % 2 = 1 → (m - halfBelow m q) * 2 ^ q < x
  high_of_odd : m % 2 = 1 → x < (m + 1 / 2) * 2 ^ q

section Values

variable {v : Float} {negative : Bool} {m : ℕ} {e : ℤ}

theorem ofFloat_of_isFinite (h : v.isFinite = true) :
    ∃ negative m e, Binary.ofFloat v = .finite negative m e ∧ IsStandard m e := by
  rcases (isFinite_iff v).mp h with ⟨s, hparts⟩ | ⟨s, m, e, hm, hparts⟩
  · obtain ⟨negative, hbinary⟩ := Binary.ofFloat_zero hparts
    exact ⟨negative, 0, -1074, hbinary, by omega, by omega, by omega, Or.inr rfl⟩
  · exact ⟨_, m, e, ofFloat_of_parts hparts, isStandard_of_parts hparts⟩

theorem exactValue_of_ofFloat (h : Binary.ofFloat v = .finite negative m e) :
    exactValue v = Scalar.signed negative (m * 2 ^ e : ℚ) ∧ mantissa v = m := by
  rw [exactValue, mantissa, h]
  exact ⟨rfl, rfl⟩

theorem exactValue_of_zero {s : Sign} (h : parts v = .zero s) :
    exactValue v = 0 ∧ mantissa v = 0 := by
  obtain ⟨negative, hbinary⟩ := Binary.ofFloat_zero h
  obtain ⟨hvalue, hmantissa⟩ := exactValue_of_ofFloat hbinary
  refine ⟨?_, hmantissa⟩
  rw [hvalue]
  cases negative <;> simp [Scalar.signed]

theorem exactValue_of_parts {s : Sign} {hm : 0 < m} (h : parts v = .finite s m e hm) :
    exactValue v = Scalar.signed (s == .negative) (m * 2 ^ e : ℚ) ∧ mantissa v = m :=
  exactValue_of_ofFloat (ofFloat_of_parts h)

/-- Every mantissa and exponent in standard form belong to a number that is not negative. -/
theorem exists_exactValue (h : IsStandard m e) :
    ∃ v : Float, v.isFinite = true ∧ exactValue v = m * 2 ^ e := by
  by_cases hm : 0 < m
  · have hparts := parts_ofParts_finite .positive hm h
    exact ⟨_, (isFinite_iff _).mpr (Or.inr ⟨_, _, _, _, hparts⟩), (exactValue_of_parts hparts).1⟩
  · obtain rfl : m = 0 := by omega
    have hparts := parts_ofParts_zero .positive
    refine ⟨_, (isFinite_iff _).mpr (Or.inl ⟨_, hparts⟩), ?_⟩
    rw [(exactValue_of_zero hparts).1, Nat.cast_zero, zero_mul]

theorem exactValue_neg (h : v.isFinite = true) :
    exactValue (-v) = -exactValue v ∧ mantissa (-v) = mantissa v := by
  rcases (isFinite_iff v).mp h with ⟨s, hparts⟩ | ⟨s, m, e, hm, hparts⟩
  · have hneg : parts (-v) = .zero (-s) := by
      rw [parts_neg_eq, hparts]
      rfl
    obtain ⟨hvalue, hmantissa⟩ := exactValue_of_zero hparts
    obtain ⟨hvalue', hmantissa'⟩ := exactValue_of_zero hneg
    rw [hvalue, hmantissa, hvalue', hmantissa', neg_zero]
    exact ⟨rfl, rfl⟩
  · obtain ⟨hvalue, hmantissa⟩ := exactValue_of_parts hparts
    obtain ⟨hvalue', hmantissa'⟩ := exactValue_of_parts (parts_neg hparts)
    rw [hvalue, hmantissa, hvalue', hmantissa']
    refine ⟨?_, rfl⟩
    cases s with
    | positive => rfl
    | negative => exact (neg_neg _).symm

end Values

section Nearness

variable {x v w : ℚ}

theorem sq_sub_sub_sq : (x - v) ^ 2 - (x - w) ^ 2 = (w - v) * (2 * x - (v + w)) := by ring

/-- Of two numbers the lower one is nearer up to the middle between them. -/
theorem abs_sub_le_iff_le_middle (h : v < w) : |x - v| ≤ |x - w| ↔ 2 * x ≤ v + w := by
  have hpos : 0 < w - v := by linarith
  rw [← sq_le_sq, ← sub_nonpos, sq_sub_sub_sq]
  constructor
  · intro hle
    have := nonpos_of_mul_nonpos_right hle hpos
    linarith
  · intro hle
    exact mul_nonpos_of_nonneg_of_nonpos hpos.le (by linarith)

/-- Of two numbers the upper one is nearer from the middle between them on. -/
theorem abs_sub_le_iff_middle_le (h : w < v) : |x - v| ≤ |x - w| ↔ v + w ≤ 2 * x := by
  have hneg : w - v < 0 := by linarith
  rw [← sq_le_sq, ← sub_nonpos, sq_sub_sub_sq]
  constructor
  · intro hle
    have := nonneg_of_mul_nonpos_right hle hneg
    linarith
  · intro hle
    exact mul_nonpos_of_nonpos_of_nonneg hneg.le (by linarith)

theorem abs_sub_eq_iff_middle (h : v ≠ w) : |x - w| = |x - v| ↔ 2 * x = v + w := by
  have hne : w - v ≠ 0 := sub_ne_zero.mpr h.symm
  rw [eq_comm, ← sq_eq_sq_iff_abs_eq_abs, ← sub_eq_zero, sq_sub_sub_sq, mul_eq_zero,
    or_iff_right hne, sub_eq_zero]

end Nearness

section Neighbours

variable {m n : ℕ} {e d : ℤ}

theorem halfBelow_cases (m : ℕ) (e : ℤ) :
    (m = 2 ^ 52 ∧ -1074 < e ∧ halfBelow m e = 1 / 4) ∨
      (¬ (m = 2 ^ 52 ∧ -1074 < e) ∧ halfBelow m e = 1 / 2) := by
  have hnarrow : narrowBelow m e = true ↔ m = 2 ^ 52 ∧ -1074 < e := by
    rw [narrowBelow, Bool.and_eq_true, decide_eq_true_eq, decide_eq_true_eq]
    rfl
  by_cases h : narrowBelow m e = true
  · obtain ⟨hm, he⟩ := hnarrow.mp h
    exact Or.inl ⟨hm, he, if_pos h⟩
  · exact Or.inr ⟨fun h' => h (hnarrow.mpr h'), if_neg h⟩

/-- A number on the grid of a lower exponent. -/
theorem mul_two_zpow_of_le (n : ℕ) (h : e ≤ d) :
    (n : ℚ) * 2 ^ d = ((n * 2 ^ (d - e).toNat : ℕ) : ℚ) * 2 ^ e := by
  have hsplit : (2 : ℚ) ^ d = 2 ^ ((d - e).toNat : ℤ) * 2 ^ e := by
    rw [← zpow_add₀ two_ne_zero]
    congr 1
    omega
  rw [hsplit]
  push_cast
  rw [zpow_natCast, mul_assoc]

theorem two_zpow_pos (e : ℤ) : (0 : ℚ) < 2 ^ e := zpow_pos two_pos e

theorem two_zpow_sub_one (e : ℤ) : (2 : ℚ) ^ (e - 1) = 2 ^ e / 2 := zpow_sub_one₀ two_ne_zero e

/-- A mantissa of a lower exponent stays below the numbers that have the leading bit. -/
theorem mul_zpow_le_of_lt (hm : IsStandard m e) (hn : IsStandard n d) (h : d < e) :
    2 ^ 52 ≤ m ∧ (n : ℚ) * 2 ^ d ≤ (2 ^ 52 - 1 / 2) * 2 ^ e := by
  have hlow := hn.exponent_ge
  have hlt := hn.mantissa_lt
  refine ⟨hm.normal.resolve_right (by omega), ?_⟩
  have hn' : (n : ℚ) ≤ 2 ^ 53 - 1 := by
    have hle : n + 1 ≤ 2 ^ 53 := hlt
    have hcast : (n : ℚ) + 1 ≤ 2 ^ 53 := by exact_mod_cast hle
    linarith
  have hd : (2 : ℚ) ^ d ≤ 2 ^ (e - 1) := zpow_le_zpow_right₀ one_le_two (by omega)
  calc (n : ℚ) * 2 ^ d ≤ (2 ^ 53 - 1) * 2 ^ (e - 1) :=
        mul_le_mul hn' hd (two_zpow_pos d).le (by norm_num)
    _ = (2 ^ 52 - 1 / 2) * 2 ^ e := by
        rw [two_zpow_sub_one]
        ring

/-- The next number above is a whole step away. -/
theorem add_one_mul_le (hm : IsStandard m e) (hn : IsStandard n d)
    (h : (m : ℚ) * 2 ^ e < n * 2 ^ d) : ((m : ℚ) + 1) * 2 ^ e ≤ n * 2 ^ d := by
  have hpos := two_zpow_pos e
  rcases le_or_gt e d with hle | hlt
  · rw [mul_two_zpow_of_le n hle] at h ⊢
    have hnat : m < n * 2 ^ (d - e).toNat := by
      exact_mod_cast lt_of_mul_lt_mul_right h hpos.le
    refine mul_le_mul_of_nonneg_right ?_ hpos.le
    exact_mod_cast hnat
  · obtain ⟨hbit, hbelow⟩ := mul_zpow_le_of_lt hm hn hlt
    have hbit' : (2 : ℚ) ^ 52 ≤ m := by exact_mod_cast hbit
    have hmul : (2 : ℚ) ^ 52 * 2 ^ e ≤ m * 2 ^ e := mul_le_mul_of_nonneg_right hbit' hpos.le
    have hhalf : (2 ^ 52 - 1 / 2 : ℚ) * 2 ^ e ≤ 2 ^ 52 * 2 ^ e :=
      mul_le_mul_of_nonneg_right (by norm_num) hpos.le
    linarith

/-- The next number below is a whole step away, or half a step below a power of two. -/
theorem le_sub_halfBelow_mul (hm : IsStandard m e) (hn : IsStandard n d)
    (h : (n : ℚ) * 2 ^ d < m * 2 ^ e) : (n : ℚ) * 2 ^ d ≤ (m - 2 * halfBelow m e) * 2 ^ e := by
  have hpos := two_zpow_pos e
  have hhalf : halfBelow m e ≤ 1 / 2 := by
    rcases halfBelow_cases m e with ⟨-, -, hh⟩ | ⟨-, hh⟩ <;> rw [hh]
    norm_num
  rcases le_or_gt e d with hle | hlt
  · rw [mul_two_zpow_of_le n hle] at h ⊢
    have hnat : n * 2 ^ (d - e).toNat < m := by
      exact_mod_cast lt_of_mul_lt_mul_right h hpos.le
    have hcast : ((n * 2 ^ (d - e).toNat : ℕ) : ℚ) + 1 ≤ m := by exact_mod_cast hnat
    exact mul_le_mul_of_nonneg_right (by linarith) hpos.le
  · obtain ⟨hbit, hbelow⟩ := mul_zpow_le_of_lt hm hn hlt
    refine hbelow.trans (mul_le_mul_of_nonneg_right ?_ hpos.le)
    have hlow := hn.exponent_ge
    rcases halfBelow_cases m e with ⟨rfl, -, hh⟩ | ⟨hnot, hh⟩
    · rw [hh]
      norm_num
    · have hmore : 2 ^ 52 + 1 ≤ m := by
        rcases Nat.lt_or_eq_of_le hbit with hgt | heq
        · exact hgt
        · exact absurd ⟨heq.symm, by omega⟩ hnot
      have hcast : (2 : ℚ) ^ 52 + 1 ≤ m := by exact_mod_cast hmore
      rw [hh]
      linarith

/-- The next number above, unless it is the largest. -/
theorem exists_above (hm : IsStandard m e) : (m = 2 ^ 53 - 1 ∧ e = 971) ∨
    ∃ w : Float, w.isFinite = true ∧ exactValue w = (m + 1) * 2 ^ e := by
  obtain ⟨hlt, hlow, hhigh, hnormal⟩ := hm
  by_cases hsmall : m + 1 < 2 ^ 53
  · have hnext : IsStandard (m + 1) e := ⟨hsmall, hlow, hhigh, by omega⟩
    obtain ⟨w, hw, hvalue⟩ := exists_exactValue hnext
    refine Or.inr ⟨w, hw, ?_⟩
    rw [hvalue, Nat.cast_add, Nat.cast_one]
  · obtain rfl : m = 2 ^ 53 - 1 := by omega
    by_cases htop : e = 971
    · exact Or.inl ⟨rfl, htop⟩
    · have hnext : IsStandard (2 ^ 52) (e + 1) := ⟨by omega, by omega, by omega, by omega⟩
      obtain ⟨w, hw, hvalue⟩ := exists_exactValue hnext
      refine Or.inr ⟨w, hw, ?_⟩
      rw [hvalue, zpow_add_one₀ two_ne_zero]
      norm_num
      ring

/-- The next number below; at a power of two it is only half a step away. -/
theorem exists_below (hpos : 0 < m) (hm : IsStandard m e) :
    ∃ w : Float, w.isFinite = true ∧ exactValue w = (m - 2 * halfBelow m e) * 2 ^ e := by
  obtain ⟨hlt, hlow, hhigh, hnormal⟩ := hm
  rcases halfBelow_cases m e with ⟨rfl, he, hh⟩ | ⟨hnot, hh⟩
  · have hnext : IsStandard (2 ^ 53 - 1) (e - 1) := ⟨by omega, by omega, by omega, by omega⟩
    obtain ⟨w, hw, hvalue⟩ := exists_exactValue hnext
    refine ⟨w, hw, ?_⟩
    rw [hvalue, hh, two_zpow_sub_one]
    norm_num
    ring
  · have hnext : IsStandard (m - 1) e := ⟨by omega, hlow, hhigh, by omega⟩
    obtain ⟨w, hw, hvalue⟩ := exists_exactValue hnext
    refine ⟨w, hw, ?_⟩
    rw [hvalue, hh, Nat.cast_sub hpos]
    norm_num

end Neighbours

section Intervals

variable {x : ℚ} {v w : Float} {m : ℕ} {e : ℤ}

theorem halfBelow_pos (m : ℕ) (e : ℤ) : 0 < halfBelow m e := by
  rcases halfBelow_cases m e with ⟨-, -, hh⟩ | ⟨-, hh⟩ <;> rw [hh] <;> norm_num

theorem halfBelow_le (m : ℕ) (e : ℤ) : halfBelow m e ≤ 1 / 2 := by
  rcases halfBelow_cases m e with ⟨-, -, hh⟩ | ⟨-, hh⟩ <;> rw [hh]
  norm_num

/-- The number lies in its interval. -/
theorem inInterval_self (m : ℕ) (q : ℤ) : InInterval m q (m * 2 ^ q) := by
  have hpos := two_zpow_pos q
  have hhalf := halfBelow_pos m q
  have hlow : (m - halfBelow m q) * 2 ^ q < m * 2 ^ q := mul_lt_mul_of_pos_right (by linarith) hpos
  have hhigh : (m : ℚ) * 2 ^ q < (m + 1 / 2) * 2 ^ q := mul_lt_mul_of_pos_right (by linarith) hpos
  exact ⟨hlow.le, hhigh.le, fun _ => hlow, fun _ => hhigh⟩

theorem InInterval.pos (hm : 0 < m) (h : InInterval m e x) : 0 < x := by
  have hcast : (1 : ℚ) ≤ m := by exact_mod_cast hm
  have hhalf := halfBelow_le m e
  exact lt_of_lt_of_le (mul_pos (by linarith) (two_zpow_pos e)) h.low

/-- A finite number other than m · 2 ^ e is a step away from it, above or below. -/
theorem exactValue_cases (hm : 0 < m) (hstd : IsStandard m e) (hw : w.isFinite = true)
    (hne : exactValue w ≠ m * 2 ^ e) : (m + 1) * 2 ^ e ≤ exactValue w ∨
      exactValue w ≤ (m - 2 * halfBelow m e) * 2 ^ e := by
  obtain ⟨negative, n, d, hbinary, hn⟩ := ofFloat_of_isFinite hw
  obtain ⟨hvalue, -⟩ := exactValue_of_ofFloat hbinary
  cases negative with
  | true =>
    have hcast : (1 : ℚ) ≤ m := by exact_mod_cast hm
    have hhalf := halfBelow_le m e
    have hzero : exactValue w ≤ 0 := by
      rw [hvalue]
      exact neg_nonpos.mpr (mul_nonneg (Nat.cast_nonneg n) (two_zpow_pos d).le)
    exact Or.inr (hzero.trans (mul_nonneg (by linarith) (two_zpow_pos e).le))
  | false =>
    have hvalue' : exactValue w = n * 2 ^ d := hvalue
    rw [hvalue'] at hne ⊢
    rcases lt_or_gt_of_ne hne with hlt | hgt
    · exact Or.inr (le_sub_halfBelow_mul hstd hn hlt)
    · exact Or.inl (add_one_mul_le hstd hn hgt)

/-- The middle between the greatest number and 2 ^ 1024. -/
theorem greatest_middle : (2 ^ 53 - 1 + 1 / 2 : ℚ) * 2 ^ 971 = 2 ^ 1024 - 2 ^ 970 := by
  have hone : (2 : ℚ) ^ 971 = 2 * 2 ^ 970 := pow_succ' 2 970
  have hmany : (2 : ℚ) ^ 1024 = 2 ^ 54 * 2 ^ 970 := by rw [← pow_add]
  rw [hone, hmany]
  generalize (2 : ℚ) ^ 970 = t
  ring

/-- The interval of the greatest number ends at the middle to 2 ^ 1024, which it does not hold since
the greatest mantissa is odd. -/
theorem InInterval.lt_greatest (hstd : IsStandard m e) (h : InInterval m e x) :
    x < 2 ^ 1024 - 2 ^ 970 := by
  have hpos := two_zpow_pos e
  have htop : (2 : ℚ) ^ e ≤ 2 ^ 971 := by
    rw [← zpow_natCast]
    exact zpow_le_zpow_right₀ one_le_two hstd.exponent_le
  by_cases hgreatest : m = 2 ^ 53 - 1
  · have hcast : (m : ℚ) = 2 ^ 53 - 1 := by
      rw [hgreatest]
      norm_num
    have hhigh := h.high_of_odd (by omega)
    rw [hcast] at hhigh
    calc x < (2 ^ 53 - 1 + 1 / 2) * 2 ^ e := hhigh
      _ ≤ (2 ^ 53 - 1 + 1 / 2) * 2 ^ 971 := mul_le_mul_of_nonneg_left htop (by norm_num)
      _ = 2 ^ 1024 - 2 ^ 970 := greatest_middle
  · have hlt : m + 2 ≤ 2 ^ 53 := by
      have hstd' := hstd.mantissa_lt
      omega
    have hcast : (m : ℚ) + 2 ≤ 2 ^ 53 := by exact_mod_cast hlt
    calc x ≤ (m + 1 / 2) * 2 ^ e := h.high
      _ ≤ (2 ^ 53 - 1) * 2 ^ 971 := mul_le_mul (by linarith) htop hpos.le (by norm_num)
      _ < (2 ^ 53 - 1 + 1 / 2) * 2 ^ 971 :=
        mul_lt_mul_of_pos_right (by norm_num) (pow_pos two_pos 971)
      _ = 2 ^ 1024 - 2 ^ 970 := greatest_middle

/-- Inside the half steps on both sides there is no other nearest number. -/
theorem InInterval.roundsTo (hm : 0 < m) (hstd : IsStandard m e) (hfinite : v.isFinite = true)
    (hvalue : exactValue v = m * 2 ^ e) (hmantissa : mantissa v = m) (h : InInterval m e x) :
    RoundsTo x v := by
  have hstep := mul_pos (halfBelow_pos m e) (two_zpow_pos e)
  have hpos := two_zpow_pos e
  -- on which side of the middle between both numbers the rational is
  have hsides (w : Float) (hw : w.isFinite = true) (hne : exactValue w ≠ exactValue v) :
      (exactValue v < exactValue w ∧ exactValue v + 2 ^ e ≤ exactValue w) ∨
        (exactValue w < exactValue v ∧
          exactValue w ≤ exactValue v - 2 * (halfBelow m e * 2 ^ e)) := by
    rw [hvalue] at hne ⊢
    rcases exactValue_cases hm hstd hw hne with habove | hbelow
    · exact Or.inl ⟨by linarith, by linarith⟩
    · exact Or.inr ⟨by linarith, by linarith⟩
  have hlow := h.low
  have hhigh := h.high
  refine ⟨hfinite, ?_, ?_, ?_⟩
  · intro w hw
    by_cases hne : exactValue w = exactValue v
    · rw [hne]
    · rcases hsides w hw hne with ⟨hlt, hstep⟩ | ⟨hlt, hstep⟩
      · exact (abs_sub_le_iff_le_middle hlt).mpr (by linarith)
      · exact (abs_sub_le_iff_middle_le hlt).mpr (by linarith)
  · intro w hw hne htie
    rw [abs_sub_eq_iff_middle (Ne.symm hne)] at htie
    rw [hmantissa]
    by_contra hodd
    have hlow' := h.low_of_odd (by omega)
    have hhigh' := h.high_of_odd (by omega)
    rcases hsides w hw hne with ⟨hlt, hstep⟩ | ⟨hlt, hstep⟩ <;> linarith
  · rw [abs_of_pos (h.pos hm)]
    exact h.lt_greatest hstd

/-- The middle to the next number below bounds what is rounded to the number. -/
theorem RoundsTo.low (hm : 0 < m) (hstd : IsStandard m e) (hvalue : exactValue v = m * 2 ^ e)
    (hmantissa : mantissa v = m) (h : RoundsTo x v) :
    (m - halfBelow m e) * 2 ^ e ≤ x ∧ (m % 2 = 1 → (m - halfBelow m e) * 2 ^ e < x) := by
  have hstep := mul_pos (halfBelow_pos m e) (two_zpow_pos e)
  obtain ⟨w, hw, hwvalue⟩ := exists_below hm hstd
  have hlt : exactValue w < exactValue v := by
    rw [hvalue, hwvalue]
    linarith
  have hle := (abs_sub_le_iff_middle_le hlt).mp (h.nearest w hw)
  rw [hvalue, hwvalue] at hle
  refine ⟨by linarith, ?_⟩
  intro hodd
  by_contra hnot
  have htie : |x - exactValue w| = |x - exactValue v| := by
    rw [abs_sub_eq_iff_middle hlt.ne', hvalue, hwvalue]
    linarith
  have heven := h.even w hw hlt.ne htie
  omega

/-- The middle to the next number above bounds what is rounded to the number. Above the greatest
number there is none, and the range ends in its place. -/
theorem RoundsTo.high (hstd : IsStandard m e) (hvalue : exactValue v = m * 2 ^ e)
    (hmantissa : mantissa v = m) (h : RoundsTo x v) :
    x ≤ (m + 1 / 2) * 2 ^ e ∧ (m % 2 = 1 → x < (m + 1 / 2) * 2 ^ e) := by
  have hpos := two_zpow_pos e
  rcases exists_above hstd with ⟨rfl, rfl⟩ | ⟨w, hw, hwvalue⟩
  · have hrange := lt_of_le_of_lt (le_abs_self x) h.inRange
    have hmiddle : (((2 ^ 53 - 1 : ℕ) : ℚ) + 1 / 2) * 2 ^ (971 : ℤ) = 2 ^ 1024 - 2 ^ 970 := by
      have hcast : ((2 ^ 53 - 1 : ℕ) : ℚ) = 2 ^ 53 - 1 := by norm_num
      rw [← greatest_middle, hcast]
      rfl
    rw [hmiddle]
    exact ⟨hrange.le, fun _ => hrange⟩
  · have hlt : exactValue v < exactValue w := by
      rw [hvalue, hwvalue]
      linarith
    have hle := (abs_sub_le_iff_le_middle hlt).mp (h.nearest w hw)
    rw [hvalue, hwvalue] at hle
    refine ⟨by linarith, ?_⟩
    intro hodd
    by_contra hnot
    have htie : |x - exactValue w| = |x - exactValue v| := by
      rw [abs_sub_eq_iff_middle hlt.ne, hvalue, hwvalue]
      linarith
    have heven := h.even w hw hlt.ne' htie
    omega

theorem RoundsTo.neg (h : RoundsTo x v) : RoundsTo (-x) (-v) := by
  obtain ⟨hvalue, hmantissa⟩ := exactValue_neg h.isFinite
  have hneg (u : ℚ) : |-x - u| = |x - -u| := by
    rw [← abs_neg]
    congr 1
    ring
  have hopposite (w : Float) (hw : w.isFinite = true) :
      (-w).isFinite = true ∧ -exactValue w = exactValue (-w) :=
    ⟨isFinite_neg.trans hw, (exactValue_neg hw).1.symm⟩
  refine ⟨isFinite_neg.trans h.isFinite, ?_, ?_, ?_⟩
  · intro w hw
    obtain ⟨hfinite, heq⟩ := hopposite w hw
    rw [hvalue, hneg, hneg, neg_neg, heq]
    exact h.nearest _ hfinite
  · intro w hw hne htie
    obtain ⟨hfinite, heq⟩ := hopposite w hw
    rw [hvalue, hneg, hneg, neg_neg, heq] at htie
    rw [hmantissa]
    refine h.even _ hfinite (fun hsame => hne ?_) htie
    rw [hvalue, ← hsame, ← heq, neg_neg]
  · rw [abs_neg]
    exact h.inRange

/-- What is rounded to a number is its interval, on the side of zero where the number is. -/
theorem roundsTo_iff {s : Sign} {hm : 0 < m} (h : parts v = .finite s m e hm) :
    RoundsTo x v ↔ InInterval m e (Scalar.signed (s == .negative) x) := by
  have hpositive {u : Float} (hu : parts u = .finite .positive m e hm) (y : ℚ) :
      RoundsTo y u ↔ InInterval m e y := by
    have hstd := isStandard_of_parts hu
    have hfinite := (isFinite_iff u).mpr (Or.inr ⟨_, _, _, _, hu⟩)
    obtain ⟨hvalue, hmantissa⟩ := exactValue_of_parts hu
    constructor
    · intro hy
      obtain ⟨hlow, hlow'⟩ := hy.low hm hstd hvalue hmantissa
      obtain ⟨hhigh, hhigh'⟩ := hy.high hstd hvalue hmantissa
      exact ⟨hlow, hhigh, hlow', hhigh'⟩
    · intro hy
      exact hy.roundsTo hm hstd hfinite hvalue hmantissa
  cases s with
  | positive => exact hpositive h x
  | negative =>
    refine Iff.trans ⟨RoundsTo.neg, ?_⟩ (hpositive (parts_neg h) (-x))
    intro hneg
    have hback := hneg.neg
    rwa [neg_neg, neg_neg_eq] at hback

/-- A number that is not negative lies on its own side of zero. -/
theorem InInterval.of_signed {s negative : Bool} (hm : 0 < m) (hx : 0 ≤ x)
    (h : InInterval m e (Scalar.signed s (Scalar.signed negative x))) :
    negative = s ∧ InInterval m e x := by
  have hpos := h.pos hm
  cases s with
  | false =>
    cases negative with
    | false => exact ⟨rfl, h⟩
    | true =>
      change 0 < -x at hpos
      linarith
  | true =>
    cases negative with
    | false =>
      change 0 < -x at hpos
      linarith
    | true =>
      rw [Scalar.signed_signed] at h
      exact ⟨rfl, h⟩

/-- Zero is rounded to zeros. -/
theorem roundsTo_zero {s : Sign} (h : parts v = .zero s) : RoundsTo 0 v := by
  obtain ⟨hvalue, hmantissa⟩ := exactValue_of_zero h
  have hrange : (2 : ℚ) ^ 970 < 2 ^ 1024 := pow_lt_pow_right₀ one_lt_two (by omega)
  refine ⟨(isFinite_iff v).mpr (Or.inl ⟨s, h⟩), ?_, ?_, ?_⟩
  · intro w hw
    rw [hvalue, sub_zero, abs_zero]
    exact abs_nonneg _
  · intro w hw hne htie
    rw [hmantissa]
  · rw [abs_zero]
    exact sub_pos.mpr hrange

/-- Every finite number is the one that its own value is rounded to. -/
theorem roundsTo_exactValue (h : v.isFinite = true) : RoundsTo (exactValue v) v := by
  rcases (isFinite_iff v).mp h with ⟨s, hparts⟩ | ⟨s, m, e, hm, hparts⟩
  · rw [(exactValue_of_zero hparts).1]
    exact roundsTo_zero hparts
  · rw [roundsTo_iff hparts, (exactValue_of_parts hparts).1, Scalar.signed_signed]
    exact inInterval_self m e

end Intervals

end PartialFractions.Number
