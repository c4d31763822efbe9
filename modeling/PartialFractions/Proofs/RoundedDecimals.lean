import PartialFractions.Proofs.ReadDecimals
import PartialFractions.Proofs.ShortestDecimals

/-!
From which number on a decimal made of it reaches a power of ten. A decimal rounded to a count of
digits reaches it half a unit of its last place early; the shortest decimal reaches 0.0001 with the
number, since 0.0001 is read as a number that is not below it.
-/
namespace PartialFractions.Number

open Float.Model.UnpackedFloat (Sign)

section Even

variable {num den n : ℕ}

theorem roundEven_of_half_le (hodd : num / den % 2 = 1)
    (h : den ≤ 2 * (num % den)) : roundEven num den = num / den + 1 := by
  unfold roundEven
  dsimp only
  split
  · rename_i hlt
    rw [Nat.compare_eq_lt] at hlt
    omega
  · rfl
  · rw [hodd]

theorem roundEven_of_lt_half (h : 2 * (num % den) < den) : roundEven num den = num / den := by
  unfold roundEven
  rw [Nat.compare_eq_lt.mpr h]

/-- A fraction is rounded up to an even number from half a unit below it on. -/
theorem le_roundEven_iff (hn : n % 2 = 0) (hden : 0 < den) :
    n ≤ roundEven num den ↔ (n - 1 / 2 : ℚ) ≤ num / den := by
  have hpos : (0 : ℚ) < den := by exact_mod_cast hden
  have hsplit : (num : ℚ) = den * (num / den : ℕ) + (num % den : ℕ) := by
    exact_mod_cast (Nat.div_add_mod num den).symm
  have hrest : ((num % den : ℕ) : ℚ) < den := by exact_mod_cast Nat.mod_lt num hden
  have hrest' : (0 : ℚ) ≤ (num % den : ℕ) := Nat.cast_nonneg _
  have hcases := roundEven_cases num den
  rw [le_div_iff₀ hpos]
  rcases lt_trichotomy n (num / den + 1) with hlt | heq | hgt
  · have hcast : (n : ℚ) * den ≤ (num / den : ℕ) * den :=
      mul_le_mul_of_nonneg_right (by exact_mod_cast (by omega : n ≤ num / den)) hpos.le
    exact iff_of_true (by omega) (by linarith)
  · -- the even number is the one above the fraction
    have hcast : (n : ℚ) = (num / den : ℕ) + 1 := by exact_mod_cast heq
    by_cases hhalf : den ≤ 2 * (num % den)
    · have hhalf' : (den : ℚ) ≤ 2 * (num % den : ℕ) := by exact_mod_cast hhalf
      rw [roundEven_of_half_le (by omega) hhalf, hcast]
      exact iff_of_true heq.le (by linarith)
    · have hhalf' : (2 : ℚ) * (num % den : ℕ) < den := by exact_mod_cast not_le.mp hhalf
      rw [roundEven_of_lt_half (by omega), hcast]
      exact iff_of_false (by omega) (by linarith)
  · have hcast : ((num / den : ℕ) + 2 : ℚ) * den ≤ n * den :=
      mul_le_mul_of_nonneg_right (by exact_mod_cast hgt) hpos.le
    exact iff_of_false (by omega) (by linarith)

end Even

section Significant

variable {m count c : ℕ} {q s : ℤ}

/-- The digits of the rounded decimal, before zeros are dropped. -/
theorem exists_significant (hm : 0 < m) (hc : min count mostSignificantDigits = c)
    (hs : binaryScale m q = s) : ∃ num den : ℕ, 0 < den ∧
      (num / den : ℚ) = m * 2 ^ q / 10 ^ (s - c) ∧
      significant m q count = Decimal.strip ⟨roundEven num den, s - c⟩ := by
  obtain ⟨e, he⟩ : ∃ e, s - c = e := ⟨_, rfl⟩
  have hten : 0 < 10 := by omega
  have hten' := power_pos hten (-e)
  have htwo := power_pos two_pos (-q)
  have hpos := ten_zpow_pos e
  refine ⟨m * power 2 q * power 10 (-e), power 2 (-q) * power 10 e,
    Nat.mul_pos htwo (power_pos hten e), ?_, ?_⟩
  · rw [he, Nat.cast_mul, Nat.cast_mul, Nat.cast_mul, cast_power two_pos q, cast_power hten e]
    push_cast
    field_simp
  · rw [significant, hc, hs, he]

/-- The whole part of the fraction that is rounded has as many digits as asked for. -/
theorem wholePart_counts (hm : 0 < m) (hpos : 0 < c) {e : ℤ} (he : binaryScale m q - c = e)
    {num den : ℕ} (hden : 0 < den) (hquotient : (num / den : ℚ) = m * 2 ^ q / 10 ^ e) :
    10 ^ (c - 1) ≤ num / den ∧ num / den < 10 ^ c := by
  obtain ⟨hlow, hhigh⟩ := binaryScale_counts hm hpos he
  have hstep := ten_zpow_pos e
  have hden' : (0 : ℚ) < den := by exact_mod_cast hden
  have hfloor : ((num / den : ℕ) : ℚ) * den ≤ num := by exact_mod_cast Nat.div_mul_le_self num den
  have hceil : (num : ℚ) < (num / den + 1 : ℕ) * den := by
    exact_mod_cast Nat.lt_mul_of_div_lt (Nat.lt_succ_self _) hden
  rw [← le_div_iff₀ hden', hquotient, le_div_iff₀ hstep] at hfloor
  rw [← div_lt_iff₀ hden', hquotient, div_lt_iff₀ hstep] at hceil
  exact floor_counts hfloor hceil hlow hhigh

/-- The rounded decimal lies between the powers of ten around the number, and reaches the upper one
if the number is at most half a unit of the last place below it. -/
theorem significant_bounds (hm : 0 < m) (hc : min count mostSignificantDigits = c) (hpos : 0 < c)
    (hs : binaryScale m q = s) :
    0 < (significant m q count).digits ∧ (10 : ℚ) ^ (s - 1) ≤ (significant m q count).value ∧
      (significant m q count).value ≤ 10 ^ s ∧
      ((10 : ℚ) ^ s ≤ (significant m q count).value ↔
        (10 : ℚ) ^ s - 10 ^ (s - c) / 2 ≤ m * 2 ^ q) := by
  obtain ⟨num, den, hden, hquotient, hsignificant⟩ := exists_significant (q := q) hm hc hs
  obtain ⟨e, he⟩ : ∃ e, s - c = e := ⟨_, rfl⟩
  have hstep := ten_zpow_pos e
  have htop : (10 : ℚ) ^ s = 10 ^ c * 10 ^ e := by
    rw [← ten_zpow_add]
    congr 1
    omega
  have hbottom : (10 : ℚ) ^ (s - 1) = 10 ^ (c - 1) * 10 ^ e := by
    rw [← ten_zpow_add]
    congr 1
    omega
  rw [he] at hquotient hsignificant
  obtain ⟨hlow, hhigh⟩ := wholePart_counts hm hpos (hs ▸ he) hden hquotient
  have hcases := roundEven_cases num den
  have hten : 0 < 10 ^ (c - 1) := Nat.pow_pos (by omega)
  have heven : 10 ^ c % 2 = 0 := by
    rw [← Nat.sub_add_cancel hpos, pow_succ]
    omega
  have hle : ((10 ^ (c - 1) : ℕ) : ℚ) ≤ roundEven num den := by
    exact_mod_cast (by omega : 10 ^ (c - 1) ≤ roundEven num den)
  have hge : (roundEven num den : ℚ) ≤ (10 ^ c : ℕ) := by
    exact_mod_cast (by omega : roundEven num den ≤ 10 ^ c)
  have hround : 10 ^ c ≤ roundEven num den ↔ ((10 ^ c : ℕ) - 1 / 2 : ℚ) ≤ num / den :=
    le_roundEven_iff heven hden
  rw [hquotient, le_div_iff₀ hstep, ← Nat.cast_le (α := ℚ)] at hround
  push_cast at hle hge hround
  have hdigits : 0 < roundEven num den := by omega
  have hvalue : (significant m q count).value = roundEven num den * 10 ^ e := by
    rw [hsignificant, Decimal.value_strip]
    rfl
  rw [hvalue, he, htop, hbottom]
  refine ⟨?_, mul_le_mul_of_nonneg_right hle hstep.le, mul_le_mul_of_nonneg_right hge hstep.le, ?_⟩
  · rw [hsignificant]
    have hlast := Decimal.digits_strip (d := ⟨roundEven num den, e⟩) hdigits
    omega
  · rw [mul_le_mul_iff_of_pos_right hstep, hround, sub_mul]
    constructor <;> intro h <;> linarith

/-- From which number on the rounded decimal reaches a power of ten. -/
theorem le_value_significant_iff (hm : 0 < m) (hc : min count mostSignificantDigits = c)
    (hpos : 0 < c) (k : ℤ) : (10 : ℚ) ^ k ≤ (significant m q count).value ↔
      (10 : ℚ) ^ k - 10 ^ (k - c) / 2 ≤ m * 2 ^ q := by
  obtain ⟨s, hs⟩ : ∃ s, binaryScale m q = s := ⟨_, rfl⟩
  obtain ⟨-, hlow, hhigh, hiff⟩ := significant_bounds hm hc hpos hs
  obtain ⟨hfirst, hlast⟩ := binaryScale_bounds (q := q) hm
  rw [hs] at hfirst hlast
  have hstep := ten_zpow_pos (k - c)
  rcases lt_trichotomy k s with hlt | rfl | hgt
  · have hpower : (10 : ℚ) ^ k ≤ 10 ^ (s - 1) := ten_zpow_le (by omega)
    exact iff_of_true (hpower.trans hlow) (by linarith)
  · exact hiff
  · have hpower : (10 : ℚ) ^ s ≤ 10 ^ (k - 1) := ten_zpow_le (by omega)
    have hsmall : (10 : ℚ) ^ (k - c) ≤ 10 ^ (k - 1) := ten_zpow_le (by omega)
    have hten : (10 : ℚ) ^ k = 10 * 10 ^ (k - 1) := by
      rw [← zpow_one_add₀ (by norm_num)]
      congr 1
      ring
    have hone := ten_zpow_pos (k - 1)
    exact iff_of_false (by linarith) (by linarith)

end Significant

section Thresholds

variable {m : ℕ} {q : ℤ} {x : ℚ}

theorem digits_shortest_pos (hm : 0 < m) (hlt : m < 2 ^ 53) : 0 < (shortest m q).digits := by
  have hpos := (inInterval_shortest (q := q) hm hlt).pos hm
  by_contra hzero
  obtain hzero' : (shortest m q).digits = 0 := by omega
  rw [Decimal.value, hzero', Nat.cast_zero, zero_mul] at hpos
  exact lt_irrefl _ hpos

theorem ofFloat_tenThousandth :
    Binary.ofFloat (Float.ofScientific 1 true 4) = .finite false 7378697629483821 (-66) := by
  decide +kernel

/-- There is one number that 0.0001 is read as. -/
theorem eq_of_inInterval_tenThousandth (hm : 0 < m) (hstd : IsStandard m q)
    (h : InInterval m q (10 ^ (-4 : ℤ))) : m = 7378697629483821 ∧ q = -66 := by
  have hdecimal : (10 : ℚ) ^ (-4 : ℤ) = (1 : ℕ) * 10 ^ (-4 : ℤ) := by rw [Nat.cast_one, one_mul]
  rw [hdecimal] at h
  have hread : Float.ofScientific 1 true 4 = ofParts (.finite .positive m q hm) :=
    ofScientific_of_inInterval hm hstd h
  have hbinary := ofFloat_of_parts (parts_ofParts_finite .positive hm hstd)
  rw [← hread, ofFloat_tenThousandth] at hbinary
  obtain ⟨-, hmantissa, hexponent⟩ := Binary.finite.inj hbinary
  exact ⟨hmantissa.symm, hexponent.symm⟩

/-- The shortest decimal reaches 0.0001 just if the number does. -/
theorem le_value_shortest_iff (hm : 0 < m) (hstd : IsStandard m q) :
    (10 : ℚ) ^ (-4 : ℤ) ≤ (shortest m q).value ↔ (10 : ℚ) ^ (-4 : ℤ) ≤ m * 2 ^ q := by
  have hin := inInterval_shortest (q := q) hm hstd.mantissa_lt
  have hself := inInterval_self m q
  by_cases h : InInterval m q (10 ^ (-4 : ℤ))
  · obtain ⟨rfl, rfl⟩ := eq_of_inInterval_tenThousandth hm hstd h
    have hshortest : shortest 7378697629483821 (-66) = ⟨1, -4⟩ := by decide +kernel
    rw [hshortest]
    exact iff_of_true (by norm_num [Decimal.value]) (by norm_num)
  · -- 0.0001 is not between the number and the decimal
    constructor
    · intro hle
      by_contra hlt
      exact h (hself.between hin (not_le.mp hlt).le hle)
    · intro hle
      by_contra hlt
      exact h (hin.between hself (not_le.mp hlt).le hle)

/-- What is no whole number has an exponent below zero, so it is below 2 ^ 52. -/
theorem InInterval.lt_of_fraction (hlt : m < 2 ^ 53) (hfraction : Binary.isWhole m q = false)
    (h : InInterval m q x) : x < 10 ^ (16 : ℤ) := by
  have hneg : q ≤ -1 := by
    by_contra hq
    have hone : power 2 (-q) = 1 := by
      rw [power, Int.toNat_of_nonpos (by omega), Nat.pow_eq, pow_zero]
    rw [Binary.isWhole, hone, Nat.mod_one] at hfraction
    cases hfraction
  have hpow : (2 : ℚ) ^ q ≤ 2 ^ (-1 : ℤ) := zpow_le_zpow_right₀ one_le_two hneg
  have hm : (m : ℚ) + 1 ≤ 2 ^ 53 := by exact_mod_cast hlt
  calc x ≤ (m + 1 / 2) * 2 ^ q := h.high
    _ ≤ 2 ^ 53 * 2 ^ (-1 : ℤ) :=
      mul_le_mul (by linarith) hpow (two_zpow_pos q).le (by norm_num)
    _ < 10 ^ (16 : ℤ) := by norm_num

/-- Two different fractions are at least a unit of the common denominator apart. -/
theorem div_le_sub_of_lt {n d b : ℕ} (hd : 0 < d) (hb : 0 < b) (h : (n : ℚ) / d < 1 / b) :
    (n : ℚ) / d ≤ 1 / b - 1 / (b * d) := by
  have hd' : (0 : ℚ) < d := by exact_mod_cast hd
  have hb' : (0 : ℚ) < b := by exact_mod_cast hb
  rw [div_lt_div_iff₀ hd' hb', one_mul] at h
  have hnat : n * b + 1 ≤ d := by exact_mod_cast h
  have hcast : (n : ℚ) * b + 1 ≤ d := by exact_mod_cast hnat
  have hsum : (n : ℚ) / d + 1 / (b * d) = (n * b + 1) / (b * d) := by field_simp
  rw [le_sub_iff_add_le, hsum, div_le_div_iff₀ (by positivity) hb', one_mul, mul_comm (b : ℚ)]
  exact mul_le_mul_of_nonneg_right hcast hb'.le

/-- The least positive number is one over a natural number, which is not too large. -/
theorem exists_leastNumber :
    ∃ d : ℕ, (2 : ℚ) ^ (-1074 : ℤ) = (d : ℚ)⁻¹ ∧ (d : ℚ) ≤ 10 ^ (537 : ℤ) := by
  refine ⟨2 ^ 1074, ?_, ?_⟩
  · rw [Nat.cast_pow, ← zpow_natCast, ← zpow_neg]
    rfl
  · calc ((2 ^ 1074 : ℕ) : ℚ) = 2 ^ (2 * 537) := Nat.cast_pow 2 1074
      _ = (2 ^ 2) ^ 537 := pow_mul 2 2 537
      _ ≤ 10 ^ 537 := pow_le_pow_left₀ (by norm_num) (by norm_num) 537
      _ = 10 ^ (537 : ℤ) := (zpow_natCast 10 537).symm

/-- No number is below 0.0001 by a unit of the 804th place or less. -/
theorem lt_tenThousandth_sub (hstd : IsStandard m q) (h : (m : ℚ) * 2 ^ q < 10 ^ (-4 : ℤ)) :
    (m : ℚ) * 2 ^ q < 10 ^ (-4 : ℤ) - 10 ^ (-804 : ℤ) := by
  obtain ⟨d, hleast, hsmall⟩ := exists_leastNumber
  have hpos' : (0 : ℚ) < d := inv_pos.mp (hleast ▸ two_zpow_pos (-1074))
  have hpos : 0 < d := by exact_mod_cast hpos'
  rw [mul_two_zpow_of_le m hstd.exponent_ge, hleast, ← div_eq_mul_inv] at h ⊢
  generalize m * 2 ^ (q - -1074).toNat = n at h ⊢
  have hfourth : (1 : ℚ) / (10 ^ 4 : ℕ) = 10 ^ (-4 : ℤ) := by norm_num
  have hgap := div_le_sub_of_lt (b := 10 ^ 4) hpos (by omega) (h.trans_eq hfourth.symm)
  have hunit : (10 : ℚ) ^ (-804 : ℤ) < 1 / ((10 ^ 4 : ℕ) * d) :=
    calc (10 : ℚ) ^ (-804 : ℤ) < 10 ^ (-541 : ℤ) := zpow_lt_zpow_right₀ (by norm_num) (by omega)
      _ = 10 ^ (-4 : ℤ) / 10 ^ (537 : ℤ) := by
        rw [← zpow_sub₀ (by norm_num)]
        rfl
      _ = 1 / ((10 ^ 4 : ℕ) * 10 ^ (537 : ℤ)) := by rw [← hfourth, div_div]
      _ ≤ 1 / ((10 ^ 4 : ℕ) * d) :=
        one_div_le_one_div_of_le (by positivity)
          (mul_le_mul_of_nonneg_left hsmall (Nat.cast_nonneg _))
  rw [hfourth] at hgap
  linarith

theorem le_leading_shortest_iff (hm : 0 < m) (hstd : IsStandard m q) :
    -4 ≤ (shortest m q).leading ↔ (10 : ℚ) ^ (-4 : ℤ) ≤ m * 2 ^ q := by
  rw [Decimal.le_leading_iff (digits_shortest_pos hm hstd.mantissa_lt),
    le_value_shortest_iff hm hstd]

theorem leading_shortest_lt (hm : 0 < m) (hlt : m < 2 ^ 53)
    (hfraction : Binary.isWhole m q = false) : (shortest m q).leading < 16 := by
  rw [Decimal.leading_lt_iff (digits_shortest_pos hm hlt)]
  exact (inInterval_shortest hm hlt).lt_of_fraction hlt hfraction

variable {count : ℕ}

theorem min_mostSignificantDigits_cases (hcount : 0 < count) :
    (count ≤ 800 ∧ min count mostSignificantDigits = count) ∨
      (800 < count ∧ min count mostSignificantDigits = 800) := by
  have hmost : mostSignificantDigits = 800 := rfl
  omega

theorem digits_significant_pos (hm : 0 < m) (hcount : 0 < count) :
    0 < (significant m q count).digits := by
  have hc : 0 < min count mostSignificantDigits := by
    rcases min_mostSignificantDigits_cases hcount with ⟨-, hc⟩ | ⟨-, hc⟩ <;> omega
  exact (significant_bounds hm rfl hc rfl).1

/-- A rounded number reaches 0.0001 from half a unit of its last place below it on. -/
theorem le_leading_significant_iff (hm : 0 < m) (hstd : IsStandard m q) (hcount : 0 < count) :
    -4 ≤ (significant m q count).leading ↔
      (10 : ℚ) ^ (-4 : ℤ) - 10 ^ (-4 - (count : ℤ)) / 2 ≤ m * 2 ^ q := by
  rw [Decimal.le_leading_iff (digits_significant_pos hm hcount)]
  rcases min_mostSignificantDigits_cases hcount with ⟨-, hc⟩ | ⟨hmany, hc⟩
  · exact le_value_significant_iff hm hc hcount (-4)
  · rw [le_value_significant_iff hm hc (by omega) (-4)]
    -- so many digits round no number up to 0.0001
    have hplace : (10 : ℚ) ^ (-4 - (count : ℤ)) ≤ 10 ^ (-4 - ((800 : ℕ) : ℤ)) :=
      ten_zpow_le (by omega)
    have hpos := ten_zpow_pos (-4 - (count : ℤ))
    have hgap : (m : ℚ) * 2 ^ q < 10 ^ (-4 : ℤ) →
        (m : ℚ) * 2 ^ q < 10 ^ (-4 : ℤ) - 10 ^ (-4 - ((800 : ℕ) : ℤ)) := lt_tenThousandth_sub hstd
    generalize (10 : ℚ) ^ (-4 - (count : ℤ)) = t at hplace hpos ⊢
    generalize (10 : ℚ) ^ (-4 - ((800 : ℕ) : ℤ)) = u at hplace hgap ⊢
    generalize (10 : ℚ) ^ (-4 : ℤ) = w at hgap ⊢
    by_cases hlt : (m : ℚ) * 2 ^ q < w
    · have hbelow := hgap hlt
      exact iff_of_false (by linarith) (by linarith)
    · exact iff_of_true (by linarith) (by linarith)

/-- A rounded number stays below a power of ten up to half a unit below it. -/
theorem leading_significant_lt_iff (hm : 0 < m) (hlt : m < 2 ^ 53)
    (hfraction : Binary.isWhole m q = false) (hcount : 0 < count) :
    (significant m q count).leading < count ↔ (m : ℚ) * 2 ^ q < 10 ^ (count : ℤ) - 1 / 2 := by
  rw [Decimal.leading_lt_iff (digits_significant_pos hm hcount), ← not_le, ← not_le, not_iff_not]
  rcases min_mostSignificantDigits_cases hcount with ⟨-, hc⟩ | ⟨hmany, hc⟩
  · rw [le_value_significant_iff hm hc hcount, sub_self, zpow_zero]
  · rw [le_value_significant_iff hm hc (by omega)]
    have hbound := (inInterval_self m q).lt_of_fraction hlt hfraction
    have hpower : (10 : ℚ) ^ (16 : ℤ) ≤ 10 ^ ((count : ℤ) - 1) := ten_zpow_le (by omega)
    have hplace : (10 : ℚ) ^ ((count : ℤ) - (800 : ℕ)) ≤ 10 ^ ((count : ℤ) - 1) :=
      ten_zpow_le (by omega)
    have hten : (10 : ℚ) ^ (count : ℤ) = 10 * 10 ^ ((count : ℤ) - 1) := by
      rw [← zpow_one_add₀ (by norm_num)]
      congr 1
      ring
    have hone : (1 : ℚ) ≤ 10 ^ (16 : ℤ) := by norm_num
    rw [hten]
    generalize (10 : ℚ) ^ ((count : ℤ) - (800 : ℕ)) = t at hplace ⊢
    exact iff_of_false (by linarith) (by linarith)

end Thresholds

end PartialFractions.Number
