import Mathlib
import PartialFractions.Number.Significant

/-!
The size of decimals: what the count of digits, the position of the leading digit and the scale of a
fraction say of a value, as bounds by powers of ten.
-/
namespace PartialFractions.Number

section Powers

variable {b : ℕ}

theorem power_pos (hb : 0 < b) (e : ℤ) : 0 < power b e := Nat.pow_pos hb

/-- Of the two natural powers for an exponent one is the numerator, the other the denominator. -/
theorem cast_power (hb : 0 < b) (e : ℤ) : (power b e : ℚ) = (b : ℚ) ^ e * power b (-e) := by
  have hne : (b : ℚ) ≠ 0 := by exact_mod_cast hb.ne'
  change ((b ^ e.toNat : ℕ) : ℚ) = (b : ℚ) ^ e * ((b ^ (-e).toNat : ℕ) : ℚ)
  rw [Nat.cast_pow, Nat.cast_pow, ← zpow_natCast, ← zpow_natCast, ← zpow_add₀ hne]
  congr 1
  omega

theorem ten_zpow_pos (e : ℤ) : (0 : ℚ) < 10 ^ e := zpow_pos (by norm_num) e

theorem ten_zpow_add (e : ℤ) (k : ℕ) : (10 : ℚ) ^ (e + k) = 10 ^ k * 10 ^ e := by
  rw [zpow_add₀ (by norm_num), zpow_natCast, mul_comm]

theorem ten_zpow_le {e d : ℤ} (h : e ≤ d) : (10 : ℚ) ^ e ≤ 10 ^ d :=
  zpow_le_zpow_right₀ (by norm_num) h

theorem lt_of_ten_zpow_lt {e d : ℤ} (h : (10 : ℚ) ^ e < 10 ^ d) : e < d :=
  (zpow_lt_zpow_iff_right₀ (by norm_num)).mp h

end Powers

section Digits

variable {n k : ℕ}

theorem digitCount_pos (n : ℕ) : 0 < digitCount n := Nat.length_toDigits_pos

theorem digitCount_le_iff (hk : 0 < k) : digitCount n ≤ k ↔ n < 10 ^ k :=
  Nat.length_toDigits_le_iff (by omega) hk

theorem lt_pow_digitCount (n : ℕ) : n < 10 ^ digitCount n :=
  (digitCount_le_iff (digitCount_pos n)).mp le_rfl

theorem pow_le_of_digitCount (hn : 0 < n) : 10 ^ (digitCount n - 1) ≤ n := by
  by_cases hone : digitCount n = 1
  · rw [hone]
    exact hn
  · by_contra hlt
    have hpos := digitCount_pos n
    have hle := (digitCount_le_iff (by omega)).mpr (not_le.mp hlt)
    omega

theorem digitCount_mono {m : ℕ} (h : m ≤ n) : digitCount m ≤ digitCount n :=
  (digitCount_le_iff (digitCount_pos n)).mpr (h.trans_lt (lt_pow_digitCount n))

end Digits

section Scales

variable {num den m : ℕ} {q : ℤ}

/-- The quotient lies between two neighbouring powers of ten. -/
theorem decimalScale_bounds (hnum : 0 < num) (hden : 0 < den) :
    (10 : ℚ) ^ (decimalScale num den - 1) ≤ num / den ∧
      (num : ℚ) / den < 10 ^ decimalScale num den := by
  have hnum' : (0 : ℚ) < num := by exact_mod_cast hnum
  have hden' : (0 : ℚ) < den := by exact_mod_cast hden
  unfold decimalScale
  by_cases hle : den ≤ num
  · have hfloor : 0 < num / den := Nat.div_pos hle hden
    have hcount := digitCount_pos (num / den)
    have hlow : 10 ^ (digitCount (num / den) - 1) * den ≤ num :=
      (Nat.le_div_iff_mul_le hden).mp (pow_le_of_digitCount hfloor)
    have hhigh : num < 10 ^ digitCount (num / den) * den :=
      (Nat.div_lt_iff_lt_mul hden).mp (lt_pow_digitCount _)
    have hexp : ((digitCount (num / den) : ℕ) : ℤ) - 1 = (digitCount (num / den) - 1 : ℕ) := by
      omega
    rw [if_pos hle, hexp, zpow_natCast, zpow_natCast, le_div_iff₀ hden', div_lt_iff₀ hden']
    exact ⟨by exact_mod_cast hlow, by exact_mod_cast hhigh⟩
  · -- below one the reciprocal is between two powers
    have hrest : 0 < (den - 1) / num := Nat.div_pos (by omega) hnum
    have hcount := digitCount_pos ((den - 1) / num)
    have hlow : 10 ^ (digitCount ((den - 1) / num) - 1) * num ≤ den - 1 :=
      (Nat.le_div_iff_mul_le hnum).mp (pow_le_of_digitCount hrest)
    have hhigh : den - 1 < 10 ^ digitCount ((den - 1) / num) * num :=
      (Nat.div_lt_iff_lt_mul hnum).mp (lt_pow_digitCount _)
    have hexp : 1 - ((digitCount ((den - 1) / num) : ℕ) : ℤ) =
        -((digitCount ((den - 1) / num) - 1 : ℕ) : ℤ) := by
      omega
    have hexp' : -((digitCount ((den - 1) / num) - 1 : ℕ) : ℤ) - 1 =
        -((digitCount ((den - 1) / num) : ℕ) : ℤ) := by
      omega
    have hpow : ∀ j : ℕ, (0 : ℚ) < 10 ^ j := fun j => pow_pos (by norm_num) j
    rw [if_neg hle, hexp, hexp', zpow_neg, zpow_neg, zpow_natCast, zpow_natCast,
      le_div_iff₀ hden', div_lt_iff₀ hden']
    constructor
    · have hcast : (den : ℚ) ≤ 10 ^ digitCount ((den - 1) / num) * num := by
        exact_mod_cast (by omega : den ≤ 10 ^ digitCount ((den - 1) / num) * num)
      rw [inv_mul_le_iff₀ (hpow _)]
      exact hcast
    · have hcast : (10 : ℚ) ^ (digitCount ((den - 1) / num) - 1) * num < den := by
        exact_mod_cast (by omega : 10 ^ (digitCount ((den - 1) / num) - 1) * num < den)
      rw [lt_inv_mul_iff₀ (hpow _)]
      exact hcast

/-- The number as a fraction of natural numbers. -/
theorem cast_div_power (m : ℕ) (q : ℤ) :
    ((m * power 2 q : ℕ) : ℚ) / (power 2 (-q) : ℕ) = m * 2 ^ q := by
  have hpos : (0 : ℚ) < power 2 (-q) := by exact_mod_cast power_pos two_pos (-q)
  rw [div_eq_iff hpos.ne', Nat.cast_mul, cast_power two_pos q, Nat.cast_two, mul_assoc]

theorem binaryScale_bounds (hm : 0 < m) :
    (10 : ℚ) ^ (binaryScale m q - 1) ≤ m * 2 ^ q ∧ (m : ℚ) * 2 ^ q < 10 ^ binaryScale m q := by
  have hbounds :=
    decimalScale_bounds (Nat.mul_pos hm (power_pos two_pos q)) (power_pos two_pos (-q))
  rw [cast_div_power] at hbounds
  exact hbounds

/-- Counted in units of a power of ten the number has a given count of digits before the point. -/
theorem binaryScale_counts (hm : 0 < m) {count : ℕ} (hcount : 0 < count) {e : ℤ}
    (he : binaryScale m q - count = e) :
    (10 : ℚ) ^ (count - 1) * 10 ^ e ≤ m * 2 ^ q ∧ (m : ℚ) * 2 ^ q < 10 ^ count * 10 ^ e := by
  obtain ⟨hlow, hhigh⟩ := binaryScale_bounds (q := q) hm
  rw [← ten_zpow_add, ← ten_zpow_add]
  have hexp : e + (count - 1 : ℕ) = binaryScale m q - 1 := by omega
  have hexp' : e + count = binaryScale m q := by omega
  rw [hexp, hexp']
  exact ⟨hlow, hhigh⟩

/-- A value that has a count of digits before the point has it for its whole part. -/
theorem floor_counts {n count : ℕ} {e : ℤ} {x : ℚ} (hfloor : n * 10 ^ e ≤ x)
    (hceil : x < (n + 1 : ℕ) * 10 ^ e) (hlow : 10 ^ (count - 1) * 10 ^ e ≤ x)
    (hhigh : x < 10 ^ count * 10 ^ e) : 10 ^ (count - 1) ≤ n ∧ n < 10 ^ count := by
  have hpos := ten_zpow_pos e
  have hlt : 10 ^ (count - 1) < n + 1 := by
    exact_mod_cast lt_of_mul_lt_mul_right (hlow.trans_lt hceil) hpos.le
  have hlt' : n < 10 ^ count := by
    exact_mod_cast lt_of_mul_lt_mul_right (hfloor.trans_lt hhigh) hpos.le
  exact ⟨by omega, hlt'⟩

theorem roundEven_cases (num den : ℕ) :
    roundEven num den = num / den ∨ roundEven num den = num / den + 1 := by
  unfold roundEven
  dsimp only
  split
  · exact Or.inl rfl
  · exact Or.inr rfl
  · omega

end Scales

namespace Decimal

variable {d : Decimal} {n : ℕ} {k : ℤ}

def value (d : Decimal) : ℚ := d.digits * 10 ^ d.exponent

/-- The leading digit tells between which powers of ten the value is. -/
theorem leading_bounds (h : 0 < d.digits) :
    (10 : ℚ) ^ d.leading ≤ d.value ∧ d.value < 10 ^ (d.leading + 1) := by
  have hcount := digitCount_pos d.digits
  have hpos := ten_zpow_pos d.exponent
  have hlow : (10 : ℚ) ^ (digitCount d.digits - 1) ≤ d.digits := by
    exact_mod_cast pow_le_of_digitCount h
  have hhigh : (d.digits : ℚ) < 10 ^ digitCount d.digits := by
    exact_mod_cast lt_pow_digitCount d.digits
  have hexp : d.leading = d.exponent + (digitCount d.digits - 1 : ℕ) := by
    unfold leading
    omega
  have hexp' : d.leading + 1 = d.exponent + (digitCount d.digits : ℕ) := by
    unfold leading
    omega
  rw [hexp', hexp, ten_zpow_add, ten_zpow_add]
  exact ⟨mul_le_mul_of_nonneg_right hlow hpos.le, mul_lt_mul_of_pos_right hhigh hpos⟩

/-- The leading digit is at a given position or above it from the power of ten on. -/
theorem le_leading_iff (h : 0 < d.digits) : k ≤ d.leading ↔ (10 : ℚ) ^ k ≤ d.value := by
  obtain ⟨hlow, hhigh⟩ := leading_bounds h
  constructor
  · intro hk
    exact (ten_zpow_le hk).trans hlow
  · intro hk
    have hlt := lt_of_ten_zpow_lt (hk.trans_lt hhigh)
    omega

theorem leading_lt_iff (h : 0 < d.digits) : d.leading < k ↔ d.value < (10 : ℚ) ^ k := by
  rw [← not_le, ← not_le, le_leading_iff h]

end Decimal

section Zeros

variable {d : Decimal} {n : ℕ} {k : ℤ}

/-- Taking zeros off the end moves them into the exponent. -/
theorem value_dropZeros (fuel digits : ℕ) (exponent : ℤ) :
    (dropZeros fuel digits exponent).value = digits * 10 ^ exponent := by
  induction fuel generalizing digits exponent with
  | zero => rfl
  | succ fuel ih =>
    unfold dropZeros
    split
    · rename_i hzero
      have hsplit : (digits : ℚ) = (digits / 10 : ℕ) * 10 := by
        exact_mod_cast (by omega : digits = digits / 10 * 10)
      rw [ih, hsplit, zpow_add_one₀ (by norm_num)]
      ring
    · rfl

/-- Each step takes a digit away, so with as much fuel as digits no zero is left at the end. -/
theorem digits_dropZeros (fuel digits : ℕ) (exponent : ℤ) (hpos : 0 < digits)
    (hfuel : digits < 10 ^ fuel) :
    (dropZeros fuel digits exponent).digits % 10 ≠ 0 := by
  induction fuel generalizing digits exponent with
  | zero => omega
  | succ fuel ih =>
    unfold dropZeros
    split
    · rename_i hzero
      refine ih (digits / 10) (exponent + 1) (by omega) ?_
      rw [pow_succ] at hfuel
      omega
    · rename_i hzero
      change digits % 10 ≠ 0
      omega

namespace Decimal

theorem value_strip (d : Decimal) : d.strip.value = d.value := value_dropZeros _ _ _

theorem digits_strip (h : 0 < d.digits) : d.strip.digits % 10 ≠ 0 :=
  digits_dropZeros _ _ _ h (lt_pow_digitCount _)

/-- Without zeros at the end a value has the fewest digits. -/
theorem digitCount_strip_le (h : 0 < d.digits) (hvalue : d.value = n * 10 ^ k) :
    digitCount d.strip.digits ≤ digitCount n := by
  have hlast := digits_strip h
  have hsame : (d.strip.digits : ℚ) * 10 ^ d.strip.exponent = n * 10 ^ k :=
    (value_strip d).trans hvalue
  apply digitCount_mono
  by_cases hle : k ≤ d.strip.exponent
  · have hexp : d.strip.exponent = k + (d.strip.exponent - k).toNat := by omega
    rw [hexp, ten_zpow_add, ← mul_assoc] at hsame
    have hnat : d.strip.digits * 10 ^ (d.strip.exponent - k).toNat = n := by
      exact_mod_cast mul_right_cancel₀ (ten_zpow_pos k).ne' hsame
    rw [← hnat]
    exact Nat.le_mul_of_pos_right _ (Nat.pow_pos (by omega))
  · have hexp : k = d.strip.exponent + ((k - d.strip.exponent).toNat - 1 + 1 : ℕ) := by omega
    rw [hexp, ten_zpow_add, ← mul_assoc] at hsame
    have hnat : d.strip.digits = n * 10 ^ ((k - d.strip.exponent).toNat - 1 + 1) := by
      exact_mod_cast mul_right_cancel₀ (ten_zpow_pos d.strip.exponent).ne' hsame
    rw [pow_succ, ← mul_assoc] at hnat
    omega

end Decimal

end Zeros

end PartialFractions.Number
