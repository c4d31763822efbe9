import PartialFractions.Proofs.NearestNumbers

/-!
Decimals are read as the nearest numbers: a rational in the interval of a number is rounded to this
number by a product and by a quotient, and so by the reading of digits and an exponent.
-/
namespace PartialFractions.Number

open Float.Model
open Float.Model.UnpackedFloat (Sign Accuracy ExtendedMantissa accuracyOfFraction)

section Bits

/-- What a mantissa with its two extra bits says of a rational: it is the mantissa, or behind it by
less than a half, by a half or by more than a half. -/
def Describes (a : ExtendedMantissa) (y : ℚ) : Prop :=
  match a.roundBit, a.stickyBit with
  | false, false => y = a.mantissa
  | false, true => a.mantissa < y ∧ y < a.mantissa + 1 / 2
  | true, false => y = a.mantissa + 1 / 2
  | true, true => a.mantissa + 1 / 2 < y ∧ y < a.mantissa + 1

variable {a : ExtendedMantissa} {y : ℚ} {m : ℕ}

theorem describes_exact (m : ℕ) : Describes (.ofMantissaAndAccuracy m .exact) m := rfl

/-- The remainder of a division says how far the quotient is behind its whole part. -/
theorem describes_quotient (n : ℕ) {d : ℕ} (hd : 0 < d) :
    Describes (.ofMantissaAndAccuracy (n / d) (accuracyOfFraction (n % d) d)) (n / d) := by
  have hpos : (0 : ℚ) < d := by exact_mod_cast hd
  have hsplit : (n : ℚ) / d = (n / d : ℕ) + (n % d : ℕ) / d := by
    have hdiv : ((d * (n / d) + n % d : ℕ) : ℚ) = n := by rw [Nat.div_add_mod]
    rw [← hdiv]
    push_cast
    field_simp
  have hlt : ((n % d : ℕ) : ℚ) / d < 1 := by
    rw [div_lt_one hpos]
    exact_mod_cast Nat.mod_lt n hd
  rw [hsplit]
  generalize n / d = w
  generalize n % d = r at hlt
  by_cases hr : r = 0
  · subst hr
    simp [accuracyOfFraction, ExtendedMantissa.ofMantissaAndAccuracy, Describes]
  · have hrpos : (0 : ℚ) < r / d := by
      have hr' : (0 : ℚ) < r := by exact_mod_cast Nat.pos_of_ne_zero hr
      exact div_pos hr' hpos
    unfold accuracyOfFraction
    rw [if_neg hr]
    rcases lt_trichotomy (2 * r) d with h | h | h
    · have hhalf : (r : ℚ) / d < 1 / 2 := by
        have h' : (2 : ℚ) * r < d := by exact_mod_cast h
        rw [div_lt_iff₀ hpos]
        linarith
      rw [Nat.compare_eq_lt.mpr h]
      change (w : ℚ) < w + r / d ∧ (w : ℚ) + r / d < w + 1 / 2
      exact ⟨by linarith, by linarith⟩
    · have hhalf : (r : ℚ) / d = 1 / 2 := by
        have h' : (2 : ℚ) * r = d := by exact_mod_cast h
        rw [div_eq_iff hpos.ne']
        linarith
      rw [Nat.compare_eq_eq.mpr h, hhalf]
      rfl
    · have hhalf : 1 / 2 < (r : ℚ) / d := by
        have h' : (d : ℚ) < 2 * r := by exact_mod_cast h
        rw [lt_div_iff₀ hpos]
        linarith
      rw [Nat.compare_eq_gt.mpr h]
      change (w : ℚ) + 1 / 2 < w + r / d ∧ (w : ℚ) + r / d < w + 1
      exact ⟨by linarith, by linarith⟩

theorem Describes.bounds (h : Describes a y) : a.mantissa ≤ y ∧ y < a.mantissa + 1 := by
  obtain ⟨m, r, s⟩ := a
  cases r <;> cases s <;> simp only [Describes] at h ⊢ <;> constructor <;> linarith

/-- A shift by one bit halves; the lost bit is kept as the round bit. -/
theorem Describes.shiftRightOne (h : Describes a y) : Describes a.shiftRightOne (y / 2) := by
  obtain ⟨m, r, s⟩ := a
  have hsplit : (m : ℚ) = 2 * (m / 2 : ℕ) + (m % 2 : ℕ) := by
    exact_mod_cast (Nat.div_add_mod m 2).symm
  rcases Nat.mod_two_eq_zero_or_one m with hbit | hbit
  · rw [hbit, Nat.cast_zero] at hsplit
    cases r <;> cases s <;> simp [Describes, ExtendedMantissa.shiftRightOne, hbit] at h ⊢ <;>
      first
        | linarith
        | exact ⟨by linarith, by linarith⟩
  · rw [hbit, Nat.cast_one] at hsplit
    cases r <;> cases s <;> simp [Describes, ExtendedMantissa.shiftRightOne, hbit] at h ⊢ <;>
      first
        | linarith
        | exact ⟨by linarith, by linarith⟩

theorem Describes.shiftRight (h : Describes a y) (k : ℕ) : Describes (a >>> k) (y / 2 ^ k) := by
  change Describes (Nat.repeat ExtendedMantissa.shiftRightOne k a) _
  induction k with
  | zero => simpa [Nat.repeat] using h
  | succ k ih =>
    rw [Nat.repeat, pow_succ, ← div_div]
    exact ih.shiftRightOne

/-- The rounded mantissa is the nearest natural number, the even one in the middle between two. -/
theorem Describes.roundedMantissa_eq (h : Describes a y) (hlow : m - 1 / 2 ≤ y)
    (hhigh : y ≤ m + 1 / 2) (hodd : m % 2 = 1 → m - 1 / 2 < y ∧ y < m + 1 / 2) :
    a.roundedMantissa = m := by
  obtain ⟨n, r, s⟩ := a
  have hbounds : (n : ℚ) ≤ y ∧ y < n + 1 := h.bounds
  -- the mantissa is the natural number or the one below it
  have hle : n ≤ m := by
    have hlt : (n : ℚ) < m + 1 := by linarith
    have hnat : n < m + 1 := by exact_mod_cast hlt
    omega
  have hge : m ≤ n + 1 := by
    have hlt : (m : ℚ) < n + 2 := by linarith
    have hnat : m < n + 2 := by exact_mod_cast hlt
    omega
  obtain rfl | rfl : m = n ∨ m = n + 1 := by omega
  · cases r <;> cases s <;> simp only [Describes] at h
    · rfl
    · rfl
    · have heven : m % 2 = 0 := by
        by_contra hne
        have hlt := (hodd (by omega)).2
        linarith
      change m + m % 2 = m
      omega
    · linarith
  · push_cast at hlow hhigh hodd
    cases r <;> cases s <;> simp only [Describes] at h
    · linarith
    · linarith
    · have hodd' : n % 2 = 1 := by
        by_contra hne
        have hlt := (hodd (by omega)).1
        linarith
      change n + n % 2 = n + 1
      omega
    · rfl

end Bits

section Rounded

variable {x : ℚ} {m : ℕ} {e t : ℤ}

theorem two_zpow_add (e : ℤ) (k : ℕ) : (2 : ℚ) ^ (e + k) = 2 ^ k * 2 ^ e := by
  rw [zpow_add₀ two_ne_zero, zpow_natCast, mul_comm]

/-- The exponent of a number is the one that its rationals are shifted to, but for those that are
rounded up to a power of two. -/
theorem exponent_cases (hstd : IsStandard m e) (hx : InInterval m e x) (ht : -1074 ≤ t)
    (hlow : t = -1074 ∨ 2 ^ (t + 52) ≤ x) (hhigh : x < 2 ^ (t + 53)) :
    e = t ∨ (m = 2 ^ 52 ∧ e = t + 1) := by
  have hpos := two_zpow_pos e
  have hle := hstd.exponent_ge
  rcases lt_trichotomy e t with hlt | heq | hgt
  · have hbit : (2 : ℚ) ^ (t + 52) ≤ x := hlow.resolve_left (by omega)
    have hm : (m : ℚ) + 1 ≤ 2 ^ 53 := by exact_mod_cast hstd.mantissa_lt
    have hpow : (2 : ℚ) ^ (e + (53 : ℕ)) ≤ 2 ^ (t + 52) :=
      zpow_le_zpow_right₀ one_le_two (by omega)
    rw [two_zpow_add] at hpow
    have hupper : (m + 1 / 2 : ℚ) * 2 ^ e < 2 ^ 53 * 2 ^ e :=
      mul_lt_mul_of_pos_right (by linarith) hpos
    have hhigh' := hx.high
    linarith
  · exact Or.inl heq
  · right
    have hbit : 2 ^ 52 ≤ m := hstd.normal.resolve_right (by omega)
    have hbit' : (2 : ℚ) ^ 52 ≤ m := by exact_mod_cast hbit
    have hhalf := halfBelow_le m e
    have hbelow := hx.low.trans_lt hhigh
    by_cases hnext : e = t + 1
    · refine ⟨?_, hnext⟩
      have hpow : (2 : ℚ) ^ (t + 53) = 2 ^ 52 * 2 ^ e := by
        rw [← two_zpow_add, hnext]
        congr 1
        ring
      rw [hpow] at hbelow
      have hlt := lt_of_mul_lt_mul_right hbelow hpos.le
      have hm : (m : ℚ) < 2 ^ 52 + 1 := by linarith
      have hm' : m < 2 ^ 52 + 1 := by exact_mod_cast hm
      omega
    · have hpow : (2 : ℚ) ^ (t + 53) ≤ 2 ^ (e + (51 : ℕ)) :=
        zpow_le_zpow_right₀ one_le_two (by push_cast; omega)
      rw [two_zpow_add] at hpow
      have hlt := lt_of_mul_lt_mul_right (hbelow.trans_le hpow) hpos.le
      have hpow' : (2 : ℚ) ^ 52 = 2 * 2 ^ 51 := pow_succ' 2 51
      have hone : (1 : ℚ) ≤ 2 ^ 51 := one_le_pow₀ one_le_two
      linarith

/-- Shifted to its exponent a rational has at most 53 bits before the point, and 53 of them unless
the exponent is the least one. -/
theorem target_bounds {M : ℕ} {E : ℤ} {a : Accuracy}
    (hx : Describes (.ofMantissaAndAccuracy M a) (x / 2 ^ E))
    (hE : E ≤ Format.binary64.targetExponent (totalExponent M E)) :
    (Format.binary64.targetExponent (totalExponent M E) = -1074 ∨
      2 ^ (Format.binary64.targetExponent (totalExponent M E) + 52) ≤ x) ∧
    x < 2 ^ (Format.binary64.targetExponent (totalExponent M E) + 53) := by
  obtain ⟨hlow, hhigh⟩ := hx.bounds
  rw [mantissa_ofMantissaAndAccuracy] at hlow hhigh
  have hpos := two_zpow_pos E
  rw [le_div_iff₀ hpos] at hlow
  rw [div_lt_iff₀ hpos] at hhigh
  rw [binary64_targetExponent, totalExponent] at hE ⊢
  constructor
  · by_cases hleast : max ((M.log2 : ℤ) + 1 + E - 53) (-1074) = -1074
    · exact Or.inl hleast
    · right
      have hM : M ≠ 0 := by
        rintro rfl
        rw [Nat.log2_zero] at hE hleast
        omega
      have hexp : max ((M.log2 : ℤ) + 1 + E - 53) (-1074) + 52 = E + M.log2 := by omega
      have hbits : ((2 ^ M.log2 : ℕ) : ℚ) ≤ M := by exact_mod_cast Nat.log2_self_le hM
      push_cast at hbits
      rw [hexp, two_zpow_add]
      exact (mul_le_mul_of_nonneg_right hbits hpos.le).trans hlow
  · have hexp : E + ((M.log2 + 1 : ℕ) : ℤ) ≤ max ((M.log2 : ℤ) + 1 + E - 53) (-1074) + 53 := by
      push_cast
      omega
    have hbits : ((M + 1 : ℕ) : ℚ) ≤ (2 ^ (M.log2 + 1) : ℕ) := by exact_mod_cast Nat.lt_log2_self
    push_cast at hbits
    calc x < (M + 1) * 2 ^ E := hhigh
      _ ≤ 2 ^ (M.log2 + 1) * 2 ^ E := mul_le_mul_of_nonneg_right hbits hpos.le
      _ = 2 ^ (E + ((M.log2 + 1 : ℕ) : ℤ)) := (two_zpow_add _ _).symm
      _ ≤ 2 ^ (max ((M.log2 : ℤ) + 1 + E - 53) (-1074) + 53) :=
        zpow_le_zpow_right₀ one_le_two hexp

/-- Rounding shifts twice: to the exponent, and once more if the mantissa is rounded up to a power
of two. -/
theorem roundWithAccuracy_eq_finite (s : Sign) {M : ℕ} {E : ℤ} {a : Accuracy}
    {first second : ExtendedMantissa} {r : ℕ} (hm : 0 < m)
    (hfirst : UnpackedFloat.shiftToTargetExponent .binary64 M E a = (first, t))
    (hrounded : first.roundedMantissa = r)
    (hsecond : UnpackedFloat.shiftToTargetExponent .binary64 r t .exact = (second, e))
    (hmantissa : second.mantissa = m) :
    UnpackedFloat.roundWithAccuracy .binary64 s M E a = .finite s m e hm := by
  subst hrounded hmantissa
  simp only [UnpackedFloat.roundWithAccuracy, hfirst, hsecond]
  rw [dif_neg hm.ne']

theorem shiftToTargetExponent_eq {M : ℕ} {E : ℤ} {a : Accuracy}
    (ht : Format.binary64.targetExponent (totalExponent M E) = t) (hE : E ≤ t) :
    UnpackedFloat.shiftToTargetExponent .binary64 M E a =
      (ExtendedMantissa.ofMantissaAndAccuracy M a >>> (t - E).toNat, t) := by
  have hexp : E + ((t - E).toNat : ℤ) = t := by omega
  simp only [UnpackedFloat.shiftToTargetExponent, UnpackedFloat.shiftToExponent, ht, hexp]

theorem Describes.shiftRight_to {f : ExtendedMantissa} {E : ℤ} (h : Describes f (x / 2 ^ E))
    (hE : E ≤ t) : Describes (f >>> (t - E).toNat) (x / 2 ^ t) := by
  have hsplit : (2 : ℚ) ^ t = 2 ^ E * 2 ^ (t - E).toNat := by
    rw [mul_comm, ← two_zpow_add]
    congr 1
    omega
  rw [hsplit, ← div_div]
  exact h.shiftRight _

/-- On the grid of the number its mantissa is the nearest natural number. -/
theorem Describes.roundedMantissa_of_inInterval {f : ExtendedMantissa}
    (h : Describes f (x / 2 ^ e)) (hx : InInterval m e x) : f.roundedMantissa = m := by
  have hpos := two_zpow_pos e
  have hhalf := halfBelow_le m e
  refine h.roundedMantissa_eq ?_ ?_ ?_
  · rw [le_div_iff₀ hpos]
    exact (mul_le_mul_of_nonneg_right (by linarith) hpos.le).trans hx.low
  · rw [div_le_iff₀ hpos]
    exact hx.high
  · intro hodd
    rw [lt_div_iff₀ hpos, div_lt_iff₀ hpos]
    exact ⟨(mul_le_mul_of_nonneg_right (by linarith) hpos.le).trans_lt (hx.low_of_odd hodd),
      hx.high_of_odd hodd⟩

/-- Just below a power of two, on the finer grid there, the mantissa is rounded up to 2⁵³. -/
theorem Describes.roundedMantissa_of_finer {f : ExtendedMantissa} (h : Describes f (x / 2 ^ t))
    (hx : InInterval (2 ^ 52) (t + 1) x) (hleast : -1074 ≤ t) (hhigh : x < 2 ^ (t + 53)) :
    f.roundedMantissa = 2 ^ 53 := by
  have hpos := two_zpow_pos t
  have hquarter : halfBelow (2 ^ 52) (t + 1) = 1 / 4 := by
    obtain ⟨-, -, hh⟩ | ⟨hnot, -⟩ := halfBelow_cases (2 ^ 52) (t + 1)
    · exact hh
    · exact absurd ⟨rfl, by omega⟩ hnot
  have hlow := hx.low
  rw [hquarter, zpow_add_one₀ two_ne_zero] at hlow
  have hhigh' : x < 2 ^ 53 * 2 ^ t := by
    rw [← two_zpow_add]
    exact_mod_cast hhigh
  refine h.roundedMantissa_eq ?_ ?_ ?_
  · rw [le_div_iff₀ hpos]
    refine le_trans (le_of_eq ?_) hlow
    push_cast
    ring
  · rw [div_le_iff₀ hpos]
    push_cast
    linarith
  · intro hodd
    omega

theorem targetExponent_two_pow (hleast : -1074 ≤ t) :
    Format.binary64.targetExponent (totalExponent (2 ^ 53) t) = t + 1 := by
  rw [binary64_targetExponent, totalExponent, Nat.log2_two_pow]
  push_cast
  omega

/-- A rational in the interval of a number is rounded to this number. -/
theorem roundWithAccuracy_of_inInterval (s : Sign) {M : ℕ} {E : ℤ} {a : Accuracy} (hm : 0 < m)
    (hstd : IsStandard m e) (hx : InInterval m e x)
    (hdescribes : Describes (.ofMantissaAndAccuracy M a) (x / 2 ^ E))
    (hE : E ≤ Format.binary64.targetExponent (totalExponent M E)) :
    UnpackedFloat.roundWithAccuracy .binary64 s M E a = .finite s m e hm := by
  obtain ⟨hlow, hhigh⟩ := target_bounds hdescribes hE
  have hleast : -1074 ≤ Format.binary64.targetExponent (totalExponent M E) := le_max_right _ _
  have hcases := exponent_cases hstd hx hleast hlow hhigh
  obtain ⟨t, ht⟩ : ∃ t, Format.binary64.targetExponent (totalExponent M E) = t := ⟨_, rfl⟩
  rw [ht] at hE hcases hhigh hleast
  have hfirst := shiftToTargetExponent_eq (a := a) ht hE
  have hscaled := hdescribes.shiftRight_to hE
  obtain rfl | ⟨rfl, rfl⟩ := hcases
  · -- the rational is rounded on the grid of the number itself
    have hsecond := shiftToTargetExponent_eq (a := .exact) (targetExponent_of_isStandard hm hstd)
      le_rfl
    refine roundWithAccuracy_eq_finite s hm hfirst (hscaled.roundedMantissa_of_inInterval hx)
      hsecond ?_
    rw [mantissa_shiftRight, mantissa_ofMantissaAndAccuracy, sub_self, Int.toNat_zero, pow_zero,
      Nat.div_one]
  · -- the rational is just below the power of two, and its mantissa is shifted once more
    have hsecond := shiftToTargetExponent_eq (a := .exact) (targetExponent_two_pow hleast)
      (by omega)
    refine roundWithAccuracy_eq_finite s hm hfirst
      (hscaled.roundedMantissa_of_finer hx hleast hhigh) hsecond ?_
    have hone : (t + 1 - t).toNat = 1 := by omega
    rw [mantissa_shiftRight, mantissa_ofMantissaAndAccuracy, hone]
    norm_num

end Rounded

section Operations

variable {m : ℕ} {e : ℤ} {m₁ m₂ : ℕ} {e₁ e₂ : ℤ}

/-- A mantissa with 53 bits or more is not shifted to a lower exponent. -/
theorem le_targetExponent {M : ℕ} (hM : 2 ^ 52 ≤ M) (E : ℤ) :
    E ≤ Format.binary64.targetExponent (totalExponent M E) := by
  have hlog : 52 ≤ M.log2 := (Nat.le_log2 (by omega)).mpr hM
  rw [binary64_targetExponent, totalExponent]
  omega

/-- A product is rounded once, so it is the number whose interval holds the exact product. -/
theorem mul_of_inInterval (s₁ s₂ : Sign) (h₁ : 0 < m₁) (h₂ : 0 < m₂) (hbits : 2 ^ 52 ≤ m₁ * m₂)
    (hm : 0 < m) (hstd : IsStandard m e) (hx : InInterval m e (m₁ * 2 ^ e₁ * (m₂ * 2 ^ e₂))) :
    UnpackedFloat.mul .binary64 (.finite s₁ m₁ e₁ h₁) (.finite s₂ m₂ e₂ h₂) =
      .finite (s₁ * s₂) m e hm := by
  have hexact : (m₁ * 2 ^ e₁ * (m₂ * 2 ^ e₂) : ℚ) / 2 ^ (e₁ + e₂) = (m₁ * m₂ : ℕ) := by
    rw [div_eq_iff (two_zpow_pos _).ne', zpow_add₀ two_ne_zero]
    push_cast
    ring
  simp only [UnpackedFloat.mul]
  exact roundWithAccuracy_of_inInterval _ hm hstd hx (hexact ▸ describes_exact _)
    (le_targetExponent hbits _)

/-- A quotient has its remainder in the sticky bit and is rounded once too. -/
theorem div_of_inInterval (s₁ s₂ : Sign) (h₁ : 0 < m₁) (h₂ : 0 < m₂) (hm : 0 < m)
    (hstd : IsStandard m e) (hx : InInterval m e (m₁ * 2 ^ e₁ / (m₂ * 2 ^ e₂))) :
    UnpackedFloat.div .binary64 (.finite s₁ m₁ e₁ h₁) (.finite s₂ m₂ e₂ h₂) =
      .finite (s₁ / s₂) m e hm := by
  simp only [UnpackedFloat.div, UnpackedFloat.divCore]
  have htarget : Format.binary64.targetExponent (totalExponent m₁ e₁ - totalExponent m₂ e₂) =
      max ((m₁.log2 : ℤ) + e₁ - (m₂.log2 + e₂) - 53) (-1074) := by
    rw [binary64_targetExponent, totalExponent, totalExponent]
    congr 1
    ring
  rw [htarget]
  obtain ⟨T, hT⟩ : ∃ T, min (e₁ - e₂) (max ((m₁.log2 : ℤ) + e₁ - (m₂.log2 + e₂) - 53) (-1074)) =
    T := ⟨_, rfl⟩
  obtain ⟨k, hk⟩ : ∃ k : ℕ, (e₁ - e₂ - T).toNat = k := ⟨_, rfl⟩
  have hsum : e₁ = e₂ + T + k := by omega
  rw [hT, hk, Nat.shiftLeft_eq]
  refine roundWithAccuracy_of_inInterval _ hm hstd hx ?_ ?_
  · have hquotient : (m₁ * 2 ^ e₁ / (m₂ * 2 ^ e₂) : ℚ) / 2 ^ T = (m₁ * 2 ^ k : ℕ) / m₂ := by
      have hm₂ : (m₂ : ℚ) ≠ 0 := by exact_mod_cast h₂.ne'
      have hT' := (two_zpow_pos T).ne'
      have he₂ := (two_zpow_pos e₂).ne'
      rw [hsum, two_zpow_add, zpow_add₀ two_ne_zero]
      push_cast
      field_simp
    rw [hquotient]
    exact describes_quotient _ h₂
  · by_cases hleast : T ≤ -1074
    · exact hleast.trans (le_max_right _ _)
    · -- the shift leaves at least 53 bits before the point
      have hlow := Nat.log2_self_le h₁.ne'
      have hhigh := @Nat.lt_log2_self m₂
      have hpow : 2 ^ (52 + (m₂.log2 + 1)) ≤ 2 ^ (m₁.log2 + k) :=
        Nat.pow_le_pow_right (by omega) (by omega)
      have hbits : 2 ^ 52 * m₂ ≤ m₁ * 2 ^ k :=
        calc 2 ^ 52 * m₂ ≤ 2 ^ 52 * 2 ^ (m₂.log2 + 1) := Nat.mul_le_mul_left _ hhigh.le
          _ = 2 ^ (52 + (m₂.log2 + 1)) := (pow_add _ _ _).symm
          _ ≤ 2 ^ (m₁.log2 + k) := hpow
          _ = 2 ^ m₁.log2 * 2 ^ k := pow_add _ _ _
          _ ≤ m₁ * 2 ^ k := Nat.mul_le_mul_right _ hlow
      exact le_targetExponent ((Nat.le_div_iff_mul_le h₂).mpr hbits) _

end Operations

section Reading

variable {m n : ℕ} {e k : ℤ}

/-- The parts are those of a natural number with a mantissa of at least 53 bits. -/
def isNatural (n : ℕ) : UnpackedFloat → Bool
  | .finite .positive p q _ => 2 ^ 52 ≤ p && p * 2 ^ q.toNat = n * 2 ^ (-q).toNat
  | _ => false

/-- The table of the powers of ten is exact. -/
theorem isNatural_powersOfTen : ∀ j : Fin Float.exactlyRepresentablePowersOfTen.size,
    isNatural (10 ^ j.val) (parts Float.exactlyRepresentablePowersOfTen[j]) = true := by
  decide +kernel

/-- An equation in natural numbers for the value of a number. -/
theorem mul_zpow_eq_of_nat {p : ℕ} {q : ℤ} (h : p * 2 ^ q.toNat = n * 2 ^ (-q).toNat) :
    (p : ℚ) * 2 ^ q = n := by
  have hcast : (p : ℚ) * 2 ^ q.toNat = n * 2 ^ (-q).toNat := by exact_mod_cast h
  have hsplit : (2 : ℚ) ^ q.toNat = 2 ^ q * 2 ^ (-q).toNat := by
    rw [← zpow_natCast, ← zpow_natCast, ← zpow_add₀ two_ne_zero]
    congr 1
    omega
  rw [hsplit, ← mul_assoc] at hcast
  exact mul_right_cancel₀ (pow_ne_zero _ two_ne_zero) hcast

theorem exists_of_isNatural {u : UnpackedFloat} (h : isNatural n u = true) :
    ∃ p q hp, u = .finite .positive p q hp ∧ 2 ^ 52 ≤ p ∧ (p : ℚ) * 2 ^ q = n := by
  unfold isNatural at h
  split at h
  · rename_i p q hp
    simp only [Bool.and_eq_true, decide_eq_true_eq] at h
    exact ⟨p, q, hp, rfl, h.1, mul_zpow_eq_of_nat h.2⟩
  · cases h

theorem parts_powerOfTen {j : ℕ} (hj : j < Float.exactlyRepresentablePowersOfTen.size) :
    ∃ p q hp, parts Float.exactlyRepresentablePowersOfTen[j] = .finite .positive p q hp ∧
      2 ^ 52 ≤ p ∧ (p : ℚ) * 2 ^ q = (10 ^ j : ℕ) :=
  exists_of_isNatural (isNatural_powersOfTen ⟨j, hj⟩)

theorem parts_toFloat (hn : 0 < n) (hlt : n < 2 ^ 53) :
    ∃ p q hp, parts n.toUInt64.toFloat = .finite .positive p q hp ∧ 2 ^ 52 ≤ p ∧
      (p : ℚ) * 2 ^ q = n := by
  have hlog : n.log2 < 53 := (Nat.log2_lt hn.ne').mpr hlt
  have hexp : ((n.log2 : ℤ) - 52).toNat = 0 := by omega
  have hexp' : (-((n.log2 : ℤ) - 52)).toNat = 52 - n.log2 := by omega
  have hlow : 2 ^ 52 ≤ n * 2 ^ (52 - n.log2) :=
    calc 2 ^ 52 = 2 ^ n.log2 * 2 ^ (52 - n.log2) := by
          rw [← pow_add]
          congr 1
          omega
      _ ≤ n * 2 ^ (52 - n.log2) := Nat.mul_le_mul_right _ (Nat.log2_self_le hn.ne')
  have hhigh : n * 2 ^ (52 - n.log2) < 2 ^ 53 :=
    calc n * 2 ^ (52 - n.log2) < 2 ^ (n.log2 + 1) * 2 ^ (52 - n.log2) :=
          Nat.mul_lt_mul_of_pos_right Nat.lt_log2_self (Nat.two_pow_pos _)
      _ = 2 ^ 53 := by
          rw [← pow_add]
          congr 1
          omega
  have hstd : IsStandard (n * 2 ^ (52 - n.log2)) ((n.log2 : ℤ) - 52) :=
    ⟨hhigh, by omega, by omega, Or.inl hlow⟩
  have hvalue : n * 2 ^ (-((n.log2 : ℤ) - 52)).toNat =
      n * 2 ^ (52 - n.log2) * 2 ^ ((n.log2 : ℤ) - 52).toNat := by
    rw [hexp, hexp', pow_zero, Nat.mul_one]
  have hpos : 0 < n * 2 ^ (52 - n.log2) := by omega
  refine ⟨_, _, hpos, ?_, hlow, mul_zpow_eq_of_nat hvalue.symm⟩
  rw [toFloat_whole hpos hstd hvalue (by omega)]
  exact parts_ofParts_finite _ hpos hstd

/-- What is too large or too small for a decimal exponent lies in no interval. -/
theorem exponent_bounds (hm : 0 < m) (hstd : IsStandard m e) (hx : InInterval m e (n * 10 ^ k)) :
    0 < n ∧ k ≤ 2 ^ 11 ∧ -(2 ^ 11 + (n.log2 : ℤ)) ≤ k := by
  have hpos := two_zpow_pos e
  have hten : (0 : ℚ) < 10 ^ k := zpow_pos (by norm_num) k
  have hn : 0 < n := by
    by_contra hzero
    obtain rfl : n = 0 := by omega
    have hx' := hx.pos hm
    rw [Nat.cast_zero, zero_mul] at hx'
    exact absurd hx' (lt_irrefl 0)
  refine ⟨hn, ?_, ?_⟩
  · by_contra hk
    have hone : (1 : ℚ) ≤ n := by exact_mod_cast hn
    have hm' : (m : ℚ) + 1 ≤ 2 ^ 53 := by exact_mod_cast hstd.mantissa_lt
    have hexp := hstd.exponent_le
    have hupper : (n : ℚ) * 10 ^ k < 2 ^ (e + (53 : ℕ)) :=
      calc (n : ℚ) * 10 ^ k ≤ (m + 1 / 2) * 2 ^ e := hx.high
        _ < 2 ^ 53 * 2 ^ e := mul_lt_mul_of_pos_right (by linarith) hpos
        _ = 2 ^ (e + (53 : ℕ)) := (two_zpow_add _ _).symm
    have hlower : (2 : ℚ) ^ (e + (53 : ℕ)) ≤ n * 10 ^ k :=
      calc (2 : ℚ) ^ (e + (53 : ℕ)) ≤ 2 ^ k := zpow_le_zpow_right₀ one_le_two (by push_cast; omega)
        _ ≤ 10 ^ k := zpow_le_zpow_left₀ (by omega) two_pos.le (by norm_num)
        _ ≤ n * 10 ^ k := le_mul_of_one_le_left hten.le hone
    linarith
  · by_contra hk
    have hcast : (1 : ℚ) ≤ m := by exact_mod_cast hm
    have hhalf := halfBelow_le m e
    have hbits : (n : ℚ) ≤ 2 ^ (n.log2 + 1) := by exact_mod_cast Nat.lt_log2_self.le
    have hexp := hstd.exponent_ge
    have hlower : (2 : ℚ) ^ (e - 1) ≤ n * 10 ^ k :=
      calc (2 : ℚ) ^ (e - 1) = 1 / 2 * 2 ^ e := by
            rw [two_zpow_sub_one]
            ring
        _ ≤ (m - halfBelow m e) * 2 ^ e := mul_le_mul_of_nonneg_right (by linarith) hpos.le
        _ ≤ n * 10 ^ k := hx.low
    have hten' : (10 : ℚ) ^ k ≤ 2 ^ k := by
      have hinv : (2 : ℚ) ^ (-k) ≤ 10 ^ (-k) :=
        zpow_le_zpow_left₀ (by omega) two_pos.le (by norm_num)
      rw [zpow_neg, zpow_neg] at hinv
      exact (inv_le_inv₀ (two_zpow_pos k) hten).mp hinv
    have hupper : (n : ℚ) * 10 ^ k < 2 ^ (e - 1) :=
      calc (n : ℚ) * 10 ^ k ≤ 2 ^ (n.log2 + 1) * 2 ^ k :=
            mul_le_mul hbits hten' hten.le (by positivity)
        _ = 2 ^ (k + (n.log2 + 1 : ℕ)) := (two_zpow_add _ _).symm
        _ < 2 ^ (e - 1) := zpow_lt_zpow_right₀ one_lt_two (by push_cast; omega)
    linarith

/-- Digits and a power of ten that are both numbers are read by one operation. -/
theorem ofScientific_of_small (hm : 0 < m) (hstd : IsStandard m e) (hn : 0 < n)
    (hsmall : n < 2 ^ 53) (hpower : k.natAbs < Float.exactlyRepresentablePowersOfTen.size)
    (hx : InInterval m e (n * 10 ^ k)) :
    (if decide (k < 0) = true then
        n.toUInt64.toFloat / Float.exactlyRepresentablePowersOfTen[k.natAbs]
      else n.toUInt64.toFloat * Float.exactlyRepresentablePowersOfTen[k.natAbs]) =
      ofParts (.finite .positive m e hm) := by
  obtain ⟨p, q, hp, hparts, hbits, hvalue⟩ := parts_toFloat hn hsmall
  obtain ⟨p', q', hp', hparts', hbits', hvalue'⟩ := parts_powerOfTen hpower
  by_cases hk : k < 0
  · have hquotient : (n : ℚ) * 10 ^ k = p * 2 ^ q / (p' * 2 ^ q') := by
      have hneg : k = -(k.natAbs : ℤ) := by omega
      conv_lhs => rw [hneg]
      rw [hvalue, hvalue', zpow_neg, zpow_natCast, div_eq_mul_inv, Nat.cast_pow, Nat.cast_ofNat]
    rw [hquotient] at hx
    have hdiv := div_of_inInterval .positive .positive hp hp' hm hstd hx
    rw [← hparts, ← hparts'] at hdiv
    rw [if_pos (decide_eq_true hk)]
    exact congrArg ofParts hdiv
  · have hproduct : (n : ℚ) * 10 ^ k = p * 2 ^ q * (p' * 2 ^ q') := by
      have hnat : k = (k.natAbs : ℤ) := by omega
      conv_lhs => rw [hnat]
      rw [hvalue, hvalue', zpow_natCast, Nat.cast_pow, Nat.cast_ofNat]
    rw [hproduct] at hx
    have hbits'' : 2 ^ 52 ≤ p * p' := hbits.trans (Nat.le_mul_of_pos_right p hp')
    have hmul := mul_of_inInterval .positive .positive hp hp' hbits'' hm hstd hx
    rw [← hparts, ← hparts'] at hmul
    rw [if_neg (by simpa using hk)]
    exact congrArg ofParts hmul

/-- Other digits and powers of ten are multiplied or divided as exact numbers of any size, and
rounded once. -/
theorem unpackedOfScientific_of_inInterval (hm : 0 < m) (hstd : IsStandard m e)
    (hx : InInterval m e (n * 10 ^ k)) :
    UnpackedFloat.ofScientific .binary64 n k = .finite .positive m e hm := by
  obtain ⟨hn, hhigh, hlow⟩ := exponent_bounds hm hstd hx
  have hbound : ¬ k > 2 ^ Format.binary64.exponentBits := not_lt.mpr hhigh
  have hbound' : ¬ k < -(2 ^ Format.binary64.exponentBits + (n.log2 : ℤ)) := not_lt.mpr hlow
  have hten (j : ℕ) : 0 < 10 ^ j := Nat.pow_pos (by omega)
  rw [UnpackedFloat.ofScientific, dif_neg hn.ne', if_neg hbound, if_neg hbound']
  by_cases hk : 0 ≤ k
  · have hproduct : (n : ℚ) * (10 : ℚ) ^ k = ((n <<< 53 : ℕ) : ℚ) * 2 ^ (-53 : ℤ) *
        (((10 ^ k.toNat : ℕ) : ℚ) * 2 ^ (0 : ℤ)) := by
      have hpow : (10 : ℚ) ^ k = 10 ^ k.toNat := by
        rw [← zpow_natCast, Int.toNat_of_nonneg hk]
      have hcancel : (2 : ℚ) ^ (53 : ℕ) * 2 ^ (-53 : ℤ) = 1 := by norm_num
      rw [hpow, Nat.shiftLeft_eq, zpow_zero, mul_one, Nat.cast_mul, Nat.cast_pow, Nat.cast_pow,
        Nat.cast_ofNat, Nat.cast_ofNat, mul_assoc (n : ℚ), hcancel, mul_one]
    have hbits : 2 ^ 52 ≤ n <<< 53 * 10 ^ k.toNat :=
      calc 2 ^ 52 ≤ 2 ^ 53 := by norm_num
        _ ≤ n * 2 ^ 53 := Nat.le_mul_of_pos_left _ hn
        _ = n <<< 53 := (Nat.shiftLeft_eq _ _).symm
        _ ≤ n <<< 53 * 10 ^ k.toNat := Nat.le_mul_of_pos_right _ (hten _)
    rw [hproduct] at hx
    rw [if_pos hk]
    exact mul_of_inInterval .positive .positive _ (hten _) hbits hm hstd hx
  · have hquotient : (n : ℚ) * (10 : ℚ) ^ k = (n : ℚ) * 2 ^ (0 : ℤ) /
        (((10 ^ (-k).toNat : ℕ) : ℚ) * 2 ^ (0 : ℤ)) := by
      have hpow : (10 : ℚ) ^ k = ((10 : ℚ) ^ (-k).toNat)⁻¹ := by
        rw [← zpow_natCast, Int.toNat_of_nonneg (by omega), zpow_neg, inv_inv]
      rw [hpow, zpow_zero, mul_one, mul_one, div_eq_mul_inv, Nat.cast_pow, Nat.cast_ofNat]
    rw [hquotient] at hx
    rw [if_neg hk]
    exact div_of_inInterval .positive .positive hn (hten _) hm hstd hx

/-- A decimal in the interval of a number is read as this number. -/
theorem ofScientific_of_inInterval (hm : 0 < m) (hstd : IsStandard m e)
    (hx : InInterval m e (n * 10 ^ k)) :
    Float.ofScientific n (k < 0) k.natAbs = ofParts (.finite .positive m e hm) := by
  have hn := (exponent_bounds hm hstd hx).1
  unfold Float.ofScientific
  split
  · rename_i hsmall
    exact ofScientific_of_small hm hstd hn hsmall.1 (Nat.lt_succ_of_le hsmall.2) hx
  · have hexponent : (if decide (k < 0) = true then Int.negOfNat k.natAbs
        else Int.ofNat k.natAbs) = k := by
      by_cases hk : k < 0
      · simp only [hk, decide_true, if_true, Int.negOfNat_eq, Int.ofNat_eq_natCast]
        omega
      · simp only [hk, decide_false, Bool.false_eq_true, if_false, Int.ofNat_eq_natCast]
        omega
    simp only [hexponent]
    exact congrArg ofParts (unpackedOfScientific_of_inInterval hm hstd hx)

/-- A numeral is read as the number that its rational is rounded to, where this is not zero. -/
theorem toFloat_of_roundsTo {v : Float} {negative : Bool} (hne : exactValue v ≠ 0)
    (h : RoundsTo (Scalar.signed negative (n * 10 ^ k : ℚ)) v) :
    Numeral.toFloat (.decimal negative n k) = v := by
  rcases (isFinite_iff v).mp h.isFinite with ⟨s, hparts⟩ | ⟨s, m, e, hm, hparts⟩
  · exact absurd (exactValue_of_zero hparts).1 hne
  · have hnonneg : (0 : ℚ) ≤ n * 10 ^ k := mul_nonneg (Nat.cast_nonneg n) (by positivity)
    obtain ⟨rfl, hx⟩ := ((roundsTo_iff hparts).mp h).of_signed hm hnonneg
    have hstd := isStandard_of_parts hparts
    have hmagnitude := ofScientific_of_inInterval hm hstd hx
    rw [← ofParts_parts v, hparts]
    cases s with
    | positive => exact hmagnitude
    | negative =>
      change -Float.ofScientific n (k < 0) k.natAbs = _
      rw [hmagnitude, neg_eq, parts_ofParts_finite .positive hm hstd]
      rfl

end Reading

end PartialFractions.Number
