import PartialFractions.Proofs.BinaryNumbers

/-!
Which results of the floating-point operations are finite, infinite, undefined or zero. An operation
on finite numbers overflows but is never undefined, a quotient by zero apart, and the difference of
two different numbers is never rounded to zero.
-/
namespace PartialFractions.Number

open Float.Model
open Float.Model.UnpackedFloat (Sign Accuracy ExtendedMantissa packComponents)

section Packed

theorem unpack_ne_notANumber {s : Sign} {E : BitVec 11} {M : BitVec 52} (hE : E ≠ -1#11) :
    UnpackedFloat.unpack .binary64 (packComponents .binary64 s E M) ≠ .notANumber := by
  simp only [UnpackedFloat.unpack, UnpackedFloat.unpackMantissa_packComponents,
    UnpackedFloat.unpackExponent_packComponents, if_neg hE]
  split
  · split <;> simp
  · simp

theorem unpack_ne_zero {s t : Sign} {E : BitVec 11} {M : BitVec 52} (h : E ≠ 0#11 ∨ M ≠ 0#52) :
    UnpackedFloat.unpack .binary64 (packComponents .binary64 s E M) ≠ .zero t := by
  simp only [UnpackedFloat.unpack, UnpackedFloat.unpackMantissa_packComponents,
    UnpackedFloat.unpackExponent_packComponents]
  split
  · split <;> simp
  · split
    · rename_i hE
      simp [h.resolve_left (not_not.mpr hE)]
    · simp

theorem parts_ofParts_infinity (s : Sign) : parts (ofParts (.infinity s)) = .infinity s := by
  cases s <;> rfl

theorem parts_ofParts_notANumber : parts (ofParts .notANumber) = .notANumber := rfl

/-- A finite number is packed as an infinite one, or with bits of its own. -/
theorem pack_finite_cases (s : Sign) {m : ℕ} (e : ℤ) (hm : 0 < m) :
    UnpackedFloat.pack .binary64 (.finite s m e hm) = UnpackedFloat.packedInfinity .binary64 s ∨
      ∃ (E : BitVec 11) (M : BitVec 52), E ≠ -1#11 ∧
        (m < 2 ^ 53 → -1074 ≤ e → E ≠ 0#11 ∨ M ≠ 0#52) ∧
        UnpackedFloat.pack .binary64 (.finite s m e hm) = packComponents .binary64 s E M := by
  have hbias : e + Format.binary64.exponentBias + Format.binary64.mantissaBitsWithoutImplicit =
      e + 1075 := by
    change e + 1023 + 52 = _
    omega
  simp only [UnpackedFloat.pack, hbias, mantissaBits_eq]
  by_cases hfits : 2 ^ 11 ≤ (e + 1075).toNat + 1
  · rw [if_pos hfits]
    exact Or.inl rfl
  · right
    have hE : (BitVec.ofNat 11 (e + 1075).toNat).toNat = (e + 1075).toNat := by
      rw [BitVec.toNat_ofNat, Nat.mod_eq_of_lt (by omega)]
    rw [if_neg hfits]
    by_cases hlog : m.log2 + 1 = 53
    · rw [if_pos hlog]
      refine ⟨BitVec.ofNat 11 (e + 1075).toNat, BitVec.ofNat 52 m, ?_, ?_, rfl⟩
      · intro hones
        rw [hones] at hE
        change 2047 = _ at hE
        omega
      · intro hlt he
        left
        intro hzeros
        rw [hzeros] at hE
        change 0 = _ at hE
        omega
    · rw [if_neg hlog]
      refine ⟨0#11, BitVec.ofNat 52 m, by decide, ?_, rfl⟩
      intro hlt he
      right
      intro hzeros
      have hlog' : m.log2 < 53 := (Nat.log2_lt hm.ne').mpr hlt
      have hsmall : m < 2 ^ 52 := (Nat.log2_lt hm.ne').mp (by omega)
      have hM := congrArg BitVec.toNat hzeros
      rw [BitVec.toNat_ofNat, Nat.mod_eq_of_lt hsmall] at hM
      exact hm.ne' hM

theorem parts_ofParts_finite_ne_notANumber (s : Sign) {m : ℕ} (e : ℤ) (hm : 0 < m) :
    parts (ofParts (.finite s m e hm)) ≠ .notANumber := by
  change UnpackedFloat.unpack .binary64 (UnpackedFloat.pack .binary64 _) ≠ _
  rcases pack_finite_cases s e hm with hpack | ⟨E, M, hE, -, hpack⟩
  · rw [hpack]
    cases s <;> simp [UnpackedFloat.packedInfinity, UnpackedFloat.unpack]
  · rw [hpack]
    exact unpack_ne_notANumber hE

/-- A finite number with a mantissa of at most 53 bits is packed as a number other than zero, unless
its exponent is below the least one. -/
theorem parts_ofParts_finite_ne_zero (s t : Sign) {m : ℕ} {e : ℤ} (hm : 0 < m) (hlt : m < 2 ^ 53)
    (he : -1074 ≤ e) : parts (ofParts (.finite s m e hm)) ≠ .zero t := by
  change UnpackedFloat.unpack .binary64 (UnpackedFloat.pack .binary64 _) ≠ _
  rcases pack_finite_cases s e hm with hpack | ⟨E, M, -, hEM, hpack⟩
  · rw [hpack]
    exact unpack_ne_zero (Or.inl (by decide))
  · rw [hpack]
    exact unpack_ne_zero (hEM hlt he)

end Packed

section Rounded

variable (s : Sign) {m : ℕ} {e : ℤ}

theorem roundWithAccuracy_ne_notANumber (m : ℕ) (e : ℤ) (accuracy : Accuracy) :
    UnpackedFloat.roundWithAccuracy .binary64 s m e accuracy ≠ .notANumber := by
  simp only [UnpackedFloat.roundWithAccuracy]
  split <;> simp

theorem round_ne_notANumber (m : ℕ) (e : ℤ) :
    UnpackedFloat.round .binary64 s m e ≠ .notANumber := by
  unfold UnpackedFloat.round UnpackedFloat.decreaseExponent
  exact roundWithAccuracy_ne_notANumber s _ _ _

theorem normalize_ne_notANumber (m : ℤ) (e : ℤ) :
    UnpackedFloat.normalize .binary64 m e s ≠ .notANumber := by
  unfold UnpackedFloat.normalize
  split
  · exact round_ne_notANumber _ _ _
  · simp
  · exact round_ne_notANumber _ _ _

theorem mantissa_shiftRight (a : ExtendedMantissa) (k : ℕ) :
    (a >>> k).mantissa = a.mantissa / 2 ^ k := by
  change (Nat.repeat ExtendedMantissa.shiftRightOne k a).mantissa = _
  induction k with
  | zero => simp [Nat.repeat]
  | succ k ih =>
    rw [Nat.repeat, ExtendedMantissa.shiftRightOne, ih, Nat.div_div_eq_div_mul, pow_succ]

theorem mantissa_ofMantissaAndAccuracy (m : ℕ) (accuracy : Accuracy) :
    (ExtendedMantissa.ofMantissaAndAccuracy m accuracy).mantissa = m := by
  cases accuracy with
  | exact => rfl
  | inexact o => cases o <;> rfl

theorem le_roundedMantissa (a : ExtendedMantissa) : a.mantissa ≤ a.roundedMantissa := by
  unfold ExtendedMantissa.roundedMantissa
  cases a.accuracy with
  | exact => exact le_rfl
  | inexact o => cases o <;> simp [Accuracy.roundToNearestEven]

/-- Shifted to the exponent that it should have, a mantissa has at most 53 bits, and it is not
shifted out. -/
theorem shifted_bounds (hm : 0 < m) (he : -1074 ≤ e) :
    0 < m / 2 ^ (Format.binary64.targetExponent (totalExponent m e) - e).toNat ∧
      m / 2 ^ (Format.binary64.targetExponent (totalExponent m e) - e).toNat < 2 ^ 53 := by
  have hlow := Nat.log2_self_le hm.ne'
  have hhigh := @Nat.lt_log2_self m
  rw [binary64_targetExponent, totalExponent]
  generalize m.log2 = l at hlow hhigh
  by_cases hl : 52 ≤ l
  · have hshift : (max ((l : ℤ) + 1 + e - 53) (-1074) - e).toNat = l - 52 := by omega
    have hpow : 2 ^ (l + 1) = 2 ^ 53 * 2 ^ (l - 52) := by
      rw [← pow_add]
      congr 1
      omega
    have hle : 2 ^ (l - 52) ≤ 2 ^ l := Nat.pow_le_pow_right (by omega) (by omega)
    rw [hshift]
    refine ⟨Nat.div_pos (hle.trans hlow) (by positivity), ?_⟩
    exact (Nat.div_lt_iff_lt_mul (by positivity)).mpr (hpow ▸ hhigh)
  · have hshift : (max ((l : ℤ) + 1 + e - 53) (-1074) - e).toNat = 0 := by omega
    have hle : 2 ^ (l + 1) ≤ 2 ^ 53 := Nat.pow_le_pow_right (by omega) (by omega)
    rw [hshift, pow_zero, Nat.div_one]
    exact ⟨hm, hhigh.trans_le hle⟩

/-- Rounding leaves a mantissa of 53 bits and an exponent no smaller than the least. -/
theorem roundWithAccuracy_bounds (hm : 0 < m) (he : -1074 ≤ e) (accuracy : Accuracy) :
    ∃ m' e' hm', UnpackedFloat.roundWithAccuracy .binary64 s m e accuracy =
      .finite s m' e' hm' ∧ m' < 2 ^ 53 ∧ -1074 ≤ e' := by
  -- the mantissa after the first shift is rounded up or kept, so it is still positive
  have hrounded (k : ℕ) (hk : 0 < m / 2 ^ k) :
      0 < (ExtendedMantissa.ofMantissaAndAccuracy m accuracy >>> k).roundedMantissa := by
    have hle := le_roundedMantissa (ExtendedMantissa.ofMantissaAndAccuracy m accuracy >>> k)
    rw [mantissa_shiftRight, mantissa_ofMantissaAndAccuracy] at hle
    exact hk.trans_le hle
  have hexponent (k : ℕ) : -1074 ≤ e + k := by omega
  obtain ⟨hpos, hlt⟩ := shifted_bounds (hrounded _ (shifted_bounds hm he).1) (hexponent _)
  simp only [UnpackedFloat.roundWithAccuracy, UnpackedFloat.shiftToTargetExponent,
    UnpackedFloat.shiftToExponent, mantissa_shiftRight, mantissa_ofMantissaAndAccuracy]
  rw [dif_neg hpos.ne']
  exact ⟨_, _, hpos, rfl, hlt, by omega⟩

/-- A number that is no multiple of less than the least subnormal one is not rounded to zero. -/
theorem round_bounds (hm : 0 < m) (he : -1074 ≤ e) :
    ∃ m' e' hm', UnpackedFloat.round .binary64 s m e = .finite s m' e' hm' ∧ m' < 2 ^ 53 ∧
      -1074 ≤ e' := by
  unfold UnpackedFloat.round UnpackedFloat.decreaseExponent
  dsimp only
  refine roundWithAccuracy_bounds s ?_ ?_ .exact
  · rw [Nat.shiftLeft_eq]
    positivity
  · rw [binary64_targetExponent]
    omega

theorem normalize_bounds {m : ℤ} (hm : m ≠ 0) (he : -1074 ≤ e) :
    ∃ t m' e' hm', UnpackedFloat.normalize .binary64 m e s = .finite t m' e' hm' ∧ m' < 2 ^ 53 ∧
      -1074 ≤ e' := by
  unfold UnpackedFloat.normalize
  rcases lt_or_gt_of_ne hm with hneg | hpos
  · rw [Int.compare_eq_lt.mpr hneg]
    exact ⟨.negative, round_bounds .negative (by omega) he⟩
  · rw [Int.compare_eq_gt.mpr hpos]
    exact ⟨.positive, round_bounds .positive (by omega) he⟩

end Rounded

section Kinds

variable (v : Float)

theorem isFinite_eq : v.isFinite = (parts v).isFinite := rfl

theorem isNaN_eq : v.isNaN = (parts v).isNaN := rfl

theorem isInf_eq : v.isInf = (parts v).isInf := rfl

variable {v}

theorem isFinite_of_isNaN_isInf (hnan : v.isNaN = false) (hinf : v.isInf = false) :
    v.isFinite = true := by
  rw [isNaN_eq] at hnan
  rw [isInf_eq] at hinf
  rw [isFinite_eq]
  cases h : parts v <;> simp_all [UnpackedFloat.isNaN, UnpackedFloat.isInf, UnpackedFloat.isFinite]

theorem isNaN_of_isFinite (h : v.isFinite = true) : v.isNaN = false := by
  rw [isFinite_eq] at h
  rw [isNaN_eq]
  cases hv : parts v <;> simp_all [UnpackedFloat.isNaN, UnpackedFloat.isFinite]

theorem isInf_of_isFinite (h : v.isFinite = true) : v.isInf = false := by
  rw [isFinite_eq] at h
  rw [isInf_eq]
  cases hv : parts v <;> simp_all [UnpackedFloat.isInf, UnpackedFloat.isFinite]

theorem isNaN_ofParts {u : UnpackedFloat} (h : u ≠ .notANumber) : (ofParts u).isNaN = false := by
  rw [isNaN_eq]
  cases u with
  | infinity s =>
    rw [parts_ofParts_infinity]
    rfl
  | notANumber => exact absurd rfl h
  | zero s =>
    rw [parts_ofParts_zero]
    rfl
  | finite s m e hm =>
    have hne := parts_ofParts_finite_ne_notANumber s e hm
    cases hparts : parts (ofParts (.finite s m e hm)) with
    | notANumber => exact absurd hparts hne
    | _ => rfl

end Kinds

namespace Unpacked

variable {u w : UnpackedFloat}

theorem isFinite_of_add (h : (UnpackedFloat.add .binary64 u w).isFinite = true) :
    u.isFinite = true ∧ w.isFinite = true := by
  cases u <;> cases w <;> simp_all [UnpackedFloat.add, UnpackedFloat.isFinite]
  case infinity.infinity s t => by_cases hs : s == t <;> simp [hs] at h

theorem isFinite_of_mul (h : (UnpackedFloat.mul .binary64 u w).isFinite = true) :
    u.isFinite = true ∧ w.isFinite = true := by
  cases u <;> cases w <;> simp_all [UnpackedFloat.mul, UnpackedFloat.isFinite]

theorem isFinite_of_div (h : (UnpackedFloat.div .binary64 u w).isFinite = true) :
    u.isFinite = true ∧ w ≠ .notANumber := by
  cases u <;> cases w <;> simp_all [UnpackedFloat.div, UnpackedFloat.isFinite]

theorem ne_of_sub (h : UnpackedFloat.sub .binary64 u w ≠ .notANumber) :
    u ≠ .notANumber ∧ w ≠ .notANumber := by
  cases u <;> cases w <;> simp_all [UnpackedFloat.sub]

theorem add_ne (hu : u.isFinite = true) (hw : w.isFinite = true) :
    UnpackedFloat.add .binary64 u w ≠ .notANumber := by
  cases u <;> cases w <;>
    simp_all [UnpackedFloat.add, UnpackedFloat.isFinite, normalize_ne_notANumber]
  case zero.zero s t => split <;> simp

theorem mul_ne (hu : u.isFinite = true) (hw : w.isFinite = true) :
    UnpackedFloat.mul .binary64 u w ≠ .notANumber := by
  cases u <;> cases w <;>
    simp_all [UnpackedFloat.mul, UnpackedFloat.isFinite, roundWithAccuracy_ne_notANumber]

theorem div_ne (hu : u.isFinite = true) (hw : w ≠ .notANumber) (hzero : ∀ s, w ≠ .zero s) :
    UnpackedFloat.div .binary64 u w ≠ .notANumber := by
  cases u <;> cases w <;>
    simp_all [UnpackedFloat.div, UnpackedFloat.isFinite, roundWithAccuracy_ne_notANumber]

/-- Equality of unpacked numbers is symmetric, though not reflexive: `nan` differs from itself. -/
theorem beq_comm (u w : UnpackedFloat) : UnpackedFloat.beq u w = UnpackedFloat.beq w u := by
  cases u with
  | notANumber => cases w <;> rfl
  | infinity s =>
    cases w with
    | infinity t => cases s <;> cases t <;> rfl
    | _ => cases s <;> rfl
  | zero s =>
    cases w with
    | infinity t => cases t <;> rfl
    | finite t => cases t <;> rfl
    | _ => rfl
  | finite s m e hm =>
    cases w with
    | infinity t => cases s <;> cases t <;> rfl
    | finite t n d hn =>
      -- numbers of one sign are compared by their parts, others by their signs
      have hparts : (e = d ∧ m = n) ↔ (d = e ∧ n = m) := and_congr eq_comm eq_comm
      cases s with
      | negative =>
        cases t with
        | negative => simpa [UnpackedFloat.beq, UnpackedFloat.compare] using hparts
        | positive => rfl
      | positive =>
        cases t with
        | negative => rfl
        | positive => simpa [UnpackedFloat.beq, UnpackedFloat.compare] using hparts
    | _ => cases s <;> rfl

/-- Only the difference of equal infinite numbers is undefined. -/
theorem sub_ne (hu : u ≠ .notANumber) (hw : w ≠ .notANumber)
    (hne : UnpackedFloat.beq u w = false) : UnpackedFloat.sub .binary64 u w ≠ .notANumber := by
  cases u <;> cases w <;> simp_all [UnpackedFloat.sub, normalize_ne_notANumber]
  case infinity.infinity s t => cases s <;> cases t <;> first | rfl | cases hne
  case zero.zero s t => split <;> simp

end Unpacked

section Operations

variable {u : UnpackedFloat} {v w : Float}

theorem isFinite_of_ofParts (h : (ofParts u).isFinite = true) : u.isFinite = true := by
  rw [isFinite_eq] at h
  cases u with
  | infinity s =>
    rw [parts_ofParts_infinity] at h
    exact h
  | notANumber => exact h
  | zero s => rfl
  | finite s m e hm => simp [UnpackedFloat.isFinite]

theorem ne_of_isNaN (h : v.isNaN = false) : parts v ≠ .notANumber := by
  intro hv
  rw [isNaN_eq, hv] at h
  cases h

/-- A sum is finite only if both summands are. -/
theorem isFinite_of_add (h : (v + w).isFinite = true) : v.isFinite = true ∧ w.isFinite = true :=
  Unpacked.isFinite_of_add (isFinite_of_ofParts h)

theorem isFinite_of_mul (h : (v * w).isFinite = true) : v.isFinite = true ∧ w.isFinite = true :=
  Unpacked.isFinite_of_mul (isFinite_of_ofParts h)

/-- A quotient is finite only if the dividend is and the divisor is defined. -/
theorem isFinite_of_div (h : (v / w).isFinite = true) : v.isFinite = true ∧ w.isNaN = false := by
  obtain ⟨hv, hw⟩ := Unpacked.isFinite_of_div (isFinite_of_ofParts h)
  refine ⟨hv, ?_⟩
  rw [← ofParts_parts w]
  exact isNaN_ofParts hw

theorem isNaN_of_sub (h : (v - w).isNaN = false) : v.isNaN = false ∧ w.isNaN = false := by
  rw [sub_eq] at h
  have hne : UnpackedFloat.sub .binary64 (parts v) (parts w) ≠ .notANumber := by
    intro hsub
    rw [hsub] at h
    cases h
  obtain ⟨hv, hw⟩ := Unpacked.ne_of_sub hne
  rw [← ofParts_parts v, ← ofParts_parts w]
  exact ⟨isNaN_ofParts hv, isNaN_ofParts hw⟩

theorem isNaN_add (hv : v.isFinite = true) (hw : w.isFinite = true) : (v + w).isNaN = false :=
  isNaN_ofParts (Unpacked.add_ne hv hw)

theorem isNaN_mul (hv : v.isFinite = true) (hw : w.isFinite = true) : (v * w).isNaN = false :=
  isNaN_ofParts (Unpacked.mul_ne hv hw)

theorem isNaN_div (hv : v.isFinite = true) (hw : w.isNaN = false)
    (hzero : Scalar.isZero w = false) : (v / w).isNaN = false := by
  refine isNaN_ofParts (Unpacked.div_ne hv (ne_of_isNaN hw) ?_)
  intro s hs
  rw [(isZero_iff w).mpr ⟨s, hs⟩] at hzero
  cases hzero

theorem isNaN_sub (hv : v.isNaN = false) (hw : w.isNaN = false) (hne : Scalar.same v w = false) :
    (v - w).isNaN = false :=
  isNaN_ofParts (Unpacked.sub_ne (ne_of_isNaN hv) (ne_of_isNaN hw) hne)

theorem isFinite_neg : (-v).isFinite = v.isFinite := by
  conv_rhs => rw [isFinite_eq]
  rw [isFinite_eq, neg_eq]
  cases hv : parts v with
  | infinity s =>
    change (parts (ofParts (.infinity (-s)))).isFinite = _
    rw [parts_ofParts_infinity]
    rfl
  | notANumber => rfl
  | zero s =>
    change (parts (ofParts (.zero (-s)))).isFinite = _
    rw [parts_ofParts_zero]
    rfl
  | finite s m e hm =>
    change (parts (ofParts (.finite (-s) m e hm))).isFinite = _
    rw [parts_ofParts_finite _ hm (isStandard_of_parts hv)]
    rfl

theorem same_comm (h : Scalar.same v w = false) : Scalar.same w v = false := by
  rw [same_eq] at h ⊢
  rw [Unpacked.beq_comm]
  exact h

/-- Two numbers in standard form that are equal have equal parts. -/
theorem eq_of_mul_two_pow {m n : ℕ} {e d : ℤ} (hm : IsStandard m e) (hn : IsStandard n d)
    (hle : e ≤ d) (h : m = n * 2 ^ (d - e).toNat) : m = n ∧ e = d := by
  by_cases heq : e = d
  · rw [heq, sub_self, Int.toNat_zero, pow_zero, Nat.mul_one] at h
    exact ⟨h, heq⟩
  · have hlow := hm.exponent_ge
    have hlt := hm.mantissa_lt
    have hbit : 2 ^ 52 ≤ n := hn.normal.resolve_right (by omega)
    obtain ⟨k, hk⟩ : ∃ k, (d - e).toNat = k + 1 := Nat.exists_eq_succ_of_ne_zero (by omega)
    have hle : n * 2 ^ 1 ≤ n * 2 ^ (k + 1) :=
      Nat.mul_le_mul_left n (Nat.pow_le_pow_right (by omega) (by omega))
    rw [hk] at h
    omega

/-- Different signed mantissas at one exponent have a difference other than zero. -/
theorem apply_sub_apply_ne_zero {s t : Sign} {a b : ℕ} (ha : 0 < a) (hb : 0 < b)
    (hne : s = t → a ≠ b) : s.apply (a : ℤ) - t.apply (b : ℤ) ≠ 0 := by
  cases s with
  | negative =>
    cases t with
    | negative =>
      have hab := hne rfl
      simp only [Sign.apply]
      omega
    | positive =>
      simp only [Sign.apply]
      omega
  | positive =>
    cases t with
    | negative =>
      simp only [Sign.apply]
      omega
    | positive =>
      have hab := hne rfl
      simp only [Sign.apply]
      omega

/-- Different numbers have a difference other than zero before it is rounded. -/
theorem exact_difference_ne_zero {s t : Sign} {m n : ℕ} {e d : ℤ} (hm : 0 < m) (hn : 0 < n)
    (hme : IsStandard m e) (hnd : IsStandard n d) (hne : ¬ (s = t ∧ m = n ∧ e = d)) :
    s.apply ((m <<< (e - min e d).toNat : ℕ) : ℤ) - t.apply ((n <<< (d - min e d).toNat : ℕ) : ℤ)
      ≠ 0 := by
  rw [Nat.shiftLeft_eq, Nat.shiftLeft_eq]
  refine apply_sub_apply_ne_zero (by positivity) (by positivity) ?_
  intro hst h
  rcases le_total e d with hle | hle
  · rw [min_eq_left hle, sub_self, Int.toNat_zero, pow_zero, Nat.mul_one] at h
    exact hne ⟨hst, eq_of_mul_two_pow hme hnd hle h⟩
  · rw [min_eq_right hle, sub_self, Int.toNat_zero, pow_zero, Nat.mul_one] at h
    obtain ⟨hmn, hed⟩ := eq_of_mul_two_pow hnd hme hle h.symm
    exact hne ⟨hst, hmn.symm, hed.symm⟩

/-- The difference of two different numbers is not zero, however it is rounded. -/
theorem isZero_sub (hne : Scalar.same v w = false) : Scalar.isZero (v - w) = false := by
  rw [same_eq] at hne
  rw [← Bool.not_eq_true, isZero_iff]
  rintro ⟨r, hr⟩
  rw [sub_eq] at hr
  cases hv : parts v <;> cases hw : parts w <;> rw [hv, hw] at hr hne
  -- what is left are the differences that are neither undefined nor infinite at once
  all_goals try
    simp [UnpackedFloat.sub, parts_ofParts_infinity, parts_ofParts_notANumber] at hr
  case infinity.infinity s t =>
    split at hr <;> simp [parts_ofParts_infinity, parts_ofParts_notANumber] at hr
  case zero.zero s t => simp [UnpackedFloat.beq, UnpackedFloat.compare] at hne
  case zero.finite s t m e hm =>
    rw [parts_ofParts_finite _ hm (isStandard_of_parts hw)] at hr
    cases hr
  case finite.zero s m e hm t =>
    rw [parts_ofParts_finite _ hm (isStandard_of_parts hv)] at hr
    cases hr
  case finite.finite s m e hm t n d hn =>
    have hme := isStandard_of_parts hv
    have hnd := isStandard_of_parts hw
    have hdifferent : ¬ (s = t ∧ m = n ∧ e = d) := by
      rintro ⟨rfl, rfl, rfl⟩
      cases s <;> simp [UnpackedFloat.beq, UnpackedFloat.compare] at hne
    have hexponent : -1074 ≤ min e d := le_min hme.exponent_ge hnd.exponent_ge
    obtain ⟨q, m', e', hm', hround, hlt, he⟩ := normalize_bounds .positive
      (exact_difference_ne_zero hm hn hme hnd hdifferent) hexponent
    simp only [UnpackedFloat.decreaseExponent, hround] at hr
    exact parts_ofParts_finite_ne_zero _ _ hm' hlt he hr

theorem isFinite_add_iff : (v + w).isFinite = true ↔
    v.isFinite = true ∧ w.isFinite = true ∧ (v + w).isInf = false := by
  constructor
  · intro h
    obtain ⟨hv, hw⟩ := isFinite_of_add h
    exact ⟨hv, hw, isInf_of_isFinite h⟩
  · rintro ⟨hv, hw, hinf⟩
    exact isFinite_of_isNaN_isInf (isNaN_add hv hw) hinf

theorem isFinite_mul_iff : (v * w).isFinite = true ↔
    v.isFinite = true ∧ w.isFinite = true ∧ (v * w).isInf = false := by
  constructor
  · intro h
    obtain ⟨hv, hw⟩ := isFinite_of_mul h
    exact ⟨hv, hw, isInf_of_isFinite h⟩
  · rintro ⟨hv, hw, hinf⟩
    exact isFinite_of_isNaN_isInf (isNaN_mul hv hw) hinf

/-- A divisor may be infinite: the quotient is zero. -/
theorem isFinite_div_iff (hzero : Scalar.isZero w = false) : (v / w).isFinite = true ↔
    v.isFinite = true ∧ w.isNaN = false ∧ (v / w).isInf = false := by
  constructor
  · intro h
    obtain ⟨hv, hw⟩ := isFinite_of_div h
    exact ⟨hv, hw, isInf_of_isFinite h⟩
  · rintro ⟨hv, hw, hinf⟩
    exact isFinite_of_isNaN_isInf (isNaN_div hv hw hzero) hinf

theorem isNaN_sub_iff (hne : Scalar.same v w = false) :
    (v - w).isNaN = false ↔ v.isNaN = false ∧ w.isNaN = false :=
  ⟨isNaN_of_sub, fun ⟨hv, hw⟩ => isNaN_sub hv hw hne⟩

/-- The quotient by the distance of two different numbers. -/
theorem isFinite_div_sub_iff {u : Float} (hne : Scalar.same v w = false) :
    (u / (v - w)).isFinite = true ↔
      u.isFinite = true ∧ (v.isNaN = false ∧ w.isNaN = false) ∧ (u / (v - w)).isInf = false := by
  rw [isFinite_div_iff (isZero_sub hne), isNaN_sub_iff hne]

end Operations

end PartialFractions.Number
