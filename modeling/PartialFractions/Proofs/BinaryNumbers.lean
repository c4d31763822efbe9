import Mathlib
import PartialFractions.Number.Scalar

/-!
Floating-point numbers by their parts.
-/
namespace PartialFractions.Number

open Float.Model
open Float.Model.UnpackedFloat (Sign packComponents unpackMantissa unpackExponent unpackSign)

section Packing

variable (s : Sign) {E : BitVec 11} {M : BitVec 52}

theorem mantissaBits_eq : Format.binary64.mantissaBits = 53 := rfl

theorem ofBitVec_unpackSign (E : BitVec 11) (M : BitVec 52) :
    Sign.ofBitVec (unpackSign (packComponents .binary64 s E M)) = s := by
  simp only [unpackSign, packComponents, BitVec.extractLsb]
  rw [BitVec.extractLsb'_append_eq_of_le (by omega),
    BitVec.extractLsb'_append_eq_of_le (by omega)]
  cases s <;> rfl

/-- A normal number has a leading bit that is not stored. -/
theorem unpack_normal (hE : 1 ≤ E.toNat) (hE' : E.toNat ≤ 2046) :
    UnpackedFloat.unpack .binary64 (packComponents .binary64 s E M) =
      .finite s (2 ^ 52 + M.toNat) (E.toNat - 1075) (by positivity) := by
  have hones : E ≠ -1#11 := by
    rintro rfl
    simp at hE'
  have hzeros : E ≠ 0#11 := by
    rintro rfl
    simp at hE
  have himplicit : (1#1 ++ M).toNat = 2 ^ 52 + M.toNat := by
    rw [BitVec.toNat_append, ← Nat.shiftLeft_add_eq_or_of_lt M.isLt]
    simp [Nat.shiftLeft_eq]
  simp only [UnpackedFloat.unpack, UnpackedFloat.unpackMantissa_packComponents,
    UnpackedFloat.unpackExponent_packComponents, ofBitVec_unpackSign, if_neg hones, if_neg hzeros,
    himplicit]
  rfl

/-- Biased exponent zero: no hidden bit, and the exponent of the smallest normal number. -/
theorem unpack_subnormal (hM : 0 < M.toNat) :
    UnpackedFloat.unpack .binary64 (packComponents .binary64 s 0#11 M) =
      .finite s M.toNat (-1074) hM := by
  have hones : (0#11 : BitVec 11) ≠ -1#11 := by decide
  have hzeros : M ≠ 0#52 := by
    rintro rfl
    exact absurd hM (by simp)
  simp only [UnpackedFloat.unpack, UnpackedFloat.unpackMantissa_packComponents,
    UnpackedFloat.unpackExponent_packComponents, ofBitVec_unpackSign, if_neg hones, if_true,
    dif_neg hzeros]
  rfl

/-- The hidden bit is taken off the mantissa again and the exponent is biased. -/
theorem pack_normal (hE : 1 ≤ E.toNat) (hE' : E.toNat ≤ 2046) :
    UnpackedFloat.pack .binary64 (.finite s (2 ^ 52 + M.toNat) (E.toNat - 1075) (by positivity)) =
      packComponents .binary64 s E M := by
  have hbiased : ((E.toNat : ℤ) - 1075 + Format.binary64.exponentBias +
      Format.binary64.mantissaBitsWithoutImplicit).toNat = E.toNat := by
    show ((E.toNat : ℤ) - 1075 + 1023 + 52).toNat = _
    omega
  have hfits : ¬ 2 ^ 11 ≤ E.toNat + 1 := by omega
  have hlog : (2 ^ 52 + M.toNat).log2 + 1 = Format.binary64.mantissaBits := by
    have hlt := M.isLt
    have h₁ : 52 ≤ (2 ^ 52 + M.toNat).log2 := (Nat.le_log2 (by omega)).mpr (by omega)
    have h₂ : (2 ^ 52 + M.toNat).log2 < 53 := (Nat.log2_lt (by omega)).mpr (by omega)
    rw [mantissaBits_eq]
    omega
  have hmantissa : BitVec.ofNat 52 (2 ^ 52 + M.toNat) = M := by
    apply BitVec.eq_of_toNat_eq
    rw [BitVec.toNat_ofNat, Nat.add_mod_left, Nat.mod_eq_of_lt M.isLt]
  simp only [UnpackedFloat.pack, hbiased, if_neg hfits, if_pos hlog, BitVec.ofNat_toNat,
    BitVec.setWidth_eq]
  rw [hmantissa]

theorem pack_subnormal (hM : 0 < M.toNat) :
    UnpackedFloat.pack .binary64 (.finite s M.toNat (-1074) hM) =
      packComponents .binary64 s 0#11 M := by
  have hlog : ¬ M.toNat.log2 + 1 = Format.binary64.mantissaBits := by
    have hlt : M.toNat.log2 < 52 := (Nat.log2_lt hM.ne').mpr M.isLt
    rw [mantissaBits_eq]
    omega
  have hfits : ¬ 2 ^ 11 ≤ (-1074 + Format.binary64.exponentBias +
      Format.binary64.mantissaBitsWithoutImplicit : ℤ).toNat + 1 := by decide
  simp only [UnpackedFloat.pack, if_neg hfits, if_neg hlog, BitVec.ofNat_toNat, BitVec.setWidth_eq]

inductive IsBits : BitVec 64 → Prop
  | infinity (s : Sign) : IsBits (packComponents .binary64 s (-1#11) 0#52)
  | undefined (s : Sign) {M : BitVec 52} (hM : M ≠ 0#52) :
      IsBits (packComponents .binary64 s (-1#11) M)
  | zero (s : Sign) : IsBits (packComponents .binary64 s 0#11 0#52)
  | subnormal (s : Sign) {M : BitVec 52} (hM : 0 < M.toNat) :
      IsBits (packComponents .binary64 s 0#11 M)
  | normal (s : Sign) {E : BitVec 11} (M : BitVec 52) (hE : 1 ≤ E.toNat) (hE' : E.toNat ≤ 2046) :
      IsBits (packComponents .binary64 s E M)

/-- What is packed is read as the same sign, exponent and fraction. -/
theorem isBits_packComponents (E : BitVec 11) (M : BitVec 52) :
    IsBits (packComponents .binary64 s E M) := by
  by_cases hones : E = -1#11
  · subst hones
    by_cases hM : M = 0#52
    · subst hM
      exact .infinity s
    · exact .undefined s hM
  · by_cases hzeros : E = 0#11
    · subst hzeros
      by_cases hM : M = 0#52
      · subst hM
        exact .zero s
      · exact .subnormal s (Nat.pos_of_ne_zero fun h => hM (BitVec.eq_of_toNat_eq h))
    · have hE : E.toNat ≠ 0 := fun h => hzeros (BitVec.eq_of_toNat_eq h)
      have hE' : E.toNat ≠ 2047 := fun h => hones (BitVec.eq_of_toNat_eq h)
      have hlt := E.isLt
      exact .normal s M (by omega) (by omega)

theorem isBits (b : BitVec 64) : IsBits b := by
  have hsign : ∀ v : BitVec 1, (Sign.ofBitVec v).toBitVec = v := by decide
  have hparts : packComponents .binary64 (Sign.ofBitVec (@unpackSign .binary64 b))
      (@unpackExponent .binary64 b) (@unpackMantissa .binary64 b) = b := by
    simp only [packComponents, hsign, unpackSign, unpackExponent, unpackMantissa,
      BitVec.extractLsb]
    ext i hi
    grind
  rw [← hparts]
  exact isBits_packComponents ..

/-- Packing gives back the bits that were unpacked. -/
theorem pack_unpack_of_valid {b : BitVec 64} (hb : Format.binary64.Valid b) :
    UnpackedFloat.pack .binary64 (UnpackedFloat.unpack .binary64 b) = b := by
  cases isBits b with
  | infinity s => cases s <;> rfl
  | undefined s hM =>
    have hnan := hb.eq_packedNaN (by simp) (by simpa using hM)
    rw [hnan]
    rfl
  | zero s => cases s <;> rfl
  | subnormal s hM => rw [unpack_subnormal s hM, pack_subnormal s hM]
  | normal s M hE hE' => rw [unpack_normal s hE hE', pack_normal s hE hE']

/-- Mantissa and exponent of a finite number: the mantissa has 53 bits unless the exponent is the
least one. -/
structure IsStandard (m : ℕ) (e : ℤ) : Prop where
  mantissa_lt : m < 2 ^ 53
  exponent_ge : -1074 ≤ e
  exponent_le : e ≤ 971
  normal : 2 ^ 52 ≤ m ∨ e = -1074

/-- A number in standard form is unpacked as it was packed. -/
theorem unpack_pack_of_isStandard {m : ℕ} {e : ℤ} (hm : 0 < m) (h : IsStandard m e) :
    UnpackedFloat.unpack .binary64 (UnpackedFloat.pack .binary64 (.finite s m e hm)) =
      .finite s m e hm := by
  obtain ⟨hlt, hlow, hhigh, hnormal⟩ := h
  by_cases hbit : 2 ^ 52 ≤ m
  · obtain ⟨M, rfl⟩ : ∃ M : BitVec 52, m = 2 ^ 52 + M.toNat :=
      ⟨BitVec.ofNat 52 (m - 2 ^ 52), by rw [BitVec.toNat_ofNat]; omega⟩
    obtain ⟨E, rfl⟩ : ∃ E : BitVec 11, e = E.toNat - 1075 :=
      ⟨BitVec.ofNat 11 (e + 1075).toNat, by rw [BitVec.toNat_ofNat]; omega⟩
    have hE : 1 ≤ E.toNat := by omega
    have hE' : E.toNat ≤ 2046 := by omega
    rw [pack_normal s hE hE', unpack_normal s hE hE']
  · obtain rfl := hnormal.resolve_left hbit
    obtain ⟨M, rfl⟩ : ∃ M : BitVec 52, m = M.toNat :=
      ⟨BitVec.ofNat 52 m, by rw [BitVec.toNat_ofNat]; omega⟩
    rw [pack_subnormal s hm, unpack_subnormal s hm]

/-- Every finite number that is unpacked has the mantissa and exponent the format allows. -/
theorem isStandard_of_unpack {s : Sign} {b : BitVec 64} {m : ℕ} {e : ℤ} {hm : 0 < m}
    (h : UnpackedFloat.unpack .binary64 b = .finite s m e hm) : IsStandard m e := by
  cases isBits b with
  | infinity t => cases t <;> cases h
  | undefined t hM => simp [UnpackedFloat.unpack, hM] at h
  | zero t => cases t <;> cases h
  | @subnormal t M hM =>
    have hlt := M.isLt
    rw [unpack_subnormal t hM] at h
    obtain ⟨-, rfl, rfl⟩ := UnpackedFloat.finite.inj h
    exact ⟨by omega, by omega, by omega, Or.inr rfl⟩
  | normal t M hE hE' =>
    have hlt := M.isLt
    rw [unpack_normal t hE hE'] at h
    obtain ⟨-, rfl, rfl⟩ := UnpackedFloat.finite.inj h
    exact ⟨by omega, by omega, by omega, Or.inl (by omega)⟩

end Packing

section Rounding

open UnpackedFloat (ExtendedMantissa)

theorem binary64_targetExponent (e : ℤ) :
    Format.binary64.targetExponent e = max (e - 53) (-1074) := rfl

theorem targetExponent_of_isStandard {m : ℕ} {e : ℤ} (hm : 0 < m) (h : IsStandard m e) :
    Format.binary64.targetExponent (totalExponent m e) = e := by
  obtain ⟨hlt, hlow, hhigh, hnormal⟩ := h
  have hlog : m.log2 < 53 := (Nat.log2_lt hm.ne').mpr hlt
  rw [binary64_targetExponent, totalExponent]
  rcases hnormal with hbit | rfl
  · have hlog' : 52 ≤ m.log2 := (Nat.le_log2 hm.ne').mpr hbit
    omega
  · omega

theorem log2_mul_two_pow {m : ℕ} (hm : 0 < m) (k : ℕ) : (m * 2 ^ k).log2 = m.log2 + k := by
  induction k with
  | zero => simp
  | succ k ih =>
    have hpos : m * 2 ^ k ≠ 0 := by positivity
    rw [pow_succ, ← mul_assoc, mul_comm, Nat.log2_two_mul hpos, ih, add_assoc]

/-- Zeros at the end of a mantissa are shifted out without a remainder. -/
theorem shiftRight_exact (m k : ℕ) :
    (⟨m * 2 ^ k, false, false⟩ : ExtendedMantissa) >>> k = ⟨m, false, false⟩ := by
  change Nat.repeat ExtendedMantissa.shiftRightOne k _ = _
  induction k generalizing m with
  | zero => simp [Nat.repeat]
  | succ k ih =>
    have hstep := ih (m * 2)
    rw [mul_assoc, ← pow_succ'] at hstep
    rw [Nat.repeat, hstep]
    simp [ExtendedMantissa.shiftRightOne]

/-- A number in standard form is not rounded, however its mantissa is written. -/
theorem roundWithAccuracy_exact (s : Sign) {m : ℕ} {e : ℤ} (hm : 0 < m) (h : IsStandard m e)
    (k : ℕ) : UnpackedFloat.roundWithAccuracy .binary64 s (m * 2 ^ k) (e - k) .exact =
      .finite s m e hm := by
  have htarget := targetExponent_of_isStandard hm h
  have htotal : totalExponent (m * 2 ^ k) (e - k) = totalExponent m e := by
    rw [totalExponent, totalExponent, log2_mul_two_pow hm]
    push_cast
    ring
  have hshift : (e - (e - k)).toNat = k := by omega
  have hexponent : e - (k : ℤ) + k = e := by ring
  have hzero (m : ℕ) : (⟨m, false, false⟩ : ExtendedMantissa) >>> 0 = ⟨m, false, false⟩ := rfl
  simp only [UnpackedFloat.roundWithAccuracy, UnpackedFloat.shiftToTargetExponent,
    UnpackedFloat.shiftToExponent, htotal, htarget, hshift, hexponent,
    ExtendedMantissa.ofMantissaAndAccuracy, shiftRight_exact, ExtendedMantissa.roundedMantissa,
    ExtendedMantissa.accuracy, UnpackedFloat.Accuracy.roundToNearestEven, sub_self, Int.toNat_zero,
    hzero, dif_neg hm.ne', Nat.cast_zero, add_zero]

end Rounding

section Parts

def parts (v : Float) : UnpackedFloat := v.toModel.unpack

def ofParts (u : UnpackedFloat) : Float := .ofModel (.pack u)

@[simp] theorem ofParts_parts (v : Float) : ofParts (parts v) = v := by
  obtain ⟨⟨bits, hvalid⟩⟩ := v
  have hpack := pack_unpack_of_valid hvalid
  simp only [ofParts, parts, Float.Model.pack, Float.Model.unpack, hpack]

theorem parts_ofParts_finite (s : Sign) {m : ℕ} {e : ℤ} (hm : 0 < m) (h : IsStandard m e) :
    parts (ofParts (.finite s m e hm)) = .finite s m e hm :=
  unpack_pack_of_isStandard s hm h

@[simp] theorem parts_ofParts_zero (s : Sign) : parts (ofParts (.zero s)) = .zero s := by
  cases s <;> rfl

theorem isStandard_of_parts {v : Float} {s : Sign} {m : ℕ} {e : ℤ} {hm : 0 < m}
    (h : parts v = .finite s m e hm) : IsStandard m e := isStandard_of_unpack h

theorem eq_of_parts {v w : Float} (h : parts v = parts w) : v = w := by
  rw [← ofParts_parts v, h, ofParts_parts]

variable (v w : Float)

theorem add_eq : v + w = ofParts (UnpackedFloat.add .binary64 (parts v) (parts w)) := rfl

theorem sub_eq : v - w = ofParts (UnpackedFloat.sub .binary64 (parts v) (parts w)) := rfl

theorem mul_eq : v * w = ofParts (UnpackedFloat.mul .binary64 (parts v) (parts w)) := rfl

theorem div_eq : v / w = ofParts (UnpackedFloat.div .binary64 (parts v) (parts w)) := rfl

theorem neg_eq : -v = ofParts (UnpackedFloat.neg (parts v)) := rfl

theorem parts_one : parts (Scalar.ofNat 1) = .finite .positive (2 ^ 52) (-52) (by decide) := rfl

theorem parts_zero : parts (Scalar.ofNat 0) = .zero .positive := rfl

theorem Sign.positive_mul (s : Sign) : Sign.positive * s = s := by cases s <;> rfl

theorem Sign.mul_positive (s : Sign) : s * Sign.positive = s := by cases s <;> rfl

theorem ofNat_one_mul : Scalar.ofNat 1 * v = v := by
  rw [mul_eq, parts_one]
  conv_rhs => rw [← ofParts_parts v]
  congr 1
  cases h : parts v with
  | infinity s => simp only [UnpackedFloat.mul, Sign.positive_mul]
  | notANumber => rfl
  | zero s => simp only [UnpackedFloat.mul, Sign.positive_mul]
  | finite s m e hm =>
    simp only [UnpackedFloat.mul, Sign.positive_mul, mul_comm _ m, ← sub_eq_neg_add]
    exact roundWithAccuracy_exact s hm (isStandard_of_parts h) 52

theorem mul_ofNat_one : v * Scalar.ofNat 1 = v := by
  rw [mul_eq, parts_one]
  conv_rhs => rw [← ofParts_parts v]
  congr 1
  cases h : parts v with
  | infinity s => simp only [UnpackedFloat.mul, Sign.mul_positive]
  | notANumber => rfl
  | zero s => simp only [UnpackedFloat.mul, Sign.mul_positive]
  | finite s m e hm =>
    simp only [UnpackedFloat.mul, Sign.mul_positive, ← sub_eq_add_neg]
    exact roundWithAccuracy_exact s hm (isStandard_of_parts h) 52

theorem same_eq : Scalar.same v w = UnpackedFloat.beq (parts v) (parts w) := rfl

theorem below_eq : Scalar.below v w = UnpackedFloat.lt (parts v) (parts w) := by
  change decide (v.lt w = true) = _
  rw [Bool.decide_eq_true]
  change decide (v.toModel.lt w.toModel = true) = _
  rw [Bool.decide_eq_true]
  rfl

theorem isZero_iff : Scalar.isZero v = true ↔ ∃ s, parts v = .zero s := by
  rw [Scalar.isZero, same_eq, parts_zero]
  cases h : parts v with
  | infinity s => cases s <;> simp [UnpackedFloat.beq, UnpackedFloat.compare]
  | notANumber => simp [UnpackedFloat.beq, UnpackedFloat.compare]
  | zero s => simp [UnpackedFloat.beq, UnpackedFloat.compare]
  | finite s m e hm => cases s <;> simp [UnpackedFloat.beq, UnpackedFloat.compare]

theorem isFinite_iff : v.isFinite = true ↔
    (∃ s, parts v = .zero s) ∨ ∃ s m e hm, parts v = .finite s m e hm := by
  change (parts v).isFinite = true ↔ _
  cases parts v with
  | infinity s => simp [UnpackedFloat.isFinite]
  | notANumber => simp [UnpackedFloat.isFinite]
  | zero s => simp [UnpackedFloat.isFinite]
  | finite s m e hm => simp [UnpackedFloat.isFinite, hm]

theorem neg_neg_eq : - -v = v := by
  have hsign (s : Sign) : - -s = s := by cases s <;> rfl
  rw [neg_eq, neg_eq]
  conv_rhs => rw [← ofParts_parts v]
  cases h : parts v with
  | infinity s => cases s <;> rfl
  | notANumber => rfl
  | zero s => simp only [UnpackedFloat.neg, parts_ofParts_zero, hsign]
  | finite s m e hm =>
    simp only [UnpackedFloat.neg, parts_ofParts_finite _ hm (isStandard_of_parts h), hsign]

variable {v w}

theorem parts_neg {s : Sign} {m : ℕ} {e : ℤ} {hm : 0 < m} (h : parts v = .finite s m e hm) :
    parts (-v) = .finite (-s) m e hm := by
  rw [neg_eq, h]
  exact parts_ofParts_finite _ hm (isStandard_of_parts h)

theorem isPositive_of_parts {m : ℕ} {e : ℤ} {hm : 0 < m}
    (h : parts v = .finite .positive m e hm) :
    Scalar.isPositive v = true ∧ Scalar.isNegative v = false := by
  rw [Scalar.isPositive, Scalar.isNegative, below_eq, below_eq, parts_zero, h]
  exact ⟨rfl, rfl⟩

theorem isPositive_of_parts_negative {m : ℕ} {e : ℤ} {hm : 0 < m}
    (h : parts v = .finite .negative m e hm) :
    Scalar.isPositive v = false ∧ Scalar.isNegative v = true := by
  rw [Scalar.isPositive, Scalar.isNegative, below_eq, below_eq, parts_zero, h]
  exact ⟨rfl, rfl⟩

theorem isPositive_of_parts_zero {s : Sign} (h : parts v = .zero s) :
    Scalar.isPositive v = false ∧ Scalar.isNegative v = false := by
  rw [Scalar.isPositive, Scalar.isNegative, below_eq, below_eq, parts_zero, h]
  exact ⟨rfl, rfl⟩

theorem add_zero_of_parts {s : Sign} {m : ℕ} {e : ℤ} {hm : 0 < m}
    (h : parts v = .finite s m e hm) : v + Scalar.ofNat 0 = v := by
  rw [add_eq, parts_zero, h]
  exact eq_of_parts ((parts_ofParts_finite s hm (isStandard_of_parts h)).trans h.symm)

theorem add_zero_of_isZero {s : Sign} (h : parts v = .zero s) :
    v + Scalar.ofNat 0 = Scalar.ofNat 0 := by
  rw [add_eq, parts_zero, h]
  cases s <;> rfl

theorem isFinite_add_zero (h : v.isFinite = true) : (v + Scalar.ofNat 0).isFinite = true := by
  rcases (isFinite_iff v).mp h with ⟨s, hparts⟩ | ⟨s, m, e, hm, hparts⟩
  · rw [add_zero_of_isZero hparts]
    rfl
  · rwa [add_zero_of_parts hparts]

end Parts

section Whole

variable {m n : ℕ} {e : ℤ}

theorem pos_of_whole (hm : 0 < m) (hn : n * 2 ^ (-e).toNat = m * 2 ^ e.toNat) : 0 < n := by
  by_contra h
  have hzero : m * 2 ^ e.toNat = 0 := by rw [← hn, Nat.eq_zero_of_not_pos h, zero_mul]
  exact absurd hzero (by positivity)

theorem log2_of_whole (hm : 0 < m) (hn : n * 2 ^ (-e).toNat = m * 2 ^ e.toNat) :
    (n.log2 : ℤ) = m.log2 + e := by
  have hlog := congrArg Nat.log2 hn
  rw [log2_mul_two_pow (pos_of_whole hm hn), log2_mul_two_pow hm] at hlog
  omega

/-- A whole number with a standard form is rounded to this form. -/
theorem round_whole (s : Sign) (hm : 0 < m) (h : IsStandard m e)
    (hn : n * 2 ^ (-e).toNat = m * 2 ^ e.toNat) :
    UnpackedFloat.round .binary64 s n 0 = .finite s m e hm := by
  have htarget : Format.binary64.targetExponent (totalExponent n 0) = e := by
    rw [← targetExponent_of_isStandard hm h, totalExponent, totalExponent, log2_of_whole hm hn]
    congr 1
    ring
  have hshift : n <<< (-e).toNat = m * 2 ^ e.toNat := by rw [Nat.shiftLeft_eq, hn]
  have hexponent : (0 : ℤ) - (-e).toNat = e - e.toNat := by omega
  simp only [UnpackedFloat.round, UnpackedFloat.decreaseExponent, htarget, zero_sub, hshift]
  rw [← zero_sub, hexponent]
  exact roundWithAccuracy_exact s hm h e.toNat

theorem toFloat_whole (hm : 0 < m) (h : IsStandard m e)
    (hn : n * 2 ^ (-e).toNat = m * 2 ^ e.toNat) (hlt : n < 2 ^ 64) :
    n.toUInt64.toFloat = ofParts (.finite .positive m e hm) := by
  have hnat : n.toUInt64.toNat = n := Nat.mod_eq_of_lt hlt
  have hcompare : compare (n : ℤ) 0 = .gt :=
    Int.compare_eq_gt.mpr (Int.natCast_pos.mpr (pos_of_whole hm hn))
  change ofParts (UnpackedFloat.normalize .binary64 (n.toUInt64.toNat : ℤ) 0 .positive) = _
  rw [hnat, UnpackedFloat.normalize, hcompare]
  exact congrArg ofParts (round_whole .positive hm h hn)

end Whole

end PartialFractions.Number
