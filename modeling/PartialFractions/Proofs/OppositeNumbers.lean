import PartialFractions.Proofs.FiniteNumbers

/-!
Opposite numbers. Rounding and packing do not look at the sign, so a quotient by the opposite of a
number is the opposite quotient, and the two differences of different numbers are opposite.
-/
namespace PartialFractions.Number

open Float.Model
open Float.Model.UnpackedFloat (Sign Accuracy packComponents)

section Packed

theorem unpack_packComponents_neg (s : Sign) (E : BitVec 11) (M : BitVec 52) :
    UnpackedFloat.unpack .binary64 (packComponents .binary64 (-s) E M) =
      (UnpackedFloat.unpack .binary64 (packComponents .binary64 s E M)).neg := by
  simp only [UnpackedFloat.unpack, UnpackedFloat.unpackMantissa_packComponents,
    UnpackedFloat.unpackExponent_packComponents, ofBitVec_unpackSign]
  split
  · split <;> rfl
  · split
    · split <;> rfl
    · rfl

/-- The sign of a finite number is packed apart from its exponent and its mantissa. -/
theorem exists_packComponents {m : ℕ} (e : ℤ) (hm : 0 < m) : ∃ (E : BitVec 11) (M : BitVec 52),
    ∀ s, UnpackedFloat.pack .binary64 (.finite s m e hm) = packComponents .binary64 s E M := by
  simp only [UnpackedFloat.pack]
  split
  · exact ⟨-1#11, 0#52, fun s => rfl⟩
  · split
    · exact ⟨_, _, fun s => rfl⟩
    · exact ⟨_, _, fun s => rfl⟩

/-- Packing and unpacking does not look at the sign. -/
theorem parts_ofParts_neg (u : UnpackedFloat) :
    parts (ofParts u.neg) = (parts (ofParts u)).neg := by
  cases u with
  | notANumber => rfl
  | infinity s => cases s <;> rfl
  | zero s => cases s <;> rfl
  | finite s m e hm =>
    obtain ⟨E, M, hpack⟩ := exists_packComponents e hm
    change UnpackedFloat.unpack .binary64 (UnpackedFloat.pack .binary64 (.finite (-s) m e hm)) =
      (UnpackedFloat.unpack .binary64 (UnpackedFloat.pack .binary64 (.finite s m e hm))).neg
    rw [hpack, hpack]
    exact unpack_packComponents_neg s E M

theorem ofParts_neg (u : UnpackedFloat) : ofParts u.neg = -ofParts u := by
  rw [neg_eq, ← parts_ofParts_neg, ofParts_parts]

theorem parts_neg_eq (v : Float) : parts (-v) = (parts v).neg := by
  rw [neg_eq, parts_ofParts_neg, ofParts_parts]

end Packed

section Rounded

variable {m : ℕ} {e : ℤ}

theorem roundWithAccuracy_neg (s : Sign) (m : ℕ) (e : ℤ) (accuracy : Accuracy) :
    UnpackedFloat.roundWithAccuracy .binary64 (-s) m e accuracy =
      (UnpackedFloat.roundWithAccuracy .binary64 s m e accuracy).neg := by
  simp only [UnpackedFloat.roundWithAccuracy]
  split <;> rfl

/-- A number other than zero is rounded like its opposite. -/
theorem normalize_neg {m : ℤ} (hm : m ≠ 0) (e : ℤ) (s : Sign) :
    UnpackedFloat.normalize .binary64 (-m) e s =
      (UnpackedFloat.normalize .binary64 m e s).neg := by
  have hround (t : Sign) (n : ℕ) : UnpackedFloat.round .binary64 (-t) n e =
      (UnpackedFloat.round .binary64 t n e).neg := roundWithAccuracy_neg t _ _ _
  unfold UnpackedFloat.normalize
  rcases lt_or_gt_of_ne hm with hneg | hpos
  · rw [Int.compare_eq_lt.mpr hneg, Int.compare_eq_gt.mpr (by omega)]
    exact hround .negative _
  · rw [Int.compare_eq_gt.mpr hpos, Int.compare_eq_lt.mpr (by omega), neg_neg]
    exact hround .positive _

end Rounded

section Operations

variable {v w : Float}

/-- The two differences of different numbers are opposite. -/
theorem sub_eq_neg_sub (h : Scalar.same v w = false) : w - v = -(v - w) := by
  rw [same_eq] at h
  rw [sub_eq, sub_eq, ← ofParts_neg]
  congr 1
  cases hv : parts v with
  | notANumber => cases parts w <;> rfl
  | infinity s =>
    cases hw : parts w with
    | infinity t => cases s <;> cases t <;> rfl
    | _ => rfl
  | zero s =>
    cases hw : parts w with
    | zero t =>
      rw [hv, hw] at h
      cases h
    | infinity t => cases t <;> rfl
    | finite t n d hn => cases t <;> rfl
    | notANumber => rfl
  | finite s m e hm =>
    cases hw : parts w with
    | infinity t => cases t <;> rfl
    | finite t n d hn =>
      rw [hv, hw] at h
      have hdifferent : ¬ (s = t ∧ m = n ∧ e = d) := by
        rintro ⟨rfl, rfl, rfl⟩
        cases s <;> simp [UnpackedFloat.beq, UnpackedFloat.compare] at h
      have hne := exact_difference_ne_zero hm hn (isStandard_of_parts hv) (isStandard_of_parts hw)
        hdifferent
      simp only [UnpackedFloat.sub, UnpackedFloat.decreaseExponent]
      rw [← normalize_neg hne, neg_sub, min_comm]
    | _ => rfl

/-- Division by the opposite number, with the signs of zero and of infinity right. -/
theorem div_neg_eq : v / -w = -(v / w) := by
  rw [div_eq, div_eq, parts_neg_eq, ← ofParts_neg]
  congr 1
  cases parts v with
  | notANumber => cases parts w <;> rfl
  | infinity s =>
    cases parts w with
    | zero t => cases s <;> cases t <;> rfl
    | finite t n d hn => cases s <;> cases t <;> rfl
    | _ => rfl
  | zero s =>
    cases parts w with
    | infinity t => cases s <;> cases t <;> rfl
    | finite t n d hn => cases s <;> cases t <;> rfl
    | _ => rfl
  | finite s m e hm =>
    cases parts w with
    | infinity t => cases s <;> cases t <;> rfl
    | zero t => cases s <;> cases t <;> rfl
    | finite t n d hn =>
      have hsign : s / -t = -(s / t) := by cases s <;> cases t <;> rfl
      simp only [UnpackedFloat.neg, UnpackedFloat.div, hsign]
      exact roundWithAccuracy_neg _ _ _ _
    | notANumber => rfl

end Operations

end PartialFractions.Number
