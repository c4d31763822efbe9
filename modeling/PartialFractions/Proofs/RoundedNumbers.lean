import PartialFractions.Proofs.FactorizationInvariants
import PartialFractions.Proofs.NumberTexts

/-!
The texts of numbers in a formula, rounded or not. Behind a minus sign, which only negative numbers
have, stands a row of digits or the name of what is no finite number.
-/
namespace PartialFractions.Number

open Float.Model Float.Model.UnpackedFloat

/-- What stands behind the sign of a number: it begins with no other sign and holds no braces. -/
structure IsUnsigned (s : List Char) : Prop where
  head : ∃ c ∈ s.head?, c ≠ '-'
  open_notMem : '\x7b' ∉ s
  close_notMem : '\x7d' ∉ s

theorem IsMagnitude.isUnsigned {s : List Char} (h : IsMagnitude s) : IsUnsigned s where
  head := by
    obtain ⟨c, hc, hdigit⟩ := h.head
    refine ⟨c, hc, ?_⟩
    rintro rfl
    exact absurd hdigit (by decide)
  open_notMem hmem := absurd (h.mem _ hmem) (by decide)
  close_notMem hmem := absurd (h.mem _ hmem) (by decide)

theorem isUnsigned_zero : IsUnsigned ['0'] := ⟨⟨'0', rfl, by decide⟩, by decide, by decide⟩

theorem isUnsigned_infinity : IsUnsigned ['i', 'n', 'f'] :=
  ⟨⟨'i', rfl, by decide⟩, by decide, by decide⟩

theorem isUnsigned_undefined : IsUnsigned ['n', 'a', 'n'] :=
  ⟨⟨'n', rfl, by decide⟩, by decide, by decide⟩

variable {precision : ℤ} {s : List Char}

theorem significantCount_eq_ok (hlow : 0 ≤ precision) (hhigh : precision < 2147483648) :
    significantCount precision = .ok precision.toNat := by
  have h₁ : ¬ precision < 0 := not_lt.mpr hlow
  have h₂ : ¬ (power 2 63 : ℤ) ≤ precision := by
    have hpower : (power 2 63 : ℤ) = 9223372036854775808 := rfl
    omega
  have h₃ : ¬ (power 2 31 : ℤ) ≤ precision := by
    have hpower : (power 2 31 : ℤ) = 2147483648 := rfl
    omega
  rw [significantCount, if_neg h₁, if_neg h₂, if_neg h₃]

theorem significantCount_ne_ok (h : 2147483648 ≤ precision) (count : ℕ) :
    significantCount precision ≠ .ok count := by
  have hpower : (power 2 31 : ℤ) = 2147483648 := rfl
  unfold significantCount
  split_ifs
  · nofun
  · nofun
  · nofun
  · omega

/-- A number that is not finite has one text, whatever the precision. -/
theorem roundedChars_of_ne_finite {b : Binary} (hb : ∀ negative m q, b ≠ .finite negative m q)
    (h : roundedChars precision b = .ok s) : s = formulaChars b := by
  unfold roundedChars at h
  split at h
  · rename_i negative m q
    exact absurd rfl (hb negative m q)
  · split at h
    · exact (Except.ok.inj h).symm
    · obtain ⟨_, _, h⟩ := bind_eq_ok.mp h
      exact (Except.ok.inj h).symm

theorem roundedChars_zero {negative : Bool} {q : ℤ}
    (h : roundedChars precision (.finite negative 0 q) = .ok s) : s = ['0'] := by
  have hwhole : Binary.isWhole 0 q = true := by simp [Binary.isWhole]
  simp only [roundedChars, hwhole, Bool.true_or, if_true, formulaChars_zero] at h
  exact (Except.ok.inj h).symm

theorem formulaChars_finite {negative : Bool} {m : ℕ} {q : ℤ} (hm : m ≠ 0) :
    ∃ t, IsMagnitude t ∧
      formulaChars (.finite negative m q) = (if negative then ['-'] else []) ++ t := by
  cases hwhole : Binary.isWhole m q with
  | true =>
    refine ⟨_, ?_, formulaChars_whole hm hwhole _⟩
    exact isMagnitude_digits Nat.toDigits_ne_nil (isDigit_toDigits _)
  | false => exact ⟨_, isMagnitude_write .., formulaChars_fraction hwhole _⟩

/-- A finite number is written as a magnitude, with a minus sign in front of it if it is negative.
-/
theorem roundedChars_finite {negative : Bool} {m : ℕ} {q : ℤ} (hm : m ≠ 0)
    (h : roundedChars precision (.finite negative m q) = .ok s) :
    ∃ t, IsMagnitude t ∧ s = (if negative then ['-'] else []) ++ t := by
  unfold roundedChars at h
  split at h
  · rename_i heq
    cases heq
    split at h
    · obtain rfl := Except.ok.inj h
      exact formulaChars_finite hm
    · obtain ⟨count, -, h⟩ := bind_eq_ok.mp h
      obtain rfl := Except.ok.inj h
      refine ⟨_, isMagnitude_write (roundedLayout count) (significant m q count), ?_⟩
      cases negative <;> rfl
  · rename_i hne
    exact absurd rfl (hne negative m q)

variable {v : Float} {text : String}

theorem ofFloat_of_notANumber (h : parts v = .notANumber) : Binary.ofFloat v = .undefined := by
  change v.toModel.unpack = _ at h
  rw [Binary.ofFloat, h]

theorem ofFloat_of_infinity {sign : Sign} (h : parts v = .infinity sign) :
    Binary.ofFloat v = .infinite (sign == .negative) := by
  change v.toModel.unpack = _ at h
  rw [Binary.ofFloat, h]
  cases sign <;> rfl

/-- A minus sign is in front of the negative numbers only. -/
theorem exists_unsigned (h : Scalar.roundedText precision v = .ok text) :
    ∃ t, IsUnsigned t ∧ text.toList = (if Scalar.isNegative v then ['-'] else []) ++ t := by
  obtain ⟨s, hs, rfl⟩ : ∃ s, roundedChars precision (.ofFloat v) = .ok s ∧
      String.ofList s = text := map_eq_ok.mp h
  rw [String.toList_ofList]
  cases hparts : parts v with
  | notANumber =>
    have hsign : Scalar.isNegative v = false := by
      rw [Scalar.isNegative, below_eq, hparts]
      rfl
    rw [ofFloat_of_notANumber hparts] at hs
    rw [roundedChars_of_ne_finite (by simp) hs, hsign]
    exact ⟨_, isUnsigned_undefined, rfl⟩
  | infinity sign =>
    have hsign : Scalar.isNegative v = (sign == .negative) := by
      rw [Scalar.isNegative, below_eq, hparts, parts_zero]
      cases sign <;> rfl
    rw [ofFloat_of_infinity hparts] at hs
    rw [roundedChars_of_ne_finite (by simp) hs, hsign]
    refine ⟨_, isUnsigned_infinity, ?_⟩
    cases sign <;> rfl
  | zero sign =>
    obtain ⟨negative, hbinary⟩ := Binary.ofFloat_zero hparts
    rw [hbinary] at hs
    refine ⟨['0'], isUnsigned_zero, ?_⟩
    rw [roundedChars_zero hs, (isPositive_of_parts_zero hparts).2]
    rfl
  | finite sign m e hm =>
    rw [ofFloat_of_parts hparts] at hs
    obtain ⟨t, ht, rfl⟩ := roundedChars_finite hm.ne' hs
    refine ⟨t, ht.isUnsigned, ?_⟩
    cases sign with
    | positive =>
      rw [(isPositive_of_parts hparts).2]
      rfl
    | negative =>
      rw [(isPositive_of_parts_negative hparts).2]
      rfl

/-- The negation of a negative number is not negative. -/
theorem isNegative_neg (h : Scalar.isNegative v = true) : Scalar.isNegative (-v) = false := by
  cases hparts : parts v with
  | notANumber =>
    rw [Scalar.isNegative, below_eq, hparts] at h
    cases h
  | infinity sign =>
    rw [Scalar.isNegative, below_eq, neg_eq, hparts]
    rw [Scalar.isNegative, below_eq, hparts] at h
    cases sign with
    | positive => cases h
    | negative => rfl
  | zero sign =>
    rw [(isPositive_of_parts_zero hparts).2] at h
    cases h
  | finite sign m e hm =>
    cases sign with
    | positive =>
      rw [(isPositive_of_parts hparts).2] at h
      cases h
    | negative => exact (isPositive_of_parts (parts_neg hparts)).2

end PartialFractions.Number
