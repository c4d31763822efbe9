import Mathlib
import PartialFractions.Label

/-!
Labels tell their numbers apart. The letter of a label is the remainder of its number modulo 26 and
the digits behind it are the quotient; the numbers below 26 have no digits.
-/
namespace PartialFractions.Label

theorem toList_ofNat (index : Nat) :
    (ofNat index).toList = Char.ofNat (65 + index % 26) ::
      if index / 26 = 0 then [] else Nat.toDigits 10 (index / 26) := by
  simp [ofNat]

theorem toNat_letter (index : Nat) :
    (Char.ofNat (65 + index % 26)).toNat = 65 + index % 26 := by
  have hlt : index % 26 < 26 := Nat.mod_lt _ (by omega)
  have hvalid : (65 + index % 26).isValidChar := Or.inl (by omega)
  simp only [Char.ofNat, hvalid, Char.ofNatAux, Char.toNat, UInt32.toNat, BitVec.toNat_ofNatLT,
    dite_true]

/-- A label begins with a capital letter. -/
theorem ofNat_ne_of_toList (index : Nat) {c : Char} {s : String} (hs : s.toList = [c])
    (hc : c.toNat < 65 ∨ 90 < c.toNat) : ofNat index ≠ s := by
  rintro rfl
  rw [toList_ofNat] at hs
  have hletter := congrArg Char.toNat (List.cons.inj hs).1
  rw [toNat_letter] at hletter
  omega

theorem ofNat_ne_x (index : Nat) : ofNat index ≠ "x" :=
  ofNat_ne_of_toList index (c := 'x') rfl (by decide)

theorem ofNat_ne_minus (index : Nat) : ofNat index ≠ "-" :=
  ofNat_ne_of_toList index (c := '-') rfl (by decide)

private theorem eq_of_cycleText {p q : Nat}
    (h : (if p = 0 then [] else Nat.toDigits 10 p) = if q = 0 then [] else Nat.toDigits 10 q) :
    p = q := by
  by_cases hp : p = 0 <;> by_cases hq : q = 0
  · rw [hp, hq]
  · simp only [hp, hq, if_true, if_false] at h
    exact absurd h.symm Nat.toDigits_ne_nil
  · simp only [hp, hq, if_true, if_false] at h
    exact absurd h Nat.toDigits_ne_nil
  · simp only [hp, hq, if_false] at h
    have hvalue := congrArg (Nat.ofDigitChars 10 · 0) h
    simpa only [Nat.ofDigitChars_ten_toDigits] using hvalue

theorem ofNat_injective : Function.Injective ofNat := by
  intro i j h
  have hlist := congrArg String.toList h
  rw [toList_ofNat, toList_ofNat] at hlist
  obtain ⟨hletter, hcycle⟩ := List.cons.inj hlist
  have hrem := congrArg Char.toNat hletter
  rw [toNat_letter, toNat_letter] at hrem
  have hquot : i / 26 = j / 26 := eq_of_cycleText hcycle
  omega

end PartialFractions.Label
