import Mathlib
import PartialFractions.Text.Blank
import PartialFractions.Text.DecimalDigit
import PartialFractions.Text.Word

/-!
Digits among the other classes of characters: a digit of any script is a word character, and no
word character is blank. The tables are compared row by row, one row of ten digits at a time.
-/
namespace PartialFractions.Text

/-- A code point in one of ascending ranges is in the set that they make. -/
theorem inRanges_of_mem {ranges : List (Nat × Nat)} (hchain : ranges.Pairwise (·.1 ≤ ·.1))
    {n : Nat} {r : Nat × Nat} (hr : r ∈ ranges) (hlow : r.1 ≤ n) (hhigh : n ≤ r.2) :
    inRanges ranges n = true := by
  induction ranges with
  | nil => simp at hr
  | cons first rest ih =>
    obtain ⟨low, high⟩ := first
    obtain ⟨hfirst, hrest⟩ := List.pairwise_cons.mp hchain
    rcases List.mem_cons.mp hr with rfl | hr
    · simp [inRanges, Nat.not_lt.mpr hlow, hhigh]
    · have hle : low ≤ n := (hfirst r hr).trans hlow
      simp [inRanges, Nat.not_lt.mpr hle, ih hrest hr]

/-- A search through the ranges ends in a range that holds the number. -/
theorem exists_mem_of_inRanges {ranges : List (Nat × Nat)} {n : Nat}
    (h : inRanges ranges n = true) : ∃ r ∈ ranges, r.1 ≤ n ∧ n ≤ r.2 := by
  induction ranges with
  | nil => simp [inRanges] at h
  | cons first rest ih =>
    obtain ⟨low, high⟩ := first
    simp only [inRanges] at h
    split at h
    · cases h
    · rename_i hlow
      by_cases hhigh : n ≤ high
      · exact ⟨(low, high), List.mem_cons_self .., Nat.not_lt.mp hlow, hhigh⟩
      · simp only [hhigh, decide_false, Bool.false_or] at h
        obtain ⟨r, hr, hn⟩ := ih h
        exact ⟨r, List.mem_cons_of_mem _ hr, hn⟩

/-- The rows of ten code points that are left when those inside the ranges are taken off the front,
one range after the other. -/
def rowsLeft (ranges : List (Nat × Nat)) (rows : List Nat) : List Nat :=
  ranges.foldl (fun rows r => rows.dropWhile fun z => r.1 ≤ z && z + 9 ≤ r.2) rows

theorem exists_range_of_rowsLeft {ranges : List (Nat × Nat)} {rows : List Nat}
    (h : rowsLeft ranges rows = []) : ∀ z ∈ rows, ∃ r ∈ ranges, r.1 ≤ z ∧ z + 9 ≤ r.2 := by
  induction ranges generalizing rows with
  | nil =>
    intro z hz
    rw [rowsLeft, List.foldl_nil] at h
    simp [h] at hz
  | cons first rest ih =>
    intro z hz
    rw [← List.takeWhile_append_dropWhile (l := rows)
      (p := fun z => first.1 ≤ z && z + 9 ≤ first.2)] at hz
    rcases List.mem_append.mp hz with hz | hz
    · have hin := List.mem_takeWhile_imp hz
      simp only [Bool.and_eq_true, decide_eq_true_eq] at hin
      exact ⟨first, List.mem_cons_self .., hin⟩
    · obtain ⟨r, hr, hin⟩ := ih h z hz
      exact ⟨r, List.mem_cons_of_mem _ hr, hin⟩

theorem wordRanges_ascending : wordRanges.Pairwise (·.1 ≤ ·.1) := by
  have hchain : (wordRanges.map Prod.fst).IsChain (· ≤ ·) := by decide +kernel
  exact List.pairwise_map.mp (List.isChain_iff_pairwise.mp hchain)

theorem digitZeros_within_words : rowsLeft wordRanges digitZeros = [] := by decide +kernel

theorem wordRanges_beside_blanks :
    ∀ b ∈ (0x1c, 0x1f) :: spaceRanges, ∀ w ∈ wordRanges, w.2 < b.1 ∨ b.2 < w.1 := by
  decide +kernel

theorem exists_blank_range {c : Char} (h : isBlank c = true) :
    ∃ b ∈ (0x1c, 0x1f) :: spaceRanges, b.1 ≤ c.toNat ∧ c.toNat ≤ b.2 := by
  rcases Bool.or_eq_true_iff.mp h with hspace | hseparator
  · obtain ⟨b, hb, hin⟩ := exists_mem_of_inRanges hspace
    exact ⟨b, List.mem_cons_of_mem _ hb, hin⟩
  · simp only [Bool.and_eq_true, decide_eq_true_eq] at hseparator
    exact ⟨(0x1c, 0x1f), List.mem_cons_self .., hseparator⟩

theorem isBlank_of_isWordChar {c : Char} (h : isWordChar c = true) : isBlank c = false := by
  by_contra hblank
  obtain ⟨b, hb, hlow, hhigh⟩ := exists_blank_range (Bool.not_eq_false _ ▸ hblank)
  obtain ⟨w, hw, hwlow, hwhigh⟩ := exists_mem_of_inRanges h
  have hbeside := wordRanges_beside_blanks b hb w hw
  omega

theorem isWordChar_of_isDigit {c : Char} (h : isDigit c = true) : isWordChar c = true := by
  obtain ⟨d, hd⟩ := Option.isSome_iff_exists.mp h
  obtain ⟨z, hz, hc⟩ := exists_zero_of_digit? hd
  obtain ⟨r, hr, hlow, hhigh⟩ := exists_range_of_rowsLeft digitZeros_within_words z hz
  have hlt := digit?_lt hd
  exact inRanges_of_mem wordRanges_ascending hr (by omega) (by omega)

theorem isBlank_of_isDigit {c : Char} (h : isDigit c = true) : isBlank c = false :=
  isBlank_of_isWordChar (isWordChar_of_isDigit h)

/-- No digit of any script is an ASCII letter. -/
theorem isAlpha_of_isDigit {c : Char} (h : isDigit c = true) : c.isAlpha = false := by
  obtain ⟨d, hd⟩ := Option.isSome_iff_exists.mp h
  obtain ⟨z, hz, hc⟩ := exists_zero_of_digit? hd
  have hlt := digit?_lt hd
  have hrows : ∀ z ∈ digitZeros, z + 9 < 65 ∨ 122 < z := by decide
  have hz := hrows z hz
  have hval : c.val.toNat = z + d := hc
  by_contra halpha
  simp only [Char.isAlpha, Char.isUpper, Char.isLower, Bool.not_eq_false, Bool.or_eq_true,
    Bool.and_eq_true, decide_eq_true_eq, ge_iff_le, UInt32.le_iff_toNat_le, hval,
    Char.reduceVal, UInt32.reduceToNat] at halpha
  omega

section Digits

theorem isDigit_one : isDigit '1' = true := by decide

theorem isDigit_two : isDigit '2' = true := by decide

theorem isDigit_three : isDigit '3' = true := by decide

theorem isDigit_four : isDigit '4' = true := by decide

theorem isDigit_five : isDigit '5' = true := by decide

theorem isDigit_of_mem_singleton {c : Char} (h : isDigit c = true) :
    ∀ d ∈ [c], isDigit d = true :=
  List.forall_mem_singleton.mpr h

end Digits

end PartialFractions.Text
