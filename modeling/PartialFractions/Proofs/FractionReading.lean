import Mathlib.Data.List.Basic
import Mathlib.Data.List.TakeWhile
import Mathlib.Tactic.Common
import PartialFractions.Fraction
import PartialFractions.Proofs.Spacing

/-!
The first fraction of a text. The command of a fraction begins with a backslash and has no other
one, so it cannot begin in the text in front of the first command and end behind it. Of two commands
the earlier one begins no fraction if no brace opens behind it.
-/
namespace PartialFractions.Fraction

open Text

variable {blanks rest : List Char}

theorem opened?_append (hblanks : ∀ c ∈ blanks, isBlank c = true) :
    opened? (blanks ++ '\x7b' :: rest) = some rest := by
  have hdrop : (blanks ++ '\x7b' :: rest).dropWhile isBlank = '\x7b' :: rest := by
    rw [List.dropWhile_append_of_pos hblanks]
    exact List.dropWhile_cons_of_neg (by decide)
  simp [opened?, hdrop]

theorem opened?_eq_some {s : List Char} (h : opened? s = some rest) :
    ∃ blanks, (∀ c ∈ blanks, isBlank c = true) ∧ s = blanks ++ '\x7b' :: rest := by
  refine ⟨s.takeWhile isBlank, fun c hc => List.mem_takeWhile_imp hc, ?_⟩
  have hs := List.takeWhile_append_dropWhile (p := isBlank) (l := s)
  unfold opened? at h
  split at h
  · rename_i inner hdrop
    rw [hdrop, Option.some.inj h] at hs
    exact hs.symm
  · cases h

theorem denominator?_append {denominator suffix : List Char}
    (hblanks : ∀ c ∈ blanks, isBlank c = true) (hclosed : '\x7d' ∉ denominator) :
    denominator? (blanks ++ '\x7b' :: (denominator ++ '\x7d' :: suffix)) = some denominator := by
  simp [denominator?, opened?_append hblanks, cut?_append hclosed]

theorem arguments?_append {numerator denominator : List Char} (hclosed : '\x7d' ∉ numerator)
    (hdenominator : denominator? rest = some denominator) :
    arguments? (numerator ++ '\x7d' :: rest) = some (numerator, denominator) := by
  induction numerator with
  | nil => simp [arguments?, hdenominator]
  | cons c numerator ih =>
    simp only [List.mem_cons, not_or] at hclosed
    obtain ⟨hc, hnumerator⟩ := hclosed
    simp [arguments?, Ne.symm hc, ih hnumerator]

theorem here?_command (rest : List Char) :
    here? (command ++ rest) = (opened? rest).bind arguments? := by
  rw [here?, List.isPrefixOf?_eq_some_iff_append_eq.mpr rfl, Option.bind_some]

/-- Somewhere in the text a brace opens behind the mark, with nothing but blanks between them. -/
def OpensBehind (mark s : List Char) : Prop :=
  ∃ before blanks rest, (∀ c ∈ blanks, isBlank c = true) ∧
    s = before ++ (mark ++ (blanks ++ '\x7b' :: rest))

section Opening

variable {mark s rest after before blanks tail : List Char} {c : Char}

theorem OpensBehind.cons (h : OpensBehind mark s) (c : Char) : OpensBehind mark (c :: s) := by
  obtain ⟨before, blanks, rest, hblanks, rfl⟩ := h
  exact ⟨c :: before, blanks, rest, hblanks, rfl⟩

theorem not_opensBehind_of_notMem (h : '\x7b' ∉ s) : ¬ OpensBehind mark s := by
  rintro ⟨before, blanks, rest, -, rfl⟩
  exact h (by simp)

/-- The brace that opens behind an earlier mark does so in front of the next one. -/
theorem opensBehind_of_shorter (hc : c ∉ tail) (hblank : isBlank c = false) (hbrace : c ≠ '\x7b')
    (hblanks : ∀ d ∈ blanks, isBlank d = true)
    (h : before ++ (c :: tail ++ (blanks ++ '\x7b' :: rest)) = s ++ c :: after)
    (hlt : before.length < s.length) : OpensBehind (c :: tail) s := by
  rcases List.append_eq_append_iff.mp h with ⟨t, rfl, ht⟩ | ⟨t, rfl, -⟩
  · cases t with
    | nil => simp at hlt
    | cons d t =>
      obtain ⟨rfl, ht⟩ := List.cons.inj ht
      have hnotMem : c ∉ tail ++ (blanks ++ ['\x7b']) := by
        have hcblanks : c ∉ blanks := by
          intro hmem
          rw [hblanks c hmem] at hblank
          cases hblank
        simp [hc, hcblanks, hbrace]
      obtain ⟨u, rfl⟩ := exists_eq_append_of_notMem (s := tail ++ (blanks ++ ['\x7b']))
        (by simpa using ht) hnotMem
      exact ⟨before, blanks, u, hblanks, by simp⟩
  · simp only [List.length_append] at hlt
    omega

end Opening

section Commands

variable {before : List Char} {parts : List Char × List Char}

/-- No fraction begins in front of the first command behind which a brace opens. -/
theorem find?_of_unopened (hbefore : ¬ OpensBehind command before)
    (hhere : here? (command ++ rest) = some parts) :
    find? (before ++ (command ++ rest)) = some parts := by
  induction before with
  | nil =>
    have hcons : command ++ rest = '\\' :: (['f', 'r', 'a', 'c'] ++ rest) := rfl
    rw [List.nil_append, hcons, find?, ← hcons, hhere]
    rfl
  | cons c before ih =>
    have hnone : here? (c :: before ++ (command ++ rest)) = none := by
      by_contra hsome
      obtain ⟨_, hsome⟩ := Option.ne_none_iff_exists'.mp hsome
      obtain ⟨behind, hcommand, hsome⟩ := Option.bind_eq_some_iff.mp hsome
      obtain ⟨inside, hopened, -⟩ := Option.bind_eq_some_iff.mp hsome
      obtain ⟨blanks, hblanks, rfl⟩ := opened?_eq_some hopened
      have happend := List.append_eq_of_isPrefixOf?_eq_some hcommand
      have htext : [] ++ (command ++ (blanks ++ '\x7b' :: inside)) =
          c :: before ++ '\\' :: (['f', 'r', 'a', 'c'] ++ rest) := happend
      have hopens : OpensBehind command (c :: before) := opensBehind_of_shorter (by decide)
        (by decide) (by decide) hblanks htext (by simp)
      exact hbefore hopens
    rw [List.cons_append] at hnone ⊢
    rw [find?, hnone]
    exact ih fun h => hbefore (h.cons c)

theorem find?_append_command (hbefore : ¬ command <:+: before)
    (hparts : here? (command ++ rest) = some parts) :
    find? (before ++ (command ++ rest)) = some parts := by
  refine find?_of_unopened ?_ hparts
  rintro ⟨front, blanks, behind, -, rfl⟩
  exact hbefore ⟨front, blanks ++ '\x7b' :: behind, by simp⟩

end Commands

theorem find?_eq_some {before numerator denominator gap : List Char}
    (hbefore : ¬ command <:+: before) (hblanks : ∀ c ∈ blanks, isBlank c = true)
    (hgap : ∀ c ∈ gap, isBlank c = true) (hnumerator : '\x7d' ∉ numerator)
    (hdenominator : '\x7d' ∉ denominator) (suffix : List Char) :
    find? (before ++ (command ++ (blanks ++ '\x7b' :: (numerator ++ '\x7d' ::
      (gap ++ '\x7b' :: (denominator ++ '\x7d' :: suffix)))))) = some (numerator, denominator) := by
  apply find?_append_command hbefore
  rw [here?_command, opened?_append hblanks, Option.bind_some]
  exact arguments?_append hnumerator (denominator?_append hgap hdenominator)

end PartialFractions.Fraction
