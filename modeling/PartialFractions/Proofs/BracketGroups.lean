import PartialFractions.Proofs.BracketReading
import PartialFractions.Proofs.TermFronts

/-!
The groups of a denominator: contents in parentheses, with an exponent or not. Every text is cut
into groups from the front. A group begins at the first parenthesis, its content ends at the next
closing one, and its exponent is the longest text that is one, so the cut is the only one there is.
What it leaves open are the gaps, and nothing of the text is lost.
-/
namespace PartialFractions

open Text Number

/-- An exponent as it is spelled. Blanks may stand behind the caret, and each brace may be missing
without the other. -/
structure SpelledExponent where
  blanks : List Char
  opened : Bool
  digits : List Char
  closed : Bool
  isBlank_blanks : ∀ c ∈ blanks, isBlank c = true
  isDigits_digits : IsDigits digits

namespace SpelledExponent

variable {s digits rest after : List Char}

def text (e : SpelledExponent) : List Char :=
  '^' :: (e.blanks ++ ((if e.opened then ['\x7b'] else []) ++
    (e.digits ++ (if e.closed then ['\x7d'] else []))))

def value (e : SpelledExponent) : ℕ := ofDigits (e.digits.filterMap digit?)

/-- The exponent does not go on in the text behind it. -/
def EndsBefore (e : SpelledExponent) (rest : List Char) : Prop :=
  e.closed = false → ∀ c ∈ rest.head?, isDigit c = false ∧ c ≠ '\x7d'

/-- An exponent is read whole when no digit and no closing brace of its own follows. -/
theorem exponent?_text {e : SpelledExponent} (h : e.EndsBefore rest) :
    exponent? (e.text ++ rest) = some (e.digits, rest) := by
  have hclosed : ∀ c ∈ ((if e.closed then ['\x7d'] else []) ++ rest).head?, isDigit c = false := by
    cases hc : e.closed with
    | true =>
      rintro c ⟨⟩
      decide
    | false => exact fun c hmem => (h hc c hmem).1
  have hread := exponent?_digits e.opened e.isBlank_blanks e.isDigits_digits.isDigit_of_mem
    e.isDigits_digits.ne_nil hclosed
  have htext : e.text ++ rest = '^' :: (e.blanks ++ ((if e.opened then ['\x7b'] else []) ++
      (e.digits ++ ((if e.closed then ['\x7d'] else []) ++ rest)))) := by simp [text]
  rw [htext, hread]
  cases hc : e.closed with
  | true => simp
  | false =>
    have hbrace : rest.head? ≠ some '\x7d' := fun hmem => (h hc _ hmem).2 rfl
    simp [hbrace]

/-- What is read as an exponent is spelled as one, up to its end. -/
theorem exists_of_exponent? (h : exponent? s = some (digits, after)) :
    ∃ e : SpelledExponent, s = e.text ++ after ∧ e.digits = digits ∧ e.EndsBefore after := by
  obtain ⟨rest, inner, rfl, hdigits, hne, hbody⟩ := exists_digits_of_exponent? h
  obtain ⟨opened, hbody⟩ : ∃ opened : Bool,
      rest.dropWhile isBlank = (if opened then ['\x7b'] else []) ++ inner := by
    rcases hbody with hbody | hbody
    · exact ⟨true, hbody⟩
    · exact ⟨false, hbody⟩
  have hrest : rest.takeWhile isBlank ++ ((if opened then ['\x7b'] else []) ++
      (digits ++ inner.dropWhile isDigit)) = rest := by
    rw [← hdigits, List.takeWhile_append_dropWhile, ← hbody, List.takeWhile_append_dropWhile]
  let e (closed : Bool) : SpelledExponent :=
    { blanks := rest.takeWhile isBlank
      opened, digits, closed
      isBlank_blanks := fun c hc => List.mem_takeWhile_imp hc
      isDigits_digits := ⟨fun c hc => List.mem_takeWhile_imp (hdigits ▸ hc), hne⟩ }
  -- a brace behind the digits belongs to the exponent
  obtain ⟨closed, behind, htext, hends⟩ : ∃ closed behind,
      '^' :: rest = (e closed).text ++ behind ∧ (e closed).EndsBefore behind := by
    by_cases hclosed : ∃ t, inner.dropWhile isDigit = '\x7d' :: t
    · obtain ⟨t, ht⟩ := hclosed
      refine ⟨true, t, ?_, by simp [EndsBefore, e]⟩
      rw [← hrest, ht]
      simp [text, e]
    · refine ⟨false, inner.dropWhile isDigit, ?_, ?_⟩
      · conv_lhs => rw [← hrest]
        simp [text, e]
      · intro _ c hc
        refine ⟨head?_dropWhile isDigit inner c hc, ?_⟩
        rintro rfl
        exact hclosed (List.head?_eq_some_iff.mp hc)
  have hread := exponent?_text hends
  rw [← htext, h] at hread
  obtain ⟨-, rfl⟩ := Prod.mk.inj (Option.some.inj hread)
  exact ⟨e closed, htext, rfl, hends⟩

end SpelledExponent

structure Group where
  gap : List Char
  content : List Char
  exponent : Option SpelledExponent
  open_notMem : '(' ∉ gap
  close_notMem : ')' ∉ content

def HasGroup (s : List Char) : Prop :=
  ∃ before content after, s = before ++ '(' :: (content ++ ')' :: after)

theorem HasGroup.open_mem {s : List Char} (h : HasGroup s) : '(' ∈ s := by
  obtain ⟨before, content, after, rfl⟩ := h
  simp

namespace Group

variable {s rest last : List Char} {groups : List Group}

def exponentText (g : Group) : List Char := (g.exponent.map SpelledExponent.text).getD []

def text (g : Group) : List Char := g.gap ++ '(' :: (g.content ++ ')' :: g.exponentText)

def multiplicity (g : Group) : ℕ := (g.exponent.map SpelledExponent.value).getD 1

def factor {K : Type} (g : Group) : Factor K := .ofContent (trim g.content) g.multiplicity

def bracket (g : Group) : Bracket := ⟨g.gap, g.content, g.exponent.map SpelledExponent.digits⟩

/-- No longer text is the group: its exponent ends, or none begins behind its content. -/
structure EndsBefore (g : Group) (rest : List Char) : Prop where
  spelled : ∀ e ∈ g.exponent, e.EndsBefore rest
  absent : g.exponent = none → ∀ (e : SpelledExponent) (after : List Char),
    e.EndsBefore after → rest ≠ e.text ++ after

/-- The text is cut into groups, and no group is left behind the last one. -/
inductive Cut : List Char → List Group → List Char → Prop
  | last {s : List Char} (h : ¬ HasGroup s) : Cut s [] s
  | group {g : Group} {rest last : List Char} {groups : List Group} (h : g.EndsBefore rest)
      (hrest : Cut rest groups last) : Cut (g.text ++ rest) (g :: groups) last

/-- Where the text ends, a group does. -/
theorem endsBefore_nil (g : Group) : g.EndsBefore [] where
  spelled _ _ _ c hc := by cases hc
  absent _ e after _ h := by cases h

/-- A group is cut as itself. -/
theorem cut_text (g : Group) : Cut g.text [g] [] := by
  have hnone : ¬ HasGroup [] := fun h => absurd h.open_mem List.not_mem_nil
  have hcut : Cut (g.text ++ []) [g] [] := .group g.endsBefore_nil (.last hnone)
  rwa [List.append_nil] at hcut

theorem hasGroup_text (g : Group) (rest : List Char) : HasGroup (g.text ++ rest) :=
  ⟨g.gap, g.content, g.exponentText ++ rest, by simp [text]⟩

/-- The first bracket of a text that starts with a group is that group. -/
theorem first?_text {g : Group} (h : g.EndsBefore rest) :
    Bracket.first? (g.text ++ rest) = some (g.bracket, rest) := by
  have htext : g.text ++ rest = g.gap ++ '(' :: (g.content ++ ')' :: (g.exponentText ++ rest)) := by
    simp [text]
  simp only [htext, Bracket.first?, cut?_append g.open_notMem, Option.bind_some,
    cut?_append g.close_notMem, Option.map_some]
  cases hexponent : g.exponent with
  | some e =>
    have hread := SpelledExponent.exponent?_text (h.spelled e hexponent)
    simp [exponentText, bracket, hexponent, hread]
  | none =>
    have hread : exponent? rest = none := by
      refine Option.eq_none_iff_forall_ne_some.mpr ?_
      rintro ⟨digits, after⟩ hread
      obtain ⟨e, hs, -, hends⟩ := SpelledExponent.exists_of_exponent? hread
      exact h.absent hexponent e after hends hs
    simp [exponentText, bracket, hexponent, hread]

/-- A text with a group begins with one. -/
theorem exists_of_hasGroup (h : HasGroup s) :
    ∃ (g : Group) (rest : List Char), s = g.text ++ rest ∧ g.EndsBefore rest := by
  obtain ⟨before, content, after, hs⟩ := h
  have hopen : '(' ∈ s := by simp [hs]
  obtain ⟨gap, inside, hcut, hgap⟩ := List.eq_append_cons_of_mem hopen
  have hclose : ')' ∈ inside := by
    obtain ⟨t, rfl⟩ := exists_eq_append_of_notMem (hcut.symm.trans hs) hgap
    rw [hs, List.append_assoc, List.append_cancel_left_eq] at hcut
    cases t with
    | nil =>
      obtain ⟨-, rfl⟩ := List.cons.inj hcut
      simp
    | cons c t =>
      obtain ⟨-, rfl⟩ := List.cons.inj hcut
      simp
  obtain ⟨content, after, rfl, hcontent⟩ := List.eq_append_cons_of_mem hclose
  rw [hcut]
  cases hread : exponent? after with
  | none =>
    refine ⟨⟨gap, content, none, hgap, hcontent⟩, after, by simp [text, exponentText], by simp, ?_⟩
    rintro - e rest hends rfl
    rw [SpelledExponent.exponent?_text hends] at hread
    cases hread
  | some parts =>
    obtain ⟨e, rfl, -, hends⟩ := SpelledExponent.exists_of_exponent? hread
    exact ⟨⟨gap, content, some e, hgap, hcontent⟩, parts.2, by simp [text, exponentText],
      by simpa using hends, by simp⟩

/-- Every text is cut into groups and a rest, by induction on its length. -/
theorem exists_cut (s : List Char) : ∃ groups last, Cut s groups last := by
  induction hlength : s.length using Nat.strong_induction_on generalizing s with
  | _ length ih =>
    by_cases h : HasGroup s
    · obtain ⟨g, rest, rfl, hends⟩ := exists_of_hasGroup h
      have hshorter : rest.length < length := by
        simp only [text, List.length_append, List.length_cons] at hlength
        omega
      obtain ⟨groups, last, hrest⟩ := ih _ hshorter rest rfl
      exact ⟨g :: groups, last, .group hends hrest⟩
    · exact ⟨[], s, .last h⟩

theorem Cut.all_eq (h : Cut s groups last) : Bracket.all s = (groups.map bracket, last) := by
  induction h with
  | last h =>
    refine Bracket.all_of_none (Bracket.first?_of_unclosed ?_)
    rintro before after rfl hmem
    obtain ⟨content, behind, rfl⟩ := List.append_of_mem hmem
    exact h ⟨before, content, behind, rfl⟩
  | group h hrest ih => rw [Bracket.all_of_first? (first?_text h), ih, List.map_cons]

/-- Nothing is lost: the groups and the last gap are the text. -/
theorem Cut.flatten_eq (h : Cut s groups last) : (groups.map text).flatten ++ last = s := by
  induction h with
  | last h => rfl
  | group h hrest ih => rw [List.map_cons, List.flatten_cons, List.append_assoc, ih]

theorem Cut.hasGroup (h : Cut s groups last) (hne : groups ≠ []) : HasGroup s := by
  cases h with
  | last h => exact absurd rfl hne
  | @group g rest _ _ h hrest => exact g.hasGroup_text rest

theorem Cut.ne_nil (h : Cut s groups last) (hgroup : HasGroup s) : groups ≠ [] := by
  cases h with
  | last h => exact absurd hgroup h
  | group h hrest => exact List.cons_ne_nil _ _

end Group

end PartialFractions
