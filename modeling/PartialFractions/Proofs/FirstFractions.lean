import Mathlib.Data.Prod.Lex
import Mathlib.Order.WellFounded
import PartialFractions.Proofs.BracedArguments

/-!
Which fraction of a text is read. Of all the places where the text has a fraction it is the first
one, with the shortest numerator and the shortest denominator there. Nothing opens behind an earlier
command, nor behind a closing brace of the numerator, so what follows the fraction does not matter.
-/
namespace PartialFractions.Fraction

open Text

structure Place where
  before : List Char
  blanks : List Char
  numerator : List Char
  gap : List Char
  denominator : List Char
  suffix : List Char
  isBlank_blanks : ∀ c ∈ blanks, isBlank c = true
  isBlank_gap : ∀ c ∈ gap, isBlank c = true

namespace Place

def inside (p : Place) : List Char := p.denominator ++ '\x7d' :: p.suffix

def arguments (p : Place) : List Char := p.numerator ++ '\x7d' :: (p.gap ++ '\x7b' :: p.inside)

def text (p : Place) : List Char :=
  p.before ++ (command ++ (p.blanks ++ '\x7b' :: p.arguments))

def fraction (p : Place) : Fraction :=
  ⟨String.ofList (trim p.numerator), String.ofList (trim p.denominator)⟩

/-- Places are compared by the text in front of them, then by their numerators, and then by their
denominators. -/
def sizes (p : Place) : ℕ ×ₗ ℕ ×ₗ ℕ :=
  toLex (p.before.length, toLex (p.numerator.length, p.denominator.length))

/-- No place in the same text is shorter. -/
def IsFirst (p : Place) : Prop := ∀ q : Place, q.text = p.text → p.sizes ≤ q.sizes

theorem sizes_le_iff {p q : Place} : p.sizes ≤ q.sizes ↔ p.before.length < q.before.length ∨
    p.before.length = q.before.length ∧ (p.numerator.length < q.numerator.length ∨
      p.numerator.length = q.numerator.length ∧ p.denominator.length ≤ q.denominator.length) := by
  simp only [sizes, Prod.Lex.toLex_le_toLex]

theorem exists_isFirst {s : List Char} (h : ∃ p : Place, p.text = s) :
    ∃ p : Place, p.text = s ∧ p.IsFirst := by
  have hmem := Function.argminOn_mem sizes {p : Place | p.text = s} h
  refine ⟨_, hmem, ?_⟩
  intro q hq
  exact Function.argminOn_le sizes _ (hq.trans hmem)

end Place

namespace Place

variable {p : Place}

theorem IsFirst.not_opensBehind_command (h : p.IsFirst) : ¬ OpensBehind command p.before := by
  rintro ⟨before, blanks, rest, hblanks, hbefore⟩
  have hle := h { p with
    before, blanks
    numerator := rest ++ (command ++ (p.blanks ++ '\x7b' :: p.numerator))
    isBlank_blanks := hblanks } (by simp [text, arguments, inside, hbefore])
  simp only [sizes_le_iff, hbefore, List.length_append, List.length_cons] at hle
  omega

theorem IsFirst.not_opensBehind_brace (h : p.IsFirst) : ¬ OpensBehind ['\x7d'] p.numerator := by
  rintro ⟨numerator, gap, denominator, hgap, hnumerator⟩
  have hle := h { p with
    numerator, gap, denominator
    suffix := p.gap ++ '\x7b' :: p.inside
    isBlank_gap := hgap } (by simp [text, arguments, inside, hnumerator])
  simp only [sizes_le_iff, hnumerator, List.length_append, List.length_cons] at hle
  omega

theorem IsFirst.brace_notMem (h : p.IsFirst) : '\x7d' ∉ p.denominator := by
  intro hmem
  obtain ⟨denominator, rest, hdenominator⟩ := List.append_of_mem hmem
  have hle := h { p with
    denominator
    suffix := rest ++ '\x7d' :: p.suffix } (by simp [text, arguments, inside, hdenominator])
  simp only [sizes_le_iff, hdenominator, List.length_append, List.length_cons] at hle
  omega

/-- A place is the first one if no brace opens behind a command in front of it, none behind a
closing brace of its numerator, and its denominator has no closing brace. -/
theorem isFirst_iff : p.IsFirst ↔ ¬ OpensBehind command p.before ∧
    ¬ OpensBehind ['\x7d'] p.numerator ∧ '\x7d' ∉ p.denominator := by
  refine ⟨fun h => ⟨h.not_opensBehind_command, h.not_opensBehind_brace, h.brace_notMem⟩, ?_⟩
  rintro ⟨hbefore, hnumerator, hdenominator⟩ q htext
  rw [sizes_le_iff]
  have hcommand : q.before ++ (command ++ (q.blanks ++ '\x7b' :: q.arguments)) =
      p.before ++ '\\' :: (['f', 'r', 'a', 'c'] ++ (p.blanks ++ '\x7b' :: p.arguments)) := htext
  have hle : p.before.length ≤ q.before.length := by
    by_contra hlt
    have hopens : OpensBehind command p.before := opensBehind_of_shorter (by decide) (by decide)
      (by decide) q.isBlank_blanks hcommand (by omega)
    exact hbefore hopens
  rcases hle.lt_or_eq with hlt | heq
  · exact Or.inl hlt
  refine Or.inr ⟨heq, ?_⟩
  -- the command is the same one, and so is the brace behind it
  obtain ⟨-, hrest⟩ := List.append_inj htext heq.symm
  have hopened := congrArg opened? (List.append_cancel_left hrest)
  rw [opened?_append q.isBlank_blanks, opened?_append p.isBlank_blanks] at hopened
  have harguments : q.arguments = p.arguments := Option.some.inj hopened
  have hle : p.numerator.length ≤ q.numerator.length := by
    by_contra hlt
    have hopens : OpensBehind ['\x7d'] p.numerator := opensBehind_of_shorter List.not_mem_nil
      (by decide) (by decide) q.isBlank_gap harguments (by omega)
    exact hnumerator hopens
  rcases hle.lt_or_eq with hlt | heq
  · exact Or.inl hlt
  refine Or.inr ⟨heq, ?_⟩
  obtain ⟨-, hrest⟩ := List.append_inj harguments heq.symm
  have hopened := congrArg opened? (List.cons.inj hrest).2
  rw [opened?_append q.isBlank_gap, opened?_append p.isBlank_gap] at hopened
  have hinside : p.denominator ++ '\x7d' :: p.suffix = q.denominator ++ '\x7d' :: q.suffix :=
    (Option.some.inj hopened).symm
  obtain ⟨t, ht⟩ := exists_eq_append_of_notMem hinside hdenominator
  rw [ht, List.length_append]
  omega

end Place

section Reading

variable {s rest numerator denominator : List Char}

theorem denominator?_eq_some (h : denominator? s = some denominator) :
    ∃ gap suffix, (∀ c ∈ gap, isBlank c = true) ∧
      s = gap ++ '\x7b' :: (denominator ++ '\x7d' :: suffix) := by
  obtain ⟨inside, hopened, hcut⟩ := Option.bind_eq_some_iff.mp h
  obtain ⟨gap, hgap, rfl⟩ := opened?_eq_some hopened
  obtain ⟨⟨_, suffix⟩, hparts, rfl⟩ := Option.map_eq_some_iff.mp hcut
  exact ⟨gap, suffix, hgap, by rw [(cut?_eq_some hparts).1]⟩

/-- The numerator ends before a closing brace with an argument behind it. -/
theorem arguments?_eq_some (h : arguments? s = some (numerator, denominator)) :
    ∃ rest, s = numerator ++ '\x7d' :: rest ∧ denominator? rest = some denominator := by
  induction s generalizing numerator with
  | nil => cases h
  | cons c s ih =>
    rw [arguments?] at h
    split at h
    · rename_i found hfound
      obtain ⟨rfl, rfl⟩ := Prod.mk.inj (Option.some.inj h)
      split at hfound
      · rename_i hc
        exact ⟨s, by rw [hc]; rfl, hfound⟩
      · cases hfound
    · obtain ⟨⟨front, found⟩, hrest, heq⟩ := Option.map_eq_some_iff.mp h
      obtain ⟨rfl, rfl⟩ := Prod.mk.inj heq
      obtain ⟨rest, rfl, hdenominator⟩ := ih hrest
      exact ⟨rest, rfl, hdenominator⟩

/-- What is read as a fraction at the front has its place there. -/
theorem exists_place_of_here? (h : here? s = some (numerator, denominator)) :
    ∃ p : Place, p.text = s ∧ p.numerator = numerator ∧ p.denominator = denominator := by
  obtain ⟨rest, hcommand, h⟩ := Option.bind_eq_some_iff.mp h
  obtain ⟨arguments, hopened, harguments⟩ := Option.bind_eq_some_iff.mp h
  obtain ⟨blanks, hblanks, rfl⟩ := opened?_eq_some hopened
  obtain ⟨behind, rfl, hdenominator⟩ := arguments?_eq_some harguments
  obtain ⟨gap, suffix, hgap, rfl⟩ := denominator?_eq_some hdenominator
  have hs := List.append_eq_of_isPrefixOf?_eq_some hcommand
  exact ⟨⟨[], blanks, numerator, gap, denominator, suffix, hblanks, hgap⟩, hs, rfl, rfl⟩

/-- What the search finds stands at a place of the text. -/
theorem exists_place_of_find? (h : find? s = some (numerator, denominator)) :
    ∃ p : Place, p.text = s ∧ p.numerator = numerator ∧ p.denominator = denominator := by
  induction s with
  | nil => cases h
  | cons c s ih =>
    rw [find?] at h
    cases hhere : here? (c :: s) with
    | some found =>
      rw [hhere] at h
      obtain rfl := Option.some.inj h
      exact exists_place_of_here? hhere
    | none =>
      rw [hhere] at h
      obtain ⟨p, rfl, rfl, rfl⟩ := ih h
      exact ⟨{ p with before := c :: p.before }, rfl, rfl, rfl⟩

/-- The numerator ends at the first closing brace behind which a denominator stands. -/
theorem arguments?_of_unopened (hnumerator : ¬ OpensBehind ['\x7d'] numerator)
    (hrest : denominator? rest = some denominator) :
    arguments? (numerator ++ '\x7d' :: rest) = some (numerator, denominator) := by
  induction numerator with
  | nil => simp [arguments?, hrest]
  | cons c numerator ih =>
    refine arguments?_cons ?_ (ih fun h => hnumerator (h.cons c))
    rintro rfl
    refine denominator?_eq_none ?_
    by_contra hopened
    obtain ⟨inside, hopened⟩ := Option.ne_none_iff_exists'.mp hopened
    obtain ⟨blanks, hblanks, heq⟩ := opened?_eq_some hopened
    have hbehind : [] ++ (['\x7d'] ++ (blanks ++ '\x7b' :: inside)) =
        '\x7d' :: numerator ++ '\x7d' :: rest := congrArg (List.cons '\x7d') heq.symm
    exact hnumerator (opensBehind_of_shorter (by simp) (by decide) (by decide) hblanks hbehind
      (by simp))

/-- What is read is the fraction at the first place. -/
theorem Place.find?_text {p : Place} (h : p.IsFirst) :
    find? p.text = some (p.numerator, p.denominator) := by
  obtain ⟨hbefore, hnumerator, hdenominator⟩ := isFirst_iff.mp h
  refine find?_of_unopened hbefore ?_
  rw [here?_command, opened?_append p.isBlank_blanks, Option.bind_some]
  exact arguments?_of_unopened hnumerator (denominator?_append p.isBlank_gap hdenominator)

theorem Place.ofText_text {p : Place} (h : p.IsFirst) :
    ofText (String.ofList p.text) = .ok p.fraction := by
  simp only [ofText, String.toList_ofList, p.find?_text h, fraction]

/-- What follows the first place does not matter. -/
theorem Place.IsFirst.with_suffix {p : Place} (h : p.IsFirst) (suffix : List Char) :
    { p with suffix }.IsFirst := by
  rw [isFirst_iff] at h ⊢
  exact h

/-- A text is refused if it has no place of a fraction. Otherwise it has a first one, and the
fraction there is read; its denominator has no closing brace, and what follows does not matter. -/
theorem ofText_first (text : String) :
    (ofText text = .error .noFraction ↔ ∀ p : Place, p.text ≠ text.toList) ∧
    ((∃ p : Place, p.text = text.toList) → ∃ p : Place, p.text = text.toList ∧ p.IsFirst) ∧
    ∀ p : Place, p.text = text.toList → p.IsFirst →
      ofText text = .ok p.fraction ∧ '\x7d' ∉ p.denominator ∧
      ∀ suffix, ofText (String.ofList { p with suffix }.text) = .ok p.fraction := by
  refine ⟨⟨?_, ?_⟩, Place.exists_isFirst, ?_⟩
  · intro herror p hp
    obtain ⟨q, hq, hfirst⟩ := Place.exists_isFirst ⟨p, hp⟩
    have hread := Place.ofText_text hfirst
    rw [hq, String.ofList_toList, herror] at hread
    cases hread
  · intro hnone
    cases hfind : find? text.toList with
    | none => simp only [ofText, hfind]
    | some parts =>
      obtain ⟨p, hp, -⟩ := exists_place_of_find? hfind
      exact absurd hp (hnone p)
  · intro p hp hfirst
    have hread := Place.ofText_text hfirst
    rw [hp, String.ofList_toList] at hread
    exact ⟨hread, hfirst.brace_notMem, fun suffix => Place.ofText_text (hfirst.with_suffix suffix)⟩

/-- The place in `\frac \frac {a}b} {c}d}`, where nothing opens behind the first command and behind
the first closing brace. -/
def Place.sample : Place where
  before := "\\frac ".toList
  blanks := [' ']
  numerator := "a\x7db".toList
  gap := [' ']
  denominator := ['c']
  suffix := "d\x7d".toList
  isBlank_blanks := List.forall_mem_singleton.mpr isBlank_space
  isBlank_gap := List.forall_mem_singleton.mpr isBlank_space

theorem ofText_first_sample :
    Place.sample.text = "\\frac \\frac \x7ba\x7db\x7d \x7bc\x7dd\x7d".toList ∧
      Place.sample.IsFirst ∧
      ofText "\\frac \\frac \x7ba\x7db\x7d \x7bc\x7dd\x7d" = .ok ⟨"a\x7db", "c"⟩ ∧
      ofText "\\frac \\frac \x7ba\x7db\x7d \x7bc\x7d\\frac\x7b1\x7d\x7b2\x7d" =
        .ok ⟨"a\x7db", "c"⟩ := by
  have htext : Place.sample.text =
      "\\frac \\frac \x7ba\x7db\x7d \x7bc\x7dd\x7d".toList := by decide
  have hfirst : Place.sample.IsFirst := Place.isFirst_iff.mpr
    ⟨not_opensBehind_of_notMem (by decide), not_opensBehind_of_notMem (by decide), by decide⟩
  obtain ⟨hread, -, hsuffix⟩ := (ofText_first _).2.2 Place.sample htext hfirst
  exact ⟨htext, hfirst, hread, hsuffix "\\frac\x7b1\x7d\x7b2\x7d".toList⟩

end Reading

end PartialFractions.Fraction
