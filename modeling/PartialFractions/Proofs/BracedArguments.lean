import Mathlib.Data.List.TakeWhile
import PartialFractions.Proofs.FractionReading

/-!
Fractions whose arguments have braces of their own, around an exponent or a subscript. Behind the
closing brace of such a group no other brace opens, so the numerator is read as a whole; the
denominator ends at the closing brace of its first group.
-/
namespace PartialFractions

open Text

/-- A text in which braces stand only around an exponent or a subscript, and not inside each
other. -/
inductive Braced : List Char → Prop
  | nil : Braced []
  | plain {c : Char} {s : List Char} (hopen : c ≠ '\x7b') (hclose : c ≠ '\x7d') (h : Braced s) :
    Braced (c :: s)
  | group {mark : Char} {blanks inner s : List Char} (hmark : mark = '^' ∨ mark = '_')
    (hblanks : ∀ c ∈ blanks, isBlank c = true) (hopen : '\x7b' ∉ inner) (hclose : '\x7d' ∉ inner)
    (h : Braced s) : Braced (mark :: (blanks ++ '\x7b' :: (inner ++ '\x7d' :: s)))

namespace Braced

variable {s : List Char}

theorem of_notMem (hopen : '\x7b' ∉ s) (hclose : '\x7d' ∉ s) : Braced s := by
  induction s with
  | nil => exact .nil
  | cons c s ih =>
    simp only [List.mem_cons, not_or] at hopen hclose
    exact .plain (Ne.symm hopen.1) (Ne.symm hclose.1) (ih hopen.2 hclose.2)

theorem square : Braced "x^\x7b2\x7d - 4".toList := by
  have hgroup : Braced ('^' :: ([] ++ '\x7b' :: (['2'] ++ '\x7d' :: " - 4".toList))) :=
    .group (Or.inl rfl) (by simp) (by decide) (by decide) (.of_notMem (by decide) (by decide))
  exact .plain (by decide) (by decide) hgroup

/-- No brace opens at the front, nor behind a text of blanks only that is closed. -/
theorem opened?_eq_none (h : Braced s) (rest : List Char) :
    Fraction.opened? (s ++ '\x7d' :: rest) = none := by
  have hfirst {c : Char} {t : List Char} (hc : isBlank c = false) (hopen : c ≠ '\x7b') :
      Fraction.opened? (c :: t) = none := by
    simp [Fraction.opened?, hc, hopen]
  induction h with
  | nil => exact hfirst (by decide) (by decide)
  | @plain c s hopen hclose h ih =>
    by_cases hc : isBlank c = true
    · have hskip : (c :: s ++ '\x7d' :: rest).dropWhile isBlank =
          (s ++ '\x7d' :: rest).dropWhile isBlank := by
        rw [List.cons_append, List.dropWhile_cons_of_pos hc]
      rw [Fraction.opened?, hskip]
      exact ih
    · exact hfirst (by simpa using hc) hopen
  | group hmark hblanks hopen hclose h ih =>
    rcases hmark with rfl | rfl
    · exact hfirst (by decide) (by decide)
    · exact hfirst (by decide) (by decide)

end Braced

section Cuts

variable {c : Char}

/-- A text is cut at its own first `c`, or at the one behind it. -/
theorem Text.cut?_takeWhile (c : Char) (s rest : List Char) :
    (cut? c (s ++ c :: rest)).map (·.1) = some (s.takeWhile (· ≠ c)) := by
  induction s with
  | nil => simp [cut?]
  | cons d s ih =>
    by_cases hd : d = c
    · simp [cut?, hd]
    · obtain ⟨parts, hcut, hfront⟩ := Option.map_eq_some_iff.mp ih
      simp [cut?, hd, hcut, hfront]

theorem Text.mem_dropWhile_isBlank (hc : isBlank c = false) {s : List Char} :
    c ∈ s.dropWhile isBlank ↔ c ∈ s := by
  refine ⟨fun h => (List.dropWhile_suffix _).mem h, fun h => ?_⟩
  induction s with
  | nil => exact h
  | cons d s ih =>
    by_cases hd : isBlank d = true
    · have hne : c ≠ d := by
        rintro rfl
        rw [hc] at hd
        cases hd
      rw [List.dropWhile_cons_of_pos hd]
      exact ih ((List.mem_cons.mp h).resolve_left hne)
    · rwa [List.dropWhile_cons_of_neg hd]

/-- No other character than a blank is trimmed away. -/
theorem Text.mem_trim (hc : isBlank c = false) {s : List Char} : c ∈ trim s ↔ c ∈ s := by
  rw [trim, trimOf, List.mem_reverse, mem_dropWhile_isBlank hc, List.mem_reverse,
    mem_dropWhile_isBlank hc]

end Cuts

namespace Fraction

theorem opened?_brace (rest : List Char) : opened? ('\x7b' :: rest) = some rest :=
  @opened?_append [] rest (by simp)

theorem denominator?_eq_none {s : List Char} (h : opened? s = none) : denominator? s = none := by
  rw [denominator?, h, Option.bind_none]

/-- The denominator ends at the first closing brace, be it that of a group or its own. -/
theorem denominator?_cut (denominator suffix : List Char) :
    denominator? ('\x7b' :: (denominator ++ '\x7d' :: suffix)) =
      some (denominator.takeWhile (· ≠ '\x7d')) := by
  rw [denominator?, opened?_brace, Option.bind_some, cut?_takeWhile]

/-- A closing brace that no opening one follows belongs to the numerator. -/
theorem arguments?_cons {c : Char} {rest numerator denominator : List Char}
    (hskip : c = '\x7d' → denominator? rest = none)
    (hrest : arguments? rest = some (numerator, denominator)) :
    arguments? (c :: rest) = some (c :: numerator, denominator) := by
  have hnone : (if c = '\x7d' then denominator? rest else none) = none := by
    by_cases hc : c = '\x7d'
    · rw [if_pos hc, hskip hc]
    · rw [if_neg hc]
  rw [arguments?, hnone, hrest]
  rfl

theorem arguments?_append_of_notMem {s rest numerator denominator : List Char}
    (hs : '\x7d' ∉ s) (hrest : arguments? rest = some (numerator, denominator)) :
    arguments? (s ++ rest) = some (s ++ numerator, denominator) := by
  induction s with
  | nil => exact hrest
  | cons c s ih =>
    simp only [List.mem_cons, not_or] at hs
    exact arguments?_cons (fun hc => absurd hc.symm hs.1) (ih hs.2)

/-- The closing braces of the groups of a numerator do not end it. -/
theorem arguments?_braced {numerator denominator rest : List Char} (h : Braced numerator)
    (hdenominator : denominator? rest = some denominator) :
    arguments? (numerator ++ '\x7d' :: rest) = some (numerator, denominator) := by
  induction h with
  | nil => simp [arguments?, hdenominator]
  | plain hopen hclose h ih => exact arguments?_cons (fun hc => absurd hc hclose) ih
  | @group mark blanks inner s hmark hblanks hopen hclose h ih =>
    have hfront : '\x7d' ∉ mark :: (blanks ++ '\x7b' :: inner) := by
      have hmark' : '\x7d' ≠ mark := by
        rcases hmark with rfl | rfl
        · decide
        · decide
      have hblanks' : '\x7d' ∉ blanks := fun hmem => absurd (hblanks _ hmem) (by decide)
      simp [hmark', hblanks', hclose]
    have hgroup := arguments?_cons (c := '\x7d')
      (fun _ => denominator?_eq_none (h.opened?_eq_none rest)) ih
    have happend := arguments?_append_of_notMem hfront hgroup
    simpa using happend

/-- A braced numerator is read as it stands. The denominator is read up to its first closing brace,
so it is read as it stands exactly if it has no group. -/
theorem ofText_braced {before numerator : List Char} (denominator suffix : List Char)
    (hbefore : ¬ command <:+: before) (hnumerator : Braced numerator) :
    ofText (String.ofList (before ++ (command ++ '\x7b' :: (numerator ++ '\x7d' :: '\x7b' ::
        (denominator ++ '\x7d' :: suffix))))) =
      .ok ⟨String.ofList (trim numerator),
        String.ofList (trim (denominator.takeWhile (· ≠ '\x7d')))⟩ ∧
    (ofText (String.ofList (before ++ (command ++ '\x7b' :: (numerator ++ '\x7d' :: '\x7b' ::
        (denominator ++ '\x7d' :: suffix))))) =
      .ok ⟨String.ofList (trim numerator), String.ofList (trim denominator)⟩ ↔
      '\x7d' ∉ denominator) := by
  have hhere : here? (command ++ '\x7b' :: (numerator ++ '\x7d' :: '\x7b' ::
      (denominator ++ '\x7d' :: suffix))) =
      some (numerator, denominator.takeWhile (· ≠ '\x7d')) := by
    rw [here?_command, opened?_brace, Option.bind_some]
    exact arguments?_braced hnumerator (denominator?_cut denominator suffix)
  have hread : ofText (String.ofList (before ++ (command ++ '\x7b' :: (numerator ++ '\x7d' ::
      '\x7b' :: (denominator ++ '\x7d' :: suffix))))) =
      .ok ⟨String.ofList (trim numerator),
        String.ofList (trim (denominator.takeWhile (· ≠ '\x7d')))⟩ := by
    simp only [ofText, String.toList_ofList, find?_append_command hbefore hhere]
  refine ⟨hread, ?_⟩
  rw [hread]
  constructor
  · intro hwhole hmem
    have hblank : isBlank '\x7d' = false := by decide
    have hparts := Fraction.mk.inj (Except.ok.inj hwhole)
    have htrim : trim (denominator.takeWhile (· ≠ '\x7d')) = trim denominator :=
      String.ofList_injective hparts.2
    have hcut := (mem_trim hblank).mp (htrim ▸ (mem_trim hblank).mpr hmem)
    simpa using List.mem_takeWhile_imp hcut
  · intro hclosed
    have hall : denominator.takeWhile (· ≠ '\x7d') = denominator := by
      refine List.takeWhile_eq_self_iff.mpr ?_
      intro c hc
      have hne : c ≠ '\x7d' := fun h => hclosed (h ▸ hc)
      simpa using hne
    rw [hall]

/-- The text x^{2} - 4 above, and the text x - x_{1} below. -/
theorem ofText_braced_subscript :
    ofText "let \\frac\x7bx^\x7b2\x7d - 4\x7d\x7bx - x_\x7b1\x7d\x7d" =
      .ok ⟨"x^\x7b2\x7d - 4", "x - x_\x7b1"⟩ := by
  have hbefore : ¬ command <:+: "let ".toList := by decide
  exact (ofText_braced "x - x_\x7b1\x7d".toList [] hbefore .square).1

/-- A braced denominator that is cut at the brace of its exponent. -/
theorem exists_braced_cut : ∃ numerator denominator : String,
    Braced numerator.toList ∧ Braced denominator.toList ∧
    ofText ("\\frac\x7b" ++ numerator ++ "\x7d\x7b" ++ denominator ++ "\x7d") =
      .ok ⟨"1", "x^\x7b2"⟩ ∧
    ofText ("\\frac\x7b" ++ numerator ++ "\x7d\x7b" ++ denominator ++ "\x7d") ≠
      .ok ⟨String.ofList (trim numerator.toList), String.ofList (trim denominator.toList)⟩ :=
  ⟨"1", "x^\x7b2\x7d - 4", .of_notMem (by decide) (by decide), .square, by decide, by decide⟩

end Fraction

end PartialFractions
