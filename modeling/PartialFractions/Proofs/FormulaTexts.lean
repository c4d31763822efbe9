import PartialFractions.Proofs.ArithmeticNotation

/-!
Formulas with multiplication signs and braces, as the texts that a parser gets. All braces become
parentheses in the end, those of exponents too, so each character has its part in the text alone.
-/
namespace PartialFractions.Verification

open Number

section Texts

variable {c : Char} {s u : List Char}

/-- The braces of exponents become what other braces become. -/
theorem map_asParenthesis_withExponents (inside : Bool) (s : List Char) :
    (withExponents inside s).map asParenthesis = s.map asParenthesis := by
  fun_induction withExponents inside s with
  | case1 inside rest hcloses ih => simp [asParenthesis, ih]
  | case2 inside rest hcloses ih => simp [ih]
  | case3 inside rest ih => cases inside <;> simp [asParenthesis, ih]
  | case4 inside c rest hopening hclosing ih => simp [ih]
  | case5 inside => rfl

theorem formulaText_eq (s : List Char) : formulaText s = (withStars s).map asParenthesis :=
  map_asParenthesis_withExponents false (withStars s)

theorem formulaText_nil : formulaText [] = [] := rfl

theorem formulaText_cons (hc : c ≠ '\\') (s : List Char) :
    formulaText (c :: s) = asParenthesis c :: formulaText s := by
  have hstars : withStars (c :: s) = c :: withStars s := by simp [withStars, hc]
  rw [formulaText_eq, formulaText_eq, hstars, List.map_cons]

theorem formulaText_times (s : List Char) :
    formulaText ('\\' :: 'c' :: 'd' :: 'o' :: 't' :: s) = '*' :: formulaText s := by
  rw [formulaText_eq, formulaText_eq]
  rfl

def IsKept (c : Char) : Prop := c ∉ ['\\', '\x7b', '\x7d']

instance : DecidablePred IsKept := fun c => inferInstanceAs (Decidable (c ∉ _))

theorem formulaText_cons_of_isKept (hc : IsKept c) (s : List Char) :
    formulaText (c :: s) = c :: formulaText s := by
  simp only [IsKept, List.mem_cons, List.not_mem_nil, or_false, not_or] at hc
  obtain ⟨hcommand, hopening, hclosing⟩ := hc
  rw [formulaText_cons hcommand, asParenthesis, if_neg hopening, if_neg hclosing]

theorem formulaText_append (hu : ∀ c ∈ u, IsKept c) (s : List Char) :
    formulaText (u ++ s) = u ++ formulaText s := by
  induction u with
  | nil => rfl
  | cons c u ih =>
    obtain ⟨hc, hu⟩ := List.forall_mem_cons.mp hu
    rw [List.cons_append, formulaText_cons_of_isKept hc, ih hu, List.cons_append]

theorem isKept_of_isDigit (h : c.isDigit = true) : IsKept c := by
  simp only [IsKept, List.mem_cons, List.not_mem_nil, or_false]
  rintro (rfl | rfl | rfl) <;> exact absurd h (by decide)

end Texts

namespace Token

def typesetMarks : List (Char × Token) :=
  [('+', .plus), ('-', .minus), ('^', .power), ('(', .opening), ('\x7b', .opening), (')', .closing),
    ('\x7d', .closing)]

/-- The formula has the tokens. Its numbers are whole, and x stands alone. -/
inductive Typeset : List Char → List Token → Prop
  | done : Typeset [] []
  | space {s : List Char} {ts : List Token} (h : Typeset s ts) : Typeset (' ' :: s) ts
  | mark {c : Char} {t : Token} {s : List Char} {ts : List Token} (hc : (c, t) ∈ typesetMarks)
    (h : Typeset s ts) : Typeset (c :: s) (t :: ts)
  | times {s : List Char} {ts : List Token} (h : Typeset s ts) :
    Typeset ('\\' :: 'c' :: 'd' :: 'o' :: 't' :: s) (.times :: ts)
  | x {s : List Char} {ts : List Token} (hs : ∀ c ∈ s.head?, c.isDigit = false ∧ c ≠ 'x')
    (h : Typeset s ts) : Typeset ('x' :: s) (.x :: ts)
  | numeral {ds s : List Char} {ts : List Token} (hds : IsWholeNumeral ds)
    (hs : ∀ c ∈ s.head?, c.isDigit = false) (h : Typeset s ts) :
    Typeset (ds ++ s) (.literal (.whole (ofNumeral ds)) :: ts)

namespace Typeset

variable {s : List Char} {ts : List Token}

theorem spaces {blanks : List Char} (hblanks : ∀ c ∈ blanks, c = ' ') (h : Typeset s ts) :
    Typeset (blanks ++ s) ts := by
  induction blanks with
  | nil => exact h
  | cons c blanks ih =>
    obtain ⟨hc, hrest⟩ := List.forall_mem_cons.mp hblanks
    rw [hc]
    exact .space (ih hrest)

theorem formulaText_mark {c : Char} {t : Token} (hc : (c, t) ∈ typesetMarks) (s : List Char) :
    formulaText (c :: s) = asParenthesis c :: formulaText s ∧ (asParenthesis c, t) ∈ marks := by
  have hall : ∀ m ∈ typesetMarks, m.1 ≠ '\\' ∧ (asParenthesis m.1, m.2) ∈ marks := by decide
  obtain ⟨hcommand, hmark⟩ := hall _ hc
  exact ⟨formulaText_cons hcommand s, hmark⟩

/-- Nothing goes on with a number or a name in front but a digit and an x. -/
theorem mem_breaks (h : Typeset s ts) : ∀ c ∈ (formulaText s).head?,
    c ∈ breaks ∨ s.head? = some c ∧ (c.isDigit = true ∨ c = 'x') := by
  cases h with
  | done => simp [formulaText_nil]
  | space h =>
    rw [formulaText_cons_of_isKept (by decide)]
    rintro c ⟨⟩
    exact Or.inl (by decide)
  | mark hc h =>
    obtain ⟨htext, hmark⟩ := formulaText_mark hc _
    rw [htext]
    rintro c ⟨⟩
    exact Or.inl (List.mem_append_right _ (List.mem_map_of_mem hmark))
  | times h =>
    rw [formulaText_times]
    rintro c ⟨⟩
    exact Or.inl (by decide)
  | x hs h =>
    rw [formulaText_cons_of_isKept (by decide)]
    rintro c ⟨⟩
    exact Or.inr ⟨rfl, Or.inr rfl⟩
  | numeral hds hs h =>
    obtain ⟨d, ds, rfl⟩ := List.exists_cons_of_ne_nil hds.ne_nil
    have hdigit := hds.isDigit d (List.mem_cons_self ..)
    rw [List.cons_append, formulaText_cons_of_isKept (isKept_of_isDigit hdigit)]
    rintro c ⟨⟩
    exact Or.inr ⟨rfl, Or.inl hdigit⟩

/-- The pretty-printed form of typeset tokens is scanned into the same tokens. -/
theorem scanned (h : Typeset s ts) : Scanned (formulaText s) ts := by
  induction h with
  | done => exact .done
  | space h ih =>
    rw [formulaText_cons_of_isKept (by decide)]
    exact .space (by decide) ih
  | @mark c t s ts hc h ih =>
    obtain ⟨htext, hmark⟩ := formulaText_mark hc s
    rw [htext]
    exact .mark hmark ih
  | times h ih =>
    rw [formulaText_times]
    exact .mark (by decide) ih
  | x hs h ih =>
    rw [formulaText_cons_of_isKept (by decide)]
    refine .x (fun c hc => ?_) ih
    rcases h.mem_breaks c hc with hc | ⟨hc, hkind⟩
    · exact hc
    · obtain ⟨hdigit, hx⟩ := hs c hc
      simp [hdigit, hx] at hkind
  | numeral hds hs h ih =>
    rw [formulaText_append fun c hc => isKept_of_isDigit (hds.isDigit c hc)]
    refine .literal (.whole (.of_isDigit hds.isDigit) hds) (fun c hc => ?_) ih
    rcases h.mem_breaks c hc with hc | ⟨hc, hkind⟩
    · exact List.mem_cons_of_mem _ hc
    · rcases hkind with hdigit | rfl
      · rw [hs c hc] at hdigit
        cases hdigit
      · exact List.mem_cons_self ..

end Typeset

end Token

end PartialFractions.Verification
