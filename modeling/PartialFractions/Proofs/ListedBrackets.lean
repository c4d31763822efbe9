import PartialFractions.Proofs.BracketReading

/-!
Texts of gaps and brackets by turns, where a bracket has any content and may have an exponent. Such
a text is cut at its parentheses: the first closing one ends a content, and an exponent behind it is
not read into the next gap.
-/
namespace PartialFractions

open Text Number

structure ListedBracket (G : Type) where
  gap : G
  content : List Char
  exponent : Option WrittenExponent
  closed : ')' ∉ content

namespace ListedBracket

variable {G : Type}

def multiplicity (b : ListedBracket G) : ℕ := (b.exponent.map WrittenExponent.value).getD 1

def factor {K : Type} (b : ListedBracket G) : Factor K :=
  .ofContent (trim b.content) b.multiplicity

/-- The bracket is cut out as it is written. -/
structure Cut (tokens : G → List (List Char)) (b : ListedBracket G) (c : Bracket) : Prop where
  gap : Spaced (tokens b.gap) c.gap
  content : c.content = b.content
  exponent : c.exponent = b.exponent.map WrittenExponent.digits

theorem Cut.bracketFactor_eq {tokens : G → List (List Char)} {b : ListedBracket G} {c : Bracket}
    {K : Type} (h : b.Cut tokens c) :
    (Factorization.bracketFactor c : Except Fault (Factor K)) = .ok b.factor := by
  unfold Factorization.bracketFactor factor multiplicity
  rw [h.content, h.exponent]
  cases b.exponent with
  | none => rfl
  | some e =>
    simp only [Option.map_some, e.readDigits_digits]
    rfl

end ListedBracket

/-- An exponent that may be missing, as it is written in front of a text. Digits without braces go
as far as the digits of the text go. -/
inductive ExponentText : Option WrittenExponent → List Char → List Char → Prop
  | none {rest : List Char} : ExponentText none [] rest
  | some {e : WrittenExponent} {blanks rest : List Char}
    (hblanks : ∀ c ∈ blanks, isBlank c = true)
    (hdigit : e.braced = false → ∀ c ∈ rest.head?, isDigit c = false) :
    ExponentText (some e) ('^' :: (blanks ++ e.shown)) rest

/-- Brackets in order and the gap behind the last one, written with blanks in the gaps. -/
inductive ListedText {G : Type} (tokens : G → List (List Char)) :
    List (ListedBracket G) → G → List Char → Prop
  | last {g : G} {s : List Char} (h : Spaced (tokens g) s) : ListedText tokens [] g s
  | bracket {b : ListedBracket G} {rest : List (ListedBracket G)} {last : G}
    {gap exponent s : List Char} (hgap : Spaced (tokens b.gap) gap)
    (hexponent : ExponentText b.exponent exponent s) (h : ListedText tokens rest last s) :
    ListedText tokens (b :: rest) last (gap ++ '(' :: (b.content ++ ')' :: (exponent ++ s)))

structure GapTokens {G : Type} (tokens : G → List (List Char)) : Prop where
  isToken : ∀ g, ∀ t ∈ tokens g, IsToken t
  paren_notMem : ∀ g, ∀ t ∈ tokens g, '(' ∉ t
  head_notMem : ∀ g, ∀ t ∈ (tokens g).head?, '^' ∉ t ∧ '\x7d' ∉ t

namespace ListedText

variable {G : Type} {tokens : G → List (List Char)} {brackets : List (ListedBracket G)} {last : G}
  {s : List Char}

/-- A printed denominator never starts with what would continue an exponent. -/
theorem head?_ne (htokens : GapTokens tokens) (h : ListedText tokens brackets last s) :
    ∀ c ∈ s.head?, c ≠ '^' ∧ c ≠ '\x7d' := by
  have hgap {g : G} {t : List Char} (h : Spaced (tokens g) t) :
      ∀ c ∈ t.head?, c ≠ '^' ∧ c ≠ '\x7d' := by
    intro c hc
    rcases h.head? (htokens.isToken g) c hc with hblank | ⟨u, hu, hmem⟩
    · refine ⟨?_, ?_⟩ <;> (rintro rfl; exact absurd hblank (by decide))
    · obtain ⟨hcaret, hbrace⟩ := htokens.head_notMem g u hu
      exact ⟨fun h => hcaret (h ▸ hmem), fun h => hbrace (h ▸ hmem)⟩
  cases h with
  | last h => exact hgap h
  | @bracket b rest last gap exponent s hg hexponent h =>
    cases gap with
    | nil =>
      rintro c ⟨⟩
      decide
    | cons d gap =>
      rintro c ⟨⟩
      exact hgap hg d rfl

theorem open_mem (h : ListedText tokens brackets last s) (hne : brackets ≠ []) : '(' ∈ s := by
  cases h with
  | last h => exact absurd rfl hne
  | bracket hgap hexponent h => simp

/-- The first bracket is cut off with its gap and its exponent. -/
theorem first?_eq (htokens : GapTokens tokens) {b : ListedBracket G} {gap exponent : List Char}
    (hgap : Spaced (tokens b.gap) gap) (hexponent : ExponentText b.exponent exponent s)
    (h : ListedText tokens brackets last s) :
    Bracket.first? (gap ++ '(' :: (b.content ++ ')' :: (exponent ++ s))) =
      some (⟨gap, b.content, b.exponent.map WrittenExponent.digits⟩, s) := by
  have hopen : '(' ∉ gap := hgap.notMem (by decide) (htokens.paren_notMem b.gap)
  have hhead := h.head?_ne htokens
  simp only [Bracket.first?, cut?_append hopen, Option.bind_some, cut?_append b.closed,
    Option.map_some]
  generalize b.exponent = shown at hexponent ⊢
  cases hexponent with
  | none =>
    have hread : exponent? s = none := exponent?_eq_none fun hc => (hhead _ hc).1 rfl
    simp [hread]
  | @some e blanks rest hblanks hdigit =>
    have hread := e.exponent?_shown hblanks fun hb c hc => ⟨hdigit hb c hc, (hhead c hc).2⟩
    simp [hread]

/-- The brackets are cut out in order, and the last gap is left. -/
theorem all_cut (htokens : GapTokens tokens) (h : ListedText tokens brackets last s) :
    List.Forall₂ (ListedBracket.Cut tokens) brackets (Bracket.all s).1 ∧
      Spaced (tokens last) (Bracket.all s).2 := by
  induction h with
  | @last g s h =>
    rw [Bracket.all_of_notMem (h.notMem (by decide) (htokens.paren_notMem g))]
    exact ⟨.nil, h⟩
  | bracket hgap hexponent h ih =>
    rw [Bracket.all_of_first? (first?_eq htokens hgap hexponent h)]
    exact ⟨.cons ⟨hgap, rfl, rfl⟩ ih.1, ih.2⟩

end ListedText

end PartialFractions
