import PartialFractions.Proofs.FormulaTexts
import PartialFractions.Proofs.PrintedFactors

/-!
Tokens of written sums. The pieces of a written sum spell one token each, and with spaces between
them the formula has these tokens, if its numbers are whole.
-/
namespace PartialFractions

open Text Number

namespace DecimalNumeral

structure IsWhole (n : DecimalNumeral) : Prop where
  fraction : n.fraction = none
  whole : IsWholeNumeral n.whole

variable {n : DecimalNumeral}

theorem IsWhole.chars_eq (h : n.IsWhole) : n.chars = n.whole := by
  simp [chars, h.fraction]

theorem IsWhole.value_eq {K : Type} [Field K] (h : n.IsWhole) :
    (n.value : K) = (ofNumeral n.whole : ℕ) := by
  simp [value, digits, places, h.fraction, ofNumeral]

theorem isWhole_ofDigit {c : Char} (h : c.isDigit = true) (hc : isDigit c = true) :
    (ofDigit c hc).IsWhole where
  fraction := rfl
  whole := isWholeNumeral_digit h

end DecimalNumeral

def Summand.IsWhole : Summand → Prop
  | constant n => n.IsWhole
  | multiple coefficient exponent =>
    (∀ n ∈ coefficient, n.IsWhole) ∧ ∀ e ∈ exponent, IsWholeNumeral e.digits

namespace Verification.Token

/-- The pieces of a text spell one token each. No number comes next to a number, nor next to x, and
x does not come next to x. -/
inductive Spelled : List (List Char) → List Token → Prop
  | nil : Spelled [] []
  | mark {c : Char} {t : Token} {us : List (List Char)} {ts : List Token}
    (hc : (c, t) ∈ typesetMarks) (h : Spelled us ts) : Spelled ([c] :: us) (t :: ts)
  | times {us : List (List Char)} {ts : List Token} (h : Spelled us ts) :
    Spelled (ProductSign.dot.chars :: us) (.times :: ts)
  | x {us : List (List Char)} {ts : List Token}
    (hus : ∀ u ∈ us.head?, ∀ c ∈ u, c.isDigit = false ∧ c ≠ 'x') (h : Spelled us ts) :
    Spelled (['x'] :: us) (.x :: ts)
  | numeral {ds : List Char} {us : List (List Char)} {ts : List Token} (hds : IsWholeNumeral ds)
    (hus : ∀ u ∈ us.head?, ∀ c ∈ u, c.isDigit = false) (h : Spelled us ts) :
    Spelled (ds :: us) (.literal (.whole (ofNumeral ds)) :: ts)

def SpacesOnly (s : List Char) : Prop := ∀ c ∈ s, isBlank c = true → c = ' '

namespace Spelled

variable {us vs : List (List Char)} {ts ts' : List Token}

protected theorem append (h : Spelled us ts) (h' : Spelled vs ts')
    (hvs : ∀ v ∈ vs.head?, ∀ c ∈ v, c.isDigit = false ∧ c ≠ 'x') :
    Spelled (us ++ vs) (ts ++ ts') := by
  have hhead {P : List Char → Prop} {us : List (List Char)} (hus : ∀ u ∈ us.head?, P u)
      (hvs : ∀ v ∈ vs.head?, P v) : ∀ u ∈ (us ++ vs).head?, P u := forall_head?_append hus hvs
  induction h with
  | nil => exact h'
  | mark hc h ih => exact .mark hc ih
  | times h ih => exact .times ih
  | x hus h ih => exact .x (hhead hus hvs) ih
  | numeral hds hus h ih =>
    exact .numeral hds (hhead hus fun v hv c hc => (hvs v hv c hc).1) ih

theorem isBlank_of_isDigit_ascii {c : Char} (h : c.isDigit = true) : isBlank c = false :=
  isBlank_of_isDigit (isDigit_of_ascii h)

theorem isToken (h : Spelled us ts) : ∀ u ∈ us, IsToken u := by
  induction h with
  | nil => simp
  | mark hc h ih =>
    have hall : ∀ m ∈ typesetMarks, isBlank m.1 = false := by decide
    exact List.forall_mem_cons.mpr ⟨isToken_singleton (hall _ hc), ih⟩
  | times h ih => exact List.forall_mem_cons.mpr ⟨ProductSign.dot.isToken_chars, ih⟩
  | x hus h ih => exact List.forall_mem_cons.mpr ⟨isToken_singleton (by decide), ih⟩
  | numeral hds hus h ih =>
    exact List.forall_mem_cons.mpr
      ⟨⟨hds.ne_nil, fun c hc => isBlank_of_isDigit_ascii (hds.isDigit c hc)⟩, ih⟩

/-- What holds of a space, of the first piece and of what stands behind the text holds at its
front. -/
theorem forall_head? {P : Char → Prop} (hspace : P ' ') {s rest : List Char} (h : Spaced us s)
    (htokens : ∀ u ∈ us, IsToken u) (hspaces : SpacesOnly s) (hus : ∀ u ∈ us.head?, ∀ c ∈ u, P c)
    (hrest : ∀ c ∈ rest.head?, P c) : ∀ c ∈ (s ++ rest).head?, P c := by
  cases s with
  | nil => exact hrest
  | cons d s =>
    rintro c ⟨⟩
    rcases h.head? htokens d rfl with hblank | ⟨u, hu, hmem⟩
    · rw [hspaces d (List.mem_cons_self ..) hblank]
      exact hspace
    · exact hus u hu d hmem

/-- A formula of the spelled tokens, with any spaces between them, has these tokens, in front of one
that does not go on with a digit or with x. -/
theorem typeset {s rest : List Char} (hspelled : Spelled us ts) (h : Spaced us s)
    (hspaces : SpacesOnly s) (hrest : Typeset rest ts')
    (hhead : ∀ c ∈ rest.head?, c.isDigit = false ∧ c ≠ 'x') : Typeset (s ++ rest) (ts ++ ts') := by
  induction h generalizing ts with
  | done =>
    cases hspelled
    exact hrest
  | @blank c us s hc h ih =>
    obtain rfl := hspaces c (List.mem_cons_self ..) hc
    exact .space (ih hspelled fun d hd => hspaces d (List.mem_cons_of_mem _ hd))
  | @token u us s h ih =>
    have hlater : SpacesOnly s := fun d hd => hspaces d (List.mem_append_right _ hd)
    cases hspelled with
    | mark hc hspelled => exact .mark hc (ih hspelled hlater)
    | times hspelled => exact .times (ih hspelled hlater)
    | x hus hspelled =>
      exact .x (forall_head? (by decide) h hspelled.isToken hlater hus hhead) (ih hspelled hlater)
    | numeral hds hus hspelled =>
      have hnumeral : ∀ c ∈ (s ++ rest).head?, c.isDigit = false :=
        forall_head? (by decide) h hspelled.isToken hlater hus fun c hc => (hhead c hc).1
      rw [List.append_assoc]
      exact .numeral hds hnumeral (ih hspelled hlater)

end Spelled

section Written

def ofNumeral (n : DecimalNumeral) : Token := .literal (.whole (Number.ofNumeral n.whole))

def ofExponent : Option WrittenExponent → List Token
  | none => []
  | some e =>
    if e.braced then [.power, .opening, .literal (.whole e.value), .closing]
    else [.power, .literal (.whole e.value)]

def ofSummand : Summand → List Token
  | .constant n => [ofNumeral n]
  | .multiple coefficient exponent =>
    (coefficient.map ofNumeral).toList ++ .x :: ofExponent exponent

def ofSum (plusShown : Bool) : List SignedSummand → List Token
  | [] => []
  | t :: rest =>
    (if t.negative then [.minus] else if plusShown then [.plus] else []) ++
      (ofSummand t.summand ++ ofSum true rest)

theorem spelled_exponent {e : Option WrittenExponent} (h : ∀ e' ∈ e, IsWholeNumeral e'.digits) :
    Spelled ((e.map WrittenExponent.tokens).getD []) (ofExponent e) := by
  cases e with
  | none => exact .nil
  | some e =>
    have hdigits := h e rfl
    simp only [Option.map_some, Option.getD_some, WrittenExponent.tokens, ofExponent]
    split
    · exact .mark (by decide) (.mark (by decide) (.numeral hdigits
        (by rintro u ⟨⟩; simp) (.mark (by decide) .nil)))
    · exact .mark (by decide) (.numeral hdigits (by simp) .nil)

theorem spelled_power {e : Option WrittenExponent} (h : ∀ e' ∈ e, IsWholeNumeral e'.digits) :
    Spelled (['x'] :: (e.map WrittenExponent.tokens).getD []) (.x :: ofExponent e) := by
  refine .x ?_ (spelled_exponent h)
  cases e with
  | none => simp
  | some e =>
    have hhead : e.tokens.head? = some ['^'] := by
      unfold WrittenExponent.tokens
      split <;> rfl
    rw [Option.map_some, Option.getD_some, hhead]
    rintro u ⟨⟩
    simp

/-- A summand spells its numeral, the `x` and the exponent, in this order. -/
theorem spelled_summand {m : Summand} (h : m.IsWhole) : Spelled m.tokens (ofSummand m) := by
  have hnumeral {n : DecimalNumeral} (hn : n.IsWhole) {us : List (List Char)} {ts : List Token}
      (hus : ∀ u ∈ us.head?, ∀ c ∈ u, c.isDigit = false) (hts : Spelled us ts) :
      Spelled (n.chars :: us) (ofNumeral n :: ts) := by
    rw [hn.chars_eq]
    exact .numeral hn.whole hus hts
  cases m with
  | constant n => exact hnumeral h (by simp) .nil
  | multiple coefficient exponent =>
    have hpower := spelled_power h.2
    cases coefficient with
    | none => exact hpower
    | some n => exact hnumeral (h.1 n rfl) (by simp) hpower

/-- A sum spells its summands with a sign before each, the first plus left out if not shown. -/
theorem spelled_sum {terms : List SignedSummand} (h : ∀ t ∈ terms, t.summand.IsWhole)
    (plusShown : Bool) :
    Spelled (SignedSummand.sumTokens plusShown terms) (ofSum plusShown terms) := by
  induction terms generalizing plusShown with
  | nil => exact .nil
  | cons t rest ih =>
    obtain ⟨ht, hrest⟩ := List.forall_mem_cons.mp h
    have hsign : ∀ v ∈ (SignedSummand.sumTokens true rest).head?, ∀ c ∈ v,
        c.isDigit = false ∧ c ≠ 'x' := by
      cases rest with
      | nil => simp [SignedSummand.sumTokens]
      | cons t' rest => cases ht' : t'.negative <;> simp [SignedSummand.sumTokens, ht']
    have hlater := (spelled_summand ht).append (ih hrest true) hsign
    rw [SignedSummand.sumTokens, ofSum, List.append_assoc]
    cases t.negative with
    | true => exact .mark (by decide) hlater
    | false =>
      cases plusShown with
      | true => exact .mark (by decide) hlater
      | false => exact hlater

end Written

end Verification.Token

end PartialFractions
