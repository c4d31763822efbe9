import Mathlib.Data.List.Basic
import Mathlib.Tactic.Common
import PartialFractions.Text.Blank

/-!
Spacing: a text that spells tokens in order, with any blanks before, between and behind them. The
blanks can be trimmed or squeezed away without a token being lost.
-/
namespace PartialFractions.Text

/-- The text consists of the tokens in order and of blanks. -/
inductive Spaced : List (List Char) → List Char → Prop
  | done : Spaced [] []
  | blank {c : Char} {tokens : List (List Char)} {s : List Char} (hc : isBlank c = true)
      (h : Spaced tokens s) : Spaced tokens (c :: s)
  | token {t : List Char} {tokens : List (List Char)} {s : List Char}
      (h : Spaced tokens s) : Spaced (t :: tokens) (t ++ s)

structure IsToken (t : List Char) : Prop where
  ne_nil : t ≠ []
  isBlank_of_mem : ∀ c ∈ t, isBlank c = false

theorem isToken_singleton {c : Char} (h : isBlank c = false) : IsToken [c] where
  ne_nil := List.cons_ne_nil c []
  isBlank_of_mem d hd := by
    rw [List.mem_singleton.mp hd]
    exact h

theorem squeeze_cons_of_isBlank {c : Char} (hc : isBlank c = true) (s : List Char) :
    squeeze (c :: s) = squeeze s := by
  simp [squeeze, hc]

theorem squeeze_eq_self {s : List Char} (h : ∀ c ∈ s, isBlank c = false) : squeeze s = s := by
  refine List.filter_eq_self.mpr ?_
  intro c hc
  simp [h c hc]

namespace Spaced

variable {tokens others : List (List Char)} {s t : List Char}

theorem mem (h : Spaced tokens s) {c : Char} (hc : c ∈ s) :
    isBlank c = true ∨ ∃ t ∈ tokens, c ∈ t := by
  induction h with
  | done => simp at hc
  | blank hblank h ih =>
    rcases List.mem_cons.mp hc with rfl | hc
    · exact Or.inl hblank
    · exact ih hc
  | @token t tokens s h ih =>
    rcases List.mem_append.mp hc with hc | hc
    · exact Or.inr ⟨t, List.mem_cons_self .., hc⟩
    · rcases ih hc with hblank | ⟨t', ht', hc⟩
      · exact Or.inl hblank
      · exact Or.inr ⟨t', List.mem_cons_of_mem _ ht', hc⟩

theorem mem_of_mem_token (h : Spaced tokens s) (ht : t ∈ tokens) {c : Char} (hc : c ∈ t) :
    c ∈ s := by
  induction h with
  | done => simp at ht
  | blank hblank h ih => exact List.mem_cons_of_mem _ (ih ht)
  | @token u tokens s h ih =>
    rcases List.mem_cons.mp ht with rfl | ht
    · exact List.mem_append_left _ hc
    · exact List.mem_append_right _ (ih ht)

/-- A character that is neither blank nor in a token is not in the text. -/
theorem notMem (h : Spaced tokens s) {c : Char} (hblank : isBlank c = false)
    (hc : ∀ t ∈ tokens, c ∉ t) : c ∉ s := by
  intro hmem
  rcases h.mem hmem with hb | ⟨t, ht, hct⟩
  · rw [hblank] at hb
    cases hb
  · exact hc t ht hct

/-- Without its blanks the text is its tokens side by side. -/
theorem squeeze_eq (h : Spaced tokens s) (htokens : ∀ t ∈ tokens, IsToken t) :
    squeeze s = tokens.flatten := by
  induction h with
  | done => rfl
  | blank hblank h ih => rw [squeeze_cons_of_isBlank hblank, ih htokens]
  | @token t tokens s h ih =>
    obtain ⟨ht, hrest⟩ := List.forall_mem_cons.mp htokens
    rw [squeeze_append, squeeze_eq_self ht.isBlank_of_mem, ih hrest, List.flatten_cons]

/-- Blanks anywhere between the characters of a text can be squeezed away. -/
theorem squeeze_eq_of_chars (h : Spaced (t.map fun c => [c]) s)
    (ht : ∀ c ∈ t, isBlank c = false) : squeeze s = t := by
  have htokens : ∀ u ∈ t.map fun c => [c], IsToken u := by
    intro u hu
    obtain ⟨c, hc, rfl⟩ := List.mem_map.mp hu
    exact isToken_singleton (ht c hc)
  rw [h.squeeze_eq htokens, ← List.flatMap_def, List.flatMap_singleton']

protected theorem append (h : Spaced tokens s) (h' : Spaced others t) :
    Spaced (tokens ++ others) (s ++ t) := by
  induction h with
  | done => exact h'
  | blank hblank h ih => exact .blank hblank ih
  | @token u tokens s h ih =>
    rw [List.append_assoc]
    exact .token ih

/-- The text is cut between two tokens. -/
theorem exists_append (h : Spaced (tokens ++ others) s) :
    ∃ left right, s = left ++ right ∧ Spaced tokens left ∧ Spaced others right := by
  -- `all` stands for the tokens together, whose first one may be of either list
  generalize hall : tokens ++ others = all at h
  induction h generalizing tokens with
  | done =>
    obtain ⟨rfl, rfl⟩ := List.append_eq_nil_iff.mp hall
    exact ⟨[], [], rfl, .done, .done⟩
  | @blank c all s hblank h ih =>
    obtain ⟨left, right, rfl, hleft, hright⟩ := ih hall
    exact ⟨c :: left, right, rfl, .blank hblank hleft, hright⟩
  | @token u all s h ih =>
    cases tokens with
    | nil =>
      rw [List.nil_append] at hall
      exact ⟨[], u ++ s, rfl, .done, hall ▸ .token h⟩
    | cons first rest =>
      obtain ⟨rfl, hrest⟩ := List.cons.inj hall
      obtain ⟨left, right, rfl, hleft, hright⟩ := ih hrest
      exact ⟨first ++ left, right, by rw [List.append_assoc], .token hleft, hright⟩

/-- Blanks, the first token, and the text behind it. -/
theorem exists_cons (h : Spaced (t :: tokens) s) :
    ∃ blanks rest, s = blanks ++ (t ++ rest) ∧ (∀ c ∈ blanks, isBlank c = true) ∧
      Spaced tokens rest := by
  generalize hall : t :: tokens = all at h
  induction h with
  | done => cases hall
  | @blank c all s hblank h ih =>
    obtain ⟨blanks, rest, rfl, hblanks, hrest⟩ := ih hall
    exact ⟨c :: blanks, rest, rfl, List.forall_mem_cons.mpr ⟨hblank, hblanks⟩, hrest⟩
  | @token u all s h ih =>
    obtain ⟨rfl, rfl⟩ := List.cons.inj hall
    exact ⟨[], s, rfl, by simp, h⟩

/-- Tokens side by side, without any blanks. -/
theorem flatten (tokens : List (List Char)) : Spaced tokens tokens.flatten := by
  induction tokens with
  | nil => exact .done
  | cons t tokens ih => exact .token ih

/-- Every text is what is left of it without its blanks, with the blanks put back. -/
theorem squeezed (s : List Char) : Spaced ((squeeze s).map fun c => [c]) s := by
  induction s with
  | nil => exact .done
  | cons c s ih =>
    by_cases hc : isBlank c = true
    · rw [squeeze_cons_of_isBlank hc]
      exact .blank hc ih
    · have hkeep : squeeze (c :: s) = c :: squeeze s := by simp [squeeze, hc]
      rw [hkeep, List.map_cons]
      exact .token ih

theorem of_blanks (h : ∀ c ∈ s, isBlank c = true) : Spaced [] s := by
  induction s with
  | nil => exact .done
  | cons c s ih =>
    obtain ⟨hc, hs⟩ := List.forall_mem_cons.mp h
    exact .blank hc (ih hs)

theorem append_blanks {blanks : List Char} (h : Spaced tokens s)
    (hblanks : ∀ c ∈ blanks, isBlank c = true) : Spaced tokens (s ++ blanks) := by
  simpa using h.append (.of_blanks hblanks)

/-- The first character is blank or begins the first token. -/
protected theorem head? (h : Spaced tokens s) (htokens : ∀ t ∈ tokens, IsToken t) :
    ∀ c ∈ s.head?, isBlank c = true ∨ ∃ t ∈ tokens.head?, c ∈ t := by
  cases h with
  | done => simp
  | blank hblank h =>
    rintro c ⟨⟩
    exact Or.inl hblank
  | @token t tokens s h =>
    intro c hc
    have hne := (htokens t (List.mem_cons_self ..)).ne_nil
    rw [List.head?_append_of_ne_nil _ hne] at hc
    exact Or.inr ⟨t, rfl, List.mem_of_mem_head? hc⟩

protected theorem dropWhile (h : Spaced tokens s) (htokens : ∀ t ∈ tokens, IsToken t) :
    Spaced tokens (s.dropWhile isBlank) := by
  induction h with
  | done => exact .done
  | blank hblank h ih =>
    rw [List.dropWhile_cons_of_pos hblank]
    exact ih htokens
  | @token t tokens s h ih =>
    have ht := htokens t (List.mem_cons_self ..)
    obtain ⟨c, rest, rfl⟩ := List.exists_cons_of_ne_nil ht.ne_nil
    have hc : ¬ isBlank c = true := by simp [ht.isBlank_of_mem c (List.mem_cons_self ..)]
    rw [List.cons_append, List.dropWhile_cons_of_neg hc, ← List.cons_append]
    exact .token h

protected theorem reverse (h : Spaced tokens s) :
    Spaced (tokens.map List.reverse).reverse s.reverse := by
  induction h with
  | done => exact .done
  | @blank c tokens s hblank h ih =>
    have hlast : Spaced [] [c] := .blank hblank .done
    simpa using ih.append hlast
  | @token t tokens s h ih =>
    have hlast : Spaced [t.reverse] (t.reverse ++ []) := .token .done
    simpa using ih.append hlast

theorem isToken_reverse {t : List Char} (h : IsToken t) : IsToken t.reverse where
  ne_nil := by simpa using h.ne_nil
  isBlank_of_mem c hc := h.isBlank_of_mem c (List.mem_reverse.mp hc)

protected theorem trim (h : Spaced tokens s) (htokens : ∀ t ∈ tokens, IsToken t) :
    Spaced tokens (trim s) := by
  have hreversed : ∀ t ∈ (tokens.map List.reverse).reverse, IsToken t := by
    intro t ht
    obtain ⟨u, hu, rfl⟩ := List.mem_map.mp (List.mem_reverse.mp ht)
    exact isToken_reverse (htokens u hu)
  have hback := ((h.dropWhile htokens).reverse.dropWhile hreversed).reverse
  simpa [trim, trimOf, Function.comp_def] using hback

end Spaced

end PartialFractions.Text
