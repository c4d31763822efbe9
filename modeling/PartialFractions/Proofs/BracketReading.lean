import PartialFractions.Factorization
import PartialFractions.Proofs.GapReading

/-!
Denominators that list their factors as they are written: gaps and sums in parentheses by turns.
Such a text is cut at its parentheses, and its scale is the product of the numbers of its gaps.
-/
namespace PartialFractions

open Text Number

structure WrittenBracket where
  gap : WrittenGap
  content : List SignedSummand

namespace WrittenBracket

def productTokens : List WrittenBracket → WrittenGap → List (List Char)
  | [], last => last.tokens
  | b :: rest, last => b.gap.tokens ++ (['('] :: (SignedSummand.sumTokens false b.content ++
      ([')'] :: productTokens rest last)))

theorem forall_mem_productTokens {P : List Char → Prop} (hopen : P ['(']) (hclose : P [')'])
    {brackets : List WrittenBracket} {last : WrittenGap}
    (hgaps : ∀ w ∈ brackets, ∀ t ∈ w.gap.tokens, P t)
    (hcontents : ∀ w ∈ brackets, ∀ t ∈ SignedSummand.sumTokens false w.content, P t)
    (hlast : ∀ t ∈ last.tokens, P t) : ∀ t ∈ productTokens brackets last, P t := by
  induction brackets with
  | nil => exact hlast
  | cons w rest ih =>
    obtain ⟨hgap, hgaps⟩ := List.forall_mem_cons.mp hgaps
    obtain ⟨hcontent, hcontents⟩ := List.forall_mem_cons.mp hcontents
    intro t ht
    simp only [productTokens, List.mem_append, List.mem_cons] at ht
    rcases ht with ht | rfl | ht | rfl | ht
    · exact hgap t ht
    · exact hopen
    · exact hcontent t ht
    · exact hclose
    · exact ih hgaps hcontents t ht

structure Matches (w : WrittenBracket) (b : Bracket) : Prop where
  gap : Spaced w.gap.tokens b.gap
  content : Spaced (SignedSummand.sumTokens false w.content) b.content
  exponent : b.exponent = none

theorem Matches.trim {w : WrittenBracket} {b : Bracket} (h : w.Matches b) :
    Spaced (SignedSummand.sumTokens false w.content) (trim b.content) :=
  h.content.trim (SignedSummand.isToken_of_mem false w.content)

end WrittenBracket

theorem exponent?_eq_none {s : List Char} (h : '^' ∉ s.head?) : exponent? s = none := by
  unfold exponent?
  split
  · exact absurd rfl h
  · rfl

/-- What holds of the first token of either list holds of the first one of both. -/
theorem forall_head?_append {P : List Char → Prop} {tokens others : List (List Char)}
    (h : ∀ t ∈ tokens.head?, P t) (hothers : ∀ t ∈ others.head?, P t) :
    ∀ t ∈ (tokens ++ others).head?, P t := by
  cases tokens with
  | nil => exact hothers
  | cons t tokens => exact h

/-- A summand begins with a digit, a point or x. -/
theorem Summand.head_notMem (m : Summand) {c : Char} (hdigit : isDigit c = false)
    (hc : c ∉ ['.', 'x']) : ∀ t ∈ m.tokens.head?, c ∉ t := by
  simp only [List.mem_cons, List.not_mem_nil, or_false, not_or] at hc
  have hnumeral (n : DecimalNumeral) : c ∉ n.chars := n.notMem_chars hdigit hc.1
  obtain n | ⟨_ | n, exponent⟩ := m <;> simp [tokens, hnumeral, hc]

namespace WrittenGap

/-- What stands in a gap begins with a sign, a digit, a point or x. -/
theorem head_notMem (g : WrittenGap) {c : Char} (hdigit : isDigit c = false)
    (hc : c ∉ ['-', '.', 'x']) : ∀ t ∈ g.tokens.head?, c ∉ t := by
  simp only [List.mem_cons, not_or] at hc
  refine forall_head?_append (by split <;> simp [hc.1]) ?_
  cases g.product with
  | none => simp
  | some m => exact m.head_notMem hdigit (by simpa using hc.2)

theorem caret_notMem_head (g : WrittenGap) : ∀ t ∈ g.tokens.head?, '^' ∉ t :=
  g.head_notMem (by decide) (by decide)

theorem paren_notMem (g : WrittenGap) : ∀ t ∈ g.tokens, '(' ∉ t :=
  g.forall_mem_tokens (by decide) fun m _ => m.notMem_of_mem_tokens (by decide) (by decide)

theorem notMem_of_spaced (g : WrittenGap) {s : List Char} (h : Spaced g.tokens s) : '(' ∉ s :=
  h.notMem (by decide) g.paren_notMem

end WrittenGap

theorem SignedSummand.notMem_of_spaced {terms : List SignedSummand} {s : List Char}
    (h : Spaced (sumTokens false terms) s) : ')' ∉ s :=
  h.notMem (by decide) (forall_mem_sumTokens (by decide) (by decide)
    (fun t _ => t.summand.notMem_of_mem_tokens (by decide) (by decide)) false)

namespace Bracket

theorem all_of_none {s : List Char} (h : first? s = none) : all s = ([], s) := by
  rw [all]
  split
  · rfl
  · simp_all

/-- A parenthesis that is never closed begins no bracket. -/
theorem first?_of_unclosed {s : List Char}
    (hclose : ∀ before after, s = before ++ '(' :: after → ')' ∉ after) : first? s = none := by
  cases hcut : cut? '(' s with
  | none => simp [first?, hcut]
  | some parts =>
    obtain ⟨before, after⟩ := parts
    have hnone := cut?_eq_none (hclose before after (cut?_eq_some hcut).1)
    simp [first?, hcut, hnone]

theorem all_of_notMem {s : List Char} (h : '(' ∉ s) : all s = ([], s) :=
  all_of_none (by simp [first?, cut?_eq_none h])

theorem all_of_first? {s rest : List Char} {b : Bracket} (h : first? s = some (b, rest)) :
    all s = (b :: (all rest).1, (all rest).2) := by
  rw [all]
  split <;> simp_all

theorem all_append {gap content after : List Char} (hgap : '(' ∉ gap) (hcontent : ')' ∉ content)
    (hafter : '^' ∉ after.head?) :
    all (gap ++ '(' :: (content ++ ')' :: after)) =
      (⟨gap, content, none⟩ :: (all after).1, (all after).2) := by
  have hfirst : first? (gap ++ '(' :: (content ++ ')' :: after)) =
      some (⟨gap, content, none⟩, after) := by
    simp [first?, cut?_append hgap, cut?_append hcontent, exponent?_eq_none hafter]
  exact all_of_first? hfirst

/-- A caret does not begin what stands behind a bracket. -/
theorem caret_notMem_head {brackets : List WrittenBracket} {last : WrittenGap} :
    ∀ t ∈ (WrittenBracket.productTokens brackets last).head?, '^' ∉ t := by
  cases brackets with
  | nil => exact last.caret_notMem_head
  | cons w rest => exact forall_head?_append w.gap.caret_notMem_head (by simp)

theorem isToken_productTokens (brackets : List WrittenBracket) (last : WrittenGap) :
    ∀ t ∈ WrittenBracket.productTokens brackets last, IsToken t :=
  WrittenBracket.forall_mem_productTokens (isToken_singleton (by decide))
    (isToken_singleton (by decide)) (fun w _ => w.gap.isToken_of_mem)
    (fun _ _ => SignedSummand.isToken_of_mem false _) last.isToken_of_mem

/-- The brackets of a written product are cut out in order, and the last gap is left. -/
theorem all_of_spaced {brackets : List WrittenBracket} {last : WrittenGap} {s : List Char}
    (h : Spaced (WrittenBracket.productTokens brackets last) s) :
    List.Forall₂ WrittenBracket.Matches brackets (all s).1 ∧ Spaced last.tokens (all s).2 := by
  induction brackets generalizing s with
  | nil =>
    rw [all_of_notMem (last.notMem_of_spaced h)]
    exact ⟨.nil, h⟩
  | cons w rest ih =>
    obtain ⟨gap, s₁, rfl, hgap, h₁⟩ := h.exists_append
    obtain ⟨blanks, s₂, rfl, hblanks, h₂⟩ := h₁.exists_cons
    obtain ⟨content, s₃, rfl, hcontent, h₃⟩ := h₂.exists_append
    obtain ⟨blanks', after, rfl, hblanks', hafter⟩ := h₃.exists_cons
    -- blanks in front of a parenthesis are cut out with what stands there
    have hgap' := hgap.append_blanks hblanks
    have hcontent' := hcontent.append_blanks hblanks'
    have hcaret : '^' ∉ after.head? := by
      intro hc
      rcases hafter.head? (isToken_productTokens rest last) _ hc with hblank | ⟨t, ht, hmem⟩
      · exact absurd hblank (by decide)
      · exact caret_notMem_head t ht hmem
    have hall := all_append (w.gap.notMem_of_spaced hgap')
      (SignedSummand.notMem_of_spaced hcontent') hcaret
    have htext : gap ++ (blanks ++ (['('] ++ (content ++ (blanks' ++ ([')'] ++ after))))) =
        (gap ++ blanks) ++ '(' :: ((content ++ blanks') ++ ')' :: after) := by simp
    obtain ⟨hrest, hlast⟩ := ih hafter
    rw [htext, hall]
    exact ⟨.cons ⟨hgap', hcontent', rfl⟩ hrest, hlast⟩

end Bracket

namespace WrittenBracket

/-- A minus sign stands in the first gap only, and there if it is `leading`. -/
def SignsAllowed : Bool → List WrittenBracket → Prop
  | _, [] => True
  | leading, w :: rest => (w.gap.negative = true → leading = true) ∧ SignsAllowed false rest

def scale {K : Type} [Field K] (brackets : List WrittenBracket) : K :=
  (brackets.map fun w => w.gap.value).prod

def factors {K : Type} (brackets : List WrittenBracket) (cut : List Bracket) : List (Factor K) :=
  (List.zipWith (fun w b => w.gap.bare ++ [Factor.ofContent (trim b.content) 1])
    brackets cut).flatten

end WrittenBracket

namespace Factorization

/-- The scale of a denominator is that of its brackets times the number of its last gap. -/
theorem listed_of_cut {K : Type} [Mul K] [Neg K] [Scalar K] {s last : List Char}
    {cut : List Bracket} {v w : K} {factors bare : List (Factor K)}
    (hall : Bracket.all s = (cut, last)) (hne : cut ≠ [])
    (hbrackets : bracketFactors true (Scalar.ofNat 1) cut = .ok (v, factors))
    (hlast : Gap.read false last = .ok (w, bare)) :
    listed s = .ok (v * w, factors ++ bare) := by
  simp only [listed, hall, List.isEmpty_eq_false_iff.mpr hne, hbrackets, hlast, bind, Except.bind]
  rfl

theorem ofDenominator_of_open {K : Type} [Add K] [Sub K] [Mul K] [Div K] [Neg K] [Scalar K]
    {denominator : String} {v : K} {factors : List (Factor K)}
    (hopen : '(' ∈ denominator.toList)
    (hlisted : listed denominator.toList = .ok (v, factors)) (hv : Scalar.isZero v = false) :
    ofDenominator denominator = .ok ⟨.listed, v, factors⟩ := by
  simp only [ofDenominator, read, if_pos hopen, hlisted, bind, Except.bind, pure, Except.pure, hv]
  rfl

variable {K : Type} [Field K] [LinearOrder K] [Notated K]

/-- The scale is carried along, and every bracket adds the bare factors of its gap and itself. -/
theorem bracketFactors_of_matches {brackets : List WrittenBracket} {cut : List Bracket}
    (h : List.Forall₂ WrittenBracket.Matches brackets cut) {leading : Bool}
    (hsigns : WrittenBracket.SignsAllowed leading brackets) (v : K) :
    bracketFactors leading (Exact.finite v) cut =
      .ok (Exact.finite (v * WrittenBracket.scale brackets),
        WrittenBracket.factors brackets cut) := by
  induction h generalizing leading v with
  | nil => simp [bracketFactors, WrittenBracket.scale, WrittenBracket.factors]
  | @cons w b rest cut hw hrest ih =>
    obtain ⟨hfirst, hsigns⟩ := hsigns
    have hgap := Gap.read_of_spaced (K := K) hw.gap hfirst
    have hfactor : (bracketFactor b : Except Fault (Factor (Exact K))) =
        .ok (.ofContent (trim b.content) 1) := by
      rw [bracketFactor, hw.exponent]
      rfl
    have hothers := ih hsigns (v * w.gap.value)
    rw [bracketFactors, hgap, hfactor]
    simp only [Except.mapError, bind, Except.bind, Exact.finite_mul, hothers]
    simp [WrittenBracket.scale, WrittenBracket.factors, mul_assoc]
    rfl

theorem listed_of_parts {s last : List Char} {cut : List Bracket} {v w : K}
    {factors bare : List (Factor (Exact K))} (hall : Bracket.all s = (cut, last)) (hne : cut ≠ [])
    (hbrackets : bracketFactors true (Exact.finite 1) cut = .ok (Exact.finite v, factors))
    (hlast : Gap.read false last = .ok (Exact.finite w, bare)) :
    listed s = .ok (Exact.finite (v * w), factors ++ bare) := by
  have hone : (Scalar.ofNat 1 : Exact K) = .finite 1 := by rw [Exact.scalar_ofNat, Nat.cast_one]
  rw [listed_of_cut hall hne (hone ▸ hbrackets) hlast, Exact.finite_mul]

theorem ofDenominator_of_listed {denominator : String} {v : K} {factors : List (Factor (Exact K))}
    (hopen : '(' ∈ denominator.toList)
    (hlisted : listed denominator.toList = .ok (Exact.finite v, factors)) (hv : v ≠ 0) :
    ofDenominator denominator = .ok ⟨.listed, Exact.finite v, factors⟩ :=
  ofDenominator_of_open hopen hlisted (by simpa using hv)

/-- A written product is read as the product of its numbers and the factors in order. -/
theorem listed_of_spaced {brackets : List WrittenBracket} {last : WrittenGap} {s : List Char}
    (h : Spaced (WrittenBracket.productTokens brackets last) s) (hne : brackets ≠ [])
    (hsigns : WrittenBracket.SignsAllowed true brackets) (hlast : last.negative = false) :
    ∃ cut, List.Forall₂ WrittenBracket.Matches brackets cut ∧
      listed s = .ok (Exact.finite (WrittenBracket.scale brackets * last.value : K),
        WrittenBracket.factors brackets cut ++ last.bare) := by
  obtain ⟨hcut, hgap⟩ := Bracket.all_of_spaced h
  refine ⟨(Bracket.all s).1, hcut, ?_⟩
  have hsome : (Bracket.all s).1 ≠ [] := by
    intro hnil
    rw [hnil] at hcut
    exact hne (List.forall₂_nil_right_iff.mp hcut)
  have hbrackets := bracketFactors_of_matches hcut hsigns (1 : K)
  rw [one_mul] at hbrackets
  exact listed_of_parts rfl hsome hbrackets (Gap.read_of_spaced hgap (by simp [hlast]))

end Factorization

end PartialFractions
