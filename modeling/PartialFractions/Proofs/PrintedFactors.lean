import PartialFractions.Proofs.ListedBrackets

/-!
Denominators that are printed from their factors and read back. A gap has at most one number and at
most one power of x, and a multiplication sign may stand at either end of it. Every bracket and
every power of x is one factor, and the scale is the product of the numbers.
-/
namespace PartialFractions

open Text Number

/-- The multiplication signs `\cdot`, `\times` and `*`. -/
inductive ProductSign
  | dot
  | cross
  | star

namespace ProductSign

def chars : ProductSign → List Char
  | dot => ['\\', 'c', 'd', 'o', 't']
  | cross => ['\\', 't', 'i', 'm', 'e', 's']
  | star => ['*']

theorem isToken_chars (p : ProductSign) : IsToken p.chars where
  ne_nil := by cases p <;> simp [chars]
  isBlank_of_mem c hc := by
    have hall : p.chars.all (! isBlank ·) = true := by cases p <;> decide
    simpa using List.all_eq_true.mp hall c hc

theorem paren_notMem (p : ProductSign) : '(' ∉ p.chars := by
  cases p <;> decide

theorem head_notMem (p : ProductSign) : '^' ∉ p.chars ∧ '\x7d' ∉ p.chars := by
  cases p <;> decide

end ProductSign

namespace Gap

theorem dropProducts_sign (p : ProductSign) (rest : List Char) :
    dropProducts (p.chars ++ rest) = dropProducts rest := by
  cases p <;> rfl

/-- What belongs to no multiplication sign is kept. -/
theorem dropProducts_append {s : List Char} (hs : ∀ c ∈ s, c ≠ '\\' ∧ c ≠ '*')
    (rest : List Char) : dropProducts (s ++ rest) = s ++ dropProducts rest := by
  induction s with
  | nil => rfl
  | cons c s ih =>
    obtain ⟨⟨hcommand, hstar⟩, hs⟩ := List.forall_mem_cons.mp hs
    have hkeep : dropProducts (c :: (s ++ rest)) = c :: dropProducts (s ++ rest) := by
      simp [dropProducts, hcommand]
    rw [List.cons_append, hkeep, ih hs, List.cons_append]

end Gap

structure ReadsGaps {G : Type} (tokens : G → List (List Char)) (gap : G → WrittenGap) : Prop
    extends GapTokens tokens where
  dropProducts_eq {g : G} {s : List Char} (h : Spaced (tokens g) s) :
    Gap.dropProducts (squeeze s) =
      (gap g).signText ++ ((gap g).numberText ++ (gap g).variableText)

/-- A gap with a multiplication sign in front of it, one behind it, both, or none. -/
structure PrintedGap where
  front : Option ProductSign
  gap : WrittenGap
  back : Option ProductSign

namespace PrintedGap

def tokens (g : PrintedGap) : List (List Char) :=
  (g.front.map ProductSign.chars).toList ++
    (g.gap.tokens ++ (g.back.map ProductSign.chars).toList)

theorem gapTokens : GapTokens tokens := by
  have hall {P : List Char → Prop} (hsign : ∀ p : ProductSign, P p.chars) (g : PrintedGap)
      (hgap : ∀ t ∈ g.gap.tokens, P t) : ∀ t ∈ g.tokens, P t := by
    have hoption (p : Option ProductSign) : ∀ t ∈ (p.map ProductSign.chars).toList, P t := by
      cases p <;> simp [hsign]
    intro t ht
    simp only [tokens, List.mem_append] at ht
    rcases ht with ht | ht | ht
    · exact hoption g.front t ht
    · exact hgap t ht
    · exact hoption g.back t ht
  refine ⟨fun g => hall ProductSign.isToken_chars g g.gap.isToken_of_mem,
    fun g => hall ProductSign.paren_notMem g g.gap.paren_notMem, ?_⟩
  have hend (p : Option ProductSign) :
      ∀ t ∈ (p.map ProductSign.chars).toList.head?, '^' ∉ t ∧ '\x7d' ∉ t := by
    cases p <;> simp [ProductSign.head_notMem]
  have hgap (g : WrittenGap) : ∀ t ∈ g.tokens.head?, '^' ∉ t ∧ '\x7d' ∉ t :=
    fun t ht => ⟨g.head_notMem (by decide) (by decide) t ht,
      g.head_notMem (by decide) (by decide) t ht⟩
  exact fun g => forall_head?_append (hend g.front) (forall_head?_append (hgap g.gap) (hend g.back))

variable {g : PrintedGap} {s : List Char}

/-- Without blanks and multiplication signs a gap is its sign, number and variable. -/
theorem dropProducts_of_spaced (h : Spaced g.tokens s) :
    Gap.dropProducts (squeeze s) =
      g.gap.signText ++ (g.gap.numberText ++ g.gap.variableText) := by
  obtain ⟨front, s₁, rfl, hfront, h₁⟩ := h.exists_append
  obtain ⟨middle, back, rfl, hmiddle, hback⟩ := h₁.exists_append
  have hends (p : Option ProductSign) {t : List Char}
      (ht : Spaced (p.map ProductSign.chars).toList t) (rest : List Char) :
      Gap.dropProducts (squeeze t ++ rest) = Gap.dropProducts rest := by
    cases p with
    | none => rw [ht.squeeze_eq (by simp), Option.map_none, Option.toList_none, List.flatten_nil,
        List.nil_append]
    | some p =>
      rw [ht.squeeze_eq (by simpa using p.isToken_chars)]
      simpa using Gap.dropProducts_sign p rest
  have hlast := hends g.back hback []
  rw [List.append_nil] at hlast
  rw [squeeze_append, squeeze_append, hends g.front hfront, g.gap.squeeze_of_spaced hmiddle,
    Gap.dropProducts_append fun c => g.gap.isFactorChar_of_mem, hlast]
  simp [Gap.dropProducts]

theorem readsGaps : ReadsGaps tokens gap :=
  { gapTokens with dropProducts_eq := dropProducts_of_spaced }

end PrintedGap

namespace Factor

/-- A text holds x with an exponent; blanks may stand between the two. -/
def HoldsPower (s : List Char) : Prop :=
  ∃ before blanks after, (∀ c ∈ blanks, isBlank c = true) ∧
    s = before ++ 'x' :: (blanks ++ '^' :: after)

theorem showsPower_iff {s : List Char} : showsPower s = true ↔ HoldsPower s := by
  induction s with
  | nil => simp [showsPower, HoldsPower]
  | cons c s ih =>
    simp only [showsPower, Bool.or_eq_true, Bool.and_eq_true, decide_eq_true_eq, beq_iff_eq, ih,
      HoldsPower]
    constructor
    · rintro (⟨rfl, hcaret⟩ | ⟨before, blanks, after, hblanks, rfl⟩)
      · obtain ⟨after, hafter⟩ := List.head?_eq_some_iff.mp hcaret
        refine ⟨[], s.takeWhile isBlank, after, fun c hc => List.mem_takeWhile_imp hc, ?_⟩
        rw [← hafter, List.takeWhile_append_dropWhile]
        rfl
      · exact ⟨c :: before, blanks, after, hblanks, rfl⟩
    · rintro ⟨before, blanks, after, hblanks, heq⟩
      cases before with
      | nil =>
        obtain ⟨rfl, rfl⟩ := List.cons.inj heq
        refine Or.inl ⟨rfl, ?_⟩
        rw [dropWhile_append_of_head hblanks (by rintro c ⟨⟩; decide), List.head?_cons]
      | cons d before =>
        obtain ⟨rfl, rfl⟩ := List.cons.inj heq
        exact Or.inr ⟨before, blanks, after, hblanks, rfl⟩

/-- A factor is quadratic if its content holds x with an exponent; the root of a linear one is read
from its content. -/
theorem ofContent_cases {K : Type} (content : List Char) (multiplicity : ℤ) :
    ((ofContent content multiplicity : Factor K).kind = .quadratic ∧ HoldsPower content ∧
      (ofContent content multiplicity : Factor K).root = none) ∨
    ((ofContent content multiplicity : Factor K).kind = .linear ∧ ¬ HoldsPower content ∧
      (ofContent content multiplicity : Factor K).root =
        (shownRoot? content).map fun s => .written (String.ofList s)) := by
  rw [← showsPower_iff]
  cases h : showsPower content with
  | true => simp [ofContent, h]
  | false => simp [ofContent, h]

end Factor

namespace Factorization

variable {K : Type} [Field K] [LinearOrder K] [Notated K]

section Gaps

variable {G : Type} {tokens : G → List (List Char)} {gap : G → WrittenGap}
  {brackets : List (ListedBracket G)} {last : G}

/-- The brackets of a printed denominator with any kind of gaps that are read as they are meant. -/
theorem bracketFactors_of_cut (hgaps : ReadsGaps tokens gap) {cut : List Bracket}
    (h : List.Forall₂ (ListedBracket.Cut tokens) brackets cut) {leading : Bool}
    (hfirst : ∀ b ∈ brackets.head?, (gap b.gap).negative = true → leading = true)
    (hlater : ∀ b ∈ brackets.tail, (gap b.gap).negative = false) (v : K) :
    bracketFactors leading (Exact.finite v) cut =
      .ok (.finite (v * (brackets.map fun b => (gap b.gap).value).prod),
        brackets.flatMap fun b => (gap b.gap).bare ++ [b.factor]) := by
  induction h generalizing leading v with
  | nil => simp [bracketFactors]
  | @cons b c rest cut hb hrest ih =>
    have hgap := Gap.read_of_dropProducts (K := K) (hgaps.dropProducts_eq hb.gap) (hfirst b rfl)
    have hnext : ∀ b ∈ rest.head?, (gap b.gap).negative = true → false = true := by
      intro b' hb' hnegative
      rw [hlater b' (List.mem_of_mem_head? hb')] at hnegative
      exact hnegative
    have hothers := ih hnext (fun b' hb' => hlater b' (List.mem_of_mem_tail hb'))
      (v * (gap b.gap).value)
    rw [bracketFactors, hgap, hb.bracketFactor_eq]
    simp only [Except.mapError, bind, Except.bind, Exact.finite_mul, hothers]
    simp [mul_assoc]
    rfl

/-- The whole listing: the multipliers' product and the factors in the order of the text. -/
theorem listed_of_text (hgaps : ReadsGaps tokens gap) {s : List Char}
    (h : ListedText tokens brackets last s) (hne : brackets ≠ [])
    (hsigns : ∀ b ∈ brackets.tail, (gap b.gap).negative = false)
    (hlast : (gap last).negative = false) :
    listed s = .ok
      (Exact.finite ((brackets.map fun b => (gap b.gap).value).prod * (gap last).value : K),
        (brackets.flatMap fun b => (gap b.gap).bare ++ [b.factor]) ++ (gap last).bare) := by
  obtain ⟨hcut, hgap⟩ := h.all_cut hgaps.toGapTokens
  have hsome : (Bracket.all s).1 ≠ [] := by
    intro hnil
    rw [hnil] at hcut
    exact hne (List.forall₂_nil_right_iff.mp hcut)
  have hbrackets := bracketFactors_of_cut hgaps hcut (fun _ _ _ => rfl) hsigns (1 : K)
  rw [one_mul] at hbrackets
  exact listed_of_parts rfl hsome hbrackets
    (Gap.read_of_dropProducts (hgaps.dropProducts_eq hgap) (by simp [hlast]))

/-- A denominator of brackets and gaps is read as the product of its numbers and, in the order of
the text, one factor for every power of x and one for every bracket. -/
theorem ofDenominator_of_text (hgaps : ReadsGaps tokens gap) {s : List Char}
    (h : ListedText tokens brackets last s) (hne : brackets ≠ [])
    (hsigns : ∀ b ∈ brackets.tail, (gap b.gap).negative = false)
    (hlast : (gap last).negative = false) (hnumbers : ∀ b ∈ brackets, ((gap b.gap).value : K) ≠ 0)
    (hnumber : ((gap last).value : K) ≠ 0) :
    ofDenominator (String.ofList s) =
      .ok ⟨.listed,
        Exact.finite ((brackets.map fun b => (gap b.gap).value).prod * (gap last).value : K),
        (brackets.flatMap fun b => (gap b.gap).bare ++ [b.factor]) ++ (gap last).bare⟩ := by
  have hscale : (brackets.map fun b => ((gap b.gap).value : K)).prod * (gap last).value ≠ 0 := by
    refine mul_ne_zero (List.prod_ne_zero ?_) hnumber
    intro hzero
    obtain ⟨b, hb, hvalue⟩ := List.mem_map.mp hzero
    exact hnumbers b hb hvalue
  exact ofDenominator_of_listed (by simpa using h.open_mem hne)
    (by simpa using listed_of_text hgaps h hne hsigns hlast) hscale

end Gaps

variable {brackets : List (ListedBracket PrintedGap)} {last : PrintedGap}

/-- A denominator that is printed from brackets and gaps is read as the product of its numbers and,
in the order of the text, one factor for every power of x and one for every bracket. -/
theorem ofDenominator_of_printed {s : List Char}
    (h : ListedText PrintedGap.tokens brackets last s) (hne : brackets ≠ [])
    (hsigns : ∀ b ∈ brackets.tail, b.gap.gap.negative = false)
    (hlast : last.gap.negative = false) (hnumbers : ∀ b ∈ brackets, (b.gap.gap.value : K) ≠ 0)
    (hnumber : (last.gap.value : K) ≠ 0) :
    ofDenominator (String.ofList s) =
      .ok ⟨.listed,
        Exact.finite ((brackets.map fun b => b.gap.gap.value).prod * last.gap.value : K),
        (brackets.flatMap fun b => b.gap.gap.bare ++ [b.factor]) ++ last.gap.bare⟩ ∧
    ∀ b ∈ brackets,
      (b.factor : Factor (Exact K)).content = String.ofList (trim b.content) ∧
      (b.factor : Factor (Exact K)).multiplicity = b.multiplicity ∧
      (((b.factor : Factor (Exact K)).kind = .quadratic ∧ Factor.HoldsPower (trim b.content) ∧
        (b.factor : Factor (Exact K)).root = none) ∨
      ((b.factor : Factor (Exact K)).kind = .linear ∧ ¬ Factor.HoldsPower (trim b.content) ∧
        (b.factor : Factor (Exact K)).root =
          (Factor.shownRoot? (trim b.content)).map fun s => .written (String.ofList s))) := by
  exact ⟨ofDenominator_of_text PrintedGap.readsGaps h hne hsigns hlast hnumbers hnumber,
    fun b _ => ⟨rfl, rfl, Factor.ofContent_cases _ _⟩⟩

section Sample

def bracedExponent (c : Char) (h : isDigit c = true) : WrittenExponent where
  digits := [c]
  braced := true
  isDigit_digits := isDigit_of_mem_singleton h
  ne_nil := by simp
  length_le := by simp [maxIntegerDigits]

theorem paren_notMem_content : ')' ∉ "x - 1".toList := by decide

/-- The gap -2x^{2}\cdot and the bracket (x - 1)^{3}. -/
def printedCube : ListedBracket PrintedGap where
  gap :=
    ⟨none, ⟨true, some (.multiple (some (.ofDigit '2' isDigit_two))
      (some (bracedExponent '2' isDigit_two)))⟩, some .dot⟩
  content := "x - 1".toList
  exponent := some (bracedExponent '3' isDigit_three)
  closed := paren_notMem_content

/-- The gap \times and the bracket (x^2 + 1). -/
def printedQuadratic : ListedBracket PrintedGap where
  gap := ⟨some .cross, ⟨false, none⟩, none⟩
  content := "x^2 + 1".toList
  exponent := none
  closed := by decide

def printedFive : PrintedGap := ⟨none, ⟨false, some (.constant (.ofDigit '5' isDigit_five))⟩, none⟩

theorem ofDenominator_of_printed_sample :
    (ofDenominator "-2x^\x7b2\x7d\\cdot(x - 1)^\x7b3\x7d\\times(x^2 + 1)5" :
        Except Failure (Factorization (Exact ℚ))) =
      .ok ⟨.listed, .finite (-10),
        [.bare 2, .ofContent "x - 1".toList 3, .ofContent "x^2 + 1".toList 1]⟩ := by
  have hdigit (c : Char) (h : isDigit c = true) {k : ℕ} (hk : digit? c = some k) :
      ((DecimalNumeral.ofDigit c h).value : ℚ) = k := DecimalNumeral.value_ofDigit hk h
  have htwo := hdigit '2' isDigit_two (k := 2) (by decide)
  have hfive := hdigit '5' isDigit_five (k := 5) (by decide)
  have hblanks : ∀ c ∈ ([] : List Char), isBlank c = true := by simp
  have htext : ListedText PrintedGap.tokens [printedCube, printedQuadratic] printedFive _ :=
    .bracket (.flatten _) (.some hblanks (by simp [bracedExponent]))
      (.bracket (.flatten _) .none (.last (.flatten _)))
  have hcube : (printedCube.gap.gap.value : ℚ) = -2 := by
    simp [printedCube, WrittenGap.value, Summand.coefficient, Scalar.signed, htwo]
  have hquadratic : (printedQuadratic.gap.gap.value : ℚ) = 1 := by
    simp [printedQuadratic, WrittenGap.value, Scalar.signed]
  have hlast : (printedFive.gap.value : ℚ) = 5 := by
    simp [printedFive, WrittenGap.value, Summand.coefficient, Scalar.signed, hfive]
  have hread := (ofDenominator_of_printed (K := ℚ) htext (by simp) (by simp [printedQuadratic]) rfl
    (by simp [hcube, hquadratic]) (by simp [hlast])).1
  have hscale : ([printedCube, printedQuadratic].map fun b => (b.gap.gap.value : ℚ)).prod *
      printedFive.gap.value = -10 := by
    simp [hcube, hquadratic, hlast]
    norm_num
  rw [hscale] at hread
  exact hread

end Sample

end Factorization

end PartialFractions
