import PartialFractions.Factor
import PartialFractions.Proofs.TermReading
import PartialFractions.Solution

/-!
Contents of solvable factors: x with an offset or not, and x² with an offset. The spaced text of
such a content becomes a factor of the right kind, from which its root or its rate is read.
-/
namespace PartialFractions

open Text Number

namespace Factor

/-- Blanks do not matter for whether x has an exponent. -/
theorem showsPower_squeeze (s : List Char) : showsPower (squeeze s) = showsPower s := by
  have hhead (t : List Char) : (t.dropWhile isBlank).head? = (squeeze t).head? := by
    rw [squeeze, List.head?_filter, List.find?_eq_head?_dropWhile_not]
    simp
  induction s with
  | nil => rfl
  | cons c s ih =>
    by_cases hc : isBlank c = true
    · have hx : c ≠ 'x' := by
        rintro rfl
        exact absurd hc (by decide)
      rw [squeeze_cons_of_isBlank hc, ih]
      simp [showsPower, hx]
    · have hkeep : squeeze (c :: s) = c :: squeeze s := by simp [squeeze, hc]
      have hsqueezed : squeeze (squeeze s) = squeeze s :=
        squeeze_eq_self fun c h => not_isBlank_of_mem_squeeze h
      rw [hkeep, showsPower, showsPower, ih, hhead, hhead, hsqueezed]

theorem showsPower_eq_false {s : List Char} (h : 'x' ∉ s) : showsPower s = false := by
  induction s with
  | nil => rfl
  | cons c s ih =>
    simp only [List.mem_cons, not_or] at h
    simp [showsPower, ih h.2, Ne.symm h.1]

end Factor

structure Offset where
  negative : Bool
  numeral : DecimalNumeral

namespace Offset

variable {K : Type} [Field K]

def summand (k : Offset) : SignedSummand := ⟨k.negative, .constant k.numeral⟩

def value (k : Offset) : K := Scalar.signed k.negative k.numeral.value

end Offset

/-- A linear content: x, x + k or x - k. -/
structure LinearContent where
  offset : Option Offset

namespace LinearContent

def summands (c : LinearContent) : List SignedSummand :=
  ⟨false, .multiple none none⟩ :: (c.offset.map Offset.summand).toList

def tokens (c : LinearContent) : List (List Char) := SignedSummand.sumTokens false c.summands

def root {K : Type} [Field K] (c : LinearContent) : K := -(c.offset.map Offset.value).getD 0

end LinearContent

def WrittenExponent.two : WrittenExponent where
  digits := ['2']
  braced := false
  isDigit_digits c hc := by
    rw [List.mem_singleton.mp hc]
    decide
  ne_nil := by simp
  length_le := by decide

/-- A quadratic content: x^2 + k or x^2 - k. -/
structure QuadraticContent where
  offset : Offset

namespace QuadraticContent

def summands (c : QuadraticContent) : List SignedSummand :=
  [⟨false, .multiple none (some .two)⟩, c.offset.summand]

def tokens (c : QuadraticContent) : List (List Char) := SignedSummand.sumTokens false c.summands

/-- The number r in a content x² - r. -/
def rate {K : Type} [Field K] (c : QuadraticContent) : K := -c.offset.value

end QuadraticContent

namespace LinearContent

variable (c : LinearContent) {s : List Char}

theorem squeeze_of_spaced (h : Spaced c.tokens s) : squeeze s = 'x' ::
    (match c.offset with
      | none => []
      | some k => (if k.negative then '-' else '+') :: k.numeral.chars) := by
  rw [h.squeeze_eq (SignedSummand.isToken_of_mem false _)]
  obtain ⟨_ | ⟨negative, n⟩⟩ := c
  · rfl
  · cases negative <;> simp [tokens, summands, Offset.summand, SignedSummand.sumTokens,
      Summand.tokens]

theorem showsPower_of_spaced (h : Spaced c.tokens s) : Factor.showsPower s = false := by
  rw [← Factor.showsPower_squeeze, c.squeeze_of_spaced h]
  obtain ⟨_ | ⟨negative, n⟩⟩ := c
  · rfl
  · have hx : 'x' ∉ n.chars := n.notMem_chars (by decide) (by decide)
    have hplus : isBlank '+' = false := by decide
    have hminus : isBlank '-' = false := by decide
    cases negative <;>
      simp [Factor.showsPower, Factor.showsPower_eq_false hx, hplus, hminus]

theorem kind_ofContent {K : Type} (h : Spaced c.tokens s) (multiplicity : ℤ) :
    (Factor.ofContent s multiplicity : Factor K).kind = .linear := by
  simp [Factor.ofContent, c.showsPower_of_spaced h]

/-- The root is shown with the sign of the offset turned, and 0 for x alone. -/
theorem root_ofContent {K : Type} [Field K] [LinearOrder K] [Notated K] (h : Spaced c.tokens s)
    (multiplicity : ℤ) :
    Solution.root (Factor.ofContent s multiplicity : Factor (Exact K)) = .ok (.finite c.root) := by
  have hpower := c.showsPower_of_spaced h
  have hshown : Factor.shownRoot? s = some (match c.offset with
      | none => ['0']
      | some k => (if k.negative then '+' else '-') :: k.numeral.chars) := by
    rw [Factor.shownRoot?, c.squeeze_of_spaced h]
    obtain ⟨_ | ⟨negative, n⟩⟩ := c
    · rfl
    · cases negative <;> rfl
  have hread : (Scalar.read? (match c.offset with
      | none => ['0']
      | some k => (if k.negative then '+' else '-') :: k.numeral.chars) : Option (Exact K)) =
        some (.finite c.root) := by
    obtain ⟨_ | ⟨negative, n⟩⟩ := c
    · have hzero := Scalar.read?_chars (K := K) .zero
      simpa [root, DecimalNumeral.chars_zero, DecimalNumeral.value_zero] using hzero
    · have hsigned := Scalar.read?_sign_chars (K := K) n !negative
      cases negative <;> simpa [root, Offset.value, Scalar.signed] using hsigned
  simp only [Solution.root, Factor.ofContent, hpower, hshown]
  simp [Root.value?, hread]

end LinearContent

namespace QuadraticContent

variable (c : QuadraticContent) {s : List Char}

theorem showsPower_of_spaced (h : Spaced c.tokens s) : Factor.showsPower s = true := by
  rw [← Factor.showsPower_squeeze, h.squeeze_eq (SignedSummand.isToken_of_mem false _)]
  rfl

theorem kind_ofContent {K : Type} (h : Spaced c.tokens s) (multiplicity : ℤ) :
    (Factor.ofContent s multiplicity : Factor K).kind = .quadratic := by
  simp [Factor.ofContent, c.showsPower_of_spaced h]

/-- The solver reads the rate that the content writes, whatever its spacing. -/
theorem rate_ofContent {K : Type} [Field K] [LinearOrder K] [Notated K] (h : Spaced c.tokens s)
    (multiplicity : ℤ) (hne : (c.rate : K) ≠ 0) :
    Solution.rate (Factor.ofContent s multiplicity : Factor (Exact K)) = .ok (.finite c.rate) := by
  have hterms := Term.readAll_of_spaced h
  have hsquare : (⟨false, .multiple none (some .two)⟩ : SignedSummand).term.power = 2 := rfl
  have hconstant : c.offset.summand.term.power = 0 := rfl
  have hleading := Term.value_term (K := K) ⟨false, .multiple none (some .two)⟩
  have hoffset := Term.value_term (K := K) c.offset.summand
  have hone : ((⟨false, .multiple none (some .two)⟩ : SignedSummand).value : K) = 1 := by
    simp [SignedSummand.value, Summand.coefficient, Scalar.signed, DecimalNumeral.value_one]
  have hvalue : (c.offset.summand.value : K) = c.offset.value := rfl
  have hnonzero : (c.offset.value : K) ≠ 0 := by simpa [rate] using hne
  simp only [Solution.rate, Factor.ofContent, String.toList_ofList, hterms]
  simp [summands, Except.mapError, bind, Except.bind, Term.valueAt, hsquare, hconstant, hleading,
    hoffset, hone, hvalue, hnonzero, rate]
  rfl

end QuadraticContent

end PartialFractions
