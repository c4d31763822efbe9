import PartialFractions.Proofs.ContentReading
import PartialFractions.Proofs.RealFormulas
import PartialFractions.Proofs.RenderedFormulas

/-!
The last line of a derivation is an antiderivative of its decomposed sum. Over linear divisors it
ends in logarithms. Over x² - r the part with x ends in a logarithm too; the other part ends in a
logarithm of a ratio for positive r and in an arctangent for negative r.
-/
namespace PartialFractions

open Text Number

namespace Derivation

variable (σ : Interpretation) (x : ℝ)

section Values

@[simp] theorem valueAt_squareRoot (r : ℝ) :
    (squareRoot (Exact.finite r)).valueAt σ x = √r := by
  have hopen : (Formula.latex (K := Exact ℝ) "\\sqrt\x7b").mark? = some (.opening Real.sqrt) := rfl
  have hclose : (Formula.latex (K := Exact ℝ) "\x7d").mark? = some .closing := rfl
  have hnumber : (Formula.number (Exact.finite r)).mark? = none := rfl
  simp [squareRoot, Formula.scopes_mark σ x hopen, Formula.scopes_mark σ x hclose,
    Formula.scopes_factor σ x hnumber, Mark.apply]

@[simp] theorem valueAt_logarithm (s : String) :
    (logarithm s : Formula (Exact ℝ)).valueAt σ x = Real.log |σ.text s x| := by
  have hmark : (Formula.latex (K := Exact ℝ) "\\ln ").mark? =
      some (.operator fun _ v => Real.log v) := rfl
  have hargument : (Formula.absolute (K := Exact ℝ) (.latex s)).mark? = none := rfl
  simp [logarithm, Formula.scopes_mark σ x hmark, Formula.scopes_factor σ x hargument, Mark.apply]

@[simp] theorem valueAt_affine (a b : ℝ) :
    (affine (Exact.finite a) (Exact.finite b)).valueAt σ x = a * x + b := by
  have hnumber : (Formula.number (Exact.finite a)).mark? = none := rfl
  have hx : (Formula.latex (K := Exact ℝ) "x").mark? = none := rfl
  simp [affine, Formula.scopes_factor σ x hnumber, Formula.scopes_factor σ x hx, σ.text_x]

/-- Over `x^2 - r` with `0 < r` the antiderivative is a logarithm. -/
theorem valueAt_reciprocal_pos [Shown ℝ] {r : ℝ} (hr : 0 < r) :
    (reciprocalAntiderivative (Exact.finite r)).valueAt σ x =
      1 / (2 * √r) * Real.log |(x - √r) / (x + √r)| := by
  have hnegative : Scalar.isNegative (-Exact.finite r) = true := by
    simpa [Exact.isNegative_finite] using hr
  have htwice : (Formula.latex (K := Exact ℝ) "2 \\cdot ").mark? =
      some (.operator fun _ v => 2 * v) := rfl
  have hminus : (Formula.latex (K := Exact ℝ) "x - ").mark? =
      some (.operator fun x v => x - v) := rfl
  have hplus : (Formula.latex (K := Exact ℝ) "x + ").mark? =
      some (.operator fun x v => x + v) := rfl
  have hopen : (Formula.latex (K := Exact ℝ) " \\ln \\left| ").mark? =
      some (.opening fun v => Real.log |v|) := rfl
  have hclose : (Formula.latex (K := Exact ℝ) " \\right|").mark? = some .closing := rfl
  have hroot : (squareRoot (Exact.finite r)).mark? = none := rfl
  have hquotient (n d : Formula (Exact ℝ)) : (Formula.displayQuotient n d).mark? = none := rfl
  rw [reciprocalAntiderivative, if_pos hnegative]
  simp [Formula.scopes_mark σ x htwice, Formula.scopes_mark σ x hminus,
    Formula.scopes_mark σ x hplus, Formula.scopes_mark σ x hopen,
    Formula.scopes_mark σ x hclose, Formula.scopes_factor σ x hroot,
    Formula.scopes_factor σ x (hquotient _ _), Mark.apply, σ.text_one]

/-- Over `x^2 - r` with `r ≤ 0` the antiderivative is an arctangent. -/
theorem valueAt_reciprocal_neg [Shown ℝ] {r : ℝ} (hr : r ≤ 0) :
    (reciprocalAntiderivative (Exact.finite r)).valueAt σ x =
      1 / √(-r) * Real.arctan (x / √(-r)) := by
  have hnegative : ¬ Scalar.isNegative (-Exact.finite r) = true := by
    simpa [Exact.isNegative_finite] using hr
  have hopen : (Formula.latex (K := Exact ℝ) " \\arctan \\left( ").mark? =
      some (.opening Real.arctan) := rfl
  have hclose : (Formula.latex (K := Exact ℝ) " \\right)").mark? = some .closing := rfl
  have hquotient (n d : Formula (Exact ℝ)) : (Formula.displayQuotient n d).mark? = none := rfl
  rw [reciprocalAntiderivative, if_neg hnegative]
  simp [Formula.scopes_mark σ x hopen,
    Formula.scopes_mark σ x hclose, Formula.scopes_factor σ x (hquotient _ _), Mark.apply,
    σ.text_one, σ.text_x]

end Values

section Derivatives

variable {σ x}

theorem hasDerivAt_logarithm {s : String} {p : ℝ → ℝ} {p' : ℝ} (hs : ∀ y, σ.text s y = p y)
    (hp : HasDerivAt p p' x) (hne : p x ≠ 0) :
    HasDerivAt (fun y => (logarithm s : Formula (Exact ℝ)).valueAt σ y) (p' / p x) x := by
  have hvalue : (fun y => (logarithm s : Formula (Exact ℝ)).valueAt σ y) =
      fun y => Real.log (p y) := by
    funext y
    rw [valueAt_logarithm, hs, Real.log_abs]
  rw [hvalue]
  exact hp.log hne

/-- The logarithm of the ratio of x - q and x + q. -/
theorem hasDerivAt_log_ratio {q : ℝ} (hq : q ≠ 0) (hx : x ^ 2 - q ^ 2 ≠ 0) :
    HasDerivAt (fun y => 1 / (2 * q) * Real.log |(y - q) / (y + q)|) (1 / (x ^ 2 - q ^ 2)) x := by
  have hproduct : (x - q) * (x + q) ≠ 0 := by
    intro h
    exact hx (by linear_combination h)
  obtain ⟨hminus, hplus⟩ := mul_ne_zero_iff.mp hproduct
  have hratio : HasDerivAt (fun y => (y - q) / (y + q))
      ((1 * (x + q) - (x - q) * 1) / (x + q) ^ 2) x :=
    ((hasDerivAt_id' x).sub_const q).div ((hasDerivAt_id' x).add_const q) hplus
  have hlog := (hratio.log (div_ne_zero hminus hplus)).const_mul (1 / (2 * q))
  simp only [Real.log_abs]
  refine hlog.congr_deriv ?_
  field_simp
  ring

/-- The arctangent of x / q. -/
theorem hasDerivAt_arctan_quotient {q : ℝ} (hq : q ≠ 0) :
    HasDerivAt (fun y => 1 / q * Real.arctan (y / q)) (1 / (x ^ 2 + q ^ 2)) x := by
  have harctan := (((hasDerivAt_id' x).div_const q).arctan).const_mul (1 / q)
  refine harctan.congr_deriv ?_
  have hsum : q ^ 2 + x ^ 2 ≠ 0 := by positivity
  field_simp
  ring

/-- Whichever of the two forms is printed, it differentiates back to the reciprocal. -/
theorem hasDerivAt_reciprocal [Shown ℝ] {r : ℝ} (hr : r ≠ 0) (hx : x ^ 2 - r ≠ 0) :
    HasDerivAt (fun y => (reciprocalAntiderivative (Exact.finite r)).valueAt σ y)
      (1 / (x ^ 2 - r)) x := by
  rcases lt_or_gt_of_ne hr with hneg | hpos
  · have hroot : √(-r) ^ 2 = -r := Real.sq_sqrt (by linarith)
    have hne : √(-r) ≠ 0 := Real.sqrt_ne_zero'.mpr (by linarith)
    have harctan := hasDerivAt_arctan_quotient (x := x) hne
    rw [hroot, ← sub_eq_add_neg] at harctan
    simpa only [valueAt_reciprocal_neg σ _ hneg.le] using harctan
  · have hroot : √r ^ 2 = r := Real.sq_sqrt hpos.le
    have hne : √r ≠ 0 := Real.sqrt_ne_zero'.mpr hpos
    have hlog := hasDerivAt_log_ratio (x := x) hne (by rwa [hroot])
    rw [hroot] at hlog
    simpa only [valueAt_reciprocal_pos σ _ hpos] using hlog

end Derivatives

end Derivation

section Shapes

/-- The content is written as a sum that stands for x - r. -/
structure Factor.WrittenLine {K : Type} (f : Factor K) (r : ℝ) : Prop where
  exists_summands : ∃ (plusShown : Bool) (terms : List SignedSummand),
    Spaced (SignedSummand.sumTokens plusShown terms) f.content.toList ∧
    ∀ x, SignedSummand.polynomial terms x = x - r

theorem Factor.WrittenLine.text_content {K : Type} {f : Factor K} {r : ℝ}
    (h : f.WrittenLine r) (σ : Interpretation) (x : ℝ) : σ.text f.content x = x - r := by
  obtain ⟨_, terms, hspaced, hterms⟩ := h.exists_summands
  rw [σ.text_sum hspaced, hterms]

theorem LinearContent.writtenLine {K : Type} (c : LinearContent) {s : List Char}
    (h : Spaced c.tokens s) (multiplicity : ℤ) :
    (Factor.ofContent s multiplicity : Factor K).WrittenLine c.root where
  exists_summands := by
    refine ⟨false, c.summands, by rwa [Factor.ofContent, String.toList_ofList], fun x => ?_⟩
    obtain ⟨_ | k⟩ := c
    all_goals simp [SignedSummand.polynomial, summands, SignedSummand.value, Summand.coefficient,
      Summand.power, Scalar.signed, DecimalNumeral.value_one, root, Offset.summand, Offset.value]

/-- The content is written as x² - r: a square with the coefficient 1 and a constant, in either
order. -/
structure Factor.WrittenSquare {K : Type} (f : Factor K) (r : ℝ) : Prop where
  exists_summands : ∃ (plusShown : Bool) (square constant : SignedSummand)
    (terms : List SignedSummand),
      Spaced (SignedSummand.sumTokens plusShown terms) f.content.toList ∧
      (terms = [square, constant] ∨ terms = [constant, square]) ∧
      square.summand.power = 2 ∧ (square.value : ℝ) = 1 ∧
      constant.summand.power = 0 ∧ (constant.value : ℝ) = -r

theorem Factor.WrittenSquare.text_content {K : Type} {f : Factor K} {r : ℝ}
    (h : f.WrittenSquare r) (σ : Interpretation) (x : ℝ) : σ.text f.content x = x ^ 2 - r := by
  obtain ⟨_, square, constant, terms, hspaced, hterms, hsquare, hone, hconstant, hvalue⟩ :=
    h.exists_summands
  rw [σ.text_sum hspaced]
  rcases hterms with rfl | rfl
  all_goals
    simp [SignedSummand.polynomial, hsquare, hone, hconstant, hvalue]
    ring

/-- The rate of a factor `x^2 - r` is `r` itself, with its sign. -/
theorem Factor.WrittenSquare.rate_eq [Shown ℝ] {f : Factor (Exact ℝ)} {r : ℝ}
    (h : f.WrittenSquare r) (hr : r ≠ 0) : Solution.rate f = .ok (.finite r) := by
  obtain ⟨_, square, constant, terms, hspaced, hterms, hsquare, hone, hconstant, hvalue⟩ :=
    h.exists_summands
  have hread := Term.readAll_of_spaced hspaced
  have hpower₂ : square.term.power = 2 := by simp [SignedSummand.term, hsquare]
  have hpower₀ : constant.term.power = 0 := by simp [SignedSummand.term, hconstant]
  have hleading := Term.value_term (K := ℝ) square
  have hoffset := Term.value_term (K := ℝ) constant
  rw [hone] at hleading
  rw [hvalue] at hoffset
  simp only [Solution.rate, hread]
  rcases hterms with rfl | rfl
  all_goals
    simp [Except.mapError, bind, Except.bind, Term.valueAt, hpower₂, hpower₀, hleading, hoffset,
      hr]
    rfl

theorem QuadraticContent.writtenSquare {K : Type} (c : QuadraticContent) {s : List Char}
    (h : Spaced c.tokens s) (multiplicity : ℤ) :
    (Factor.ofContent s multiplicity : Factor K).WrittenSquare c.rate where
  exists_summands := by
    refine ⟨false, ⟨false, .multiple none (some .two)⟩, c.offset.summand, c.summands,
      by rwa [Factor.ofContent, String.toList_ofList], Or.inl rfl, rfl, ?_, rfl, ?_⟩
    · simp [SignedSummand.value, Summand.coefficient, Scalar.signed, DecimalNumeral.value_one]
    · rw [rate, neg_neg]
      rfl

end Shapes

namespace Derivation

section Lines

variable {K : Type}

def linearResult (a b : K) (constant f g : String) : Formula K :=
  .sum [.dotted [.number a, logarithm f], .dotted [.number b, logarithm g], .latex constant]

theorem linearLines_eq (A B : String) (a b : K) (f g : Factor K) :
    ∃ lines, linearLines [(A, a), (B, b)] [f, g] = .ok lines ∧
      lines[1]? = some (.sum [.quotient (.number a) f.content, .quotient (.number b) g.content]) ∧
      lines.getLast? =
        some (linearResult a b (integrationConstant [A, B]) f.content g.content) :=
  ⟨_, rfl, rfl, rfl⟩

/-- What the texts for the substituted divisors are replaced by. -/
def resubstituted (f g s : String) : String :=
  if s = "u_\x7b1\x7d" then f else if s = "u_\x7b2\x7d" then g else s

theorem resubstituted_constant (f g : String) (labels : List String) :
    resubstituted f g (integrationConstant labels) = integrationConstant labels := by
  unfold integrationConstant
  split <;> rfl

variable [Neg K] [Scalar K]

theorem mapText_reciprocal (f g : String) (r : K) :
    (reciprocalAntiderivative r).mapText (resubstituted f g) = reciprocalAntiderivative r := by
  unfold reciprocalAntiderivative
  split <;> rfl

variable [Div K]

def quadraticResult (a b c d r s : K) (constant f g : String) : Formula K :=
  .sum [.dotted [.number (a / Scalar.ofNat 2), logarithm f],
    .dotted [.number b, reciprocalAntiderivative r],
    .dotted [.number (c / Scalar.ofNat 2), logarithm g],
    .dotted [.number d, reciprocalAntiderivative s], .latex constant]

theorem quadraticLines_eq (A B C D : String) (a b c d : K) {f g : Factor K} {r s : K}
    (hr : Solution.rate f = .ok r) (hs : Solution.rate g = .ok s) :
    ∃ lines, quadraticLines [(A, a), (B, b), (C, c), (D, d)] [f, g] = .ok lines ∧
      lines[1]? =
        some (.sum [.quotient (affine a b) f.content, .quotient (affine c d) g.content]) ∧
      lines[lines.length - 2]? = some (quadraticResult a b c d r s
        (integrationConstant [A, B, C, D]) "u_\x7b1\x7d" "u_\x7b2\x7d") ∧
      lines.getLast? = some (quadraticResult a b c d r s
        (integrationConstant [A, B, C, D]) f.content g.content) := by
  exact ⟨_, quadraticLines_eq_ok A B C D a b c d hr hs, rfl, rfl, rfl⟩

/-- The next-to-last line becomes the last one when the divisors are put back. -/
theorem mapText_quadraticResult (a b c d r s : K) (labels : List String) (f g : String) :
    (quadraticResult a b c d r s (integrationConstant labels) "u_\x7b1\x7d" "u_\x7b2\x7d").mapText
        (resubstituted f g) =
      quadraticResult a b c d r s (integrationConstant labels) f g := by
  have hlogarithm (t : String) : (logarithm t : Formula K).mapText (resubstituted f g) =
      logarithm (resubstituted f g t) := rfl
  have hfirst : resubstituted f g "u_\x7b1\x7d" = f := rfl
  have hsecond : resubstituted f g "u_\x7b2\x7d" = g := rfl
  simp [quadraticResult, Formula.mapText, Formula.mapTexts, Formula.dotted, mapText_reciprocal,
    hlogarithm, hfirst, hsecond, resubstituted_constant]

end Lines

section Results

variable {σ : Interpretation} {x : ℝ} {f g : String}

/-- The last line over two linear factors, away from their roots. -/
theorem hasDerivAt_linearResult {r s : ℝ} (hf : ∀ y, σ.text f y = y - r)
    (hg : ∀ y, σ.text g y = y - s) (a b : ℝ) (labels : List String) (hr : x - r ≠ 0)
    (hs : x - s ≠ 0) :
    HasDerivAt (fun y => (linearResult (Exact.finite a) (.finite b) (integrationConstant labels)
      f g).valueAt σ y) (a / (x - r) + b / (x - s)) x := by
  have hlogarithm (t : String) : (logarithm t : Formula (Exact ℝ)).mark? = none := rfl
  have hfirst := (hasDerivAt_logarithm hf ((hasDerivAt_id' x).sub_const r) hr).const_mul a
  have hsecond := (hasDerivAt_logarithm hg ((hasDerivAt_id' x).sub_const s) hs).const_mul b
  have hconstant := hasDerivAt_const x (σ.text (integrationConstant labels) x)
  refine ((hfirst.add (hsecond.add hconstant)).congr_deriv (by ring)).congr_of_eventuallyEq ?_
  refine Filter.Eventually.of_forall fun y => ?_
  simp [linearResult, Formula.valueAt_dotted_pair σ y _ (hlogarithm _),
    σ.text_constant labels y x]

/-- The last line over two quadratic factors, away from their real roots. -/
theorem hasDerivAt_quadraticResult [Shown ℝ] {r s : ℝ} (hf : ∀ y, σ.text f y = y ^ 2 - r)
    (hg : ∀ y, σ.text g y = y ^ 2 - s) (a b c d : ℝ) (labels : List String) (hr : r ≠ 0)
    (hs : s ≠ 0) (hxr : x ^ 2 - r ≠ 0) (hxs : x ^ 2 - s ≠ 0) :
    HasDerivAt (fun y => (quadraticResult (Exact.finite a) (.finite b) (.finite c) (.finite d)
      (.finite r) (.finite s) (integrationConstant labels) f g).valueAt σ y)
      ((a * x + b) / (x ^ 2 - r) + (c * x + d) / (x ^ 2 - s)) x := by
  have hlogarithm (t : String) : (logarithm t : Formula (Exact ℝ)).mark? = none := rfl
  have hreciprocal (q : ℝ) : (reciprocalAntiderivative (Exact.finite q)).mark? = none := by
    unfold reciprocalAntiderivative
    split <;> rfl
  have hsquare (q : ℝ) : HasDerivAt (fun y => y ^ 2 - q) (2 * x) x := by
    simpa using (hasDerivAt_pow 2 x).sub_const q
  have hfirst := (hasDerivAt_logarithm hf (hsquare r) hxr).const_mul (a / 2)
  have hsecond := (hasDerivAt_reciprocal (σ := σ) hr hxr).const_mul b
  have hthird := (hasDerivAt_logarithm hg (hsquare s) hxs).const_mul (c / 2)
  have hfourth := (hasDerivAt_reciprocal (σ := σ) hs hxs).const_mul d
  have hconstant := hasDerivAt_const x (σ.text (integrationConstant labels) x)
  have hsum := hfirst.add (hsecond.add (hthird.add (hfourth.add hconstant)))
  refine (hsum.congr_deriv (by ring)).congr_of_eventuallyEq ?_
  refine Filter.Eventually.of_forall fun y => ?_
  simp [quadraticResult, Formula.valueAt_dotted_pair σ y _ (hlogarithm _),
    Formula.valueAt_dotted_pair σ y _ (hreciprocal _), σ.text_constant labels y x]

/-- Where neither divisor is zero, the last line has the decomposed sum as its derivative. Over
quadratic divisors the line in front of it says the same about the substituted divisors. -/
theorem hasDerivAt_lastLine [Shown ℝ] (σ : Interpretation) (f g : Factor (Exact ℝ)) :
    (∀ (A B : String) (a b r s : ℝ), f.WrittenLine r → g.WrittenLine s →
      ∃ lines sum last, linearLines [(A, .finite a), (B, .finite b)] [f, g] = .ok lines ∧
        lines[1]? = some sum ∧ lines.getLast? = some last ∧
        ∀ x, x - r ≠ 0 → x - s ≠ 0 →
          sum.valueAt σ x = a / (x - r) + b / (x - s) ∧
          HasDerivAt (fun y => last.valueAt σ y) (sum.valueAt σ x) x) ∧
    ∀ (A B C D : String) (a b c d r s : ℝ), f.WrittenSquare r → g.WrittenSquare s →
      r ≠ 0 → s ≠ 0 →
      ∃ lines sum substituted last,
        quadraticLines [(A, .finite a), (B, .finite b), (C, .finite c), (D, .finite d)] [f, g] =
          .ok lines ∧
        lines[1]? = some sum ∧ lines[lines.length - 2]? = some substituted ∧
        lines.getLast? = some last ∧
        substituted.mapText (resubstituted f.content g.content) = last ∧
        ∀ x, x ^ 2 - r ≠ 0 → x ^ 2 - s ≠ 0 →
          sum.valueAt σ x = (a * x + b) / (x ^ 2 - r) + (c * x + d) / (x ^ 2 - s) ∧
          HasDerivAt (fun y => last.valueAt σ y) (sum.valueAt σ x) x := by
  constructor
  · intro A B a b r s hf hg
    obtain ⟨lines, hlines, hsum, hlast⟩ := linearLines_eq A B (Exact.finite a) (.finite b) f g
    refine ⟨lines, _, _, hlines, hsum, hlast, ?_⟩
    intro x hr hs
    have hvalue : (Formula.sum [.quotient (.number (Exact.finite a)) f.content,
        .quotient (.number (.finite b)) g.content]).valueAt σ x = a / (x - r) + b / (x - s) := by
      simp [hf.text_content, hg.text_content]
    rw [hvalue]
    exact ⟨rfl, hasDerivAt_linearResult (hf.text_content σ) (hg.text_content σ) a b _ hr hs⟩
  · intro A B C D a b c d r s hf hg hr hs
    obtain ⟨lines, hlines, hsum, hsubstituted, hlast⟩ := quadraticLines_eq A B C D
      (Exact.finite a) (.finite b) (.finite c) (.finite d) (hf.rate_eq hr) (hg.rate_eq hs)
    refine ⟨lines, _, _, _, hlines, hsum, hsubstituted, hlast,
      mapText_quadraticResult _ _ _ _ _ _ _ _ _, ?_⟩
    intro x hxr hxs
    have hvalue : (Formula.sum [.quotient (affine (Exact.finite a) (.finite b)) f.content,
        .quotient (affine (.finite c) (.finite d)) g.content]).valueAt σ x =
          (a * x + b) / (x ^ 2 - r) + (c * x + d) / (x ^ 2 - s) := by
      simp [hf.text_content, hg.text_content]
    rw [hvalue]
    exact ⟨rfl, hasDerivAt_quadraticResult (hf.text_content σ) (hg.text_content σ) a b c d _ hr hs
      hxr hxs⟩

end Results

section Samples

variable (negative : Bool) {c : Char} {k : ℕ}

/-- A digit behind x and a sign. -/
theorem writtenLine_digit (h : isDigit c = true) (hk : digit? c = some k) :
    (Factor.ofContent (LinearContent.tokens ⟨some ⟨negative, .ofDigit c h⟩⟩).flatten 1 :
      Factor (Exact ℝ)).WrittenLine (if negative then k else -k) := by
  have hvalue : ((DecimalNumeral.ofDigit c h).value : ℝ) = k := DecimalNumeral.value_ofDigit hk h
  have hwritten := LinearContent.writtenLine (K := Exact ℝ) ⟨some ⟨negative, .ofDigit c h⟩⟩
    (.flatten _) 1
  cases negative <;> simpa [LinearContent.root, Offset.value, Scalar.signed, hvalue] using hwritten

/-- A digit behind x^2 and a sign. -/
theorem writtenSquare_digit (h : isDigit c = true) (hk : digit? c = some k) :
    (Factor.ofContent (QuadraticContent.tokens ⟨⟨negative, .ofDigit c h⟩⟩).flatten 1 :
      Factor (Exact ℝ)).WrittenSquare (if negative then k else -k) := by
  have hvalue : ((DecimalNumeral.ofDigit c h).value : ℝ) = k := DecimalNumeral.value_ofDigit hk h
  have hwritten := QuadraticContent.writtenSquare (K := Exact ℝ) ⟨⟨negative, .ofDigit c h⟩⟩
    (.flatten _) 1
  cases negative <;>
    simpa [QuadraticContent.rate, Offset.value, Scalar.signed, hvalue] using hwritten

/-- The contents x - 1 and x + 2, then x² - 4 with real roots and x² + 9 without. -/
theorem hasDerivAt_lastLine_contents :
    letI := Shown.wholeParts
    (∃ lines sum last,
      linearLines [("A", .finite 3), ("B", .finite 5)]
        [(.ofContent "x-1".toList 1 : Factor (Exact ℝ)), .ofContent "x+2".toList 1] = .ok lines ∧
      lines[1]? = some sum ∧ lines.getLast? = some last ∧
      sum.valueAt .standard 0 = (3 / (0 - 1) + 5 / (0 - -2) : ℝ) ∧
      HasDerivAt (fun y => last.valueAt .standard y) (sum.valueAt .standard 0) 0) ∧
    ∃ lines sum substituted last,
      quadraticLines [("A", .finite 2), ("B", .finite 3), ("C", .finite (-2)), ("D", .finite 1)]
        [(.ofContent "x^2-4".toList 1 : Factor (Exact ℝ)), .ofContent "x^2+9".toList 1] =
          .ok lines ∧
      lines[1]? = some sum ∧ lines[lines.length - 2]? = some substituted ∧
      lines.getLast? = some last ∧ substituted.mapText (resubstituted "x^2-4" "x^2+9") = last ∧
      sum.valueAt .standard 0 = ((2 * 0 + 3) / (0 ^ 2 - 4) + (-2 * 0 + 1) / (0 ^ 2 - -9) : ℝ) ∧
      HasDerivAt (fun y => last.valueAt .standard y) (sum.valueAt .standard 0) 0 := by
  let _ := Shown.wholeParts
  have hone := writtenLine_digit true (c := '1') (k := 1) (by decide) (by decide)
  have htwo := writtenLine_digit false (c := '2') (k := 2) (by decide) (by decide)
  have hfour := writtenSquare_digit true (c := '4') (k := 4) (by decide) (by decide)
  have hnine := writtenSquare_digit false (c := '9') (k := 9) (by decide) (by decide)
  norm_num at hone htwo hfour hnine
  constructor
  · obtain ⟨lines, sum, last, hlines, hsum, hlast, hderiv⟩ :=
      (hasDerivAt_lastLine .standard _ _).1 "A" "B" 3 5 1 (-2) hone htwo
    exact ⟨lines, sum, last, hlines, hsum, hlast, hderiv 0 (by norm_num) (by norm_num)⟩
  · obtain ⟨lines, sum, substituted, last, hlines, hsum, hsubstituted, hlast, hmap, hderiv⟩ :=
      (hasDerivAt_lastLine .standard _ _).2 "A" "B" "C" "D" 2 3 (-2) 1 4 (-9) hfour hnine
        (by norm_num) (by norm_num)
    exact ⟨lines, sum, substituted, last, hlines, hsum, hsubstituted, hlast, hmap,
      hderiv 0 (by norm_num) (by norm_num)⟩

end Samples

end Derivation

end PartialFractions
