import PartialFractions.Proofs.ClosedForms
import PartialFractions.Proofs.DerivedPolynomials
import PartialFractions.Proofs.ExpressionParsing
import PartialFractions.Proofs.PrintedIdentity
import PartialFractions.Proofs.SamplePoints
import PartialFractions.Proofs.WrittenFactors

/-!
What it means that solved constants pass the verification. Where the parser follows the notation and
the evaluation is exact, they pass exactly if the two sides agree, within the tolerance, at every
sample point whose denominator is not smaller than the tolerance. Such points need not exist, unless
the scale is large enough.
-/
namespace PartialFractions.Verification

open Polynomial Symbolic

@[simp] theorem size_finite (v : ℚ) : size (Exact.finite v) = .finite |v| := by
  rw [size, Exact.isNegative_finite]
  by_cases hv : v < 0
  · simp [hv, abs_of_neg hv]
  · simp [hv, abs_of_nonneg (not_lt.mp hv)]

theorem below_finite (a b : ℚ) :
    Scalar.below (Exact.finite a) (Exact.finite b) = decide (a < b) := rfl

theorem bound_finite (v : ℚ) :
    (if Scalar.below (Scalar.ofNat 1) (Exact.finite |v|) = true then Exact.finite |v|
      else Scalar.ofNat 1) = .finite (max 1 |v|) := by
  rw [Exact.scalar_ofNat, Nat.cast_one, below_finite, max_def_lt]
  by_cases hv : 1 < |v| <;> simp [hv]

/-- Two values differ by no more than the tolerance, which is relative to values above 1. -/
def Agree (tolerance expected actual : ℚ) : Prop :=
  |expected - actual| ≤ tolerance * max 1 |expected|

section Comparison

variable [Evaluation (Exact ℚ)]

/-- The values of the sides of a comparison: `D` of the denominator, and where it is not zero, `E`
of the fraction and `A` of the sum that was rebuilt. -/
structure Sides.Valued (sides : Sides (Exact ℚ)) (D E A : ℚ → ℚ) : Prop where
  denominator : ∀ v, Evaluation.valueAt sides.denominator (.finite v) = .ok (.finite (D v))
  fraction : ∀ v, D v ≠ 0 →
    Evaluation.valueAt sides.fraction (.finite v) = .ok (.finite (E v))
  rebuilt : ∀ v, D v ≠ 0 → Evaluation.valueAt sides.rebuilt (.finite v) = .ok (.finite (A v))

variable {sides : Sides (Exact ℚ)} {D E A : ℚ → ℚ} {t : ℚ}

/-- A point with a small denominator is skipped, at any other one the values are compared. -/
theorem Sides.Valued.compareAt_eq (h : sides.Valued D E A) (ht : 0 < t) (v : ℚ) :
    ∃ result, compareAt (.finite t) sides (.finite v) = .ok result ∧
      (result.isNone = true ↔ (t ≤ |D v| → Agree t (E v) (A v))) := by
  by_cases hskip : |D v| < t
  · refine ⟨none, ?_, by simp [not_le.mpr hskip]⟩
    rw [compareAt, h.denominator]
    simp only [bind, Except.bind, size_finite, below_finite, hskip, decide_true, if_true]
    rfl
  · have hcompared : t ≤ |D v| := not_lt.mp hskip
    have hD : D v ≠ 0 := abs_pos.mp (ht.trans_le hcompared)
    have hcompare : compareAt (.finite t) sides (.finite v) = .ok
        (if t * max 1 |E v| < |E v - A v| then some ⟨.finite v, .finite (E v), .finite (A v)⟩
          else none) := by
      have hbound := bound_finite (E v)
      rw [compareAt, h.denominator, h.fraction v hD, h.rebuilt v hD]
      simp only [bind, Except.bind, size_finite, below_finite, hskip, decide_false,
        Bool.false_eq_true, if_false, Exact.finite_sub, hbound, Exact.finite_mul,
        decide_eq_true_iff]
      split <;> rfl
    refine ⟨_, hcompare, ?_⟩
    by_cases hfar : t * max 1 |E v| < |E v - A v|
    · simp [Agree, hfar, hcompared]
    · simp [Agree, hfar, hcompared, not_lt.mp hfar]

/-- There is no mismatch among the points exactly if all that are compared agree. -/
theorem Sides.Valued.firstAmong_eq (h : sides.Valued D E A) (ht : 0 < t) (points : List ℚ) :
    ∃ result, firstAmong (.finite t) sides (points.map .finite) = .ok result ∧
      (result.isNone = true ↔ ∀ v ∈ points, t ≤ |D v| → Agree t (E v) (A v)) := by
  induction points with
  | nil => exact ⟨none, rfl, by simp⟩
  | cons v points ih =>
    obtain ⟨first, hfirst, hagree⟩ := h.compareAt_eq ht v
    obtain ⟨later, hlater, hrest⟩ := ih
    -- the rest of the points counts only if there is no mismatch at the first one
    cases first with
    | none =>
      refine ⟨later, ?_, ?_⟩
      · rw [List.map_cons, firstAmong, hfirst]
        exact hlater
      · rw [hrest, List.forall_mem_cons]
        simp_all
    | some mismatch =>
      refine ⟨some mismatch, ?_, ?_⟩
      · rw [List.map_cons, firstAmong, hfirst]
        rfl
      · rw [List.forall_mem_cons, ← hagree]
        simp

end Comparison

/-- A decomposition whose constants are solved, with the polynomials that its texts write: the
numerator has degree 1 at most, and the denominator is the scale times the factors. -/
structure Verifiable (d : Decomposition (Exact ℚ)) (N f g : ℚ[X]) (scale : ℚ) : Prop where
  ofText : ∃ limit text, Decomposition.ofText limit text = .ok d
  numerator : Writes d.fraction.numerator N
  natDegree_le : N.natDegree ≤ 1
  scale_eq : d.factorization.scale = .finite scale
  denominator : Writes d.fraction.denominator (C scale * (f * g))
  factors : ∃ F G, d.factorization.factors = [F, G] ∧ Writes F.content f ∧ Writes G.content g
  constants : ∃ cs, d.constants = .ok cs

/-- Factors that are quadratic have the form x² + k. Of such a factor the solver reads the front of
each summand only, so the text may write another polynomial. -/
def SquareShaped (kind : ExpressionKind) (f g : ℚ[X]) : Prop :=
  kind = .quadratic → ∀ p ∈ [f, g], ∃ k, p = X ^ 2 + C k

/-- The sum that constants make over two contents has the value of their polynomials. -/
theorem rationalAt?_rebuild {kind : ExpressionKind} {values : List ℚ}
    (hvalues : SolvedValues kind values) {e e' : Arithmetic (Exact ℚ)} {f g : ℚ[X]}
    (hf : e.Represents f) (hg : e'.Represents g) {v : ℚ} (hfv : f.eval v ≠ 0)
    (hgv : g.eval v ≠ 0) :
    (rebuild (values.map .finite) [e, e']).rationalAt? v = some (rebuiltAt f g v values) := by
  have hconstant (a : ℚ) : (Arithmetic.constant (Exact.finite a)).rationalAt? v = some a := rfl
  have hx : (Arithmetic.x : Arithmetic (Exact ℚ)).rationalAt? v = some v := rfl
  cases hvalues with
  | linear a b =>
    exact Arithmetic.rationalAt?_add
      (Arithmetic.rationalAt?_divide (hconstant a) (hf v) hfv)
      (Arithmetic.rationalAt?_divide (hconstant b) (hg v) hgv)
  | quadratic a b =>
    have hnumerator (a b : ℚ) := Arithmetic.rationalAt?_add
      (Arithmetic.rationalAt?_multiply (hconstant a) hx) (hconstant b)
    exact Arithmetic.rationalAt?_add
      (Arithmetic.rationalAt?_divide (hnumerator a b) (hf v) hfv)
      (Arithmetic.rationalAt?_divide (hnumerator (-a) (-b)) (hg v) hgv)

namespace Verifiable

variable {d : Decomposition (Exact ℚ)} {N f g : ℚ[X]} {scale : ℚ}

theorem scale_ne_zero (h : Verifiable d N f g scale) : scale ≠ 0 := by
  obtain ⟨limit, text, htext⟩ := h.ofText
  obtain ⟨denominator, hdenominator⟩ := Decomposition.ofText_eq_ok htext
  obtain ⟨-, hzero⟩ := Factorization.read_of_ofDenominator hdenominator
  simpa [h.scale_eq] using hzero

/-- The constants are finite numbers, and linear factors have the shape that is solved. -/
theorem exists_solvedValues (h : Verifiable d N f g scale) :
    ∃ cs values, d.constants = .ok cs ∧ cs.map Prod.snd = values.map .finite ∧
      SolvedValues d.kind values ∧ (SquareShaped d.kind f g → SolvablePair d.kind f g) := by
  have hscale := h.scale_ne_zero
  obtain ⟨cs, hcs⟩ := h.constants
  obtain ⟨limit, text, htext⟩ := h.ofText
  obtain ⟨hterms, hdenominator⟩ := Decomposition.parts_of_ofText htext
  obtain ⟨hmade, -⟩ := Factorization.ofDenominator_eq_ok hdenominator
  obtain ⟨F, G, hfactors, hF, hG⟩ := h.factors
  rw [hfactors] at hmade
  obtain ⟨hmadeF, hmadeG, -⟩ := by simpa only [List.forall_mem_cons] using hmade
  have hsolved := Solution.solved_of_constants hcs
  rw [h.scale_eq] at hsolved
  generalize d.kind = kind at hsolved
  refine ⟨cs, ?_⟩
  cases hsolved with
  | @linear F' G' c₁ c₂ r s hfactors' _ _ hc₁ hc₂ hr hs hrs =>
    obtain ⟨rfl, rfl⟩ : F = F' ∧ G = G' := by simpa using hfactors.symm.trans hfactors'
    obtain ⟨c₁, rfl⟩ := Term.exists_finite_of_valueAt hterms h.numerator.isN hc₁
    obtain ⟨c₂, rfl⟩ := Term.exists_finite_of_valueAt hterms h.numerator.isN hc₂
    obtain ⟨⟨p, rfl⟩, r, rfl⟩ := Factor.eq_X_sub_C hmadeF hF hr
    obtain ⟨⟨q, rfl⟩, s, rfl⟩ := Factor.eq_X_sub_C hmadeG hG hs
    refine ⟨(Divisors.linear r s).constants (c₁ / scale) (c₂ / scale), hcs, ?_, .linear _ _,
      fun _ => .linear p q⟩
    rw [Exact.finite_div _ hscale, Exact.finite_div _ hscale,
      Solution.overLinear_finite _ _ (by simpa using hrs)]
    rfl
  | @quadratic F' G' c₁ c₂ r s hfactors' _ _ hc₁ hc₂ hr hs hrs =>
    obtain ⟨rfl, rfl⟩ : F = F' ∧ G = G' := by simpa using hfactors.symm.trans hfactors'
    obtain ⟨c₁, rfl⟩ := Term.exists_finite_of_valueAt hterms h.numerator.isN hc₁
    obtain ⟨c₂, rfl⟩ := Term.exists_finite_of_valueAt hterms h.numerator.isN hc₂
    obtain ⟨r, rfl⟩ := Factor.exists_finite_rate hF hr
    obtain ⟨s, rfl⟩ := Factor.exists_finite_rate hG hs
    refine ⟨(Divisors.quadratic r s).constants (c₁ / scale) (c₂ / scale), hcs, ?_,
      .quadratic _ _, fun hshape => ?_⟩
    · rw [Exact.finite_div _ hscale, Exact.finite_div _ hscale,
        Solution.overQuadratic_finite _ _ (by simpa using hrs)]
      rfl
    · obtain ⟨⟨k, rfl⟩, ⟨l, rfl⟩, -⟩ := by simpa only [List.forall_mem_cons] using hshape rfl
      exact .quadratic k l

variable [Parsing (Exact ℚ)] [Evaluation (Exact ℚ)]

/-- The sides of the comparison have the values of the fraction and of what the constants make. -/
theorem exists_sides (h : Verifiable d N f g scale) (hparse : FollowsNotation (Exact ℚ))
    (hexact : EvaluatesExactly) {cs : Constants (Exact ℚ)} {values : List ℚ}
    (hcs : d.constants = .ok cs) (hmap : cs.map Prod.snd = values.map .finite)
    (hvalues : SolvedValues d.kind values) :
    ∃ sides, Sides.ofDecomposition d = .ok sides ∧
      sides.Valued (denominatorAt scale f g) (fractionAt N scale f g)
        fun v => rebuiltAt f g v values := by
  obtain ⟨n, hn, hN⟩ := h.numerator
  obtain ⟨m, hm, hD⟩ := h.denominator
  obtain ⟨F, G, hfactors, ⟨e, he, hf⟩, e', he', hg⟩ := h.factors
  have hread {s : String} {e : Arithmetic (Exact ℚ)} (hs : e.Written (formulaText s.toList)) :
      Arithmetic.read s.toList = .ok e := hparse _ e hs
  refine ⟨⟨m, .divide n m, rebuild (cs.map Prod.snd) [e, e']⟩, ?_, ?_⟩
  · simp only [Sides.ofDecomposition, partsOf, hread hn, hread hm, hcs, hfactors, List.mapM_cons,
      hread he, hread he', List.mapM_nil]
    rfl
  · have hdenominator (v : ℚ) : m.rationalAt? v = some (denominatorAt scale f g v) := by
      rw [hD v, denominatorAt, eval_mul, eval_C, eval_mul]
    rw [hmap]
    refine ⟨fun v => hexact _ _ _ (hdenominator v), ?_, ?_⟩
    · exact fun v hv => hexact _ _ _ (Arithmetic.rationalAt?_divide (hN v) (hdenominator v) hv)
    · intro v hv
      have hfg := right_ne_zero_of_mul hv
      exact hexact _ _ _ (rationalAt?_rebuild hvalues hf hg (left_ne_zero_of_mul hfg)
        (right_ne_zero_of_mul hfg))

end Verifiable

/-- The point is not skipped, and the two sides agree there. -/
def ComparedAt (t : ℚ) (D E A : ℚ → ℚ) (v : ℚ) : Prop := t ≤ |D v| ∧ Agree t (E v) (A v)

/-- The verification passes exactly if the sides agree at the points that are not skipped. Where the
scale is at least twice the tolerance, at least two points are compared; and sides that are equal at
two points that are compared are equal wherever they are defined. -/
theorem passes_iff_agree [Parsing (Exact ℚ)] [Evaluation (Exact ℚ)]
    (hparse : FollowsNotation (Exact ℚ)) (hexact : EvaluatesExactly)
    {d : Decomposition (Exact ℚ)} {N f g : ℚ[X]} {scale t : ℚ} (h : Verifiable d N f g scale)
    (ht : 0 < t) :
    ∃ (cs : Constants (Exact ℚ)) (values : List ℚ) (passed : Bool), d.constants = .ok cs ∧
      cs.map Prod.snd = values.map .finite ∧ passes (.finite t) d = .ok passed ∧
      (passed = true ↔ ∀ v ∈ rationalPoints, t ≤ |denominatorAt scale f g v| →
        Agree t (fractionAt N scale f g v) (rebuiltAt f g v values)) ∧
      (SquareShaped d.kind f g →
        (2 * t ≤ |scale| → passed = true → ∃ p ∈ rationalPoints, ∃ q ∈ rationalPoints, p ≠ q ∧
          ∀ v ∈ [p, q], ComparedAt t (denominatorAt scale f g) (fractionAt N scale f g)
            (fun v => rebuiltAt f g v values) v) ∧
        ∀ p q, p ≠ q →
          (∀ v ∈ [p, q], t ≤ |denominatorAt scale f g v| ∧
            fractionAt N scale f g v = rebuiltAt f g v values) →
          ∀ v, f.eval v ≠ 0 → g.eval v ≠ 0 →
            fractionAt N scale f g v = rebuiltAt f g v values) := by
  obtain ⟨cs, values, hcs, hmap, hvalues, hsolvable⟩ := h.exists_solvedValues
  obtain ⟨sides, hsides, hvalued⟩ := h.exists_sides hparse hexact hcs hmap hvalues
  obtain ⟨result, hresult, hagree⟩ := hvalued.firstAmong_eq ht rationalPoints
  have hpasses : passes (.finite t) d = .ok result.isNone := by
    simp only [passes, firstMismatch, hsides, samplePoints_eq, bind, Except.bind, hresult]
    rfl
  have hscale := h.scale_ne_zero
  refine ⟨cs, values, result.isNone, hcs, hmap, hpasses, hagree, fun hshape => ⟨?_, ?_⟩⟩
  · intro hlarge hpassed
    obtain ⟨p, hp, q, hq, hne, hfp, hfq⟩ := (hsolvable hshape).exists_large
    have hcompared (v : ℚ) (hv : 1 / 2 ≤ |f.eval v * g.eval v|) :
        t ≤ |denominatorAt scale f g v| := by
      rw [denominatorAt, abs_mul]
      nlinarith
    refine ⟨p, hp, q, hq, hne, ?_⟩
    simp only [List.forall_mem_cons, List.not_mem_nil, false_implies, implies_true, and_true]
    exact ⟨⟨hcompared p hfp, hagree.mp hpassed p hp (hcompared p hfp)⟩,
      hcompared q hfq, hagree.mp hpassed q hq (hcompared q hfq)⟩
  · intro p q hne hequal v hf hg
    refine (hsolvable hshape).eq_of_agree hvalues h.natDegree_le hscale hne ?_
      (fun u hu => (hequal u hu).2) hf hg
    intro u hu
    have hu := abs_pos.mp (ht.trans_le (hequal u hu).1)
    have hfg := right_ne_zero_of_mul hu
    exact ⟨left_ne_zero_of_mul hfg, right_ne_zero_of_mul hfg⟩

section Samples

open Decomposition (samplePair ofText_samplePair constants_samplePair)

/-- The evaluation that gives rational values, and the undefined number elsewhere. -/
instance rationalEvaluation : Evaluation (Exact ℚ) where
  valueAt e point := .ok ((point.value?.bind e.rationalAt?).elim .undefined .finite)

theorem evaluatesExactly : EvaluatesExactly := by
  intro e v w h
  simp [Evaluation.valueAt, Exact.value?, h]

instance rationalParsing : Parsing (Exact ℚ) := ⟨Arithmetic.parse⟩

theorem followsNotation_rational : FollowsNotation (Exact ℚ) :=
  fun _ _ h => Arithmetic.parse_of_written h

section Texts

open Arithmetic Token

variable {c d : Char} {t : Token} {n : ℕ} {s : List Char} {ts : List Token} {p : ℚ[X]}

theorem writes_of_derives {s : String} (hs : Scanned (formulaText s.toList) ts)
    (hts : DerivesPolynomial (Exact ℚ) .sum ts p) : Writes s p := by
  obtain ⟨e, hderives, he⟩ := hts
  exact ⟨e, ⟨ts, hs, hderives⟩, he.represents⟩

theorem scanned_digit (hd : d.isDigit = true) (hn : Number.ofNumeral [d] = n)
    (h : Scanned s ts) (hs : ∀ e ∈ s.head?, e ∈ 'x' :: breaks) :
    Scanned (d :: s) (.literal (.whole n) :: ts) := by
  rw [← hn]
  exact .literal (.whole (.digit hd .nil) (Number.isWholeNumeral_digit hd)) hs h

/-- A sum of x and a digit, or a difference of them. -/
theorem scanned_content (hc : (c, t) ∈ marks) (hd : d.isDigit = true)
    (hn : Number.ofNumeral [d] = n) (h : Scanned s ts) (hs : ∀ e ∈ s.head?, e ∈ 'x' :: breaks) :
    Scanned ('x' :: ' ' :: c :: ' ' :: d :: s) (.x :: t :: .literal (.whole n) :: ts) := by
  refine .x ?_ (.space (by decide) (.mark hc (.space (by decide) (scanned_digit hd hn h hs))))
  rintro e ⟨⟩
  decide

theorem derives_difference (n : ℕ) :
    DerivesPolynomial (Exact ℚ) .sum [.x, .minus, .literal (.whole n)] (X - C (n : ℚ)) := by
  have hx : Derives .signed [.x] (.x : Arithmetic (Exact ℚ)) := .unsigned (.base .x)
  exact ⟨_, .subtract (.term (.factor hx)) (.factor (.unsigned (.base (.literal _)))),
    denotes_x.subtract (denotes_whole n)⟩

theorem derives_sum (n : ℕ) :
    DerivesPolynomial (Exact ℚ) .sum [.x, .plus, .literal (.whole n)] (X + C (n : ℚ)) := by
  have hx : Derives .signed [.x] (.x : Arithmetic (Exact ℚ)) := .unsigned (.base .x)
  exact ⟨_, .add (.term (.factor hx)) (.factor (.unsigned (.base (.literal _)))),
    denotes_x.add (denotes_whole n)⟩

theorem writes_subtract : Writes "x - 1" (X - C 1) := by
  have hscanned := scanned_content (c := '-') (t := .minus) (d := '1') (n := 1) (by decide)
    (by decide) (by decide) .done (by simp)
  simpa using writes_of_derives (s := "x - 1") hscanned (derives_difference 1)

theorem writes_add : Writes "x + 2" (X + C 2) := by
  have hscanned := scanned_content (c := '+') (t := .plus) (d := '2') (n := 2) (by decide)
    (by decide) (by decide) .done (by simp)
  exact writes_of_derives hscanned (derives_sum 2)

def pairTokens : List Token :=
  .opening :: ([.x, .minus, .literal (.whole 1)] ++ [.closing]) ++
    (.opening :: ([.x, .plus, .literal (.whole 2)] ++ [.closing]))

theorem scanned_pair : Scanned "(x - 1)(x + 2)".toList pairTokens := by
  have hlast : Scanned [')'] [.closing] := .mark (by decide) .done
  have hsecond := scanned_content (c := '+') (t := .plus) (d := '2') (n := 2) (by decide)
    (by decide) (by decide) hlast (by rintro _ ⟨⟩; decide)
  have hmiddle := Scanned.mark (c := ')') (t := .closing) (by decide)
    (.mark (c := '(') (t := .opening) (by decide) hsecond)
  have hfirst := scanned_content (c := '-') (t := .minus) (d := '1') (n := 1) (by decide)
    (by decide) (by decide) hmiddle (by rintro _ ⟨⟩; decide)
  exact .mark (by decide) hfirst

/-- Behind another factor and alone, the tokens are the product. -/
theorem isProduct_pair : IsProduct (Exact ℚ) pairTokens ((X - C 1) * (X + C 2)) := by
  obtain ⟨e, he, hp⟩ := derives_difference 1
  obtain ⟨e', he', hq⟩ := derives_sum 2
  have hfirst : IsFactor (Exact ℚ) _ _ := ⟨e, .base (.group he), hp⟩
  have hsecond : IsFactor (Exact ℚ) _ _ := ⟨e', .base (.group he'), hq⟩
  have hpair := (hfirst.isProduct false).append (hsecond.isProduct false)
  simpa [pairTokens] using hpair

theorem writes_pair : Writes "(x - 1)(x + 2)" ((X - C 1) * (X + C 2)) := by
  have hsigned := (isProduct_pair.isSigned (by simp [pairTokens]) (by simp [pairTokens])).1
  have hsum := hsigned.sum .nil
  rw [List.append_nil, add_zero] at hsum
  exact writes_of_derives scanned_pair hsum

def tiny : Literal := .decimal 1 (-12) (Literal.widthOf 1)

theorem spelled_tiny : tiny.Spelled "0.000000000001".toList := by
  have hrow {ds : List Char} (h : ds.all Char.isDigit = true) : Literal.Row ds ds :=
    .of_isDigit (List.all_eq_true.mp h)
  exact .pointed (s := ['0']) (t := "000000000001".toList) (hrow (by decide)) (hrow (by decide))
    (by simp) .absent

theorem writes_scaled : Writes "0.000000000001(x - 1)(x + 2)"
    (C (1 / 10 ^ 12) * ((X - C 1) * (X + C 2))) := by
  have hscanned := Scanned.literal spelled_tiny (by rintro _ ⟨⟩; decide) scanned_pair
  have htiny : IsFactor (Exact ℚ) [.literal tiny] (C (1 / 10 ^ 12)) :=
    ⟨_, .base (.literal tiny), [1 / 10 ^ 12], by decide +kernel,
      Coefficients.polynomial_singleton _⟩
  have hsum := (htiny.isSigned isProduct_pair).1.sum .nil
  rw [List.append_nil, add_zero] at hsum
  exact writes_of_derives hscanned hsum

theorem writes_double : Writes "x + x" (C 2 * X) := by
  have hscanned : Scanned "x + x".toList [.x, .plus, .x] := by
    refine .x ?_ (.space (by decide) (.mark (by decide) (.space (by decide) (.x (by simp) .done))))
    rintro _ ⟨⟩
    decide
  have hx : Derives .product [.x] (.x : Arithmetic (Exact ℚ)) := .factor (.unsigned (.base .x))
  have hsum : DerivesPolynomial (Exact ℚ) .sum [.x, .plus, .x] (X + X) :=
    ⟨_, .add (.term hx) hx, denotes_x.add denotes_x⟩
  rw [C_ofNat, two_mul]
  exact writes_of_derives hscanned hsum

end Texts

/-- The fraction `1/((x - 1)(x + 2))` as an instance of what can be verified. -/
theorem verifiable_samplePair :
    Verifiable (samplePair "(x - 1)(x + 2)" 1) (C 1) (X - C 1) (X + C 2) 1 where
  ofText := ⟨_, _, ofText_samplePair⟩
  numerator := by
    have hscanned := scanned_digit (d := '1') (n := 1) (by decide) (by decide) .done (by simp)
    exact writes_of_derives hscanned ⟨_, .term (.factor (.unsigned (.base (.literal _)))),
      by simpa using Arithmetic.denotes_whole 1⟩
  natDegree_le := by simp
  scale_eq := rfl
  denominator := by
    rw [C_1, one_mul, ← C_1]
    exact writes_pair
  factors := ⟨_, _, rfl, writes_subtract, writes_add⟩
  constants := ⟨_, constants_samplePair _ le_rfl⟩

theorem passes_iff_agree_sample : ∃ (d : Decomposition (Exact ℚ)),
    Verifiable d (C 1) (X - C 1) (X + C 2) 1 ∧ (0 : ℚ) < 1 / 10 ^ 9 ∧
      SquareShaped d.kind (X - C 1) (X + C 2) ∧
      passes (.finite (1 / 10 ^ 9)) d = .ok true ∧
      ∃ p ∈ rationalPoints, ∃ q ∈ rationalPoints, p ≠ q ∧
        ∀ v ∈ [p, q], ComparedAt (1 / 10 ^ 9) (denominatorAt 1 (X - C 1) (X + C 2))
          (fractionAt (C 1) 1 (X - C 1) (X + C 2))
          (fun v => rebuiltAt (X - C 1) (X + C 2) v [1 / 3, -1 / 3]) v := by
  have ht : (0 : ℚ) < 1 / 10 ^ 9 := by norm_num
  have hshape : SquareShaped (samplePair "(x - 1)(x + 2)" 1).kind (X - C 1) (X + C 2) := by
    intro h
    cases h
  obtain ⟨cs, values, passed, hcs, hvalues, hpasses, -, hshaped⟩ :=
    passes_iff_agree followsNotation_rational evaluatesExactly verifiable_samplePair ht
  have hrun : passes (.finite (1 / 10 ^ 9)) (samplePair "(x - 1)(x + 2)" 1) = .ok true := by
    decide +kernel
  obtain rfl := Except.ok.inj (hpasses.symm.trans hrun)
  obtain rfl := Except.ok.inj ((constants_samplePair _ le_rfl).symm.trans hcs)
  obtain rfl : [1 / 3, -1 / 3] = values :=
    List.map_injective_iff.mpr (fun _ _ => Exact.finite.inj) hvalues
  exact ⟨_, verifiable_samplePair, ht, hshape, hrun, (hshaped hshape).1 (by norm_num) rfl⟩

/-- A fraction with 2x over (x - 1)(x + 2), times a scale below the tolerance. Of the numerator the
solver takes one summand. -/
def scaledText : String := "\\frac\x7bx + x\x7d\x7b0.000000000001(x - 1)(x + 2)\x7d"

/-- Wrong constants pass if the denominator is small at all sample points. -/
theorem exists_skipped_points : ∃ d : Decomposition (Exact ℚ),
    Decomposition.ofText 1000 (some scaledText) = .ok d ∧
    Verifiable d (C 2 * X) (X - C 1) (X + C 2) (1 / 10 ^ 12) ∧
    SquareShaped d.kind (X - C 1) (X + C 2) ∧
    passes (.finite (1 / 10 ^ 9)) d = .ok true ∧
    (∀ v ∈ rationalPoints, |denominatorAt (1 / 10 ^ 12) (X - C 1) (X + C 2) v| < 1 / 10 ^ 9) ∧
    d.constants = .ok [("A", .finite (10 ^ 12 / 3)), ("B", .finite (2 * 10 ^ 12 / 3))] ∧
    fractionAt (C 2 * X) (1 / 10 ^ 12) (X - C 1) (X + C 2) 2 ≠
      rebuiltAt (X - C 1) (X + C 2) 2 [10 ^ 12 / 3, 2 * 10 ^ 12 / 3] := by
  have hparts : (Decomposition.ofText (K := Exact ℚ) 1000 (some scaledText)).map (fun d =>
      (d.fraction, d.factorization.factors.map (·.content), d.factorization.scale, d.kind)) =
      .ok (⟨"x + x", "0.000000000001(x - 1)(x + 2)"⟩, ["x - 1", "x + 2"],
        .finite (1 / 10 ^ 12), .linear) := by
    decide +kernel
  have hpasses : (Decomposition.ofText (K := Exact ℚ) 1000 (some scaledText) >>=
      passes (.finite (1 / 10 ^ 9))) = .ok true := by
    decide +kernel
  have hconstants : (Decomposition.ofText (K := Exact ℚ) 1000 (some scaledText) >>=
      Decomposition.constants) =
      .ok [("A", .finite (10 ^ 12 / 3)), ("B", .finite (2 * 10 ^ 12 / 3))] := by
    decide +kernel
  obtain ⟨d, hd, hparts⟩ := map_eq_ok.mp hparts
  rw [hd] at hpasses hconstants
  simp only [Prod.mk.injEq] at hparts
  obtain ⟨hfraction, hcontents, hscale, hkind⟩ := hparts
  -- the texts of the parts write the polynomials, whatever the solver took of them
  refine ⟨d, hd, ⟨⟨_, _, hd⟩, ?_, ?_, hscale, ?_, ?_, _, hconstants⟩, ?_, hpasses, ?_, hconstants,
    ?_⟩
  · rw [hfraction]
    exact writes_double
  · exact (natDegree_C_mul_le 2 X).trans natDegree_X_le
  · rw [hfraction]
    exact writes_scaled
  · obtain ⟨F, fs, hfs, hF, hrest⟩ := List.map_eq_cons_iff.mp hcontents
    obtain ⟨G, gs, rfl, hG, hnil⟩ := List.map_eq_cons_iff.mp hrest
    obtain rfl := List.map_eq_nil_iff.mp hnil
    exact ⟨F, G, hfs, hF ▸ writes_subtract, hG ▸ writes_add⟩
  · rw [hkind]
    intro h
    cases h
  · norm_num [rationalPoints, denominatorAt, abs_lt]
  · norm_num [fractionAt, denominatorAt, rebuiltAt]

end Samples

end PartialFractions.Verification
