import PartialFractions.Proofs.BracketReading
import PartialFractions.Proofs.ClearedIdentity
import PartialFractions.Proofs.ClosedForms
import PartialFractions.Proofs.SolvedShapes
import PartialFractions.Proofs.TemplateLabels

/-!
When the solved constants satisfy the printed identity. A shape with two factors is solved unless a
multiplicity is above 1, so a factor with the exponent 0 is solved as well, although the identity
has no constant over it. With both multiplicities 1 and finite rates the identity holds for all x.
-/
namespace PartialFractions

open Text Number

section Identity

variable {K : Type} [Field K] [LinearOrder K] [Notated K]

/-- What the content of a factor stands for at `x`: x - r or x² - r for its root or its rate r. -/
def Factor.divisor? (f : Factor (Exact K)) (x : K) : Option K :=
  match f.kind with
  | .linear =>
    match Solution.root f with
    | .ok (.finite r) => some (x - r)
    | _ => none
  | _ =>
    match Solution.rate f with
    | .ok (.finite r) => some (x ^ 2 - r)
    | _ => none

theorem Factor.exists_rate_of_divisor? {f : Factor (Exact K)} {x : K}
    (hkind : f.kind = .quadratic) (h : (f.divisor? x).isSome) :
    ∃ r, Solution.rate f = .ok (.finite r) := by
  unfold divisor? at h
  rw [hkind] at h
  dsimp only at h
  split at h
  · rename_i r hrate
    exact ⟨r, hrate⟩
  · cases h

/-- `named` is `f` with a content that stands for the divisor of `f`. -/
structure Factor.Renamed (σ : Reading (Exact K) K) (f named : Factor (Exact K)) : Prop where
  kind_eq : named.kind = f.kind
  multiplicity_eq : named.multiplicity = f.multiplicity
  divisor_eq : f.divisor? σ.x = some (σ.content named.content)

/-- The constants make the printed identity true: they are its labels, and with them and with the
contents as divisors its value times the scale is that of the numerator. The contents may be
renamed, since roots that are not the same may still be written alike. -/
structure Decomposition.SolvesIdentity (d : Decomposition (Exact K)) (cs : Constants (Exact K)) :
    Prop where
  labels_eq : (Template.expanded d.factorization.factors).labels = cs.map Prod.fst
  divisor_isSome : ∀ f ∈ d.factorization.factors, ∀ x, (f.divisor? x).isSome
  value_eq : ∃ c₁ c₂ scale : K,
    Term.valueAt d.terms 1 = .ok (Exact.finite c₁) ∧
    Term.valueAt d.terms 0 = .ok (Exact.finite c₂) ∧
    d.factorization.scale = .finite scale ∧
    ∀ (σ : Reading (Exact K) K) (named : List (Factor (Exact K))),
      List.Forall₂ (Factor.Renamed σ) d.factorization.factors named →
      (∀ p ∈ cs, p.2 = .finite (σ.label p.1)) →
      scale * (Template.expanded named).value σ = c₁ * σ.x + c₂

end Identity

namespace Decomposition

variable {K : Type} [Field K] [LinearOrder K] [Notated K] {d : Decomposition (Exact K)}
  {f g : Factor (Exact K)}

section Shapes

variable {a₁ a₂ q u v : K}

/-- With multiplicity one the closed forms satisfy the printed identity of two linear factors. -/
theorem solvesIdentity_linear (hfactors : d.factorization.factors = [f, g])
    (hf : f.kind = .linear) (hg : g.kind = .linear)
    (hfirst : f.multiplicity = 1) (hsecond : g.multiplicity = 1)
    (hc₁ : Term.valueAt d.terms 1 = .ok (Exact.finite a₁))
    (hc₂ : Term.valueAt d.terms 0 = .ok (Exact.finite a₂))
    (hscale : d.factorization.scale = .finite q) (hq : q ≠ 0)
    (hr : Solution.root f = .ok (.finite u)) (hs : Solution.root g = .ok (.finite v))
    (huv : u ≠ v) :
    d.SolvesIdentity (Solution.overLinear (.finite (a₁ / q)) (.finite (a₂ / q)) (.finite u)
      (.finite v)) := by
  have hdivisor (x : K) : f.divisor? x = some (x - u) ∧ g.divisor? x = some (x - v) := by
    simp [Factor.divisor?, hf, hg, hr, hs]
  constructor
  · rw [hfactors, Template.labels_expanded_pair hf hg hfirst hsecond]
    rfl
  · simp [hfactors, hdivisor]
  · refine ⟨a₁, a₂, q, hc₁, hc₂, hscale, ?_⟩
    intro σ named hnamed hlabels
    rw [hfactors] at hnamed
    obtain _ | @⟨_, f', _, _, hf', _ | @⟨_, g', _, _, hg', _ | _⟩⟩ := hnamed
    rw [Solution.overLinear_finite _ _ huv] at hlabels
    have hcontent := Option.some.inj ((hdivisor σ.x).1.symm.trans hf'.divisor_eq)
    have hcontent' := Option.some.inj ((hdivisor σ.x).2.symm.trans hg'.divisor_eq)
    have hA : σ.label (Label.ofNat 0) = (a₁ / q * u + a₂ / q) / (u - v) := by
      have hp := hlabels ("A", _) (List.mem_cons_self ..)
      exact (Exact.finite.inj hp).symm
    have hB : σ.label (Label.ofNat 1) = (a₁ / q * v + a₂ / q) / (v - u) := by
      have hp := hlabels ("B", _) (List.mem_cons_of_mem _ (List.mem_cons_self ..))
      exact (Exact.finite.inj hp).symm
    have hidentity := (Divisors.identity_linear_iff hq huv _ _).mpr ⟨hA, hB⟩ σ.x
    rw [Template.value_expanded_linear σ (hf'.kind_eq.trans hf) (hg'.kind_eq.trans hg)
      (hf'.multiplicity_eq.trans hfirst) (hg'.multiplicity_eq.trans hsecond), ← hcontent,
      ← hcontent']
    exact hidentity.symm

/-- With multiplicity one the closed forms satisfy the printed identity of two quadratic factors. -/
theorem solvesIdentity_quadratic [IsStrictOrderedRing K]
    (hfactors : d.factorization.factors = [f, g])
    (hf : f.kind = .quadratic) (hg : g.kind = .quadratic)
    (hfirst : f.multiplicity = 1) (hsecond : g.multiplicity = 1)
    (hc₁ : Term.valueAt d.terms 1 = .ok (Exact.finite a₁))
    (hc₂ : Term.valueAt d.terms 0 = .ok (Exact.finite a₂))
    (hscale : d.factorization.scale = .finite q) (hq : q ≠ 0)
    (hr : Solution.rate f = .ok (.finite u)) (hs : Solution.rate g = .ok (.finite v))
    (huv : u ≠ v) :
    d.SolvesIdentity (Solution.overQuadratic (.finite (a₁ / q)) (.finite (a₂ / q)) (.finite u)
      (.finite v)) := by
  have hdivisor (x : K) : f.divisor? x = some (x ^ 2 - u) ∧ g.divisor? x = some (x ^ 2 - v) := by
    simp [Factor.divisor?, hf, hg, hr, hs]
  constructor
  · rw [hfactors, Template.labels_expanded_pair hf hg hfirst hsecond]
    rfl
  · simp [hfactors, hdivisor]
  · refine ⟨a₁, a₂, q, hc₁, hc₂, hscale, ?_⟩
    intro σ named hnamed hlabels
    rw [hfactors] at hnamed
    obtain _ | @⟨_, f', _, _, hf', _ | @⟨_, g', _, _, hg', _ | _⟩⟩ := hnamed
    rw [Solution.overQuadratic_finite _ _ huv] at hlabels
    have hcontent := Option.some.inj ((hdivisor σ.x).1.symm.trans hf'.divisor_eq)
    have hcontent' := Option.some.inj ((hdivisor σ.x).2.symm.trans hg'.divisor_eq)
    have hvalue {label : String} {w : K}
        (hp : (label, Exact.finite w) ∈ Solution.labelled (Divisors.quadratic u v).labels
          ((Divisors.quadratic u v).constants (a₁ / q) (a₂ / q))) : σ.label label = w :=
      (Exact.finite.inj (hlabels _ hp)).symm
    have hA : σ.label (Label.ofNat 0) = a₁ / q / (u - v) := hvalue (List.mem_cons_self ..)
    have hB : σ.label (Label.ofNat 1) = -(a₂ / q) / (v - u) :=
      hvalue (List.mem_cons_of_mem _ (List.mem_cons_self ..))
    have hC : σ.label (Label.ofNat 2) = -(a₁ / q / (u - v)) :=
      hvalue (List.mem_cons_of_mem _ (List.mem_cons_of_mem _ (List.mem_cons_self ..)))
    have hD : σ.label (Label.ofNat 3) = -(-(a₂ / q) / (v - u)) :=
      hvalue (List.mem_cons_of_mem _ (List.mem_cons_of_mem _ (List.mem_cons_of_mem _
        (List.mem_cons_self ..))))
    have hidentity :=
      (Divisors.identity_quadratic_iff hq huv _ _ _ _).mpr ⟨hA, hB, hC, hD⟩ σ.x
    rw [Template.value_expanded_quadratic σ (hf'.kind_eq.trans hf) (hg'.kind_eq.trans hg)
      (hf'.multiplicity_eq.trans hfirst) (hg'.multiplicity_eq.trans hsecond), ← hcontent,
      ← hcontent']
    exact hidentity.symm

end Shapes

variable {c₁ c₂ r s : Exact K}

/-- Multiplicity zero is the one other the solver accepts, and the identity has no level for it. -/
theorem solvesIdentity_linear_iff {denominator : String}
    (hdenominator : Factorization.ofDenominator denominator = .ok d.factorization)
    (hfactors : d.factorization.factors = [f, g]) (hkindf : f.kind = .linear)
    (hkindg : g.kind = .linear) (hf : f.multiplicity ≤ 1) (hg : g.multiplicity ≤ 1)
    (hc₁ : Term.valueAt d.terms 1 = .ok c₁) (hc₂ : Term.valueAt d.terms 0 = .ok c₂)
    (hr : Solution.root f = .ok r) (hs : Solution.root g = .ok s)
    (hrs : Scalar.same r s = false)
    (hfinite : ∀ p ∈ Solution.overLinear (c₁ / d.factorization.scale)
      (c₂ / d.factorization.scale) r s, ∃ v, p.2 = .finite v) :
    d.SolvesIdentity (Solution.overLinear (c₁ / d.factorization.scale)
      (c₂ / d.factorization.scale) r s) ↔ f.multiplicity = 1 ∧ g.multiplicity = 1 := by
  constructor
  · intro h
    have hlabels := h.labels_eq
    rw [hfactors] at hlabels
    exact Template.multiplicity_of_labels_eq hkindf hkindg hf hg rfl hlabels
  · rintro ⟨hfirst, hsecond⟩
    obtain ⟨e₁, e₂, u, v, hd₁, hd₂, rfl, rfl⟩ := Solution.finite_of_overLinear hfinite
    have huv : u ≠ v := by simpa using hrs
    obtain ⟨q, hq, hscale⟩ :=
      Factorization.exists_scale hdenominator hfactors (Or.inr ⟨u, v, hr, hs, huv⟩)
    rw [hscale] at hd₁ hd₂
    obtain ⟨a₁, rfl, -⟩ := Solution.finite_of_div_finite hd₁
    obtain ⟨a₂, rfl, -⟩ := Solution.finite_of_div_finite hd₂
    rw [hscale, Exact.finite_div _ hq, Exact.finite_div _ hq]
    exact solvesIdentity_linear hfactors hkindf hkindg hfirst hsecond hc₁ hc₂ hscale hq hr hs huv

/-- The same for two quadratic factors. -/
theorem solvesIdentity_quadratic_iff [IsStrictOrderedRing K] {denominator : String}
    (hdenominator : Factorization.ofDenominator denominator = .ok d.factorization)
    (hfactors : d.factorization.factors = [f, g]) (hkindf : f.kind = .quadratic)
    (hkindg : g.kind = .quadratic) (hf : f.multiplicity ≤ 1) (hg : g.multiplicity ≤ 1)
    (hc₁ : Term.valueAt d.terms 1 = .ok c₁) (hc₂ : Term.valueAt d.terms 0 = .ok c₂)
    (hr : Solution.rate f = .ok r) (hs : Solution.rate g = .ok s)
    (hrs : Scalar.same r s = false)
    (hfinite : ∀ p ∈ Solution.overQuadratic (c₁ / d.factorization.scale)
      (c₂ / d.factorization.scale) r s, ∃ v, p.2 = .finite v) :
    d.SolvesIdentity (Solution.overQuadratic (c₁ / d.factorization.scale)
      (c₂ / d.factorization.scale) r s) ↔
      (f.multiplicity = 1 ∧ ∃ u, Solution.rate f = .ok (.finite u)) ∧
        g.multiplicity = 1 ∧ ∃ v, Solution.rate g = .ok (.finite v) := by
  constructor
  · intro h
    have hlabels := h.labels_eq
    have hsome := h.divisor_isSome
    rw [hfactors] at hlabels hsome
    simp only [List.forall_mem_cons] at hsome
    obtain ⟨hfirst, hsecond⟩ :=
      Template.multiplicity_of_labels_eq hkindf hkindg hf hg rfl hlabels
    exact ⟨⟨hfirst, Factor.exists_rate_of_divisor? hkindf (hsome.1 0)⟩,
      hsecond, Factor.exists_rate_of_divisor? hkindg (hsome.2.1 0)⟩
  · rintro ⟨⟨hfirst, u, hu⟩, hsecond, v, hv⟩
    obtain rfl := Except.ok.inj (hr.symm.trans hu)
    obtain rfl := Except.ok.inj (hs.symm.trans hv)
    have huv : u ≠ v := by simpa using hrs
    obtain ⟨e₁, e₂, hd₁, hd₂⟩ := Solution.finite_of_overQuadratic hfinite
    obtain ⟨q, hq, hscale⟩ := Factorization.exists_scale hdenominator hfactors (Or.inl hkindf)
    rw [hscale] at hd₁ hd₂
    obtain ⟨a₁, rfl, -⟩ := Solution.finite_of_div_finite hd₁
    obtain ⟨a₂, rfl, -⟩ := Solution.finite_of_div_finite hd₂
    rw [hscale, Exact.finite_div _ hq, Exact.finite_div _ hq]
    exact solvesIdentity_quadratic hfactors hkindf hkindg hfirst hsecond hc₁ hc₂ hscale hq hr hs
      huv

end Decomposition

section Samples

/-- Two brackets with nothing around them have the scale 1. -/
theorem Factorization.listed_of_all {K : Type} [Field K] [LinearOrder K] [Notated K]
    {s : List Char} {b b' : Bracket} {f f' : Factor (Exact K)}
    (hall : Bracket.all s = ([b, b'], [])) (hgap : b.gap = []) (hgap' : b'.gap = [])
    (hf : bracketFactor b = .ok f) (hf' : bracketFactor b' = .ok f') :
    listed s = .ok (Exact.finite 1, [f, f']) := by
  have hbrackets : bracketFactors true (Exact.finite 1) [b, b'] =
      .ok (Exact.finite (1 : K), [f, f']) := by
    simp [bracketFactors, hgap, hgap', Gap.read_nil, hf, hf', Except.mapError, bind, Except.bind]
    rfl
  have hlisted := listed_of_parts hall (by simp) hbrackets (Gap.read_nil false)
  rwa [mul_one, List.append_nil] at hlisted

theorem Decomposition.ofText_of_all {K : Type} [Field K] [LinearOrder K] [Notated K]
    {limit : ℤ} {text : String} {fraction : Fraction} {terms : List Term}
    {b b' : Bracket} {f f' : Factor (Exact K)} (hcheck : checkInput limit (some text) = .ok text)
    (hfraction : Fraction.ofText text = .ok fraction)
    (hterms : Term.readAll fraction.numerator.toList = .ok terms)
    (hopen : '(' ∈ fraction.denominator.toList)
    (hall : Bracket.all fraction.denominator.toList = ([b, b'], [])) (hgap : b.gap = [])
    (hgap' : b'.gap = []) (hf : Factorization.bracketFactor b = .ok f)
    (hf' : Factorization.bracketFactor b' = .ok f') :
    ofText limit (some text) = .ok ⟨fraction, terms, ⟨.listed, .finite 1, [f, f']⟩⟩ := by
  have hfactorization := Factorization.ofDenominator_of_listed hopen
    (Factorization.listed_of_all hall hgap hgap' hf hf') one_ne_zero
  simp only [ofText, hcheck, hfraction, hterms, hfactorization, Except.mapError, bind, Except.bind]
  rfl

namespace Decomposition

def samplePair (denominator : String) (multiplicity : ℤ) : Decomposition (Exact ℚ) where
  fraction := ⟨"1", denominator⟩
  terms := [⟨0, "+1"⟩]
  factorization :=
    { form := .listed
      scale := .finite 1
      factors := [⟨.linear, "x - 1", multiplicity, some (.written "+1")⟩,
        ⟨.linear, "x + 2", 1, some (.written "-2")⟩] }

/-- Multiplicities up to one have no influence on the constants. -/
theorem constants_samplePair (denominator : String) {multiplicity : ℤ} (hm : multiplicity ≤ 1) :
    (samplePair denominator multiplicity).constants =
      .ok [("A", .finite (1 / 3)), ("B", .finite (-1 / 3))] := by
  have hone : (Scalar.read? ['+', '1'] : Option (Exact ℚ)) = some (.finite 1) := by
    rw [← DecimalNumeral.value_one]
    exact Scalar.read?_sign_chars .one false
  have htwo : (Scalar.read? ['-', '2'] : Option (Exact ℚ)) = some (.finite (-2)) := by
    have hvalue := DecimalNumeral.value_ofDigit (K := ℚ) (c := '2') (d := 2) (by decide)
      (by decide)
    rw [← Nat.cast_ofNat, ← hvalue]
    exact Scalar.read?_sign_chars (.ofDigit '2' (by decide)) true
  have hc₂ : Term.valueAt [⟨0, "+1"⟩] 0 = .ok (Exact.finite (1 : ℚ)) := by
    simp [Term.valueAt, Term.value, hone]
  have hnumerator : Solution.numerator [⟨0, "+1"⟩] (.finite 1) =
      .ok (Exact.finite (0 / 1 : ℚ), Exact.finite (1 / 1 : ℚ)) :=
    Solution.numerator_eq (by decide) rfl hc₂ one_ne_zero
  have hr : Solution.root (⟨.linear, "x - 1", multiplicity, some (.written "+1")⟩ :
      Factor (Exact ℚ)) = .ok (.finite 1) := by
    simp [Solution.root, Root.value?, hone]
  have hs : Solution.root (⟨.linear, "x + 2", 1, some (.written "-2")⟩ : Factor (Exact ℚ)) =
      .ok (.finite (-2)) := by
    simp [Solution.root, Root.value?, htwo]
  have hconstants : (samplePair denominator multiplicity).constants = _ :=
    Solution.constants_linear hm le_rfl hnumerator hr hs (by norm_num)
  rw [hconstants]
  simp [Solution.labelled, Divisors.labels, Divisors.constants]
  norm_num

theorem ofText_samplePair :
    ofText 1000 (some "\\frac\x7b1\x7d\x7b(x - 1)(x + 2)\x7d") =
      .ok (samplePair "(x - 1)(x + 2)" 1) := by
  have hfraction : Fraction.ofText "\\frac\x7b1\x7d\x7b(x - 1)(x + 2)\x7d" =
      .ok ⟨"1", "(x - 1)(x + 2)"⟩ := by decide +kernel
  have hall : Bracket.all "(x - 1)(x + 2)".toList =
      ([⟨[], "x - 1".toList, none⟩, ⟨[], "x + 2".toList, none⟩], []) := by decide +kernel
  exact ofText_of_all (by decide +kernel) hfraction (by decide +kernel) (by decide +kernel) hall
    rfl rfl rfl rfl

theorem ofText_samplePair_zero :
    ofText 1000 (some "\\frac\x7b1\x7d\x7b(x - 1)^0(x + 2)\x7d") =
      .ok (samplePair "(x - 1)^0(x + 2)" 0) := by
  have hfraction : Fraction.ofText "\\frac\x7b1\x7d\x7b(x - 1)^0(x + 2)\x7d" =
      .ok ⟨"1", "(x - 1)^0(x + 2)"⟩ := by decide +kernel
  have hall : Bracket.all "(x - 1)^0(x + 2)".toList =
      ([⟨[], "x - 1".toList, some ['0']⟩, ⟨[], "x + 2".toList, none⟩], []) := by decide +kernel
  exact ofText_of_all (by decide +kernel) hfraction (by decide +kernel) (by decide +kernel) hall
    rfl rfl rfl rfl

end Decomposition

end Samples

namespace Decomposition

variable {K : Type} [Field K] [LinearOrder K] [IsStrictOrderedRing K] [Notated K]

/-- Finite constants satisfy the printed identity exactly if no factor has the multiplicity 0 and
all rates are finite. -/
theorem solvesIdentity_iff {limit : ℤ} {text : Option String} {d : Decomposition (Exact K)}
    {cs : Constants (Exact K)} (htext : ofText limit text = .ok d) (hcs : d.constants = .ok cs)
    (hfinite : ∀ p ∈ cs, ∃ v, p.2 = .finite v) :
    d.SolvesIdentity cs ↔ ∀ f ∈ d.factorization.factors, f.multiplicity = 1 ∧
      (f.kind = .quadratic → ∃ r, Solution.rate f = .ok (.finite r)) := by
  obtain ⟨denominator, hdenominator⟩ := ofText_eq_ok htext
  obtain ⟨hmade, -, -⟩ := Factorization.ofDenominator_eq_ok hdenominator
  have hplain : ∀ f ∈ d.factorization.factors, f.Plain := fun f hf => (hmade f hf).plain
  have hsolved := Solution.solved_of_constants hcs
  generalize hkind : d.kind = kind at hsolved
  cases hsolved with
  | @linear f g c₁ c₂ r s hfactors hf hg hc₁ hc₂ hr hs hrs =>
    have hlinear := Factorization.kind_eq_linear hplain hkind
    rw [hfactors] at hlinear
    obtain ⟨hkindf, hkindg, -⟩ := by simpa only [List.forall_mem_cons] using hlinear
    rw [solvesIdentity_linear_iff hdenominator hfactors hkindf hkindg hf hg hc₁ hc₂ hr hs hrs
      hfinite, hfactors]
    simp [hkindf, hkindg]
  | @quadratic f g c₁ c₂ r s hfactors hf hg hc₁ hc₂ hr hs hrs =>
    have hquadratic := Factorization.kind_eq_quadratic hplain hkind
    rw [hfactors] at hquadratic
    obtain ⟨hkindf, hkindg, -⟩ := by simpa only [List.forall_mem_cons] using hquadratic
    rw [solvesIdentity_quadratic_iff hdenominator hfactors hkindf hkindg hf hg hc₁ hc₂ hr hs hrs
      hfinite, hfactors]
    simp [hkindf, hkindg]

theorem solvesIdentity_samplePair :
    ∃ (d : Decomposition (Exact ℚ)) (cs : Constants (Exact ℚ)),
      ofText 1000 (some "\\frac\x7b1\x7d\x7b(x - 1)(x + 2)\x7d") = .ok d ∧
      d.constants = .ok cs ∧ d.SolvesIdentity cs := by
  have hconstants := constants_samplePair "(x - 1)(x + 2)" (le_refl (1 : ℤ))
  refine ⟨_, _, ofText_samplePair, hconstants, ?_⟩
  refine (solvesIdentity_iff ofText_samplePair hconstants (by simp)).mpr ?_
  simp [samplePair]

/-- A factor with the exponent 0 is solved, but the identity has no constant over it. -/
theorem exists_not_solvesIdentity :
    ∃ (d : Decomposition (Exact ℚ)) (cs : Constants (Exact ℚ)),
      ofText 1000 (some "\\frac\x7b1\x7d\x7b(x - 1)^0(x + 2)\x7d") = .ok d ∧
      d.constants = .ok cs ∧ (∀ p ∈ cs, ∃ v, p.2 = .finite v) ∧ ¬ d.SolvesIdentity cs := by
  have hconstants := constants_samplePair "(x - 1)^0(x + 2)" (zero_le_one' ℤ)
  refine ⟨_, _, ofText_samplePair_zero, hconstants, by simp, ?_⟩
  intro h
  have hlength := congrArg List.length h.labels_eq
  rw [Template.labels_expanded, Template.labels_eq] at hlength
  simp [Template.size, samplePair, FactorKind.places] at hlength

end Decomposition

end PartialFractions
