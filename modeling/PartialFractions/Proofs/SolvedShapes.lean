import PartialFractions.Decomposition
import PartialFractions.Proofs.FactorizationInvariants

/-!
What is known of a text for which constants are solved. There are two factors of one kind, whose
roots or rates are not the same, and neither multiplicity is above 1. The exponent 0 is not ruled
out.
-/
namespace PartialFractions

open Text

/-- Two factors have a shape, of the kind of the expression, if no multiplicity is above 1. -/
theorem SolvableShape.ofFactors_eq_ok {K : Type} {factors : List (Factor K)}
    {kind : ExpressionKind} {shape : SolvableShape K} (h : ofFactors factors kind = .ok shape) :
    ∃ f g, factors = [f, g] ∧ f.multiplicity ≤ 1 ∧ g.multiplicity ≤ 1 ∧
      ((kind = .linear ∧ shape = .linear f g) ∨ (kind = .quadratic ∧ shape = .quadratic f g)) := by
  unfold ofFactors at h
  split at h
  · cases h
  · split at h
    · rename_i f g
      split at h
      · cases h
      · rename_i hmultiplicity
        obtain ⟨hf, hg⟩ : f.multiplicity ≤ 1 ∧ g.multiplicity ≤ 1 := by simpa using hmultiplicity
        refine ⟨f, g, rfl, hf, hg, ?_⟩
        split at h
        · exact Or.inl ⟨rfl, (Except.ok.inj h).symm⟩
        · exact Or.inr ⟨rfl, (Except.ok.inj h).symm⟩
        · cases h
    · cases h

namespace Solution

variable {K : Type} [Add K] [Sub K] [Mul K] [Div K] [Neg K] [Scalar K]

omit [Add K] [Sub K] [Mul K] [Div K] [Neg K] in
theorem numericCoefficient_eq_ok {terms : List Term} {power : ℤ} {v : K}
    (h : numericCoefficient terms power = .ok v) : Term.valueAt terms power = .ok v := by
  unfold numericCoefficient at h
  split at h
  · rename_i w hw
    obtain rfl := Except.ok.inj h
    exact hw
  · split at h <;> cases h

omit [Add K] [Sub K] [Mul K] [Neg K] in
/-- What was divided by the scale are the numerator's two coefficients. -/
theorem numerator_eq_ok {terms : List Term} {scale d₁ d₂ : K}
    (h : numerator terms scale = .ok (d₁, d₂)) :
    ∃ c₁ c₂, Term.valueAt terms 1 = .ok c₁ ∧ Term.valueAt terms 0 = .ok c₂ ∧
      d₁ = c₁ / scale ∧ d₂ = c₂ / scale := by
  by_cases hdegree : degree terms > 1
  · simp only [numerator, if_pos hdegree] at h
    cases h
  · simp only [numerator, if_neg hdegree] at h
    obtain ⟨c₁, h₁, h⟩ := bind_eq_ok.mp h
    obtain ⟨c₂, h₂, h⟩ := bind_eq_ok.mp h
    split at h
    · cases h
    · obtain ⟨rfl, rfl⟩ := Prod.mk.inj (Except.ok.inj h)
      exact ⟨c₁, c₂, numericCoefficient_eq_ok h₁, numericCoefficient_eq_ok h₂, rfl, rfl⟩

omit [Add K] [Sub K] [Mul K] [Div K] [Neg K] in
theorem distinct_eq_ok {r s : K} (h : distinct r s = .ok ()) :
    Scalar.same r s = false := by
  unfold distinct at h
  split at h
  · cases h
  · simp_all

inductive Solved (terms : List Term) (factors : List (Factor K)) (scale : K) :
    ExpressionKind → Constants K → Prop
  | linear {f g : Factor K} {c₁ c₂ r s : K} (hfactors : factors = [f, g])
      (hf : f.multiplicity ≤ 1) (hg : g.multiplicity ≤ 1)
      (hc₁ : Term.valueAt terms 1 = .ok c₁) (hc₂ : Term.valueAt terms 0 = .ok c₂)
      (hr : root f = .ok r) (hs : root g = .ok s) (hrs : Scalar.same r s = false) :
      Solved terms factors scale .linear (overLinear (c₁ / scale) (c₂ / scale) r s)
  | quadratic {f g : Factor K} {c₁ c₂ r s : K} (hfactors : factors = [f, g])
      (hf : f.multiplicity ≤ 1) (hg : g.multiplicity ≤ 1)
      (hc₁ : Term.valueAt terms 1 = .ok c₁) (hc₂ : Term.valueAt terms 0 = .ok c₂)
      (hr : rate f = .ok r) (hs : rate g = .ok s) (hrs : Scalar.same r s = false) :
      Solved terms factors scale .quadratic (overQuadratic (c₁ / scale) (c₂ / scale) r s)

/-- Constants that are returned come from one of the two solvable shapes. -/
theorem solved_of_constants {terms : List Term} {factors : List (Factor K)}
    {kind : ExpressionKind} {scale : K} {cs : Constants K}
    (h : constants terms factors kind scale = .ok cs) : Solved terms factors scale kind cs := by
  unfold constants at h
  obtain ⟨shape, hshape, h⟩ := bind_eq_ok.mp h
  obtain ⟨f, g, rfl, hf, hg, hkind⟩ := SolvableShape.ofFactors_eq_ok (mapError_eq_ok.mp hshape)
  rcases hkind with ⟨rfl, rfl⟩ | ⟨rfl, rfl⟩
  · obtain ⟨⟨d₁, d₂⟩, hnumerator, h⟩ := bind_eq_ok.mp h
    obtain ⟨r, hr, h⟩ := bind_eq_ok.mp h
    obtain ⟨s, hs, h⟩ := bind_eq_ok.mp h
    obtain ⟨⟨⟩, hrs, h⟩ := bind_eq_ok.mp h
    obtain ⟨c₁, c₂, hc₁, hc₂, rfl, rfl⟩ := numerator_eq_ok hnumerator
    obtain rfl := Except.ok.inj h
    exact .linear rfl hf hg hc₁ hc₂ hr hs (distinct_eq_ok hrs)
  · obtain ⟨⟨d₁, d₂⟩, hnumerator, h⟩ := bind_eq_ok.mp h
    obtain ⟨r, hr, h⟩ := bind_eq_ok.mp h
    obtain ⟨s, hs, h⟩ := bind_eq_ok.mp h
    obtain ⟨⟨⟩, hrs, h⟩ := bind_eq_ok.mp h
    obtain ⟨c₁, c₂, hc₁, hc₂, rfl, rfl⟩ := numerator_eq_ok hnumerator
    obtain rfl := Except.ok.inj h
    exact .quadratic rfl hf hg hc₁ hc₂ hr hs (distinct_eq_ok hrs)

/-- The numbers that constants are computed from: the coefficients of the numerator, and what
`value` gives for each of two factors, their roots or their rates. -/
structure SolvedFrom (value : Factor K → Except Failure K) (terms : List Term)
    (factors : List (Factor K)) (c₁ c₂ r s : K) : Prop where
  leading : Term.valueAt terms 1 = .ok c₁
  trailing : Term.valueAt terms 0 = .ok c₂
  values : ∃ f g, factors = [f, g] ∧ value f = .ok r ∧ value g = .ok s

omit [Add K] [Sub K] [Mul K] [Div K] [Neg K] in
/-- The numbers behind the constants are determined by the factors and the terms. -/
theorem SolvedFrom.unique {value : Factor K → Except Failure K} {terms : List Term}
    {factors : List (Factor K)} {c₁ c₂ r s c₁' c₂' r' s' : K}
    (h : SolvedFrom value terms factors c₁ c₂ r s)
    (h' : SolvedFrom value terms factors c₁' c₂' r' s') :
    c₁ = c₁' ∧ c₂ = c₂' ∧ r = r' ∧ s = s' := by
  obtain ⟨f, g, hfactors, hr, hs⟩ := h.values
  obtain ⟨f', g', hfactors', hr', hs'⟩ := h'.values
  obtain ⟨rfl, rfl⟩ : f = f' ∧ g = g' := by simpa using hfactors.symm.trans hfactors'
  have hc₁ := Except.ok.inj (h.leading.symm.trans h'.leading)
  have hc₂ := Except.ok.inj (h.trailing.symm.trans h'.trailing)
  exact ⟨hc₁, hc₂, Except.ok.inj (hr.symm.trans hr'), Except.ok.inj (hs.symm.trans hs')⟩

end Solution

namespace Factorization

variable {K : Type} {F : Factorization K}

theorem kind_eq_linear (hplain : ∀ f ∈ F.factors, f.Plain) (h : F.kind = .linear) :
    ∀ f ∈ F.factors, f.kind = .linear := by
  have hquadratic : F.hasQuadratic = false := by
    unfold kind ExpressionKind.ofPresence at h
    split at h <;> simp_all
  intro f hf
  rcases (hplain f hf).kind with hkind | hkind
  · exact hkind
  · have hnone := List.any_eq_false.mp hquadratic f hf
    simp [hkind] at hnone

theorem ne_linear_of_kind (h : F.kind = .quadratic) : ∀ f ∈ F.factors, f.kind ≠ .linear := by
  have hlinear : F.hasLinear = false := by
    unfold kind ExpressionKind.ofPresence at h
    split at h <;> simp_all
  intro f hf hkind
  have hnone := List.any_eq_false.mp hlinear f hf
  simp [hkind] at hnone

theorem kind_eq_quadratic (hplain : ∀ f ∈ F.factors, f.Plain) (h : F.kind = .quadratic) :
    ∀ f ∈ F.factors, f.kind = .quadratic := fun f hf =>
  (hplain f hf).kind.resolve_left (ne_linear_of_kind h f hf)

end Factorization

namespace Decomposition

variable {K : Type} [Add K] [Sub K] [Mul K] [Div K] [Neg K] [Scalar K] {limit : ℤ}
  {text : Option String} {d : Decomposition K}

/-- The terms are those of the numerator, and the factorization is that of the denominator. -/
theorem parts_of_ofText (h : ofText limit text = .ok d) :
    Term.readAll d.fraction.numerator.toList = .ok d.terms ∧
      Factorization.ofDenominator d.fraction.denominator = .ok d.factorization := by
  unfold ofText at h
  obtain ⟨_, -, h⟩ := bind_eq_ok.mp h
  obtain ⟨fraction, -, h⟩ := bind_eq_ok.mp h
  obtain ⟨terms, hterms, h⟩ := bind_eq_ok.mp h
  obtain ⟨F, hF, h⟩ := bind_eq_ok.mp h
  obtain rfl := Except.ok.inj h
  exact ⟨mapError_eq_ok.mp hterms, hF⟩

theorem ofText_eq_ok (h : ofText limit text = .ok d) :
    ∃ denominator, Factorization.ofDenominator denominator = .ok d.factorization :=
  ⟨_, (parts_of_ofText h).2⟩

end Decomposition

end PartialFractions
