import PartialFractions.Proofs.FiniteNumbers
import PartialFractions.Proofs.SolvedShapes

/-!
When the constants that are returned are finite numbers. The checks of solving do not ask for it:
a coefficient may be spelled as infinite or as undefined, and finite ones may overflow. What is
asked of the scale and of the rates is only that they are defined, because a quotient by an infinite
number is zero.
-/
namespace PartialFractions

open Number

namespace Solution

/-- The numbers on the way to the constants over linear factors, from the coefficients that were
divided by the scale on. -/
def linearSteps (d₁ d₂ r s : Float) : List Float :=
  [d₁, d₂, d₁ * r, d₁ * s, d₁ * r + d₂, d₁ * s + d₂, (d₁ * r + d₂) / (r - s),
    (d₁ * s + d₂) / (s - r)]

def quadraticSteps (d₁ d₂ r s : Float) : List Float :=
  [d₁, d₂, d₁ / (r - s), -d₂ / (s - r)]

section Steps

variable {c₁ c₂ scale r s : Float}

/-- A step that overflows is never made finite again. Only the difference of the roots, which stands
below the fraction bar, may overflow. -/
theorem isFinite_overLinear_iff (hscale : Scalar.isZero scale = false)
    (hrs : Scalar.same r s = false) :
    (∀ p ∈ overLinear (c₁ / scale) (c₂ / scale) r s, p.2.isFinite = true) ↔
      (∀ v ∈ [c₁, c₂, r, s], v.isFinite = true) ∧ scale.isNaN = false ∧
        ∀ v ∈ linearSteps (c₁ / scale) (c₂ / scale) r s, v.isInf = false := by
  have hd₁ := isFinite_div_iff (v := c₁) hscale
  have hd₂ := isFinite_div_iff (v := c₂) hscale
  simp only [overLinear, linearSteps, List.forall_mem_cons, List.not_mem_nil, false_implies,
    implies_true, and_true]
  generalize c₁ / scale = d₁ at hd₁ ⊢
  generalize c₂ / scale = d₂ at hd₂ ⊢
  rw [isFinite_div_sub_iff hrs, isFinite_div_sub_iff (same_comm hrs), isFinite_add_iff,
    isFinite_add_iff, isFinite_mul_iff, isFinite_mul_iff, hd₁, hd₂]
  constructor
  · rintro ⟨⟨⟨⟨⟨hc₁, hscale, hinf₁⟩, hr, hmul⟩, ⟨hc₂, -, hinf₂⟩, hadd⟩, -, hA⟩,
      ⟨⟨-, hs, hmul'⟩, -, hadd'⟩, -, hB⟩
    exact ⟨⟨hc₁, hc₂, hr, hs⟩, hscale, hinf₁, hinf₂, hmul, hmul', hadd, hadd', hA, hB⟩
  · rintro ⟨⟨hc₁, hc₂, hr, hs⟩, hscale, hinf₁, hinf₂, hmul, hmul', hadd, hadd', hA, hB⟩
    have hr' := isNaN_of_isFinite hr
    have hs' := isNaN_of_isFinite hs
    exact ⟨⟨⟨⟨⟨hc₁, hscale, hinf₁⟩, hr, hmul⟩, ⟨hc₂, hscale, hinf₂⟩, hadd⟩, ⟨hr', hs'⟩, hA⟩,
      ⟨⟨⟨hc₁, hscale, hinf₁⟩, hs, hmul'⟩, ⟨hc₂, hscale, hinf₂⟩, hadd'⟩, ⟨hs', hr'⟩, hB⟩

/-- Rates only stand below the fraction bar, so they may even be infinite here. -/
theorem isFinite_overQuadratic_iff (hscale : Scalar.isZero scale = false)
    (hrs : Scalar.same r s = false) :
    (∀ p ∈ overQuadratic (c₁ / scale) (c₂ / scale) r s, p.2.isFinite = true) ↔
      (∀ v ∈ [c₁, c₂], v.isFinite = true) ∧ (∀ v ∈ [scale, r, s], v.isNaN = false) ∧
        ∀ v ∈ quadraticSteps (c₁ / scale) (c₂ / scale) r s, v.isInf = false := by
  have hd₁ := isFinite_div_iff (v := c₁) hscale
  have hd₂ := isFinite_div_iff (v := c₂) hscale
  simp only [overQuadratic, quadraticSteps, List.forall_mem_cons, List.not_mem_nil, false_implies,
    implies_true, and_true, isFinite_neg]
  generalize c₁ / scale = d₁ at hd₁ ⊢
  generalize c₂ / scale = d₂ at hd₂ ⊢
  rw [isFinite_div_sub_iff hrs, isFinite_div_sub_iff (same_comm hrs), isFinite_neg, hd₁, hd₂]
  constructor
  · rintro ⟨⟨⟨hc₁, hscale, hinf₁⟩, ⟨hr, hs⟩, ha⟩, ⟨⟨hc₂, -, hinf₂⟩, -, hb⟩, -⟩
    exact ⟨⟨hc₁, hc₂⟩, ⟨hscale, hr, hs⟩, hinf₁, hinf₂, ha, hb⟩
  · rintro ⟨⟨hc₁, hc₂⟩, ⟨hscale, hr, hs⟩, hinf₁, hinf₂, ha, hb⟩
    have hfirst : (_ ∧ _ ∧ _) ∧ (_ ∧ _) ∧ _ := ⟨⟨hc₁, hscale, hinf₁⟩, ⟨hr, hs⟩, ha⟩
    have hsecond : (_ ∧ _ ∧ _) ∧ (_ ∧ _) ∧ _ := ⟨⟨hc₂, hscale, hinf₂⟩, ⟨hs, hr⟩, hb⟩
    exact ⟨hfirst, hsecond, hfirst, hsecond⟩

end Steps

/-- What the coefficients, the scale, and the roots or rates are for constants that are finite. No
number on the way overflows. -/
inductive FinitelySolved (terms : List Term) (factors : List (Factor Float)) (scale : Float) :
    ExpressionKind → Prop
  | linear {c₁ c₂ r s : Float} (hfrom : SolvedFrom root terms factors c₁ c₂ r s)
      (hfinite : ∀ v ∈ [c₁, c₂, r, s], v.isFinite = true) (hscale : scale.isNaN = false)
      (hsteps : ∀ v ∈ linearSteps (c₁ / scale) (c₂ / scale) r s, v.isInf = false) :
      FinitelySolved terms factors scale .linear
  | quadratic {c₁ c₂ r s : Float} (hfrom : SolvedFrom rate terms factors c₁ c₂ r s)
      (hfinite : ∀ v ∈ [c₁, c₂], v.isFinite = true)
      (hdefined : ∀ v ∈ [scale, r, s], v.isNaN = false)
      (hsteps : ∀ v ∈ quadraticSteps (c₁ / scale) (c₂ / scale) r s, v.isInf = false) :
      FinitelySolved terms factors scale .quadratic

/-- Both shapes together, for what the solver returned. -/
theorem Solved.isFinite_iff {terms : List Term} {factors : List (Factor Float)} {scale : Float}
    {kind : ExpressionKind} {cs : Constants Float} (h : Solved terms factors scale kind cs)
    (hscale : Scalar.isZero scale = false) :
    (∀ p ∈ cs, p.2.isFinite = true) ↔ FinitelySolved terms factors scale kind := by
  cases h with
  | @linear f g c₁ c₂ r s hfactors _ _ hc₁ hc₂ hr hs hrs =>
    have hfrom : SolvedFrom root terms factors c₁ c₂ r s := ⟨hc₁, hc₂, f, g, hfactors, hr, hs⟩
    rw [isFinite_overLinear_iff hscale hrs]
    constructor
    · rintro ⟨hfinite, hdefined, hsteps⟩
      exact .linear hfrom hfinite hdefined hsteps
    · intro hsolved
      cases hsolved with
      | linear hfrom' hfinite hdefined hsteps =>
        obtain ⟨rfl, rfl, rfl, rfl⟩ := hfrom.unique hfrom'
        exact ⟨hfinite, hdefined, hsteps⟩
  | @quadratic f g c₁ c₂ r s hfactors _ _ hc₁ hc₂ hr hs hrs =>
    have hfrom : SolvedFrom rate terms factors c₁ c₂ r s := ⟨hc₁, hc₂, f, g, hfactors, hr, hs⟩
    rw [isFinite_overQuadratic_iff hscale hrs]
    constructor
    · rintro ⟨hfinite, hdefined, hsteps⟩
      exact .quadratic hfrom hfinite hdefined hsteps
    · intro hsolved
      cases hsolved with
      | quadratic hfrom' hfinite hdefined hsteps =>
        obtain ⟨rfl, rfl, rfl, rfl⟩ := hfrom.unique hfrom'
        exact ⟨hfinite, hdefined, hsteps⟩

end Solution

namespace Decomposition

/-- The constants are finite exactly if the coefficients and the roots are, the scale and the rates
are defined, and no number on the way overflows. -/
theorem constants_isFinite_iff {limit : ℤ} {text : Option String} {d : Decomposition Float}
    {cs : Constants Float} (h : ofText limit text = .ok d) (hcs : d.constants = .ok cs) :
    (∀ p ∈ cs, p.2.isFinite = true) ↔
      Solution.FinitelySolved d.terms d.factorization.factors d.factorization.scale d.kind := by
  obtain ⟨denominator, hdenominator⟩ := ofText_eq_ok h
  obtain ⟨-, hscale⟩ := Factorization.read_of_ofDenominator hdenominator
  exact (Solution.solved_of_constants hcs).isFinite_iff hscale

theorem constants_isFinite_linear :
    ∃ (d : Decomposition Float) (cs : Constants Float),
      ofText 1000 (some "\\frac\x7b1\x7d\x7b(x - 1)(x + 2)\x7d") = .ok d ∧
      d.constants = .ok cs ∧ (∀ p ∈ cs, p.2.isFinite = true) ∧
      Solution.FinitelySolved d.terms d.factorization.factors d.factorization.scale d.kind := by
  have hrun : (ofText (K := Float) 1000 (some "\\frac\x7b1\x7d\x7b(x - 1)(x + 2)\x7d") >>=
      fun d => d.constants.map fun cs => cs.all fun p => p.2.isFinite) = .ok true := by
    decide +kernel
  obtain ⟨d, hd, hmap⟩ := bind_eq_ok.mp hrun
  obtain ⟨cs, hcs, hall⟩ := map_eq_ok.mp hmap
  have hfinite : ∀ p ∈ cs, p.2.isFinite = true := List.all_eq_true.mp hall
  exact ⟨d, cs, hd, hcs, hfinite, (constants_isFinite_iff hd hcs).mp hfinite⟩

/-- A coefficient that is spelled as undefined is a number, and its constants are returned. -/
theorem exists_undefined_constants :
    ∃ (d : Decomposition Float) (cs : Constants Float),
      ofText 1000 (some "\\frac\x7bnan\x7d\x7b(x - 1)(x + 2)\x7d") = .ok d ∧
      d.constants = .ok cs ∧ cs ≠ [] ∧ ∀ p ∈ cs, p.2.isFinite = false := by
  have hrun : (ofText (K := Float) 1000 (some "\\frac\x7bnan\x7d\x7b(x - 1)(x + 2)\x7d") >>=
      fun d => d.constants.map fun cs => (cs.isEmpty, cs.any fun p => p.2.isFinite)) =
      .ok (false, false) := by decide +kernel
  obtain ⟨d, hd, hmap⟩ := bind_eq_ok.mp hrun
  obtain ⟨cs, hcs, heq⟩ := map_eq_ok.mp hmap
  obtain ⟨hempty, hany⟩ := Prod.mk.inj heq
  refine ⟨d, cs, hd, hcs, List.isEmpty_eq_false_iff.mp hempty, ?_⟩
  intro p hp
  simpa using List.any_eq_false.mp hany p hp

end Decomposition

end PartialFractions
