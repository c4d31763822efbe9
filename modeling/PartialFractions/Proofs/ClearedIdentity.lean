import Mathlib
import PartialFractions.Proofs.FormulaValue
import PartialFractions.Proofs.Labels

/-!
Clearing denominators. Under every reading the expanded identity is the template times the product
of the factors, and the scale in front of it is the scale of the denominator. Each slot takes one
factor out of the list and has a level up to its multiplicity, so its summand of the identity is its
summand of the template times the whole product.
-/
namespace PartialFractions

variable {K F : Type}

section Slots

/-- A slot splits the factors into its own one and the others, at a level up to its multiplicity. -/
structure Slot.Within (factors : List (Factor K)) (s : Slot K) : Prop where
  perm : (s.factor :: s.others).Perm factors
  one_le_level : 1 ≤ s.level
  level_le : (s.level : ℤ) ≤ s.factor.multiplicity

/-- Every slot of a template stands over one of the factors. -/
theorem Template.slotsFrom_within (before rest : List (Factor K)) (index : ℕ) :
    ∀ s ∈ slotsFrom before index rest, s.Within (before ++ rest) := by
  induction rest generalizing before index with
  | nil => simp [slotsFrom]
  | cons f rest ih =>
    intro s hs
    simp only [slotsFrom, List.mem_append, List.mem_map, List.mem_range] at hs
    rcases hs with ⟨j, hj, rfl⟩ | hs
    · exact ⟨List.perm_middle.symm, by simp, by simp only; omega⟩
    · have hlater := ih (before ++ [f]) _ s hs
      simpa using hlater

theorem Template.slots_within (factors : List (Factor K)) :
    ∀ s ∈ slots factors, s.Within factors :=
  slotsFrom_within [] factors 0

end Slots

variable [Neg K] [Scalar K] [Field F]

@[simp] theorem Reading.text_label (σ : Reading K F) (index : ℕ) :
    σ.text (Label.ofNat index) = σ.label (Label.ofNat index) := by
  simp [Reading.text, Label.ofNat_ne_minus, Label.ofNat_ne_x]

namespace Slot

/-- The value of the unknown numerator: a constant, or a polynomial of degree 1 in x. -/
def unknown (σ : Reading K F) (s : Slot K) : F :=
  match s.factor.kind with
  | .linear => σ.label (Label.ofNat s.index)
  | _ => σ.label (Label.ofNat s.index) * σ.x + σ.label (Label.ofNat (s.index + 1))

theorem value_numerator (σ : Reading K F) (s : Slot K) : s.numerator.value σ = s.unknown σ := by
  unfold numerator unknown
  cases s.factor.kind <;> simp

theorem value_leadingFactor (σ : Reading K F) (s : Slot K) :
    s.leadingFactor.value σ = s.unknown σ := by
  rw [← s.value_numerator σ]
  unfold leadingFactor numerator
  cases s.factor.kind <;> simp

end Slot

def Reading.denominator (σ : Reading K F) (factors : List (Factor K)) : F :=
  (factors.map fun f => σ.content f.content ^ f.multiplicity).prod

theorem Slot.Within.denominator_eq {factors : List (Factor K)} {s : Slot K}
    (h : s.Within factors) (σ : Reading K F) :
    σ.denominator factors =
      σ.content s.factor.content ^ s.factor.multiplicity * σ.denominator s.others := by
  have hperm := (h.perm.map fun f => σ.content f.content ^ f.multiplicity).prod_eq
  rw [List.map_cons, List.prod_cons] at hperm
  exact hperm.symm

namespace Template

theorem value_term (σ : Reading K F) (s : Slot K) :
    (term s).value σ = s.unknown σ / σ.content s.factor.content ^ s.level := by
  unfold term
  by_cases hlevel : s.level = 1
  · simp [hlevel, s.value_numerator σ]
  · simp [hlevel, s.value_numerator σ, Factor.raised]

/-- A power of zero is left out of the product, where it would be 1. -/
theorem value_expandedTerm (σ : Reading K F) {s : Slot K}
    (hlevel : (s.level : ℤ) ≤ s.factor.multiplicity) :
    (expandedTerm s).value σ =
      s.unknown σ * (σ.content s.factor.content ^ (s.factor.multiplicity - s.level)
        * σ.denominator s.others) := by
  have hown : ((if 0 < s.factor.multiplicity - s.level
        then [s.factor.raised (s.factor.multiplicity - s.level)] else []).map
      (Formula.value σ)).prod =
      σ.content s.factor.content ^ (s.factor.multiplicity - s.level) := by
    split
    · simp
    · have hzero : s.factor.multiplicity - s.level = 0 := by omega
      simp [hzero]
  have hothers : ((s.others.map fun f => f.raised f.multiplicity).map (Formula.value σ)).prod =
      σ.denominator s.others := by
    simp [Reading.denominator, Function.comp_def]
  simp only [expandedTerm, Formula.value_beside, List.cons_append, List.map_cons, List.map_append,
    List.prod_cons, List.prod_append, hown, hothers, s.value_leadingFactor σ]

theorem value_expandedTerm_eq_mul (σ : Reading K F) {factors : List (Factor K)} {s : Slot K}
    (hs : s.Within factors) (hne : σ.content s.factor.content ≠ 0) :
    (expandedTerm s).value σ = σ.denominator factors * (term s).value σ := by
  rw [value_expandedTerm σ hs.level_le, value_term, hs.denominator_eq σ, zpow_sub₀ hne,
    zpow_natCast]
  ring

/-- Multiplying out: the expanded numerator is the denominator times the sum of the slots. -/
theorem value_expanded (σ : Reading K F) (factors : List (Factor K))
    (hne : ∀ f ∈ factors, σ.content f.content ≠ 0) :
    (expanded factors).value σ = σ.denominator factors * (formula factors).value σ := by
  have hterms : ∀ s ∈ slots factors,
      (expandedTerm s).value σ = σ.denominator factors * (term s).value σ := by
    intro s hs
    have hwithin := slots_within factors s hs
    have hmem : s.factor ∈ factors := hwithin.perm.subset (List.mem_cons_self ..)
    exact value_expandedTerm_eq_mul σ hwithin (hne _ hmem)
  simp only [expanded, formula, Formula.value_sum, List.map_map]
  rw [← List.sum_map_mul_left]
  exact congrArg List.sum (List.map_congr_left hterms)

theorem value_scaled (σ : Reading K F) (terms : List (Formula K)) (scale : K) :
    (scaled (.sum terms) scale).value σ = σ.number scale * (Formula.sum terms).value σ := by
  unfold scaled
  split
  · rename_i hone
    rw [σ.number_one scale hone, one_mul]
  · split
    · rename_i hminus
      simp [σ.number_minus_one scale hminus]
    · simp

theorem value_expanded_linear (σ : Reading K F) {f g : Factor K} (hf : f.kind = .linear)
    (hg : g.kind = .linear) (hfirst : f.multiplicity = 1) (hsecond : g.multiplicity = 1) :
    (expanded [f, g]).value σ =
      σ.label (Label.ofNat 0) * σ.content g.content +
        σ.label (Label.ofNat 1) * σ.content f.content := by
  simp [expanded, slots, slotsFrom, expandedTerm, Slot.leadingFactor, Slot.numerator, hf, hg,
    hfirst, hsecond, FactorKind.places]

theorem value_expanded_quadratic (σ : Reading K F) {f g : Factor K} (hf : f.kind = .quadratic)
    (hg : g.kind = .quadratic) (hfirst : f.multiplicity = 1) (hsecond : g.multiplicity = 1) :
    (expanded [f, g]).value σ =
      (σ.label (Label.ofNat 0) * σ.x + σ.label (Label.ofNat 1)) * σ.content g.content +
        (σ.label (Label.ofNat 2) * σ.x + σ.label (Label.ofNat 3)) * σ.content f.content := by
  simp [expanded, slots, slotsFrom, expandedTerm, Slot.leadingFactor, Slot.numerator, hf, hg,
    hfirst, hsecond, FactorKind.places]

/-- The right-hand side of the identity that is printed for the numerator is the scale times the
factors times the template. -/
theorem identityLines_numerator_value (σ : Reading K F) (numerator denominator : String)
    (factors : List (Factor K)) (scale : K)
    (hne : ∀ f ∈ factors, σ.content f.content ≠ 0) :
    ∃ lhs rhs : Formula K,
      (identityLines numerator denominator factors scale)[2]? = some (.equation lhs rhs) ∧
      lhs = .latex numerator ∧
      rhs.value σ = σ.number scale *
        (factors.map fun f => σ.content f.content ^ f.multiplicity).prod *
          (formula factors).value σ := by
  refine ⟨.latex numerator, scaled (expanded factors) scale, rfl, rfl, ?_⟩
  rw [expanded, value_scaled, ← expanded, value_expanded σ factors hne, mul_assoc]
  rfl

/-- The factors of (x - 1)^2 (x^2 + 1). -/
def repeatedFactors : List (Factor (Exact ℚ)) :=
  [⟨.linear, "x - 1", 2, some (.written "1")⟩, ⟨.quadratic, "x^2 + 1", 1, none⟩]

/-- Their values at x = 3; every constant is 1. -/
def repeatedReading : Reading (Exact ℚ) ℚ :=
  .exact (RingHom.id ℚ) 3 (fun _ => 1) fun s => if s = "x - 1" then 2 else 10

theorem identityLines_numerator_value_repeated :
    ∃ lhs rhs : Formula (Exact ℚ),
      (identityLines "1" "2 (x - 1)^2 (x^2 + 1)" repeatedFactors (.finite 2))[2]? =
        some (.equation lhs rhs) ∧
      lhs = .latex "1" ∧
      rhs.value repeatedReading = 80 * (formula repeatedFactors).value repeatedReading := by
  have hne : ∀ f ∈ repeatedFactors, repeatedReading.content f.content ≠ 0 := by
    simp [repeatedFactors, repeatedReading, Reading.exact]
  obtain ⟨lhs, rhs, hline, hlhs, hvalue⟩ := identityLines_numerator_value repeatedReading "1"
    "2 (x - 1)^2 (x^2 + 1)" repeatedFactors (.finite 2) hne
  have hproduct : repeatedReading.number (.finite 2) * (repeatedFactors.map fun f =>
      repeatedReading.content f.content ^ f.multiplicity).prod = 80 := by
    simp [repeatedReading, Reading.exact, Exact.value?, repeatedFactors]
    norm_num
  rw [hproduct] at hvalue
  exact ⟨lhs, rhs, hline, hlhs, hvalue⟩

end Template

end PartialFractions
