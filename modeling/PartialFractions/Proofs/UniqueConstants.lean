import PartialFractions.Proofs.ClearedIdentity
import PartialFractions.Proofs.ExpandedPolynomial

/-!
The template has exactly one solution. For contents that stand for pairwise coprime polynomials of
degree 1 or 2 the expanded identity is a linear map from the unknown constants to the polynomials of
degree below that of the denominator. It takes only zero to zero, and both sides have the same
dimension.
-/
namespace PartialFractions.Template

open Polynomial

variable {K F : Type} [Field F]

section Bijection

variable {p : String → F[X]} {factors : List (Factor K)}

def padded {n : ℕ} (a : Fin n → F) (index : ℕ) : F := if h : index < n then a ⟨index, h⟩ else 0

theorem padded_add {n : ℕ} (a b : Fin n → F) : padded (a + b) = padded a + padded b := by
  funext index
  by_cases h : index < n <;> simp [padded, h]

theorem padded_smul {n : ℕ} (c : F) (a : Fin n → F) : padded (c • a) = c • padded a := by
  funext index
  by_cases h : index < n <;> simp [padded, h]

/-- The expanded identity as a map from the constants to the polynomials of low degree. -/
noncomputable def expandedMap (hdegree : ∀ f ∈ factors, HasDegree p f) :
    (Fin (size factors) → F) →ₗ[F] degreeLT F (size factors) where
  toFun a := ⟨expandedPolynomial p (padded a) 0 factors,
    mem_degreeLT.mpr (degree_expandedPolynomial_lt _ hdegree 0)⟩
  map_add' a b := by
    apply Subtype.ext
    simp only [padded_add, expandedPolynomial_add]
    rfl
  map_smul' c a := by
    apply Subtype.ext
    simp only [padded_smul, expandedPolynomial_smul, RingHom.id_apply]
    rw [← smul_eq_C_mul]
    rfl

theorem expandedMap_injective (hdegree : ∀ f ∈ factors, HasDegree p f)
    (hcoprime : factors.Pairwise fun f g => IsCoprime (p f.content) (p g.content)) :
    Function.Injective (expandedMap hdegree) := by
  rw [injective_iff_map_eq_zero]
  intro a ha
  have hzero : expandedPolynomial p (padded a) 0 factors = 0 := congrArg Subtype.val ha
  funext i
  have hi := eq_zero_of_expandedPolynomial hdegree hcoprime hzero i i.isLt
  simpa [padded] using hi

/-- The map is injective by coprimality, and both sides have the same dimension. -/
theorem expandedMap_bijective (hdegree : ∀ f ∈ factors, HasDegree p f)
    (hcoprime : factors.Pairwise fun f g => IsCoprime (p f.content) (p g.content)) :
    Function.Bijective (expandedMap hdegree) := by
  have hinjective := expandedMap_injective hdegree hcoprime
  refine ⟨hinjective, ?_⟩
  have hequiv := (degreeLTEquiv F (size factors)).injective.comp hinjective
  have hsurjective := LinearMap.injective_iff_surjective
    (f := (degreeLTEquiv F (size factors)).toLinearMap ∘ₗ expandedMap hdegree) |>.mp hequiv
  intro q
  obtain ⟨a, ha⟩ := hsurjective (degreeLTEquiv F (size factors) q)
  exact ⟨a, (degreeLTEquiv F (size factors)).injective ha⟩

theorem existsUnique_coefficients (hdegree : ∀ f ∈ factors, HasDegree p f)
    (hcoprime : factors.Pairwise fun f g => IsCoprime (p f.content) (p g.content)) {N : F[X]}
    (hN : N.degree < (size factors : ℕ)) :
    ∃! a : Fin (size factors) → F, expandedPolynomial p (padded a) 0 factors = N := by
  obtain ⟨a, ha, hunique⟩ :=
    (expandedMap_bijective hdegree hcoprime).existsUnique ⟨N, mem_degreeLT.mpr hN⟩
  refine ⟨a, congrArg Subtype.val ha, ?_⟩
  intro b hb
  exact hunique b (Subtype.ext hb)

end Bijection

section Values

variable {E : Type} [Field E] [Neg K] [Scalar K] {σ : Reading K E} {φ : F[X] →+* E}
  {p : String → F[X]} {a : ℕ → F}

/-- A reading of x, the contents and the labels through polynomials. -/
structure Through (σ : Reading K E) (φ : F[X] →+* E) (p : String → F[X]) (a : ℕ → F) : Prop where
  x_eq : σ.x = φ X
  content_eq : ∀ s, σ.content s = φ (p s)
  label_eq : ∀ index, σ.label (Label.ofNat index) = φ (C (a index))

theorem Through.unknown_eq (h : Through σ φ p a) (s : Slot K) :
    s.unknown σ = φ (unknownPolynomial a s.factor.kind s.index) := by
  unfold Slot.unknown unknownPolynomial
  cases s.factor.kind <;> simp [h.label_eq, h.x_eq]

theorem Through.denominator_eq (h : Through σ φ p a) {factors : List (Factor K)}
    (hnonneg : ∀ f ∈ factors, 0 ≤ f.multiplicity) :
    σ.denominator factors = φ (denominatorPolynomial p factors) := by
  induction factors with
  | nil => simp [Reading.denominator, denominatorPolynomial]
  | cons f rest ih =>
    obtain ⟨hf, hrest⟩ := List.forall_mem_cons.mp hnonneg
    have hrec := ih hrest
    rw [denominatorPolynomial_cons, map_mul, map_pow, ← hrec, ← h.content_eq, ← zpow_natCast,
      Int.toNat_of_nonneg hf]
    simp [Reading.denominator]

/-- The levels of one factor, each times the power of the factor that it lacks. -/
theorem Through.levels_eq (h : Through σ φ p a) (f : Factor K) (others : List (Factor K))
    (index levels : ℕ) :
    ((List.range levels).map fun j =>
      Slot.unknown σ ⟨f, others, j + 1, index + j * f.kind.places⟩
        * σ.content f.content ^ (levels - (j + 1))).sum =
      φ (levelsPolynomial p a f index levels) := by
  induction levels with
  | zero => simp [levelsPolynomial]
  | succ levels ih =>
    have hshift : ∀ j ∈ List.range levels,
        Slot.unknown σ ⟨f, others, j + 1, index + j * f.kind.places⟩
          * σ.content f.content ^ (levels + 1 - (j + 1)) =
        σ.content f.content * (Slot.unknown σ ⟨f, others, j + 1, index + j * f.kind.places⟩
          * σ.content f.content ^ (levels - (j + 1))) := by
      intro j hj
      have hlt := List.mem_range.mp hj
      rw [show levels + 1 - (j + 1) = levels - (j + 1) + 1 by omega, pow_succ]
      ring
    rw [List.range_succ, List.map_append, List.sum_append, List.map_congr_left hshift,
      List.sum_map_mul_left, ih, levelsPolynomial, map_add, map_mul, h.content_eq]
    simp [h.unknown_eq]

/-- Each slot contributes its unknowns times the other factors, which is the recursion's step. -/
theorem Through.slotsFrom_eq (h : Through σ φ p a) {before rest : List (Factor K)}
    (hbefore : ∀ f ∈ before, 0 ≤ f.multiplicity) (hrest : ∀ f ∈ rest, 0 ≤ f.multiplicity)
    (index : ℕ) :
    ((slotsFrom before index rest).map fun s => (expandedTerm s).value σ).sum =
      φ (denominatorPolynomial p before * expandedPolynomial p a index rest) := by
  -- the others of a slot are `before` and `rest`, so `before` is multiplied to what is left
  induction rest generalizing before index with
  | nil => simp [slotsFrom, expandedPolynomial]
  | cons f rest ih =>
    obtain ⟨hf, hrest'⟩ := List.forall_mem_cons.mp hrest
    have hothers : ∀ g ∈ before ++ rest, 0 ≤ g.multiplicity :=
      List.forall_mem_append.mpr ⟨hbefore, hrest'⟩
    have hwith : ∀ g ∈ before ++ [f], 0 ≤ g.multiplicity :=
      List.forall_mem_append.mpr ⟨hbefore, by simpa using hf⟩
    have hown : ∀ j ∈ List.range f.multiplicity.toNat,
        (expandedTerm ⟨f, before ++ rest, j + 1, index + j * f.kind.places⟩).value σ =
        Slot.unknown σ ⟨f, before ++ rest, j + 1, index + j * f.kind.places⟩
          * σ.content f.content ^ (f.multiplicity.toNat - (j + 1))
          * φ (denominatorPolynomial p (before ++ rest)) := by
      intro j hj
      have hlt := List.mem_range.mp hj
      rw [value_expandedTerm σ (by simp only; omega), h.denominator_eq hothers, ← zpow_natCast,
        mul_assoc, Nat.cast_sub (by omega), Int.toNat_of_nonneg hf]
    rw [slotsFrom, List.map_append, List.sum_append, ih hwith hrest', List.map_map,
      Function.comp_def, List.map_congr_left hown, List.sum_map_mul_right, h.levels_eq,
      ← map_mul, ← map_add]
    congr 1
    simp only [denominatorPolynomial, List.map_append, List.prod_append, List.map_cons,
      List.map_nil, List.prod_cons, List.prod_nil, expandedPolynomial]
    ring

theorem Through.expanded_eq (h : Through σ φ p a) {factors : List (Factor K)}
    (hnonneg : ∀ f ∈ factors, 0 ≤ f.multiplicity) :
    (expanded factors).value σ = φ (expandedPolynomial p a 0 factors) := by
  have hslots := h.slotsFrom_eq (List.forall_mem_nil _) hnonneg 0
  simpa [expanded, slots, denominatorPolynomial, Function.comp_def] using hslots

end Values

section Assignments

variable [Neg K] [Scalar K]

/-- A reading in which x is the variable and contents are polynomials. -/
noncomputable def polynomialReading (σ : Reading K (RatFunc F)) (p : String → F[X])
    (label : String → F) : Reading K (RatFunc F) :=
  { σ with
    x := RatFunc.X
    content := fun s => algebraMap F[X] (RatFunc F) (p s)
    label := fun s => RatFunc.C (label s) }

variable {factors : List (Factor K)}

/-- An assignment of values to the labels of the template; any other label has the value zero. -/
noncomputable def assigned (a : {s // s ∈ labels factors} → F) (s : String) : F :=
  if h : s ∈ labels factors then a ⟨s, h⟩ else 0

noncomputable def labelEquiv (factors : List (Factor K)) :
    Fin (size factors) ≃ {s // s ∈ labels factors} :=
  Equiv.ofBijective (fun i => ⟨Label.ofNat i, ofNat_mem_labels_iff.mpr i.isLt⟩) <| by
    constructor
    · intro i j h
      exact Fin.ext (Label.ofNat_injective (congrArg Subtype.val h))
    · rintro ⟨s, hs⟩
      obtain ⟨i, hi, rfl⟩ := List.mem_map.mp (labels_eq factors ▸ hs)
      exact ⟨⟨i, List.mem_range.mp hi⟩, rfl⟩

omit [Neg K] [Scalar K] in
theorem assigned_label (a : {s // s ∈ labels factors} → F) (index : ℕ) :
    assigned a (Label.ofNat index) = padded (a ∘ labelEquiv factors) index := by
  by_cases h : index < size factors
  · simp [assigned, padded, h, ofNat_mem_labels_iff, labelEquiv]
    rfl
  · simp [assigned, padded, h, ofNat_mem_labels_iff]

/-- The expanded numerator is a polynomial, so it can be compared over the rational functions. -/
theorem expanded_value_eq (σ : Reading K (RatFunc F)) (p : String → F[X])
    (hnonneg : ∀ f ∈ factors, 0 ≤ f.multiplicity) (a : {s // s ∈ labels factors} → F) :
    (expanded factors).value (polynomialReading σ p (assigned a)) =
      algebraMap F[X] (RatFunc F)
        (expandedPolynomial p (padded (a ∘ labelEquiv factors)) 0 factors) := by
  have hfactors : Through (polynomialReading σ p (assigned a)) (algebraMap F[X] (RatFunc F)) p
      (padded (a ∘ labelEquiv factors)) :=
    { x_eq := RatFunc.algebraMap_X.symm
      content_eq := fun s => rfl
      label_eq := by
        intro index
        rw [RatFunc.algebraMap_C, ← assigned_label]
        rfl }
  exact hfactors.expanded_eq hnonneg

/-- Every numerator of low degree is the scale times the expanded identity for exactly one choice of
the unknown constants. -/
theorem existsUnique_assignment (σ : Reading K (RatFunc F)) (p : String → F[X]) (scale : F)
    (N : F[X]) (hscale : scale ≠ 0)
    (hlinear : ∀ f ∈ factors, f.kind = .linear → (p f.content).natDegree = 1)
    (hquadratic : ∀ f ∈ factors, f.kind ≠ .linear → (p f.content).natDegree = 2)
    (hcoprime : factors.Pairwise fun f g => IsCoprime (p f.content) (p g.content))
    (hmultiplicity : ∀ f ∈ factors, 1 ≤ f.multiplicity)
    (hN : N.degree <
      ((factors.map fun f => f.multiplicity.toNat * (p f.content).natDegree).sum : ℕ)) :
    ∃! a : {s // s ∈ labels factors} → F,
      algebraMap F[X] (RatFunc F) N =
        RatFunc.C scale * (expanded factors).value (polynomialReading σ p (assigned a)) := by
  have hdegree : ∀ f ∈ factors, HasDegree p f := by
    intro f hf
    cases hkind : f.kind with
    | linear => simpa [HasDegree, hkind, FactorKind.places] using hlinear f hf hkind
    | quadratic =>
      have htwo := hquadratic f hf (by simp [hkind])
      simpa [HasDegree, hkind, FactorKind.places] using htwo
    | other name =>
      have htwo := hquadratic f hf (by simp [hkind])
      simpa [HasDegree, hkind, FactorKind.places] using htwo
  have hsize : (factors.map fun f => f.multiplicity.toNat * (p f.content).natDegree).sum =
      size factors := by
    refine congrArg List.sum (List.map_congr_left ?_)
    intro f hf
    rw [hdegree f hf]
  have hN' : (C scale⁻¹ * N).degree < (size factors : ℕ) := by
    rw [degree_C_mul (inv_ne_zero hscale), ← hsize]
    exact hN
  have hnonneg : ∀ f ∈ factors, 0 ≤ f.multiplicity := fun f hf => by
    have hpos := hmultiplicity f hf
    omega
  refine (((labelEquiv factors).symm.arrowCongr (Equiv.refl F)).existsUnique_congr ?_).mpr
    (existsUnique_coefficients hdegree hcoprime hN')
  intro a
  rw [expanded_value_eq σ p hnonneg a, ← RatFunc.algebraMap_C, ← map_mul,
    (RatFunc.algebraMap_injective F).eq_iff]
  have hcomp : (labelEquiv factors).symm.arrowCongr (Equiv.refl F) a =
      a ∘ labelEquiv factors := rfl
  rw [hcomp]
  constructor
  · intro h
    rw [h, ← mul_assoc, ← C_mul, inv_mul_cancel₀ hscale, C_1, one_mul]
  · intro h
    rw [h, ← mul_assoc, ← C_mul, mul_inv_cancel₀ hscale, C_1, one_mul]

end Assignments

noncomputable def repeatedPolynomial (s : String) : ℚ[X] :=
  if s = "x - 1" then X - 1 else X ^ 2 + 1

theorem existsUnique_assignment_repeated :
    ∃! a : {s // s ∈ labels repeatedFactors} → ℚ,
      algebraMap ℚ[X] (RatFunc ℚ) X = RatFunc.C 2 *
        (expanded repeatedFactors).value (polynomialReading
          (.exact RatFunc.C 0 0 0) repeatedPolynomial (assigned a)) := by
  have hlinear : (X - 1 : ℚ[X]).natDegree = 1 := by
    rw [← C_1]
    exact natDegree_X_sub_C 1
  have hquadratic : (X ^ 2 + 1 : ℚ[X]).natDegree = 2 := by
    rw [← C_1]
    exact natDegree_X_pow_add_C
  have hcoprime : IsCoprime (X - 1 : ℚ[X]) (X ^ 2 + 1) := by
    refine ⟨-C (1 / 2) * (X + 1), C (1 / 2), ?_⟩
    have hhalf : (C (1 / 2) : ℚ[X]) * 2 = 1 := by
      rw [show (2 : ℚ[X]) = C 2 from rfl, ← C_mul]
      norm_num
    linear_combination hhalf
  refine existsUnique_assignment (.exact RatFunc.C 0 0 0) repeatedPolynomial 2 X (by norm_num)
    ?_ ?_ ?_ ?_ ?_
  · simp [repeatedFactors, repeatedPolynomial, hlinear]
  · simp [repeatedFactors, repeatedPolynomial, hquadratic]
  · simpa [repeatedFactors, repeatedPolynomial] using hcoprime
  · simp [repeatedFactors]
  · simp [repeatedFactors, repeatedPolynomial, hlinear, hquadratic]

end PartialFractions.Template
