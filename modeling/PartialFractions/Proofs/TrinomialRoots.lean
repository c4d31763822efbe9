import PartialFractions.Proofs.FactorizationInvariants
import PartialFractions.Proofs.RealFormulas
import PartialFractions.Proofs.TrinomialReading

/-!
The roots of a trinomial over the real numbers. The scale times the powers of the factors is the
trinomial again, and from this product the linear factors give exactly its roots, each as often as
its multiplicity.
-/
namespace PartialFractions

open Number Polynomial Text

namespace Trinomial

def exact {K : Type} (t : Trinomial K) : Trinomial (Exact K) :=
  ⟨.finite t.a, .finite t.b, .finite t.c⟩

@[simp] theorem exact_a {K : Type} (t : Trinomial K) : t.exact.a = .finite t.a := rfl

@[simp] theorem exact_b {K : Type} (t : Trinomial K) : t.exact.b = .finite t.b := rfl

@[simp] theorem exact_c {K : Type} (t : Trinomial K) : t.exact.c = .finite t.c := rfl

noncomputable def polynomial (t : Trinomial ℝ) : ℝ[X] := C t.a * X ^ 2 + C t.b * X + C t.c

theorem isRoot_polynomial (t : Trinomial ℝ) (x : ℝ) :
    t.polynomial.IsRoot x ↔ t.a * (x * x) + t.b * x + t.c = 0 := by
  simp [IsRoot, polynomial, pow_two]

end Trinomial

namespace Factor

def finiteRoot? {K : Type} [Field K] [LinearOrder K] [Notated K] (f : Factor (Exact K)) :
    Option K :=
  (f.root.bind Root.value?).bind Exact.value?

theorem finiteRoot?_ofRoot {K : Type} [Field K] [LinearOrder K] [Notated K] (r : K) (n : ℤ) :
    (ofRoot (.finite r) n : Factor (Exact K)).finiteRoot? = some r := by
  simp [finiteRoot?, ofRoot, Root.value?, Exact.value?]

variable [Shown ℝ]

/-- A linear factor stands for x less its root, any other one for the whole polynomial. -/
noncomputable def polynomial (whole : ℝ[X]) (f : Factor (Exact ℝ)) : ℝ[X] :=
  match f.kind, f.finiteRoot? with
  | .linear, some r => X - C r
  | _, _ => whole

/-- The root of a linear factor, as often as its multiplicity. -/
noncomputable def roots (f : Factor (Exact ℝ)) : Multiset ℝ :=
  match f.kind, f.finiteRoot? with
  | .linear, some r => .replicate f.multiplicity.toNat r
  | _, _ => 0

theorem polynomial_ofRoot (whole : ℝ[X]) (r : ℝ) (n : ℤ) :
    (ofRoot (.finite r) n).polynomial whole = X - C r := by
  rw [polynomial, finiteRoot?_ofRoot]
  rfl

theorem roots_ofRoot (r : ℝ) (n : ℤ) :
    (ofRoot (.finite r) n).roots = .replicate n.toNat r := by
  rw [roots, finiteRoot?_ofRoot]
  rfl

end Factor

/-- A scale and factors that take a trinomial apart. Linear factors have finite roots, and a
quadratic one has the denominator for its content. Zero, of which every number is a root, counts as
a polynomial without roots. -/
structure Trinomial.TakenApart [Shown ℝ] (t : Trinomial ℝ) (denominator : String) (scale : ℝ)
    (factors : List (Factor (Exact ℝ))) : Prop where
  factor : ∀ f ∈ factors, 0 < f.multiplicity ∧
    ((f.kind = .linear ∧ ∃ r, f.finiteRoot? = some r) ∨
      (f.kind = .quadratic ∧ f.content = denominator))
  product : C scale *
    (factors.map fun f => f.polynomial t.polynomial ^ f.multiplicity.toNat).prod = t.polynomial
  roots : (factors.map Factor.roots).sum = t.polynomial.roots
  quadratic : (∃ f ∈ factors, f.kind = .quadratic) ↔
    (t.a = 0 ∧ t.b = 0) ∨ (t.polynomial.natDegree = 2 ∧ ∀ x, ¬ t.polynomial.IsRoot x)

namespace Trinomial

variable {t : Trinomial ℝ} {denominator : String}

/-- The product of powers of x less a root has these roots, as often as the powers tell. -/
theorem roots_prod (rs : List (ℝ × ℕ)) :
    (rs.map fun (r : ℝ × ℕ) => (X - C r.1) ^ r.2).prod ≠ 0 ∧
      (rs.map fun (r : ℝ × ℕ) => (X - C r.1) ^ r.2).prod.roots =
        (rs.map fun r => Multiset.replicate r.2 r.1).sum := by
  induction rs with
  | nil => simp
  | cons r rest ih =>
    obtain ⟨hne, hroots⟩ := ih
    have hfirst : (X - C r.1) ^ r.2 ≠ 0 := pow_ne_zero _ (X_sub_C_ne_zero r.1)
    have hall : (X - C r.1) ^ r.2 * (rest.map fun r => (X - C r.1) ^ r.2).prod ≠ 0 :=
      mul_ne_zero hfirst hne
    refine ⟨by simpa using hall, ?_⟩
    rw [List.map_cons, List.prod_cons, roots_mul hall, roots_pow, roots_X_sub_C, hroots,
      List.map_cons, List.sum_cons, Multiset.nsmul_singleton]

/-- If the product is the trinomial, then the factors made from the roots take it apart. -/
theorem takenApart_of_roots [Shown ℝ] {scale : ℝ} {rs : List (ℝ × ℕ)} (hscale : scale ≠ 0)
    (hne : rs ≠ []) (hpos : ∀ r ∈ rs, 0 < r.2)
    (hproduct : C scale * (rs.map fun r => (X - C r.1) ^ r.2).prod = t.polynomial) :
    t.TakenApart denominator scale (rs.map fun r => .ofRoot (.finite r.1) r.2) := by
  obtain ⟨hnonzero, hroots⟩ := roots_prod rs
  have hall : t.polynomial.roots = (rs.map fun r => Multiset.replicate r.2 r.1).sum := by
    rw [← hproduct, roots_C_mul _ hscale, hroots]
  have hpolynomial : t.polynomial ≠ 0 := by
    rw [← hproduct]
    exact mul_ne_zero (C_ne_zero.mpr hscale) hnonzero
  -- the trinomial has a root, so it is no constant
  obtain ⟨x, hx⟩ : ∃ x, t.polynomial.IsRoot x := by
    obtain ⟨first, rest, rfl⟩ := List.exists_cons_of_ne_nil hne
    refine ⟨first.1, isRoot_of_mem_roots ?_⟩
    rw [hall, List.map_cons, List.sum_cons, Multiset.mem_add, Multiset.mem_replicate]
    exact Or.inl ⟨(hpos first (List.mem_cons_self ..)).ne', rfl⟩
  refine ⟨?_, ?_, ?_, ?_⟩
  · intro f hf
    obtain ⟨r, hr, rfl⟩ := List.mem_map.mp hf
    exact ⟨Int.natCast_pos.mpr (hpos r hr), Or.inl ⟨rfl, r.1, Factor.finiteRoot?_ofRoot ..⟩⟩
  · have hpowers : (fun f : Factor (Exact ℝ) => f.polynomial t.polynomial ^ f.multiplicity.toNat) ∘
        (fun r : ℝ × ℕ => .ofRoot (.finite r.1) r.2) = fun r => (X - C r.1) ^ r.2 := by
      funext r
      rw [Function.comp_apply, Factor.polynomial_ofRoot]
      rfl
    rw [List.map_map, hpowers, hproduct]
  · have hreplicate : Factor.roots ∘ (fun r : ℝ × ℕ => .ofRoot (.finite r.1) r.2) =
        fun r => Multiset.replicate r.2 r.1 := by
      funext r
      rw [Function.comp_apply, Factor.roots_ofRoot, Int.toNat_natCast]
    rw [List.map_map, hreplicate, hall]
  · constructor
    · rintro ⟨f, hf, hkind⟩
      obtain ⟨r, -, rfl⟩ := List.mem_map.mp hf
      cases hkind
    · rintro (⟨ha, hb⟩ | ⟨-, hnone⟩)
      · have hconstant : t.polynomial = C t.c := by simp [polynomial, ha, hb]
        have hc : t.c = 0 := by simpa [hconstant] using hx
        exact absurd (by rw [hconstant, hc, C_0]) hpolynomial
      · exact absurd hx (hnone x)

/-- A number, and a trinomial of degree 2 without roots, is one quadratic factor. -/
theorem takenApart_whole [Shown ℝ] (h : (t.a = 0 ∧ t.b = 0) ∨
      (t.polynomial.natDegree = 2 ∧ ∀ x, ¬ t.polynomial.IsRoot x)) :
    t.TakenApart denominator 1 [⟨.quadratic, denominator, 1, none⟩] where
  factor f hf := by
    rw [List.mem_singleton.mp hf]
    exact ⟨one_pos, Or.inr ⟨rfl, rfl⟩⟩
  product := by simp [Factor.polynomial]
  roots := by
    have hnone : t.polynomial.roots = 0 := by
      rcases h with ⟨ha, hb⟩ | ⟨-, hnone⟩
      · simp [polynomial, ha, hb]
      · exact Multiset.eq_zero_of_forall_notMem fun x hx => hnone x (isRoot_of_mem_roots hx)
    rw [hnone]
    rfl
  quadratic := by simpa using h

/-- The product for two numbers with the sum and the product of the roots. -/
theorem product_of_sum {a b c r s : ℝ} (hsum : a * (r + s) = -b) (hproduct : a * (r * s) = c) :
    C a * ((X - C r) * (X - C s)) = (⟨a, b, c⟩ : Trinomial ℝ).polynomial := by
  have hb : b = -(a * (r + s)) := by rw [hsum, neg_neg]
  simp only [polynomial, hb, ← hproduct, C_mul, C_add, C_neg]
  ring

end Trinomial

namespace Factorization

/-- The product for both solutions of the equation, if the discriminant is the square of d. -/
theorem product_of_discriminant {t : Trinomial ℝ} {d : ℝ} (ha : t.a ≠ 0)
    (hd : d * d = t.b * t.b - 4 * t.a * t.c) :
    C t.a * ((X - C ((-t.b + d) / (2 * t.a))) * (X - C ((-t.b - d) / (2 * t.a)))) =
      t.polynomial := by
  have hc : t.c = (t.b * t.b - d * d) / (4 * t.a) := by
    rw [hd]
    field_simp
    ring
  refine Trinomial.product_of_sum (c := t.c) ?_ ?_
  · field_simp
    ring
  · rw [hc]
    field_simp
    ring

section Splitting

variable [Shown ℝ]

theorem discriminant_exact (t : Trinomial ℝ) :
    discriminant t.exact = .finite (t.b * t.b - 4 * t.a * t.c) := by
  simp [discriminant]

theorem sqrt_exact {d : ℝ} (hd : 0 ≤ d) :
    (Scalar.sqrt (.finite d) : Exact ℝ) = .finite (√d) := if_neg hd.not_gt

def SplitsTrinomial (denominator : String) (t : Trinomial ℝ) : Prop :=
  ∃ scale factors, ofTrinomial denominator t.exact = (.finite scale, factors) ∧ scale ≠ 0 ∧
    t.TakenApart denominator scale factors

variable (denominator : String) {t : Trinomial ℝ}

theorem splits_of_linear (ha : t.a = 0) (hb : t.b ≠ 0) : SplitsTrinomial denominator t := by
  have hproduct : C t.b * ([(-t.c / t.b, 1)].map fun r => (X - C r.1) ^ r.2).prod =
      t.polynomial := by
    have hc : t.c = t.b * (t.c / t.b) := by field_simp
    have hroot : C t.c = C t.b * C (t.c / t.b) := by rw [← C_mul, ← hc]
    simp only [List.map_cons, List.map_nil, List.prod_singleton, pow_one, Trinomial.polynomial,
      ha, C_0, zero_mul, zero_add, hroot, neg_div, C_neg]
    ring
  refine ⟨t.b, _, ?_, hb, Trinomial.takenApart_of_roots hb (by simp) (by simp) hproduct⟩
  simp [ofTrinomial, ha, hb]

/-- A positive discriminant: two different roots, and the leading coefficient as scale. -/
theorem splits_of_pos (ha : t.a ≠ 0) (hdelta : 0 < t.b * t.b - 4 * t.a * t.c) :
    SplitsTrinomial denominator t := by
  have htwice : (2 : ℝ) * t.a ≠ 0 := mul_ne_zero two_ne_zero ha
  have hpair := product_of_discriminant ha (Real.mul_self_sqrt hdelta.le)
  have hproduct : C t.a * ([((-t.b + √(t.b * t.b - 4 * t.a * t.c)) / (2 * t.a), 1),
      ((-t.b - √(t.b * t.b - 4 * t.a * t.c)) / (2 * t.a), 1)].map
        fun r => (X - C r.1) ^ r.2).prod = t.polynomial := by
    simpa using hpair
  refine ⟨t.a, _, ?_, ha, Trinomial.takenApart_of_roots ha (by simp) (by simp) hproduct⟩
  simp [ofTrinomial, discriminant_exact, Exact.isPositive_finite, sqrt_exact hdelta.le, hdelta, ha,
    htwice]

theorem splits_of_square (ha : t.a ≠ 0) (hdelta : t.b * t.b - 4 * t.a * t.c = 0) :
    SplitsTrinomial denominator t := by
  have htwice : (2 : ℝ) * t.a ≠ 0 := mul_ne_zero two_ne_zero ha
  have hpair := product_of_discriminant (d := 0) ha (by rw [hdelta, mul_zero])
  have hproduct : C t.a * ([(-t.b / (2 * t.a), 2)].map fun r => (X - C r.1) ^ r.2).prod =
      t.polynomial := by
    simpa [pow_two] using hpair
  refine ⟨t.a, _, ?_, ha, Trinomial.takenApart_of_roots ha (by simp) (by simp) hproduct⟩
  simp [ofTrinomial, discriminant_exact, Exact.isPositive_finite, hdelta, ha, htwice]

/-- A root would make the discriminant a square. -/
theorem splits_of_neg (ha : t.a ≠ 0) (hdelta : t.b * t.b - 4 * t.a * t.c < 0) :
    SplitsTrinomial denominator t := by
  have hdegree : t.polynomial.natDegree = 2 := natDegree_quadratic ha
  have hnone : ∀ x, ¬ t.polynomial.IsRoot x := by
    intro x hx
    have hsquare := discrim_eq_sq_of_quadratic_eq_zero ((t.isRoot_polynomial x).mp hx)
    rw [discrim, pow_two] at hsquare
    exact absurd (hsquare ▸ sq_nonneg _) hdelta.not_ge
  refine ⟨1, _, ?_, one_ne_zero, Trinomial.takenApart_whole (Or.inr ⟨hdegree, hnone⟩)⟩
  simp [ofTrinomial, discriminant_exact, Exact.isPositive_finite, hdelta.le.not_gt, hdelta.ne, ha]

theorem splitsTrinomial (t : Trinomial ℝ) : SplitsTrinomial denominator t := by
  by_cases ha : t.a = 0
  · by_cases hb : t.b = 0
    · refine ⟨1, _, ?_, one_ne_zero, Trinomial.takenApart_whole (Or.inl ⟨ha, hb⟩)⟩
      simp [ofTrinomial, ha, hb]
    · exact splits_of_linear denominator ha hb
  · rcases lt_trichotomy (t.b * t.b - 4 * t.a * t.c) 0 with hdelta | hdelta | hdelta
    · exact splits_of_neg denominator ha hdelta
    · exact splits_of_square denominator ha hdelta
    · exact splits_of_pos denominator ha hdelta

/-- Whatever the coefficients of a trinomial are, its scale and its factors take it apart; and they
are those of every denominator without a parenthesis that is read as the trinomial. -/
theorem exists_takenApart (t : Trinomial ℝ) :
    ∃ (scale : ℝ) (factors : List (Factor (Exact ℝ))),
      ofTrinomial denominator t.exact = (.finite scale, factors) ∧
      t.TakenApart denominator scale factors ∧
      ('(' ∉ denominator.toList → Trinomial.read denominator.toList = .ok t.exact →
        ofDenominator denominator = .ok ⟨.trinomial t.exact, .finite scale, factors⟩) := by
  obtain ⟨scale, factors, htrinomial, hscale, hapart⟩ := splitsTrinomial denominator t
  refine ⟨scale, factors, htrinomial, hapart, ?_⟩
  intro hopen hread
  have hplain : read denominator = .ok ⟨.trinomial t.exact, .finite scale, factors⟩ := by
    rw [read, if_neg hopen, hread]
    simp [bind, Except.bind, htrinomial, pure, Except.pure]
  rw [ofDenominator, hplain]
  simp [bind, Except.bind, hscale, pure, Except.pure]

end Splitting

section Sample

variable [Shown ℝ]

theorem read_negative :
    Trinomial.read " - x^2 + 4".toList = .ok (⟨-1, 0, 4⟩ : Trinomial ℝ).exact := by
  let terms : List SignedSummand := [⟨true, .multiple none (some (.ofNat 2 false (by decide)))⟩,
    ⟨false, .constant (.ofDigit '4' (by decide))⟩]
  have hpowers : terms.map (fun t => t.summand.power) = [2, 0] := rfl
  have hle : ∀ t ∈ terms, t.summand.power ≤ 2 := by
    have hall : ∀ p ∈ terms.map (fun t => t.summand.power), p ≤ 2 := by
      rw [hpowers]
      decide
    exact List.forall_mem_map.mp hall
  have hsqueeze : squeeze " - x^2 + 4".toList = ['-', 'x', '^', '2', '+', '4'] := by decide +kernel
  obtain ⟨⟨a, b, c⟩, hread, hcoefficient⟩ := @Trinomial.read_of_squeeze false terms _ (Exact ℝ)
    _ _ _ (by rw [hpowers]; decide) hle hsqueeze
  have hfour : ((DecimalNumeral.ofDigit '4' (by decide)).value : ℝ) = (4 : ℕ) :=
    DecimalNumeral.value_ofDigit (by decide) _
  have ha : a = .finite (-1) := by
    have hfind : terms.find? (·.summand.power = 2) = terms[0]? := rfl
    have htwo := hcoefficient 2 (by omega)
    rw [hfind] at htwo
    simpa [terms, Trinomial.coefficient, SignedSummand.number_eq_finite, SignedSummand.value,
      Summand.coefficient, Scalar.signed, DecimalNumeral.value_one] using htwo
  have hb : b = .finite 0 := by
    have hfind : terms.find? (·.summand.power = 1) = none := rfl
    have hone := hcoefficient 1 (by omega)
    rw [hfind] at hone
    simpa [Trinomial.coefficient] using hone
  have hc : c = .finite 4 := by
    have hfind : terms.find? (·.summand.power = 0) = terms[1]? := rfl
    have hzero := hcoefficient 0 (by omega)
    rw [hfind] at hzero
    simpa [terms, Trinomial.coefficient, SignedSummand.number_eq_finite, SignedSummand.value,
      Summand.coefficient, Scalar.signed, hfour] using hzero
  rwa [ha, hb, hc] at hread

theorem scale_negative {denominator : String} {scale : ℝ} {factors : List (Factor (Exact ℝ))}
    (h : ofTrinomial denominator (⟨-1, 0, 4⟩ : Trinomial ℝ).exact = (.finite scale, factors)) :
    scale = -1 := by
  have hdelta : Scalar.isPositive (discriminant (⟨-1, 0, 4⟩ : Trinomial ℝ).exact) = true := by
    norm_num [discriminant_exact, Exact.isPositive_finite]
  have hscale := congrArg Prod.fst h
  simpa [ofTrinomial, hdelta] using hscale.symm

omit [Shown ℝ] in
/-- The roots 2 and -2 are written as whole numbers. -/
theorem exists_takenApart_negative :
    letI := Shown.wholeParts
    ∃ factors, ofDenominator " - x^2 + 4" =
        .ok ⟨.trinomial (⟨-1, 0, 4⟩ : Trinomial ℝ).exact, .finite (-1), factors⟩ ∧
      (⟨-1, 0, 4⟩ : Trinomial ℝ).TakenApart " - x^2 + 4" (-1) factors := by
  let _ := Shown.wholeParts
  obtain ⟨scale, factors, htrinomial, hapart, hdenominator⟩ :=
    exists_takenApart " - x^2 + 4" ⟨-1, 0, 4⟩
  obtain rfl := scale_negative htrinomial
  exact ⟨factors, hdenominator (by decide +kernel) read_negative, hapart⟩

end Sample

end Factorization

end PartialFractions
