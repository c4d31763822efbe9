import Mathlib
import PartialFractions.Proofs.TemplateLabels

/-!
The expanded identity as a polynomial, when the contents stand for polynomials. It is built by
Horner's rule over the levels of a factor and from factor to factor. Its degree is below that of the
denominator, and over pairwise coprime contents it vanishes only if all unknown constants do.
-/
namespace PartialFractions

namespace Template

open Polynomial

variable {K F : Type} [Field F]

section Polynomials

variable (p : String → F[X]) (a : ℕ → F)

noncomputable def unknownPolynomial (kind : FactorKind) (index : ℕ) : F[X] :=
  match kind with
  | .linear => C (a index)
  | _ => C (a index) * X + C (a (index + 1))

/-- The numerators of the first `levels` levels over one power of the factor. -/
noncomputable def levelsPolynomial (f : Factor K) (index : ℕ) : ℕ → F[X]
  | 0 => 0
  | levels + 1 => p f.content * levelsPolynomial f index levels
      + unknownPolynomial a f.kind (index + levels * f.kind.places)

noncomputable def denominatorPolynomial (factors : List (Factor K)) : F[X] :=
  (factors.map fun f => p f.content ^ f.multiplicity.toNat).prod

/-- The expanded identity, where `index` is the number of its first label. -/
noncomputable def expandedPolynomial (index : ℕ) : List (Factor K) → F[X]
  | [] => 0
  | f :: rest =>
    levelsPolynomial p a f index f.multiplicity.toNat * denominatorPolynomial p rest
      + p f.content ^ f.multiplicity.toNat
        * expandedPolynomial (index + f.multiplicity.toNat * f.kind.places) rest

theorem denominatorPolynomial_cons (f : Factor K) (rest : List (Factor K)) :
    denominatorPolynomial p (f :: rest) =
      p f.content ^ f.multiplicity.toNat * denominatorPolynomial p rest := by
  simp [denominatorPolynomial]

section Linear

variable (b : ℕ → F) (c : F)

theorem unknownPolynomial_add (kind : FactorKind) (index : ℕ) :
    unknownPolynomial (a + b) kind index =
      unknownPolynomial a kind index + unknownPolynomial b kind index := by
  cases kind <;> simp only [unknownPolynomial, Pi.add_apply, C_add] <;> ring

theorem unknownPolynomial_smul (kind : FactorKind) (index : ℕ) :
    unknownPolynomial (c • a) kind index = C c * unknownPolynomial a kind index := by
  cases kind <;> simp only [unknownPolynomial, Pi.smul_apply, smul_eq_mul, C_mul] <;> ring

theorem levelsPolynomial_add (f : Factor K) (index levels : ℕ) :
    levelsPolynomial p (a + b) f index levels =
      levelsPolynomial p a f index levels + levelsPolynomial p b f index levels := by
  induction levels with
  | zero => simp [levelsPolynomial]
  | succ levels ih =>
    simp only [levelsPolynomial, ih, unknownPolynomial_add]
    ring

theorem levelsPolynomial_smul (f : Factor K) (index levels : ℕ) :
    levelsPolynomial p (c • a) f index levels = C c * levelsPolynomial p a f index levels := by
  induction levels with
  | zero => simp [levelsPolynomial]
  | succ levels ih =>
    simp only [levelsPolynomial, ih, unknownPolynomial_smul]
    ring

theorem expandedPolynomial_add (index : ℕ) (factors : List (Factor K)) :
    expandedPolynomial p (a + b) index factors =
      expandedPolynomial p a index factors + expandedPolynomial p b index factors := by
  induction factors generalizing index with
  | nil => simp [expandedPolynomial]
  | cons f rest ih =>
    simp only [expandedPolynomial, ih, levelsPolynomial_add]
    ring

theorem expandedPolynomial_smul (index : ℕ) (factors : List (Factor K)) :
    expandedPolynomial p (c • a) index factors = C c * expandedPolynomial p a index factors := by
  induction factors generalizing index with
  | nil => simp [expandedPolynomial]
  | cons f rest ih =>
    simp only [expandedPolynomial, ih, levelsPolynomial_smul]
    ring

end Linear

end Polynomials

section Degrees

variable {p : String → F[X]} (a : ℕ → F)

/-- A content that stands for a polynomial of the degree that the kind of its factor asks for. -/
def HasDegree (p : String → F[X]) (f : Factor K) : Prop := (p f.content).natDegree = f.kind.places

theorem HasDegree.ne_zero {f : Factor K} (h : HasDegree p f) : p f.content ≠ 0 := by
  intro hzero
  have hpos := f.kind.places_pos
  rw [← h, hzero, natDegree_zero] at hpos
  exact lt_irrefl 0 hpos

theorem HasDegree.degree_eq {f : Factor K} (h : HasDegree p f) :
    (p f.content).degree = (f.kind.places : ℕ) := by
  rw [degree_eq_natDegree h.ne_zero, h]

theorem degree_unknownPolynomial_lt (kind : FactorKind) (index : ℕ) :
    (unknownPolynomial a kind index).degree < (kind.places : ℕ) := by
  have hconstant (v : F) : (C v).degree < ((1 : ℕ) : WithBot ℕ) :=
    degree_C_le.trans_lt (by decide)
  have hlinear (v w : F) : (C v * X + C w).degree < ((2 : ℕ) : WithBot ℕ) :=
    degree_linear_le.trans_lt (by decide)
  cases kind with
  | linear => exact hconstant _
  | quadratic => exact hlinear _ _
  | other name => exact hlinear _ _

theorem degree_levelsPolynomial_lt {f : Factor K} (h : HasDegree p f) (index levels : ℕ) :
    (levelsPolynomial p a f index levels).degree < ((levels * f.kind.places : ℕ) : WithBot ℕ) := by
  induction levels with
  | zero => simp [levelsPolynomial]
  | succ levels ih =>
    refine (degree_add_le _ _).trans_lt (max_lt ?_ ?_)
    · rw [degree_mul, h.degree_eq, Nat.succ_mul, Nat.add_comm, Nat.cast_add]
      exact WithBot.add_lt_add_left (WithBot.natCast_ne_bot _) ih
    · refine (degree_unknownPolynomial_lt a f.kind _).trans_le ?_
      exact_mod_cast Nat.le_mul_of_pos_left _ levels.succ_pos

theorem degree_denominatorPolynomial {factors : List (Factor K)}
    (h : ∀ f ∈ factors, HasDegree p f) :
    (denominatorPolynomial p factors).degree = (size factors : ℕ) := by
  induction factors with
  | nil => simp [denominatorPolynomial, size]
  | cons f rest ih =>
    obtain ⟨hf, hrest⟩ := List.forall_mem_cons.mp h
    rw [denominatorPolynomial_cons, size_cons, degree_mul, degree_pow, hf.degree_eq, ih hrest,
      nsmul_eq_mul, Nat.cast_add, Nat.cast_mul]

/-- There are as many unknowns as the denominator's degree, and each stays below it. -/
theorem degree_expandedPolynomial_lt {factors : List (Factor K)}
    (h : ∀ f ∈ factors, HasDegree p f) (index : ℕ) :
    (expandedPolynomial p a index factors).degree < (size factors : ℕ) := by
  induction factors generalizing index with
  | nil => simp [expandedPolynomial, size]
  | cons f rest ih =>
    obtain ⟨hf, hrest⟩ := List.forall_mem_cons.mp h
    have hlevels := degree_levelsPolynomial_lt a hf index f.multiplicity.toNat
    have hlater := ih hrest (index + f.multiplicity.toNat * f.kind.places)
    rw [size_cons, Nat.cast_add]
    refine (degree_add_le _ _).trans_lt (max_lt ?_ ?_)
    · rw [degree_mul, degree_denominatorPolynomial hrest]
      exact WithBot.add_lt_add_right (WithBot.natCast_ne_bot _) hlevels
    · rw [degree_mul, degree_pow, hf.degree_eq, nsmul_eq_mul, ← Nat.cast_mul]
      exact WithBot.add_lt_add_left (WithBot.natCast_ne_bot _) hlater

end Degrees

section Zero

variable {p : String → F[X]} {a : ℕ → F}

/-- Two rows of zeros, one behind the other. -/
private theorem zeros_append {index m n : ℕ} (hfirst : ∀ i < m, a (index + i) = 0)
    (hlater : ∀ i < n, a (index + m + i) = 0) : ∀ i < m + n, a (index + i) = 0 := by
  intro i hi
  by_cases him : i < m
  · exact hfirst i him
  · have hplace := hlater (i - m) (by omega)
    have hindex : index + m + (i - m) = index + i := by omega
    rwa [hindex] at hplace

/-- A numerator over one level is zero only if all its unknowns are. -/
theorem eq_zero_of_unknownPolynomial {kind : FactorKind} {index : ℕ}
    (h : unknownPolynomial a kind index = 0) : ∀ i < kind.places, a (index + i) = 0 := by
  have hlinear (h : C (a index) * X + C (a (index + 1)) = 0) : ∀ i < 2, a (index + i) = 0 := by
    have h₀ : a (index + 1) = 0 := by simpa using congrArg (coeff · 0) h
    have h₁ : a index = 0 := by simpa using congrArg (coeff · 1) h
    intro i hi
    interval_cases i
    · exact h₁
    · exact h₀
  cases kind with
  | linear =>
    intro i hi
    obtain rfl : i = 0 := Nat.lt_one_iff.mp hi
    exact C_eq_zero.mp h
  | quadratic => exact hlinear h
  | other name => exact hlinear h

/-- The last level is the remainder modulo the factor, so the levels vanish one by one. -/
theorem eq_zero_of_levelsPolynomial {f : Factor K} (hf : HasDegree p f) {index levels : ℕ}
    (h : levelsPolynomial p a f index levels = 0) :
    ∀ i < levels * f.kind.places, a (index + i) = 0 := by
  induction levels with
  | zero => simp
  | succ levels ih =>
    have hdvd : p f.content ∣ unknownPolynomial a f.kind (index + levels * f.kind.places) :=
      (dvd_add_right (dvd_mul_right _ _)).mp (h ▸ dvd_zero _)
    have hlast : unknownPolynomial a f.kind (index + levels * f.kind.places) = 0 := by
      refine eq_zero_of_dvd_of_degree_lt hdvd ?_
      rw [hf.degree_eq]
      exact degree_unknownPolynomial_lt a f.kind _
    rw [levelsPolynomial, hlast, add_zero] at h
    have hearlier := ih ((mul_eq_zero.mp h).resolve_left hf.ne_zero)
    rw [Nat.succ_mul]
    exact zeros_append hearlier (eq_zero_of_unknownPolynomial hlast)

theorem isCoprime_denominatorPolynomial {q : F[X]} {factors : List (Factor K)}
    (h : ∀ f ∈ factors, IsCoprime q (p f.content)) :
    IsCoprime q (denominatorPolynomial p factors) := by
  induction factors with
  | nil => exact isCoprime_one_right
  | cons f rest ih =>
    obtain ⟨hf, hrest⟩ := List.forall_mem_cons.mp h
    rw [denominatorPolynomial_cons]
    exact hf.pow_right.mul_right (ih hrest)

/-- Modulo the power of a factor only its own levels are left, so they vanish factor by factor. -/
theorem eq_zero_of_expandedPolynomial {factors : List (Factor K)}
    (hdegree : ∀ f ∈ factors, HasDegree p f)
    (hcoprime : factors.Pairwise fun f g => IsCoprime (p f.content) (p g.content)) {index : ℕ}
    (h : expandedPolynomial p a index factors = 0) : ∀ i < size factors, a (index + i) = 0 := by
  induction factors generalizing index with
  | nil => simp [size]
  | cons f rest ih =>
    obtain ⟨hf, hrest⟩ := List.forall_mem_cons.mp hdegree
    obtain ⟨hfrest, hpairs⟩ := List.pairwise_cons.mp hcoprime
    have hdvd : p f.content ^ f.multiplicity.toNat ∣
        levelsPolynomial p a f index f.multiplicity.toNat * denominatorPolynomial p rest :=
      (dvd_add_left (dvd_mul_right _ _)).mp (h ▸ dvd_zero _)
    -- the power of `f` divides its own levels, which have a lower degree
    have hlevels : levelsPolynomial p a f index f.multiplicity.toNat = 0 := by
      refine eq_zero_of_dvd_of_degree_lt
        ((isCoprime_denominatorPolynomial hfrest).pow_left.dvd_of_dvd_mul_right hdvd) ?_
      rw [degree_pow, hf.degree_eq, nsmul_eq_mul, ← Nat.cast_mul]
      exact degree_levelsPolynomial_lt a hf index _
    have hown := eq_zero_of_levelsPolynomial hf hlevels
    rw [expandedPolynomial, hlevels, zero_mul, zero_add] at h
    have hlater := ih hrest hpairs
      ((mul_eq_zero.mp h).resolve_left (pow_ne_zero _ hf.ne_zero))
    rw [size_cons]
    exact zeros_append hown hlater

end Zero

end Template

end PartialFractions
