import PartialFractions.Factorization
import PartialFractions.Proofs.RationalValues

/-!
The sample points of the verification. They are so far apart, and so are their squares, that two of
them are away from any two roots, or from any two numbers of which they would be square roots. Two
points are enough: what is left of a wrong decomposition is a line, divided by the denominator.
-/
namespace PartialFractions.Verification

open Polynomial

def rationalPoints : List ℚ := [37 / 100, 191 / 100, -263 / 100, 417 / 100]

theorem samplePoints_eq : (samplePoints : List (Exact ℚ)) = rationalPoints.map .finite := by
  norm_num [samplePoints, rationalPoints, Exact.ofNumeral]

section Apart

variable {φ : ℚ → ℚ} {m : ℚ} {points : List ℚ}

/-- Of points that lie apart no two are near to the same number. -/
theorem length_filter_near (h : points.Pairwise fun p q => 2 * m ≤ |φ p - φ q|) (r : ℚ) :
    (points.filter fun p => |φ p - r| < m).length ≤ 1 := by
  have hnear : ∀ p ∈ points.filter fun p => |φ p - r| < m, |φ p - r| < m := fun p hp =>
    of_decide_eq_true (List.mem_filter.mp hp).2
  have hapart := h.filter fun p => |φ p - r| < m
  generalize points.filter (fun p => |φ p - r| < m) = near at hnear hapart
  match near with
  | [] => simp
  | [_] => simp
  | p :: q :: _ =>
    have hp := hnear p (by simp)
    have hq := hnear q (by simp)
    have hpq : 2 * m ≤ |φ p - φ q| := List.rel_of_pairwise_cons hapart (by simp)
    have htriangle : |φ p - φ q| ≤ |φ p - r| + |φ q - r| := by
      rw [abs_sub_comm (φ q)]
      exact abs_sub_le (φ p) r (φ q)
    linarith

theorem length_le_filter (points : List ℚ) (a b : ℚ → Bool) :
    points.length ≤ (points.filter a).length + (points.filter b).length +
      (points.filter fun p => !a p && !b p).length := by
  induction points with
  | nil => simp
  | cons p points ih =>
    cases ha : a p <;> cases hb : b p <;> simp [ha, hb] <;> omega

variable (φ) in
/-- Two of four points that lie apart are away from any two numbers. -/
theorem exists_away (h : points.Pairwise fun p q => 2 * m ≤ |φ p - φ q|) (hnodup : points.Nodup)
    (hlength : 4 ≤ points.length) (r s : ℚ) :
    ∃ p ∈ points, ∃ q ∈ points, p ≠ q ∧ (m ≤ |φ p - r| ∧ m ≤ |φ p - s|) ∧
      m ≤ |φ q - r| ∧ m ≤ |φ q - s| := by
  have hcount := length_le_filter points (fun p => |φ p - r| < m) fun p => |φ p - s| < m
  have hr := length_filter_near h r
  have hs := length_filter_near h s
  have hmem : ∀ p ∈ points.filter fun p => !decide (|φ p - r| < m) && !decide (|φ p - s| < m),
      p ∈ points ∧ m ≤ |φ p - r| ∧ m ≤ |φ p - s| := by
    intro p hp
    simpa using List.mem_filter.mp hp
  have hdistinct := hnodup.filter fun p => !decide (|φ p - r| < m) && !decide (|φ p - s| < m)
  generalize points.filter (fun p => !decide (|φ p - r| < m) && !decide (|φ p - s| < m)) = away
    at hcount hmem hdistinct
  have htwo : 2 ≤ away.length := by omega
  match away with
  | [] => simp at htwo
  | [_] => simp at htwo
  | p :: q :: _ =>
    obtain ⟨hp, hpaway⟩ := hmem p (by simp)
    obtain ⟨hq, hqaway⟩ := hmem q (by simp)
    have hne : p ≠ q := List.rel_of_pairwise_cons hdistinct (by simp)
    exact ⟨p, hp, q, hq, hne, hpaway, hqaway⟩

end Apart

theorem points_apart : rationalPoints.Pairwise fun p q => 2 * (3 / 4) ≤ |p - q| := by
  norm_num [rationalPoints, abs_le, le_abs]

theorem squares_apart : rationalPoints.Pairwise fun p q => 2 * (3 / 4) ≤ |p ^ 2 - q ^ 2| := by
  norm_num [rationalPoints, abs_le, le_abs]

theorem nodup_points : rationalPoints.Nodup := by
  norm_num [rationalPoints]

/-- The polynomials of two factors that are solved: x - r and x - s, or x² + k and x² + l. -/
inductive SolvablePair : ExpressionKind → ℚ[X] → ℚ[X] → Prop
  | linear (r s : ℚ) : SolvablePair .linear (X - C r) (X - C s)
  | quadratic (k l : ℚ) : SolvablePair .quadratic (X ^ 2 + C k) (X ^ 2 + C l)

noncomputable def denominatorAt (scale : ℚ) (f g : ℚ[X]) (v : ℚ) : ℚ :=
  scale * (f.eval v * g.eval v)

noncomputable def fractionAt (N : ℚ[X]) (scale : ℚ) (f g : ℚ[X]) (v : ℚ) : ℚ :=
  N.eval v / denominatorAt scale f g v

noncomputable def rebuiltAt (f g : ℚ[X]) (v : ℚ) : List ℚ → ℚ
  | [a, b] => a / f.eval v + b / g.eval v
  | [a, b, c, d] => (a * v + b) / f.eval v + (c * v + d) / g.eval v
  | _ => 0

inductive SolvedValues : ExpressionKind → List ℚ → Prop
  | linear (a b : ℚ) : SolvedValues .linear [a, b]
  | quadratic (a b : ℚ) : SolvedValues .quadratic [a, b, -a, -b]

namespace SolvablePair

variable {kind : ExpressionKind} {f g N : ℚ[X]} {values : List ℚ} {scale : ℚ}

theorem half_le_abs_mul {a b : ℚ} (ha : 3 / 4 ≤ |a|) (hb : 3 / 4 ≤ |b|) : 1 / 2 ≤ |a * b| := by
  rw [abs_mul]
  nlinarith

/-- At two sample points neither factor is small. -/
theorem exists_large (h : SolvablePair kind f g) :
    ∃ p ∈ rationalPoints, ∃ q ∈ rationalPoints, p ≠ q ∧
      1 / 2 ≤ |f.eval p * g.eval p| ∧ 1 / 2 ≤ |f.eval q * g.eval q| := by
  cases h with
  | linear r s =>
    obtain ⟨p, hp, q, hq, hne, ⟨hpr, hps⟩, hqr, hqs⟩ :=
      exists_away id points_apart nodup_points (by simp [rationalPoints]) r s
    refine ⟨p, hp, q, hq, hne, ?_, ?_⟩
    · simpa using half_le_abs_mul hpr hps
    · simpa using half_le_abs_mul hqr hqs
  | quadratic k l =>
    obtain ⟨p, hp, q, hq, hne, ⟨hpk, hpl⟩, hqk, hql⟩ :=
      exists_away (· ^ 2) squares_apart nodup_points (by simp [rationalPoints]) (-k) (-l)
    refine ⟨p, hp, q, hq, hne, ?_, ?_⟩
    · simpa using half_le_abs_mul hpk hpl
    · simpa using half_le_abs_mul hqk hql

theorem denominatorAt_ne_zero (hscale : scale ≠ 0) {v : ℚ} (hf : f.eval v ≠ 0)
    (hg : g.eval v ≠ 0) : denominatorAt scale f g v ≠ 0 :=
  mul_ne_zero hscale (mul_ne_zero hf hg)

/-- The difference of the two sides, times the denominator, is a line. -/
theorem exists_line (h : SolvablePair kind f g) (hvalues : SolvedValues kind values)
    (hN : N.natDegree ≤ 1) (hscale : scale ≠ 0) :
    ∃ a b : ℚ, ∀ v, f.eval v ≠ 0 → g.eval v ≠ 0 →
      denominatorAt scale f g v * (fractionAt N scale f g v - rebuiltAt f g v values) =
        a * v + b := by
  obtain ⟨n, m, rfl⟩ := exists_eq_X_add_C_of_natDegree_le_one hN
  cases hvalues with
  | linear a b =>
    cases h with | linear r s =>
    refine ⟨n - scale * (a + b), m + scale * (a * s + b * r), ?_⟩
    intro v hf hg
    rw [fractionAt, denominatorAt, rebuiltAt]
    simp only [eval_sub, eval_X, eval_C, eval_add, eval_mul] at hf hg ⊢
    field_simp
    ring
  | quadratic a b =>
    cases h with | quadratic k l =>
    refine ⟨n - scale * a * (l - k), m - scale * b * (l - k), ?_⟩
    intro v hf hg
    rw [fractionAt, denominatorAt, rebuiltAt]
    simp only [eval_pow, eval_X, eval_C, eval_add, eval_mul] at hf hg ⊢
    field_simp
    ring

/-- A line through zero at two points is zero. -/
theorem line_eq_zero {a b p q : ℚ} (hp : a * p + b = 0) (hq : a * q + b = 0) (hne : p ≠ q) :
    a = 0 ∧ b = 0 := by
  have ha : a = 0 := by
    have hdifference : a * (p - q) = 0 := by linear_combination hp - hq
    exact (mul_eq_zero.mp hdifference).resolve_right (sub_ne_zero.mpr hne)
  rw [ha, zero_mul, zero_add] at hp
  exact ⟨ha, hp⟩

/-- Sides that agree at two points agree wherever they are defined. -/
theorem eq_of_agree (h : SolvablePair kind f g) (hvalues : SolvedValues kind values)
    (hN : N.natDegree ≤ 1) (hscale : scale ≠ 0) {p q : ℚ} (hne : p ≠ q)
    (hdefined : ∀ v ∈ [p, q], f.eval v ≠ 0 ∧ g.eval v ≠ 0)
    (hagree : ∀ v ∈ [p, q], fractionAt N scale f g v = rebuiltAt f g v values) {v : ℚ}
    (hf : f.eval v ≠ 0) (hg : g.eval v ≠ 0) :
    fractionAt N scale f g v = rebuiltAt f g v values := by
  obtain ⟨a, b, hline⟩ := h.exists_line hvalues hN hscale
  have hzero : ∀ u ∈ [p, q], a * u + b = 0 := by
    intro u hu
    obtain ⟨hfu, hgu⟩ := hdefined u hu
    rw [← hline u hfu hgu, hagree u hu, sub_self, mul_zero]
  obtain ⟨rfl, rfl⟩ := line_eq_zero (hzero p (by simp)) (hzero q (by simp)) hne
  have hproduct := hline v hf hg
  rw [zero_mul, zero_add] at hproduct
  have hdenominator := denominatorAt_ne_zero hscale hf hg
  exact sub_eq_zero.mp ((mul_eq_zero.mp hproduct).resolve_left hdenominator)

end SolvablePair

end PartialFractions.Verification
