import Mathlib
import PartialFractions.Proofs.ExactNumbers
import PartialFractions.Solution

/-!
The closed forms of the constants over two linear divisors and over two divisors x² - r. They are
the only numbers that make the identity of the decomposition true for all x.
-/
namespace PartialFractions

/-- Two divisors of a denominator: x - r and x - s, or x² - r and x² - s. -/
inductive Divisors (K : Type)
  | linear (r s : K)
  | quadratic (r s : K)

namespace Divisors

def kind {K : Type} : Divisors K → ExpressionKind
  | linear _ _ => .linear
  | quadratic _ _ => .quadratic

def labels {K : Type} : Divisors K → List String
  | linear _ _ => ["A", "B"]
  | quadratic _ _ => ["A", "B", "C", "D"]

def Solvable {K : Type} [Zero K] : Divisors K → Prop
  | linear r s => r ≠ s
  | quadratic r s => r ≠ 0 ∧ s ≠ 0 ∧ r ≠ s

variable {K : Type} [Field K]

/-- The numerator `n` is `scale` times the sum of the unknown numerators, each times the other
divisor. -/
def Identity (n : K → K) (scale : K) : Divisors K → List K → Prop
  | linear r s, [a, b] => ∀ x, n x = scale * (a * (x - s) + b * (x - r))
  | quadratic r s, [a, b, c, d] =>
    ∀ x, n x = scale * ((a * x + b) * (x ^ 2 - s) + (c * x + d) * (x ^ 2 - r))
  | _, _ => False

/-- The constants for a numerator c₁ x + c₂. -/
def constants (c₁ c₂ : K) : Divisors K → List K
  | linear r s => [(c₁ * r + c₂) / (r - s), (c₁ * s + c₂) / (s - r)]
  | quadratic r s =>
    [c₁ / (r - s), -c₂ / (s - r), -(c₁ / (r - s)), -(-c₂ / (s - r))]

/-- Two linear identities in `x` decide both constants: put `x = r` and `x = s`. -/
theorem identity_linear_iff {c₁ c₂ scale r s : K} (hscale : scale ≠ 0) (hrs : r ≠ s) (a b : K) :
    (∀ x, c₁ * x + c₂ = scale * (a * (x - s) + b * (x - r))) ↔
      a = (c₁ / scale * r + c₂ / scale) / (r - s) ∧
        b = (c₁ / scale * s + c₂ / scale) / (s - r) := by
  have hr : r - s ≠ 0 := sub_ne_zero.mpr hrs
  have hs : s - r ≠ 0 := sub_ne_zero.mpr hrs.symm
  constructor
  · intro h
    have hatr := h r
    have hats := h s
    constructor
    · rw [eq_div_iff hr]
      field_simp
      linear_combination -hatr
    · rw [eq_div_iff hs]
      field_simp
      linear_combination -hats
  · rintro ⟨rfl, rfl⟩ x
    have hneg : s - r = -(r - s) := by ring
    rw [hneg]
    field_simp
    ring

/-- A cubic polynomial that vanishes at 0, 1, -1 and 2 is zero. -/
theorem cubic_eq_zero [CharZero K] {e₀ e₁ e₂ e₃ : K}
    (h : ∀ x : K, e₃ * x ^ 3 + e₂ * x ^ 2 + e₁ * x + e₀ = 0) :
    e₀ = 0 ∧ e₁ = 0 ∧ e₂ = 0 ∧ e₃ = 0 := by
  have h₀ : e₀ = 0 := by simpa using h 0
  have h₁ := h 1
  have hminus := h (-1)
  have htwo := h 2
  have h₂ : e₂ = 0 := by
    have hdouble : 2 * e₂ = 0 := by linear_combination h₁ + hminus - 2 * h₀
    simpa using hdouble
  have h₃ : e₃ = 0 := by
    have hsix : 6 * e₃ = 0 := by linear_combination htwo - 2 * h₁ + h₀ - 2 * h₂
    simpa using hsix
  have h₁' : e₁ = 0 := by linear_combination h₁ - h₀ - h₂ - h₃
  exact ⟨h₀, h₁', h₂, h₃⟩

/-- Comparing the four coefficients of the cubic decides all four constants. -/
theorem identity_quadratic_iff [CharZero K] {c₁ c₂ scale r s : K} (hscale : scale ≠ 0)
    (hrs : r ≠ s) (a b c d : K) :
    (∀ x, c₁ * x + c₂ =
        scale * ((a * x + b) * (x ^ 2 - s) + (c * x + d) * (x ^ 2 - r))) ↔
      a = c₁ / scale / (r - s) ∧ b = -(c₂ / scale) / (s - r) ∧
        c = -(c₁ / scale / (r - s)) ∧ d = -(-(c₂ / scale) / (s - r)) := by
  have hr : r - s ≠ 0 := sub_ne_zero.mpr hrs
  have hs : s - r ≠ 0 := sub_ne_zero.mpr hrs.symm
  have hneg : s - r = -(r - s) := by ring
  constructor
  · intro h
    -- both sides as one cubic polynomial, which has to be zero
    have hcubic (x : K) : scale * (a + c) * x ^ 3 + scale * (b + d) * x ^ 2 +
        (-(scale * (a * s + c * r)) - c₁) * x + (-(scale * (b * s + d * r)) - c₂) = 0 := by
      linear_combination -h x
    obtain ⟨h₀, h₁, h₂, h₃⟩ := cubic_eq_zero hcubic
    have hc : c = -a := by
      have hsum := (mul_eq_zero.mp h₃).resolve_left hscale
      linear_combination hsum
    have hd : d = -b := by
      have hsum := (mul_eq_zero.mp h₂).resolve_left hscale
      linear_combination hsum
    subst hc hd
    have ha : a = c₁ / scale / (r - s) := by
      rw [eq_div_iff hr, eq_div_iff hscale]
      linear_combination h₁
    have hb : b = -(c₂ / scale) / (s - r) := by
      rw [eq_div_iff hs, ← neg_div, eq_div_iff hscale]
      linear_combination -h₀
    exact ⟨ha, hb, by rw [← ha], by rw [← hb]⟩
  · rintro ⟨rfl, rfl, rfl, rfl⟩ x
    rw [hneg]
    field_simp
    ring

/-- The closed forms solve the identity, and nothing else does. -/
theorem identity_iff [CharZero K] {d : Divisors K} {c₁ c₂ scale : K} (hd : d.Solvable)
    (hscale : scale ≠ 0) (values : List K) :
    Identity (fun x => c₁ * x + c₂) scale d values ↔
      values = d.constants (c₁ / scale) (c₂ / scale) := by
  cases d with
  | linear r s =>
    match values with
    | [a, b] => simpa [Identity, constants] using identity_linear_iff hscale hd a b
    | [] | [_] | _ :: _ :: _ :: _ => simp [Identity, constants]
  | quadratic r s =>
    match values with
    | [a, b, c, d] =>
      simpa [Identity, constants] using identity_quadratic_iff hscale hd.2.2 a b c d
    | [] | [_] | [_, _] | [_, _, _] | _ :: _ :: _ :: _ :: _ :: _ => simp [Identity, constants]

end Divisors

namespace Solution

variable {K : Type} [Field K] [LinearOrder K]

def labelled (labels : List String) (values : List K) : Constants (Exact K) :=
  List.zipWith (fun label v => (label, .finite v)) labels values

theorem overLinear_finite (c₁ c₂ : K) {r s : K} (hrs : r ≠ s) :
    overLinear (Exact.finite c₁) (.finite c₂) (.finite r) (.finite s) =
      labelled (Divisors.linear r s).labels ((Divisors.linear r s).constants c₁ c₂) := by
  have hr : r - s ≠ 0 := sub_ne_zero.mpr hrs
  have hs : s - r ≠ 0 := sub_ne_zero.mpr hrs.symm
  simp only [overLinear, Exact.finite_mul, Exact.finite_add, Exact.finite_sub,
    Exact.finite_div _ hr, Exact.finite_div _ hs]
  rfl

theorem overQuadratic_finite (c₁ c₂ : K) {r s : K} (hrs : r ≠ s) :
    overQuadratic (Exact.finite c₁) (.finite c₂) (.finite r) (.finite s) =
      labelled (Divisors.quadratic r s).labels ((Divisors.quadratic r s).constants c₁ c₂) := by
  have hr : r - s ≠ 0 := sub_ne_zero.mpr hrs
  have hs : s - r ≠ 0 := sub_ne_zero.mpr hrs.symm
  simp only [overQuadratic, Exact.neg_finite, Exact.finite_sub, Exact.finite_div _ hr,
    Exact.finite_div _ hs]
  rfl

/-- Finite constants over linear factors come from finite numbers. -/
theorem finite_of_overLinear {d₁ d₂ r s : Exact K}
    (h : ∀ p ∈ overLinear d₁ d₂ r s, ∃ v, p.2 = .finite v) :
    ∃ e₁ e₂ u v : K, d₁ = .finite e₁ ∧ d₂ = .finite e₂ ∧ r = .finite u ∧ s = .finite v := by
  obtain ⟨a, ha⟩ := h _ (List.mem_cons_self ..)
  obtain ⟨b, hb⟩ := h _ (List.mem_cons_of_mem _ (List.mem_cons_self ..))
  obtain ⟨_, hatr, -⟩ := Exact.div_eq_finite ha
  obtain ⟨_, hats, -⟩ := Exact.div_eq_finite hb
  obtain ⟨_, e₂, hproduct, hd₂, -⟩ := Exact.add_eq_finite hatr
  obtain ⟨_, _, hproduct', -, -⟩ := Exact.add_eq_finite hats
  obtain ⟨e₁, u, hd₁, hr, -⟩ := Exact.mul_eq_finite hproduct
  obtain ⟨_, v, -, hs, -⟩ := Exact.mul_eq_finite hproduct'
  exact ⟨e₁, e₂, u, v, hd₁, hd₂, hr, hs⟩

/-- Finite constants over quadratic factors come from a finite numerator; a rate may be infinite. -/
theorem finite_of_overQuadratic {d₁ d₂ r s : Exact K}
    (h : ∀ p ∈ overQuadratic d₁ d₂ r s, ∃ v, p.2 = .finite v) :
    ∃ e₁ e₂ : K, d₁ = .finite e₁ ∧ d₂ = .finite e₂ := by
  obtain ⟨a, ha⟩ := h _ (List.mem_cons_self ..)
  obtain ⟨b, hb⟩ := h _ (List.mem_cons_of_mem _ (List.mem_cons_self ..))
  obtain ⟨e₁, hd₁, -⟩ := Exact.div_eq_finite ha
  obtain ⟨e₂, hd₂, -⟩ := Exact.div_eq_finite hb
  exact ⟨e₁, -e₂, hd₁, Exact.neg_eq_finite hd₂⟩

theorem finite_of_div_finite {c : Exact K} {q e : K} (h : c / .finite q = .finite e) :
    ∃ a, c = .finite a ∧ a / q = e := by
  obtain ⟨a, hc, hdivisor⟩ := Exact.div_eq_finite h
  rcases hdivisor with ⟨b, hb, -, hab⟩ | ⟨s, hs, -⟩
  · obtain rfl := Exact.finite.inj hb
    exact ⟨a, hc, hab⟩
  · cases hs

section Solving

variable [Notated K] {terms : List Term} {f g : Factor (Exact K)} {c₁ c₂ scale r s : K}

/-- Both coefficients are divided by the scale before anything else is computed. -/
theorem numerator_eq (hdegree : degree terms ≤ 1)
    (hc₁ : Term.valueAt terms 1 = .ok (Exact.finite c₁))
    (hc₂ : Term.valueAt terms 0 = .ok (Exact.finite c₂)) (hscale : scale ≠ 0) :
    numerator terms (.finite scale) =
      .ok (Exact.finite (c₁ / scale), Exact.finite (c₂ / scale)) := by
  have hone : numericCoefficient terms 1 = .ok (Exact.finite c₁) := by
    rw [numericCoefficient, hc₁]
  have hzero : numericCoefficient terms 0 = .ok (Exact.finite c₂) := by
    rw [numericCoefficient, hc₂]
  simp only [numerator, if_neg (not_lt.mpr hdegree), hone, hzero, Exact.isZero_finite,
    decide_eq_false hscale]
  simp [bind, Except.bind, hscale]
  rfl

theorem distinct_finite (hrs : r ≠ s) : distinct (Exact.finite r) (.finite s) = .ok () := by
  rw [distinct, Exact.same_finite, decide_eq_false hrs]
  rfl

theorem constants_linear {scale : Exact K} (hf : f.multiplicity ≤ 1) (hg : g.multiplicity ≤ 1)
    (hnumerator : numerator terms scale = .ok (Exact.finite c₁, Exact.finite c₂))
    (hr : root f = .ok (.finite r)) (hs : root g = .ok (.finite s)) (hrs : r ≠ s) :
    constants terms [f, g] .linear scale =
      .ok (labelled (Divisors.linear r s).labels ((Divisors.linear r s).constants c₁ c₂)) := by
  have hshape : SolvableShape.ofFactors [f, g] .linear = .ok (.linear f g) := by
    simp [SolvableShape.ofFactors, not_lt.mpr hf, not_lt.mpr hg]
  rw [← overLinear_finite c₁ c₂ hrs]
  simp only [constants, hshape, Except.mapError, ofShape, hnumerator, hr, hs,
    distinct_finite hrs, bind, Except.bind]
  rfl

theorem constants_quadratic {scale : Exact K} (hf : f.multiplicity ≤ 1)
    (hg : g.multiplicity ≤ 1)
    (hnumerator : numerator terms scale = .ok (Exact.finite c₁, Exact.finite c₂))
    (hr : rate f = .ok (.finite r)) (hs : rate g = .ok (.finite s)) (hrs : r ≠ s) :
    constants terms [f, g] .quadratic scale =
      .ok (labelled (Divisors.quadratic r s).labels
        ((Divisors.quadratic r s).constants c₁ c₂)) := by
  have hshape : SolvableShape.ofFactors [f, g] .quadratic = .ok (.quadratic f g) := by
    simp [SolvableShape.ofFactors, not_lt.mpr hf, not_lt.mpr hg]
  rw [← overQuadratic_finite c₁ c₂ hrs]
  simp only [constants, hshape, Except.mapError, ofShape, hnumerator, hr, hs,
    distinct_finite hrs, bind, Except.bind]
  rfl

end Solving

end Solution

end PartialFractions
