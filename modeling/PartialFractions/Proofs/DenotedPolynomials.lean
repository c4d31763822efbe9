import Mathlib
import PartialFractions.Verification

/-!
Polynomials that arithmetic expressions denote. The coefficients of an expression are computed on
lists; each operation on such lists is one on polynomials, so the coefficients of an expression are
those of the polynomial that it is made from.
-/
namespace PartialFractions

open Polynomial

namespace Symbolic.Coefficients

noncomputable def polynomial : Coefficients → ℚ[X]
  | [] => 0
  | a :: p => C a + X * polynomial p

@[simp] theorem polynomial_nil : polynomial [] = 0 := rfl

@[simp] theorem polynomial_cons (a : ℚ) (p : Coefficients) :
    polynomial (a :: p) = C a + X * polynomial p := rfl

theorem polynomial_singleton (a : ℚ) : polynomial [a] = C a := by simp

@[simp] theorem polynomial_add (p q : Coefficients) :
    (add p q).polynomial = p.polynomial + q.polynomial := by
  induction p generalizing q with
  | nil => cases q <;> simp [add]
  | cons a p ih =>
    cases q with
    | nil => simp [add]
    | cons b q =>
      rw [add, polynomial_cons, ih, C_add, polynomial_cons, polynomial_cons]
      ring

@[simp] theorem polynomial_scale (c : ℚ) (p : Coefficients) :
    (scale c p).polynomial = C c * p.polynomial := by
  induction p with
  | nil => simp [scale]
  | cons a p ih =>
    have hcons : scale c (a :: p) = c * a :: scale c p := rfl
    rw [hcons, polynomial_cons, ih, C_mul, polynomial_cons]
    ring

@[simp] theorem polynomial_mul (p q : Coefficients) :
    (mul p q).polynomial = p.polynomial * q.polynomial := by
  induction p with
  | nil => simp [mul]
  | cons a p ih =>
    rw [mul, polynomial_add, polynomial_scale, polynomial_cons, ih, polynomial_cons, C_0]
    ring

@[simp] theorem polynomial_pow (p : Coefficients) (n : ℕ) :
    (pow p n).polynomial = p.polynomial ^ n := by
  induction n with
  | zero => simp [pow]
  | succ n ih => rw [pow, polynomial_mul, ih, pow_succ]

/-- Zeros of high powers add nothing. -/
theorem polynomial_concat_zero (p : Coefficients) : (p ++ [0]).polynomial = p.polynomial := by
  induction p with
  | nil => simp
  | cons a p ih => rw [List.cons_append, polynomial_cons, ih, polynomial_cons]

@[simp] theorem polynomial_strip (p : Coefficients) : p.strip.polynomial = p.polynomial := by
  induction p using List.reverseRecOn with
  | nil => rfl
  | append_singleton p a ih =>
    by_cases ha : a = 0
    · have hstrip : strip (p ++ [a]) = strip p := by simp [strip, ha]
      rw [hstrip, ih, ha, polynomial_concat_zero]
    · have hstrip : strip (p ++ [a]) = p ++ [a] := by simp [strip, ha]
      rw [hstrip]

/-- Only the constant coefficient may be present in what counts as a constant. -/
theorem constant?_eq_some {p : Coefficients} {c : ℚ} (h : p.constant? = some c) :
    p.polynomial = C c := by
  rw [← polynomial_strip]
  unfold constant? at h
  split at h
  · rename_i hstrip
    obtain rfl := Option.some.inj h
    rw [hstrip, polynomial_nil, C_0]
  · rename_i a hstrip
    obtain rfl := Option.some.inj h
    rw [hstrip, polynomial_singleton]
  · cases h

theorem constant?_singleton (c : ℚ) : constant? [c] = some c := by
  by_cases hc : c = 0
  · simp [constant?, strip, hc]
  · simp [constant?, strip, hc]

end Symbolic.Coefficients

namespace Verification

open Symbolic

namespace Arithmetic

variable {K : Type} {e a b : Arithmetic K} {p q : ℚ[X]}

/-- The coefficients of the expression are those of the polynomial. -/
def Denotes (e : Arithmetic K) (p : ℚ[X]) : Prop :=
  ∃ cs, e.coefficients? = some cs ∧ cs.polynomial = p

theorem denotes_whole (n : ℕ) : (literal (.whole n) : Arithmetic K).Denotes (C (n : ℚ)) :=
  ⟨_, rfl, Coefficients.polynomial_singleton _⟩

theorem denotes_x : (x : Arithmetic K).Denotes X :=
  ⟨[0, 1], rfl, by simp⟩

theorem Denotes.negate (h : e.Denotes p) : e.negate.Denotes (-p) := by
  obtain ⟨cs, hcs, rfl⟩ := h
  exact ⟨_, by rw [coefficients?, hcs, Option.map_some], by simp⟩

theorem Denotes.add (ha : a.Denotes p) (hb : b.Denotes q) : (a.add b).Denotes (p + q) := by
  obtain ⟨cs, hcs, rfl⟩ := ha
  obtain ⟨ds, hds, rfl⟩ := hb
  refine ⟨cs.add ds, ?_, cs.polynomial_add ds⟩
  rw [coefficients?, hcs, hds]
  rfl

theorem Denotes.subtract (ha : a.Denotes p) (hb : b.Denotes q) :
    (a.subtract b).Denotes (p - q) := by
  obtain ⟨cs, hcs, rfl⟩ := ha
  obtain ⟨ds, hds, rfl⟩ := hb
  refine ⟨cs.add (ds.scale (-1)), ?_, by simp [sub_eq_add_neg]⟩
  rw [coefficients?, hcs, hds]
  rfl

theorem Denotes.multiply (ha : a.Denotes p) (hb : b.Denotes q) :
    (a.multiply b).Denotes (p * q) := by
  obtain ⟨cs, hcs, rfl⟩ := ha
  obtain ⟨ds, hds, rfl⟩ := hb
  refine ⟨cs.mul ds, ?_, cs.polynomial_mul ds⟩
  rw [coefficients?, hcs, hds]
  rfl

/-- An exponent that is a whole number is a number of factors. -/
theorem Denotes.power (h : e.Denotes p) (n : ℕ) :
    (e.power (.literal (.whole n))).Denotes (p ^ n) := by
  obtain ⟨cs, hcs, rfl⟩ := h
  refine ⟨cs.pow n, ?_, cs.polynomial_pow n⟩
  have hwhole : wholeOf? [(n : ℚ)] = some (Int.ofNat n) := by
    simp [wholeOf?, Coefficients.constant?_singleton]
  have hexponent : (literal (.whole n) : Arithmetic K).coefficients? = some [(n : ℚ)] := rfl
  rw [coefficients?, hcs, hexponent]
  simp only [Option.bind_eq_bind, Option.bind_some, hwhole]
  rfl

end Arithmetic

variable [Parsing Empty]

/-- The exact coefficients that are read of the text are those of the polynomial. -/
def Denotes (s : List Char) (p : ℚ[X]) : Prop :=
  ∃ cs : List ℚ, exactCoefficients s = .ok cs ∧ Coefficients.polynomial cs.reverse = p

/-- The polynomial that is read of the text, zero if none is read. -/
noncomputable def denoted (s : List Char) : ℚ[X] :=
  match exactCoefficients s with
  | .ok cs => Coefficients.polynomial cs.reverse
  | .error _ => 0

theorem Denotes.denoted_eq {s : List Char} {p : ℚ[X]} (h : Denotes s p) : denoted s = p := by
  obtain ⟨cs, hcs, hp⟩ := h
  rw [denoted, hcs]
  exact hp

/-- A text denotes what the expression read from it denotes. -/
theorem denotes_of_read {s : List Char} {e : Arithmetic Empty} {p : ℚ[X]}
    (hread : Arithmetic.read s = .ok e) (he : e.Denotes p) : Denotes s p := by
  obtain ⟨cs, hcs, rfl⟩ := he
  have hpolynomial : polynomial? e = some cs := by simp [polynomial?, hcs]
  refine ⟨if cs.strip.isEmpty then [0] else cs.strip.reverse, ?_, ?_⟩
  · simp only [exactCoefficients, hread, hpolynomial, bind, Except.bind]
    rfl
  · rw [← Coefficients.polynomial_strip cs]
    split
    · rename_i hempty
      simp [List.isEmpty_iff.mp hempty]
    · rw [List.reverse_reverse]

end Verification

end PartialFractions
