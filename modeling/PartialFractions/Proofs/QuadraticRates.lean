import PartialFractions.Proofs.AgreeingReaders
import PartialFractions.Proofs.ContentReading

/-!
The rate of a quadratic factor whose content is any written sum. A rate is looked up with the first
coefficients at the powers 2 and 0, and a term of another power refuses the factor. Where neither
power stands twice, the factors with a rate r are those with the polynomial x² - r, r not zero, and
without a term of another power.
-/
namespace PartialFractions

open Polynomial Text Number

namespace SignedSummand

variable {terms : List SignedSummand}

def firstCoefficient (terms : List SignedSummand) (power : ℕ) : ℚ :=
  ((terms.find? (·.summand.power = power)).map value).getD 0

def OnlySquares (terms : List SignedSummand) : Prop :=
  ∀ t ∈ terms, t.summand.power = 0 ∨ t.summand.power = 2

instance : Decidable (OnlySquares terms) := List.decidableBAll _ terms

/-- The sum is x² - r for a number r other than zero, and no other power is written in it. -/
structure HasRate (terms : List SignedSummand) (r : ℚ) : Prop where
  onlySquares : OnlySquares terms
  polynomial : sumPolynomial terms = X ^ 2 - C r
  ne_zero : r ≠ 0

/-- A power that is not written has coefficient zero. -/
theorem firstCoefficient_of_onlySquares (h : OnlySquares terms) {power : ℕ} (hzero : power ≠ 0)
    (htwo : power ≠ 2) : firstCoefficient terms power = 0 := by
  have hnone : terms.find? (·.summand.power = power) = none := by
    refine List.find?_eq_none.mpr ?_
    intro t ht hpower
    have heq : t.summand.power = power := of_decide_eq_true hpower
    rcases h t ht with h | h
    · exact hzero (heq.symm.trans h)
    · exact htwo (heq.symm.trans h)
  rw [firstCoefficient, hnone]
  rfl

/-- Squares and constants that stand once each have a rate by their first coefficients. -/
theorem hasRate_iff (h : OnlySquares terms) (honce : (terms.map fun t => t.summand.power).Nodup)
    {r : ℚ} : HasRate terms r ↔
      firstCoefficient terms 2 = 1 ∧ firstCoefficient terms 0 = -r ∧ r ≠ 0 := by
  have hcoeff (n : ℕ) : (sumPolynomial terms).coeff n = firstCoefficient terms n :=
    coeff_sumPolynomial honce n
  constructor
  · rintro ⟨-, hpolynomial, hr⟩
    refine ⟨?_, ?_, hr⟩
    · rw [← hcoeff, hpolynomial]
      simp
    · rw [← hcoeff, hpolynomial]
      simp
  · rintro ⟨htwo, hzero, hr⟩
    refine ⟨h, ?_, hr⟩
    ext n
    rw [hcoeff, coeff_sub, coeff_X_pow, coeff_C]
    by_cases hn : n = 2
    · subst hn
      simp [htwo]
    · by_cases hn' : n = 0
      · subst hn'
        simp [hzero]
      · simp [firstCoefficient_of_onlySquares h hn' hn, hn, hn']

end SignedSummand

/-- The value at a power is the first coefficient with that power. -/
theorem Term.valueAt_eq_firstCoefficient (terms : List SignedSummand) (power : ℕ) :
    (valueAt (terms.map SignedSummand.term) power : Except Fault (Exact ℚ)) =
      .ok (.finite (SignedSummand.firstCoefficient terms power)) := by
  rw [valueAt_terms, SignedSummand.firstCoefficient]
  cases terms.find? (·.summand.power = power) with
  | none => simp
  | some t => simp [SignedSummand.number_eq_finite]

theorem Term.all_term_iff (terms : List SignedSummand) :
    ((terms.map SignedSummand.term).all fun t => t.power = 0 || t.power = 2) = true ↔
      SignedSummand.OnlySquares terms := by
  simp only [List.all_map, List.all_eq_true, SignedSummand.OnlySquares]
  refine forall₂_congr fun t _ => ?_
  have htwo : (t.summand.power : ℤ) = 2 ↔ t.summand.power = 2 := by omega
  simp [SignedSummand.term, htwo]

namespace Solution

open SignedSummand

variable {f : Factor (Exact ℚ)} {plusShown : Bool} {terms : List SignedSummand}

/-- The rate of a written sum is that of its first coefficients, and all else is refused. -/
theorem rate_of_squeeze (h : squeeze f.content.toList = (sumTokens plusShown terms).flatten) :
    rate f = if OnlySquares terms ∧ firstCoefficient terms 2 = 1 ∧ firstCoefficient terms 0 ≠ 0
      then .ok (.finite (-firstCoefficient terms 0))
      else .error (.refused (.unsupportedQuadratic f.content)) := by
  have hread := Term.readAll_of_squeeze h
  have hleading := Term.valueAt_eq_firstCoefficient terms 2
  have hconstant := Term.valueAt_eq_firstCoefficient terms 0
  have hall := Term.all_term_iff terms
  simp only [Nat.cast_ofNat, Nat.cast_zero] at hleading hconstant
  simp only [rate, hread, Except.mapError, bind, Except.bind, hall, hleading, hconstant]
  by_cases hsquares : OnlySquares terms
  · by_cases hone : firstCoefficient terms 2 = 1
    · by_cases hzero : firstCoefficient terms 0 = 0
      · simp [hsquares, hone, hzero]
        rfl
      · simp [hsquares, hone, hzero]
        rfl
    · simp [hsquares, hone]
      rfl
  · simp [hsquares]
    rfl

/-- The factors with a rate r are those with the polynomial x² - r, r not zero, in which no other
power than that of the square and the constant is written. The others are refused. -/
theorem rate_eq_ok_iff (h : squeeze f.content.toList = (sumTokens plusShown terms).flatten)
    (honce : OnlySquares terms → (terms.map fun t => t.summand.power).Nodup) :
    (∀ r : ℚ, rate f = .ok (.finite r) ↔ HasRate terms r) ∧
      ((¬ ∃ r, HasRate terms r) →
        rate f = .error (.refused (.unsupportedQuadratic f.content))) := by
  have hrate := rate_of_squeeze h
  by_cases hcases : OnlySquares terms ∧ firstCoefficient terms 2 = 1 ∧ firstCoefficient terms 0 ≠ 0
  · obtain ⟨hsquares, hone, hzero⟩ := hcases
    rw [if_pos ⟨hsquares, hone, hzero⟩] at hrate
    have hiff (r : ℚ) := hasRate_iff hsquares (honce hsquares) (r := r)
    refine ⟨fun r => ?_, fun hnone => absurd ⟨-firstCoefficient terms 0, ?_⟩ hnone⟩
    · rw [hrate, hiff]
      constructor
      · intro heq
        obtain rfl : -firstCoefficient terms 0 = r := by simpa using heq
        simpa using ⟨hone, hzero⟩
      · rintro ⟨-, heq, -⟩
        rw [heq, neg_neg]
    · rw [hiff]
      simpa using ⟨hone, hzero⟩
  · rw [if_neg hcases] at hrate
    refine ⟨fun r => ?_, fun _ => hrate⟩
    rw [hrate]
    constructor
    · intro heq
      cases heq
    · intro hr
      obtain ⟨hone, hzero, hne⟩ := (hasRate_iff hr.onlySquares (honce hr.onlySquares)).mp hr
      have hconstant : firstCoefficient terms 0 ≠ 0 := by
        rw [hzero]
        exact neg_ne_zero.mpr hne
      exact absurd ⟨hr.onlySquares, hone, hconstant⟩ hcases

section Samples

open Verification Factorization

def square : SignedSummand := ⟨false, .multiple none (some .two)⟩

def three : SignedSummand := ⟨false, .constant (.ofDigit '3' isDigit_three)⟩

def four : SignedSummand := ⟨false, .constant (.ofDigit '4' isDigit_four)⟩

theorem monomial_square : square.monomial = X ^ 2 := by
  have hpower : square.summand.power = 2 := rfl
  have hvalue : (square.value : ℚ) = 1 := DecimalNumeral.value_one
  rw [monomial_eq, hpower, hvalue, C_1, one_mul]

theorem value_three : (three.value : ℚ) = 3 :=
  DecimalNumeral.value_ofDigit (d := 3) (by decide) isDigit_three

theorem value_four : (four.value : ℚ) = 4 :=
  DecimalNumeral.value_ofDigit (d := 4) (by decide) isDigit_four

/-- The sum -4 + 1x^{2}. -/
def offsetFirst : List SignedSummand :=
  [⟨true, four.summand⟩, ⟨false, .multiple (some (.ofDigit '1' isDigit_one)) braced⟩]

/-- The sum x^2 + x - x + 4. -/
def cancelled : List SignedSummand :=
  [square, ⟨false, .multiple none none⟩, ⟨true, .multiple none none⟩, four]

/-- The sum x^2 + 4 + 3. -/
def repeated : List SignedSummand := [square, four, three]

theorem not_onlySquares_cancelled : ¬ OnlySquares cancelled := by decide

theorem monomial_three : three.monomial = C 3 := by
  rw [monomial_eq, value_three]
  exact mul_one _

theorem monomial_four : four.monomial = C 4 := by
  rw [monomial_eq, value_four]
  exact mul_one _

theorem sumPolynomial_cancelled : sumPolynomial cancelled = X ^ 2 - C (-4) := by
  have hx (negative : Bool) : (⟨negative, .multiple none none⟩ : SignedSummand).monomial =
      C (Scalar.signed negative 1) * X := by
    simp [monomial_eq, value, Summand.coefficient, Summand.power, DecimalNumeral.value_one]
  simp [sumPolynomial, cancelled, monomial_square, monomial_four, hx, Scalar.signed]

theorem sumPolynomial_repeated : sumPolynomial repeated = X ^ 2 - C (-7) := by
  have hseven : C (4 : ℚ) + C 3 = C 7 := by
    rw [← C_add]
    norm_num
  simp [sumPolynomial, repeated, monomial_square, monomial_four, monomial_three, hseven]

theorem squeeze_cancelled :
    squeeze "x^2 + x - x + 4".toList = (sumTokens false cancelled).flatten := by decide +kernel

/-- The constant in front of the square, and a content with two terms x. -/
theorem rate_eq_ok_iff_offset :
    rate (.ofContent "-4 + 1x^\x7b2\x7d".toList 1 : Factor (Exact ℚ)) = .ok (.finite 4) ∧
      rate (.ofContent "x^2 + x - x + 4".toList 1 : Factor (Exact ℚ)) =
        .error (.refused (.unsupportedQuadratic "x^2 + x - x + 4")) := by
  constructor
  · have hsqueeze : squeeze (Factor.ofContent "-4 + 1x^\x7b2\x7d".toList 1 :
        Factor (Exact ℚ)).content.toList = (sumTokens false offsetFirst).flatten := by
      decide +kernel
    have honce : (offsetFirst.map fun t => t.summand.power).Nodup := by decide
    have hrate : HasRate offsetFirst 4 := by
      refine (hasRate_iff (by decide) honce).mpr ⟨?_, ?_, by norm_num⟩
      · exact DecimalNumeral.value_ofDigit (d := 1) (by decide) isDigit_one
      · exact congrArg Neg.neg value_four
    exact ((rate_eq_ok_iff hsqueeze fun _ => honce).1 4).mpr hrate
  · have hcancelled := rate_eq_ok_iff (f := .ofContent "x^2 + x - x + 4".toList 1)
      squeeze_cancelled fun h => absurd h not_onlySquares_cancelled
    refine hcancelled.2 ?_
    rintro ⟨r, hr⟩
    exact not_onlySquares_cancelled hr.onlySquares

/-- A content in which x cancels has the polynomial x² + 4 and is refused, and one with two
constants has the polynomial x² + 7 and the rate -4. -/
theorem exists_other_rate :
    (squeeze "x^2 + x - x + 4".toList = (sumTokens false cancelled).flatten ∧
      sumPolynomial cancelled = X ^ 2 - C (-4) ∧
      rate (.ofContent "x^2 + x - x + 4".toList 1 : Factor (Exact ℚ)) =
        .error (.refused (.unsupportedQuadratic "x^2 + x - x + 4"))) ∧
    squeeze "x^2 + 4 + 3".toList = (sumTokens false repeated).flatten ∧
      sumPolynomial repeated = X ^ 2 - C (-7) ∧
      rate (.ofContent "x^2 + 4 + 3".toList 1 : Factor (Exact ℚ)) = .ok (.finite (-4)) := by
  have hrepeated : squeeze "x^2 + 4 + 3".toList = (sumTokens false repeated).flatten := by
    decide +kernel
  refine ⟨⟨squeeze_cancelled, sumPolynomial_cancelled, ?_⟩, hrepeated, sumPolynomial_repeated, ?_⟩
  · have hrate := rate_of_squeeze (f := .ofContent "x^2 + x - x + 4".toList 1) squeeze_cancelled
    rwa [if_neg fun h => not_onlySquares_cancelled h.1] at hrate
  · have hsquare : firstCoefficient repeated 2 = 1 := DecimalNumeral.value_one
    have hconstant : firstCoefficient repeated 0 = 4 := value_four
    have hrate := rate_of_squeeze (f := .ofContent "x^2 + 4 + 3".toList 1) hrepeated
    rwa [if_pos ⟨by decide, hsquare, by simp [hconstant]⟩, hconstant] at hrate

end Samples

end Solution

end PartialFractions
