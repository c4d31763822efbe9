import PartialFractions.Proofs.SupportedSolution

/-!
Fractions over two brackets. Whatever the contents are, such a fraction is taken apart into one
factor for each bracket, if the terms of its numerator can be read.
-/
namespace PartialFractions

open Text Number

namespace OverBrackets

def denominator (g h : List Char) : List Char := '(' :: (g ++ ')' :: '(' :: (h ++ [')']))

def text (numerator g h : List Char) : List Char :=
  Fraction.command ++ '\x7b' :: (numerator ++ '\x7d' :: '\x7b' :: (denominator g h ++ ['\x7d']))

def decomposition (numerator g h : List Char) (terms : List Term) : Decomposition Float where
  fraction := ⟨String.ofList (trim numerator), String.ofList (denominator g h)⟩
  terms
  factorization :=
    { form := .listed
      scale := Scalar.ofNat 1
      factors := [.ofContent (trim g) 1, .ofContent (trim h) 1] }

variable {numerator g h : List Char}

theorem length_text_comm (numerator g h : List Char) :
    (text numerator g h).length = (text numerator h g).length := by
  simp only [text, denominator, List.length_append, List.length_cons]
  omega

theorem kind_comm (numerator g h : List Char) (terms : List Term) :
    (decomposition numerator g h terms).kind = (decomposition numerator h g terms).kind := by
  simp [Decomposition.kind, Factorization.kind, Factorization.hasLinear,
    Factorization.hasQuadratic, decomposition, Bool.or_comm]

/-- Without closing braces in the parts, the fraction is read as it is composed. -/
theorem fraction_eq (terms : List Term) (hnumerator : '\x7d' ∉ numerator) (hg : '\x7d' ∉ g)
    (hh : '\x7d' ∉ h) :
    Fraction.ofText (String.ofList (text numerator g h)) =
      .ok (decomposition numerator g h terms).fraction := by
  have hclosed : '\x7d' ∉ denominator g h := by simp [denominator, hg, hh]
  have htrim : trim (denominator g h) = denominator g h := by
    refine Numeral.trimOf_eq_self ?_ ?_
    · intro c hc
      cases hc
      decide
    · intro c hc
      have hlast : c = ')' := by
        simpa [denominator, List.getLast?_cons, List.getLast?_append] using hc.symm
      rw [hlast]
      decide
  have hfind : Fraction.find? ([] ++ (Fraction.command ++ ([] ++ '\x7b' :: (numerator ++ '\x7d' ::
      ([] ++ '\x7b' :: (denominator g h ++ '\x7d' :: [])))))) = _ :=
    Fraction.find?_eq_some (by simp [Fraction.command]) (by simp) (by simp) hnumerator hclosed []
  change Fraction.find? (text numerator g h) = _ at hfind
  rw [Fraction.ofText, String.toList_ofList, hfind]
  simp only [htrim]
  rfl

theorem all_denominator (hg : ')' ∉ g) (hh : ')' ∉ h) :
    Bracket.all (denominator g h) = ([⟨[], g, none⟩, ⟨[], h, none⟩], []) := by
  have hnil : Bracket.all [] = ([], []) := Bracket.all_of_notMem (by simp)
  have hsecond : Bracket.all ([] ++ '(' :: (h ++ ')' :: [])) = _ :=
    Bracket.all_append (by simp) hh (by simp)
  have hfirst : Bracket.all ([] ++ '(' :: (g ++ ')' :: ([] ++ '(' :: (h ++ ')' :: [])))) = _ :=
    Bracket.all_append (by simp) hg (by simp)
  rw [hsecond, hnil] at hfirst
  exact hfirst

/-- Without closing parentheses in the contents, both brackets are read as they are composed. -/
theorem ofDenominator_eq (numerator : List Char) (terms : List Term) (hg : ')' ∉ g)
    (hh : ')' ∉ h) :
    Factorization.ofDenominator (String.ofList (denominator g h)) =
      .ok (decomposition numerator g h terms).factorization := by
  have hgap (leading : Bool) : Gap.read (K := Float) leading [] = .ok (Scalar.ofNat 1, []) := rfl
  have hbrackets : Factorization.bracketFactors (K := Float) true (Scalar.ofNat 1)
      [⟨[], g, none⟩, ⟨[], h, none⟩] =
        .ok (Scalar.ofNat 1, [.ofContent (trim g) 1, .ofContent (trim h) 1]) := rfl
  have hlisted := Factorization.listed_of_cut (all_denominator hg hh) (by simp) hbrackets
    (hgap false)
  refine Factorization.ofDenominator_of_open ?_ ?_ (by decide +kernel)
  · simp [denominator]
  · rw [String.toList_ofList, hlisted]
    rfl

/-- Only the limit and the terms of the numerator decide whether the fraction is taken apart. -/
theorem ofText_eq (hnumerator : '\x7d' ∉ numerator) (hg : ')' ∉ g ∧ '\x7d' ∉ g)
    (hh : ')' ∉ h ∧ '\x7d' ∉ h) (limit : ℤ) :
    Decomposition.ofText limit (some (String.ofList (text numerator g h))) =
      if (text numerator g h).length ≤ limit then
        ((Term.readAll (trim numerator)).mapError .fault).map (decomposition numerator g h)
      else .error (.refused (.tooLong limit)) := by
  have hmem : '\\' ∈ text numerator g h := by simp [text, Fraction.command]
  by_cases hlimit : (text numerator g h).length ≤ limit
  · have hfraction (terms : List Term) := fraction_eq terms hnumerator hg.2 hh.2
    have hdenominator (terms : List Term) := ofDenominator_eq numerator terms hg.1 hh.1
    rw [if_pos hlimit, Decomposition.ofText, Decomposition.checkInput_backslash hmem hlimit]
    simp only [Except.mapError, bind, Except.bind, hfraction []]
    simp only [decomposition, String.toList_ofList]
    cases hterms : Term.readAll (trim numerator) with
    | ok terms =>
      simp only [hdenominator terms]
      rfl
    | error fault => rfl
  · have hblank : ¬ (text numerator g h).all isBlank = true := by
      intro hall
      exact absurd (List.all_eq_true.mp hall _ hmem) (by decide)
    simp only [Decomposition.ofText, checkInput, String.toList_ofList, String.length_ofList,
      if_neg hblank, if_neg hlimit, if_pos (not_le.mp hlimit)]
    rfl

theorem ofText_one (hg : ')' ∉ g ∧ '\x7d' ∉ g) (hh : ')' ∉ h ∧ '\x7d' ∉ h) {limit : ℤ}
    (hlimit : (text ['1'] g h).length ≤ limit) :
    Decomposition.ofText limit (some (String.ofList (text ['1'] g h))) =
      .ok (decomposition ['1'] g h [⟨0, "+1"⟩]) := by
  have hterms : Term.readAll (trim ['1']) = .ok [⟨0, "+1"⟩] := by decide +kernel
  rw [ofText_eq (by decide) hg hh, if_pos hlimit, hterms]
  rfl

/-- Solving over two quadratic factors fails where the first one does. -/
theorem constants_of_rate_error {failure : Failure}
    (hkind : (decomposition ['1'] g h [⟨0, "+1"⟩]).kind = .quadratic)
    (hrate : Solution.rate (K := Float) (.ofContent (trim g) 1) = .error failure) :
    (decomposition ['1'] g h [⟨0, "+1"⟩]).constants = .error failure := by
  have hnumerator : Solution.numerator (K := Float) [⟨0, "+1"⟩] (Scalar.ofNat 1) =
      .ok (Scalar.ofNat 0, Scalar.ofNat 1) := by decide +kernel
  have hshape : SolvableShape.ofFactors
      (decomposition ['1'] g h [⟨0, "+1"⟩]).factorization.factors .quadratic =
        .ok (.quadratic (.ofContent (trim g) 1) (.ofContent (trim h) 1)) := rfl
  rw [Decomposition.constants, hkind, Solution.constants, hshape]
  simp only [Except.mapError, bind, Except.bind, Solution.ofShape, decomposition, hnumerator, hrate]

end OverBrackets

end PartialFractions
