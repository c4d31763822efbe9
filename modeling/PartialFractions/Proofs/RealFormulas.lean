import Mathlib
import PartialFractions.Derivation
import PartialFractions.Proofs.TermReading

/-!
Values of formulas at a real number x. In a product a text may be more than a factor: it opens a
function that is closed again, or it is an operator on what stands behind it. A text that writes a
sum stands for the polynomial of that sum, and the constant of integration does not depend on x.
-/
namespace PartialFractions

open Text Number

/-- Real numbers have their square roots, however they are written. -/
noncomputable instance [Shown ℝ] : Notated ℝ where
  root := Real.sqrt

def SignedSummand.polynomial {K : Type} [Field K] (terms : List SignedSummand) (x : K) : K :=
  (terms.map fun t => t.value * x ^ t.summand.power).sum

/-- What the texts of a formula stand for at every real number. -/
structure Interpretation where
  text : String → ℝ → ℝ
  text_sum : ∀ {plusShown : Bool} {terms : List SignedSummand} {s : String},
    Spaced (SignedSummand.sumTokens plusShown terms) s.toList →
      ∀ x, text s x = SignedSummand.polynomial terms x
  text_constant : ∀ labels x y, text (Derivation.integrationConstant labels) x =
    text (Derivation.integrationConstant labels) y
  /-- the value of a formula that is no arithmetic -/
  other : Formula (Exact ℝ) → ℝ

inductive Mark
  /-- begins the argument of a function -/
  | opening (function : ℝ → ℝ)
  /-- ends the argument -/
  | closing
  /-- takes x and what stands behind it, up to the end of the argument or of the product -/
  | operator (apply : ℝ → ℝ → ℝ)

namespace Mark

noncomputable def ofText? : String → Option Mark
  | "\\sqrt\x7b" => some (.opening Real.sqrt)
  | "\x7d" => some .closing
  | " \\ln \\left| " => some (.opening fun v => Real.log |v|)
  | " \\right|" => some .closing
  | " \\arctan \\left( " => some (.opening Real.arctan)
  | " \\right)" => some .closing
  | "\\ln " => some (.operator fun _ v => Real.log v)
  | "2 \\cdot " => some (.operator fun _ v => 2 * v)
  | "x - " => some (.operator fun x v => x - v)
  | "x + " => some (.operator fun x v => x + v)
  | _ => none

/-- The values of the open scopes with the mark in front of them, the innermost scope first. -/
noncomputable def apply (x : ℝ) : Mark → List ℝ → List ℝ
  | opening function, inner :: outer :: scopes => function inner * outer :: scopes
  | opening function, scopes => scopes.map function
  | closing, scopes => 1 :: scopes
  | operator op, inner :: scopes => op x inner :: scopes
  | operator _, [] => []

end Mark

namespace Formula

noncomputable def mark? {K : Type} : Formula K → Option Mark
  | .latex s => Mark.ofText? s
  | _ => none

variable (σ : Interpretation) (x : ℝ)

mutual

noncomputable def valueAt : Formula (Exact ℝ) → ℝ
  | .latex s => σ.text s x
  | .number v => v.value?.getD 0
  | .group inner => valueAt inner
  | .power base exponent => valueAt base ^ exponent
  | .product factors _ => (scopes factors).prod
  | .sum terms => sumAt terms
  | .fraction numerator denominator _ => valueAt numerator / valueAt denominator
  | .absolute inner => |valueAt inner|
  | .integral body var => σ.other (.integral body var)
  | .relation lhs rhs op => σ.other (.relation lhs rhs op)
  | .bare => σ.other .bare

/-- The values of the scopes that are open in front of the factors, the innermost one first. -/
noncomputable def scopes : List (Formula (Exact ℝ)) → List ℝ
  | [] => [1]
  | first :: rest =>
    match first.mark? with
    | some mark => mark.apply x (scopes rest)
    | none => (scopes rest).modifyHead (valueAt first * ·)

noncomputable def sumAt : List (Formula (Exact ℝ)) → ℝ
  | [] => 0
  | first :: rest => valueAt first + sumAt rest

end

theorem sumAt_eq (terms : List (Formula (Exact ℝ))) :
    sumAt σ x terms = (terms.map (valueAt σ x)).sum := by
  induction terms with
  | nil => rfl
  | cons first rest ih => rw [List.map_cons, List.sum_cons, ← ih, sumAt]

@[simp] theorem valueAt_latex (s : String) : valueAt σ x (.latex s) = σ.text s x := rfl

@[simp] theorem valueAt_number (v : ℝ) : valueAt σ x (.number (.finite v)) = v := rfl

@[simp] theorem valueAt_sum (terms : List (Formula (Exact ℝ))) :
    valueAt σ x (.sum terms) = (terms.map (valueAt σ x)).sum := sumAt_eq σ x terms

@[simp] theorem valueAt_beside (factors : List (Formula (Exact ℝ))) :
    valueAt σ x (beside factors) = (scopes σ x factors).prod := rfl

@[simp] theorem valueAt_dotted (factors : List (Formula (Exact ℝ))) :
    valueAt σ x (dotted factors) = (scopes σ x factors).prod := rfl

@[simp] theorem valueAt_quotient (numerator denominator : Formula (Exact ℝ)) :
    valueAt σ x (quotient numerator denominator) =
      valueAt σ x numerator / valueAt σ x denominator := rfl

@[simp] theorem valueAt_displayQuotient (numerator denominator : Formula (Exact ℝ)) :
    valueAt σ x (displayQuotient numerator denominator) =
      valueAt σ x numerator / valueAt σ x denominator := rfl

@[simp] theorem valueAt_absolute (inner : Formula (Exact ℝ)) :
    valueAt σ x (.absolute inner) = |valueAt σ x inner| := rfl

@[simp] theorem scopes_nil : scopes σ x [] = [1] := rfl

theorem scopes_mark {first : Formula (Exact ℝ)} {mark : Mark} (h : first.mark? = some mark)
    (rest : List (Formula (Exact ℝ))) :
    scopes σ x (first :: rest) = mark.apply x (scopes σ x rest) := by
  rw [scopes, h]

theorem scopes_factor {first : Formula (Exact ℝ)} (h : first.mark? = none)
    (rest : List (Formula (Exact ℝ))) :
    scopes σ x (first :: rest) = (scopes σ x rest).modifyHead (valueAt σ x first * ·) := by
  rw [scopes, h]

/-- A number times a formula that is no mark. -/
theorem valueAt_dotted_pair (v : ℝ) {factor : Formula (Exact ℝ)} (h : factor.mark? = none) :
    valueAt σ x (dotted [.number (.finite v), factor]) = v * valueAt σ x factor := by
  have hnumber : (Formula.number (Exact.finite v)).mark? = none := rfl
  simp [scopes_factor σ x hnumber, scopes_factor σ x h]

section Texts

variable {K : Type}

mutual

def mapText (ρ : String → String) : Formula K → Formula K
  | .latex s => .latex (ρ s)
  | .number v => .number v
  | .group inner => .group (mapText ρ inner)
  | .power base exponent => .power (mapText ρ base) exponent
  | .product factors separator => .product (mapTexts ρ factors) separator
  | .sum terms => .sum (mapTexts ρ terms)
  | .fraction numerator denominator display =>
    .fraction (mapText ρ numerator) (mapText ρ denominator) display
  | .absolute inner => .absolute (mapText ρ inner)
  | .integral body var => .integral (mapText ρ body) var
  | .relation lhs rhs op => .relation (mapText ρ lhs) (mapText ρ rhs) op
  | .bare => .bare

def mapTexts (ρ : String → String) : List (Formula K) → List (Formula K)
  | [] => []
  | first :: rest => mapText ρ first :: mapTexts ρ rest

end

end Texts

end Formula

namespace Interpretation

variable (σ : Interpretation) (x : ℝ)

theorem text_x : σ.text "x" x = x := by
  have hspaced : Spaced (SignedSummand.sumTokens false [⟨false, .multiple none none⟩])
      "x".toList := .flatten _
  rw [σ.text_sum hspaced]
  simp [SignedSummand.polynomial, SignedSummand.value, Summand.coefficient, Summand.power,
    Scalar.signed, DecimalNumeral.value_one]

theorem text_digit {c : Char} {d : ℕ} (h : digit? c = some d) :
    σ.text (String.ofList [c]) x = d := by
  have hdigit : isDigit c = true := by simp [isDigit, h]
  have hspaced : Spaced (SignedSummand.sumTokens false
      [⟨false, .constant (.ofDigit c hdigit)⟩]) (String.ofList [c]).toList := by
    rw [String.toList_ofList]
    exact .flatten _
  rw [σ.text_sum hspaced]
  simp [SignedSummand.polynomial, SignedSummand.value, Summand.coefficient, Summand.power,
    Scalar.signed, DecimalNumeral.value_ofDigit h]

theorem text_one : σ.text "1" x = 1 := by
  have hdigit := σ.text_digit x (c := '1') (d := 1) (by decide)
  rwa [Nat.cast_one] at hdigit

end Interpretation

section Standard

/-- Real numbers written by their whole parts, which writes the whole ones as they are. -/
@[reducible] noncomputable def Shown.wholeParts : Shown ℝ where
  text v := toString ⌊v⌋

variable [Shown ℝ]

/-- The value of a term at x; a coefficient that is no finite number counts as 0. -/
noncomputable def Term.realAt (x : ℝ) (t : Term) : ℝ :=
  match (t.value : Except Fault (Exact ℝ)) with
  | .ok (.finite v) => v * x ^ t.power
  | _ => 0

theorem SignedSummand.realAt_term (x : ℝ) (t : SignedSummand) :
    t.term.realAt x = t.value * x ^ t.summand.power := by
  have hvalue := Term.value_term (K := ℝ) t
  have hpower : t.term.power = (t.summand.power : ℤ) := rfl
  simp [Term.realAt, hvalue, hpower]

/-- Every text stands for the terms that are read in it. -/
noncomputable def Interpretation.standard : Interpretation where
  text s x :=
    match Term.readAll s.toList with
    | .ok terms => (terms.map (Term.realAt x)).sum
    | .error _ => 0
  text_sum h x := by
    have hterms := Term.readAll_of_spaced h
    simp [hterms, SignedSummand.polynomial, Function.comp_def, SignedSummand.realAt_term]
  text_constant labels x y := by
    have hfree (coefficient : String) :
        Term.realAt x ⟨0, coefficient⟩ = Term.realAt y ⟨0, coefficient⟩ := by
      simp [Term.realAt]
    have hK : Term.readAll "K".toList = .ok [⟨0, "+K"⟩] := by decide +kernel
    have hC : Term.readAll "C".toList = .ok [⟨0, "+C"⟩] := by decide +kernel
    by_cases hlabel : "C" ∈ labels
    · rw [Derivation.integrationConstant, if_pos hlabel, hK]
      simp [hfree]
    · rw [Derivation.integrationConstant, if_neg hlabel, hC]
      simp [hfree]
  other _ := 0

end Standard

end PartialFractions
