import PartialFractions.Proofs.ExactNumbers
import PartialFractions.Template

/-!
Values of formulas in a field. A reading says what the pieces of a formula stand for; from it every
formula of the template has a value. A text in parentheses or below a fraction bar is the content of
a factor, any other text is x, a minus sign or a label, so a content may be spelled like a label.
-/
namespace PartialFractions

/-- What the pieces of a formula stand for. The numbers 1 and -1 stand for themselves. -/
structure Reading (K F : Type) [Neg K] [Scalar K] [Field F] where
  x : F
  label : String → F
  content : String → F
  number : K → F
  number_one : ∀ v, Scalar.same v (Scalar.ofNat 1) = true → number v = 1
  number_minus_one : ∀ v, Scalar.same v (-Scalar.ofNat 1) = true → number v = -1
  /-- the value of a formula that is no arithmetic -/
  other : Formula K → F

variable {K F : Type} [Neg K] [Scalar K] [Field F]

namespace Reading

/-- What a text stands for outside parentheses and above a fraction bar. -/
def text (σ : Reading K F) (s : String) : F :=
  if s = "-" then -1 else if s = "x" then σ.x else σ.label s

@[simp] theorem text_minus (σ : Reading K F) : σ.text "-" = -1 := by simp [text]

@[simp] theorem text_x (σ : Reading K F) : σ.text "x" = σ.x := by simp [text]

def exact {Q : Type} [Field Q] [LinearOrder Q] [Notated Q] (φ : Q →+* F) (x : F)
    (label content : String → F) : Reading (Exact Q) F where
  x := x
  label := label
  content := content
  number v := φ (v.value?.getD 0)
  number_one v hv := by
    have hone := Exact.eq_of_same_finite hv
    simp [hone, Exact.value?]
  number_minus_one v hv := by
    have hminus := Exact.eq_of_same_finite hv
    simp [hminus, Exact.value?]
  other _ := 0

end Reading

namespace Formula

mutual

def value (σ : Reading K F) : Formula K → F
  | .latex s => σ.text s
  | .number v => σ.number v
  | .group (.latex s) => σ.content s
  | .group inner => value σ inner
  | .power base exponent => value σ base ^ exponent
  | .product factors _ => productValue σ factors
  | .sum terms => sumValue σ terms
  | .fraction numerator (.latex s) _ => value σ numerator / σ.content s
  | .fraction numerator denominator _ => value σ numerator / value σ denominator
  | .absolute inner => σ.other (.absolute inner)
  | .integral body var => σ.other (.integral body var)
  | .relation lhs rhs op => σ.other (.relation lhs rhs op)
  | .bare => σ.other .bare

def productValue (σ : Reading K F) : List (Formula K) → F
  | [] => 1
  | first :: rest => value σ first * productValue σ rest

def sumValue (σ : Reading K F) : List (Formula K) → F
  | [] => 0
  | first :: rest => value σ first + sumValue σ rest

end

theorem productValue_eq (σ : Reading K F) (factors : List (Formula K)) :
    productValue σ factors = (factors.map (value σ)).prod := by
  induction factors with
  | nil => rfl
  | cons first rest ih => rw [List.map_cons, List.prod_cons, ← ih, productValue]

theorem sumValue_eq (σ : Reading K F) (terms : List (Formula K)) :
    sumValue σ terms = (terms.map (value σ)).sum := by
  induction terms with
  | nil => rfl
  | cons first rest ih => rw [List.map_cons, List.sum_cons, ← ih, sumValue]

@[simp] theorem value_latex (σ : Reading K F) (s : String) :
    value σ (.latex s) = σ.text s := rfl

@[simp] theorem value_number (σ : Reading K F) (v : K) :
    value σ (.number v) = σ.number v := rfl

@[simp] theorem value_group_latex (σ : Reading K F) (s : String) :
    value σ (.group (.latex s)) = σ.content s := rfl

@[simp] theorem value_group_sum (σ : Reading K F) (terms : List (Formula K)) :
    value σ (.group (.sum terms)) = value σ (.sum terms) := rfl

@[simp] theorem value_power (σ : Reading K F) (base : Formula K) (exponent : ℤ) :
    value σ (.power base exponent) = value σ base ^ exponent := rfl

@[simp] theorem value_sum (σ : Reading K F) (terms : List (Formula K)) :
    value σ (.sum terms) = (terms.map (value σ)).sum := sumValue_eq σ terms

@[simp] theorem value_beside (σ : Reading K F) (factors : List (Formula K)) :
    value σ (beside factors) = (factors.map (value σ)).prod :=
  productValue_eq σ factors

@[simp] theorem value_quotient_latex (σ : Reading K F) (numerator : Formula K) (s : String) :
    value σ (quotient numerator (.latex s)) = value σ numerator / σ.content s := rfl

@[simp] theorem value_quotient_power (σ : Reading K F) (numerator base : Formula K)
    (exponent : ℤ) :
    value σ (quotient numerator (.power base exponent)) =
      value σ numerator / value σ base ^ exponent := rfl

end Formula

/-- A factor raised to an exponent has the power of its content's value. -/
@[simp] theorem Factor.value_raised (σ : Reading K F) (f : Factor K) (exponent : ℤ) :
    (f.raised exponent).value σ = σ.content f.content ^ exponent := by
  simp [Factor.raised]

end PartialFractions
