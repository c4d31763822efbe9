import PartialFractions.Number.Scalar

/-!
Formulas as trees. A tree holds numbers and pieces of text; it becomes text only when it is
rendered, so how signs and numbers are written is decided in one place.
-/
namespace PartialFractions

inductive Formula (K : Type)
  /-- a piece of text as it is -/
  | latex (text : String)
  | number (value : K)
  /-- a formula in parentheses -/
  | group (inner : Formula K)
  | power (base : Formula K) (exponent : Int)
  | product (factors : List (Formula K)) (separator : String)
  | sum (terms : List (Formula K))
  | fraction (numerator denominator : Formula K) (display : Bool)
  | absolute (inner : Formula K)
  | integral (body : Formula K) (var : String)
  | relation (lhs rhs : Formula K) (op : String)
  /-- stands for no formula -/
  | bare

namespace Formula

variable {K : Type}

instance : Inhabited (Formula K) := ⟨.bare⟩

instance : Coe String (Formula K) := ⟨.latex⟩

def beside (factors : List (Formula K)) : Formula K := .product factors ""

def dotted (factors : List (Formula K)) : Formula K := .product factors " \\cdot "

def spaced (parts : List (Formula K)) : Formula K := .product parts " \\qquad "

def quotient (numerator denominator : Formula K) : Formula K :=
  .fraction numerator denominator false

def displayQuotient (numerator denominator : Formula K) : Formula K :=
  .fraction numerator denominator true

def equation (lhs rhs : Formula K) : Formula K := .relation lhs rhs "="

variable [Neg K] [Scalar K]

mutual

/-- The formula without the minus sign in front of it, if there is one. The sign is that of a
number, also where the number leads a product or the numerator of a fraction. -/
def positivePart : Formula K → Option (Formula K)
  | .number v => if Scalar.isNegative v then some (.number (-v)) else none
  | .product factors separator => (positiveHead factors).map (.product · separator)
  | .fraction numerator denominator display =>
    (positivePart numerator).map (.fraction · denominator display)
  | _ => none

def positiveHead : List (Formula K) → Option (List (Formula K))
  | [] => none
  | first :: rest => (positivePart first).map (· :: rest)

end

end Formula

end PartialFractions
