import PartialFractions.Exponent
import PartialFractions.Number.Integer
import PartialFractions.Number.Scalar
import PartialFractions.Text.Cut
import PartialFractions.Text.Word

/-!
Terms of a sum in x. A term is a sign with a body up to the next sign: a coefficient, x and an
exponent, or a constant. Coefficients stay texts, so symbols may stand for numbers; terms keep
their order, and a body that is no term is left out.
-/
namespace PartialFractions

open Text Number

structure Term where
  power : Int
  coefficient : String
  deriving DecidableEq, Repr

namespace Term

def isSign (c : Char) : Bool := c = '+' || c = '-'

theorem isSign_iff {c : Char} : isSign c = true ↔ c = '+' ∨ c = '-' := by simp [isSign]

theorem isBlank_of_isSign {c : Char} (h : isSign c = true) : isBlank c = false := by
  rcases isSign_iff.mp h with rfl | rfl <;> decide

/-- The signs that have a body, with their bodies. -/
def signedBodies : List Char → List (Char × List Char)
  | [] => []
  | c :: rest =>
    if isSign c then
      match rest.takeWhile (! isSign ·) with
      | [] => signedBodies rest
      | body => (c, body) :: signedBodies rest
    else signedBodies rest

inductive Shape
  /-- a coefficient, and what follows the x -/
  | multiple (coefficient after : List Char)
  | constant (value : List Char)
  deriving DecidableEq, Repr

def isCoefficientChar (c : Char) : Bool := isWordChar c || c = '.'

/-- Of the letters x in the word at the front the last one is the variable, unless `*x` follows. -/
def shape? (body : List Char) : Option Shape :=
  let word := body.takeWhile isCoefficientChar
  match body.dropWhile isCoefficientChar with
  | '*' :: 'x' :: after => some (.multiple word after)
  | rest =>
    match cutLast? 'x' word with
    | some (coefficient, after) => some (.multiple coefficient (after ++ rest))
    | none => if word.isEmpty then none else some (.constant word)

/-- The term with that sign and shape; a coefficient that is left out is 1. -/
def ofShape (sign : Char) : Shape → Except Fault Term
  | .constant value => .ok ⟨0, String.ofList (sign :: value)⟩
  | .multiple coefficient after => do
    let power ← match exponent? after with
      | some (digits, _) => (readDigits digits).map Int.ofNat
      | none => .ok 1
    return ⟨power, String.ofList (sign :: if coefficient.isEmpty then ['1'] else coefficient)⟩

def signed (s : List Char) : List Char :=
  match squeeze s with
  | [] => ['+']
  | c :: rest => if isSign c then c :: rest else '+' :: c :: rest

def shapes (s : List Char) : List (Char × Shape) :=
  (signedBodies (signed s)).filterMap fun (sign, body) => (shape? body).map (sign, ·)

def readAll (s : List Char) : Except Fault (List Term) :=
  (shapes s).mapM fun (sign, shape) => ofShape sign shape

variable {K : Type} [Scalar K]

def value (t : Term) : Except Fault K :=
  match Scalar.read? t.coefficient.toList with
  | some v => .ok v
  | none => .error (.notNumber t.coefficient)

/-- The number in front of the first term with that power, 0 if there is none. -/
def valueAt (terms : List Term) (power : Int) : Except Fault K :=
  match terms.find? (·.power == power) with
  | some t => t.value
  | none => .ok (Scalar.ofNat 0)

end Term

end PartialFractions
