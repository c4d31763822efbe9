import PartialFractions.Failure
import PartialFractions.Formula

/-!
Formulas as LaTeX. In a sum the signs between the terms are theirs: a term with a minus sign in
front is subtracted without it.
-/
namespace PartialFractions.Formula

variable {K : Type} [Neg K] [Scalar K]

private def macroName (display : Bool) : String := if display then "\\dfrac" else "\\frac"

mutual

/-- The text of a formula, where `precision` is the count of significant digits; of a formula with
a minus sign in front, the text without it if `unsigned`. -/
def renderWith (precision : Int) (unsigned : Bool) : Formula K → Except Fault String
  | .latex text => .ok text
  | .number v => (Scalar.roundedText precision (if unsigned then -v else v)).mapError .precision
  | .group inner => do return "(" ++ (← renderWith precision false inner) ++ ")"
  | .power base exponent =>
    if exponent = 1 then renderWith precision false base
    else do
      return (← renderWith precision false base) ++ "^\x7b" ++ toString exponent ++ "\x7d"
  | .product factors separator => do
    return separator.intercalate (← renderFactors precision unsigned factors)
  | .sum [] => .ok "0"
  | .sum (first :: rest) => do
    let head ← renderWith precision false first
    let tail ← renderTerms precision rest
    return " ".intercalate (head :: tail)
  | .fraction numerator denominator display => do
    let above ← renderWith precision unsigned numerator
    let below ← renderWith precision false denominator
    return macroName display ++ "\x7b" ++ above ++ "\x7d\x7b" ++ below ++ "\x7d"
  | .absolute inner => do return "| " ++ (← renderWith precision false inner) ++ " |"
  | .integral body var => do
    return "\\int " ++ (← renderWith precision false body) ++ " ~\\mathrm\x7bd\x7d" ++ var
  | .relation lhs rhs op => do
    let left ← renderWith precision false lhs
    let right ← renderWith precision false rhs
    return left ++ " " ++ op ++ " " ++ right
  | .bare => .error .bareNode

/-- The texts of factors, the first one without its minus sign if `unsigned`. -/
def renderFactors (precision : Int) (unsigned : Bool) :
    List (Formula K) → Except Fault (List String)
  | [] => .ok []
  | first :: rest => do
    let head ← renderWith precision unsigned first
    let tail ← renderFactors precision false rest
    return head :: tail

/-- The texts of the terms behind the first one, with their signs. -/
def renderTerms (precision : Int) : List (Formula K) → Except Fault (List String)
  | [] => .ok []
  | term :: rest => do
    let negative := (positivePart term).isSome
    let body ← renderWith precision negative term
    let tail ← renderTerms precision rest
    return ((if negative then "- " else "+ ") ++ body) :: tail

end

def render (precision : Int) (f : Formula K) : Except Fault String := renderWith precision false f

def renderArray (precision : Int) (lines : List (Formula K)) : Except Fault String := do
  let rows ← lines.mapM (render precision)
  return "\\begin\x7barray\x7d\x7bl\x7d \\displaystyle\n"
    ++ "\n\\\\ \\\\ \\displaystyle\n".intercalate rows ++ "\n\\end\x7barray\x7d"

end PartialFractions.Formula
