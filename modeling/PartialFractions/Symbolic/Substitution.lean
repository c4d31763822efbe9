import PartialFractions.Symbolic.Normal

/-!
Values of symbolic expressions: a number is put in the place of x, and the normal form is built
again from the parts up. What is left without a symbol has a numeric value.
-/
namespace PartialFractions.Symbolic.Expression

open Number

mutual

def substitute (v : Value) : Expression → Expression
  | .number w => .number w
  | .symbol name => if name = "x" then .number v else .symbol name
  | .power b e => powerOf (substitute v b) (substitute v e)
  | .product fs => productOf (substituteParts v fs)
  | .sum ts => sumOf (substituteParts v ts)

def substituteParts (v : Value) : List Expression → List Expression
  | [] => []
  | e :: rest => substitute v e :: substituteParts v rest

end

/-- The number that digits make with fifty of them behind the point. -/
def fiftyPlaces (n : Nat) : Value := .rounded (.ofQuotient 160 n (Number.power 10 50) 0)

def constant? : String → Option Value
  | "pi" => some (fiftyPlaces 314159265358979323846264338327950288419716939937511)
  | "E" => some (fiftyPlaces 271828182845904523536028747135266249775724709369996)
  | "I" => some .imaginary
  | _ => none

/-- The width at which numeric parts are computed that stay symbolic otherwise. -/
def innerWidth : Nat := 113

mutual

/-- The numeric value of an expression; none if it holds a symbol that is no constant. -/
def value? : Expression → Option Value
  | .number v => some (v.widen innerWidth)
  | .symbol name => (constant? name).map (·.widen innerWidth)
  | .power b e => do (← value? b).pow? (← value? e)
  | .product fs => return (← partValues? fs).foldl .mul .one
  | .sum ts => return (← partValues? ts).foldl .add .zero

def partValues? : List Expression → Option (List Value)
  | [] => some []
  | e :: rest => do return (← value? e) :: (← partValues? rest)

end

def toFloat : Expression → Except Fault Float
  | .number v => v.toFloat
  | e =>
    match value? e with
    | some v => v.toFloat
    | none => .error .symbolicValue

mutual

def mentionsX : Expression → Bool
  | .number _ => false
  | .symbol name => name = "x"
  | .power b e => mentionsX b || mentionsX e
  | .product fs => anyMentionsX fs
  | .sum ts => anyMentionsX ts

def anyMentionsX : List Expression → Bool
  | [] => false
  | e :: rest => mentionsX e || anyMentionsX rest

end

def isWhole : Expression → Bool
  | .number (.exact q) => q.den = 1
  | .number (.rounded w) => 0 ≤ w.exponent
  | _ => false

mutual

def isRational : Expression → Bool
  | .number _ | .symbol _ => true
  | .power b e => ! mentionsX e && (! mentionsX b || (isRational b && isWhole e))
  | .product fs => allRational fs
  | .sum ts => allRational ts

def allRational : List Expression → Bool
  | [] => true
  | e :: rest => isRational e && allRational rest

end

end PartialFractions.Symbolic.Expression
