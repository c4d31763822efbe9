import PartialFractions.Symbolic.Expansion
import PartialFractions.Symbolic.Substitution
import PartialFractions.Number.Scalar
import PartialFractions.Verification.Arithmetic

/-!
Values of arithmetic expressions. An expression is brought to its symbolic normal form before a
number takes the place of x, so what cancels has no value to lack.
-/
namespace PartialFractions.Verification

open Symbolic

class Evaluation (K : Type) where
  /-- the value of an expression where x is `point` -/
  valueAt (e : Arithmetic K) (point : K) : Except Fault K

def Literal.value : Literal → Value
  | .whole n => .exact n
  | .decimal digits exponent width =>
    .rounded (.ofQuotient width (digits * Number.power 10 exponent) (Number.power 10 (-exponent)) 0)

def namedValue? : String → Option Value
  | "nan" => some .undefined
  | "oo" => some (.infinite false)
  | "zoo" => some .pole
  | _ => none

namespace Arithmetic

variable {K : Type}

/-- The normal form of an expression; `embed` gives the numbers that were put into it. -/
def expression (embed : K → Value) : Arithmetic K → Expression
  | .literal l => .number l.value
  | .constant v => .number (embed v)
  | .x => .x
  | .symbol name => ((namedValue? name).map .number).getD (.symbol name)
  | .negate e => (e.expression embed).negate
  | .add a b => .sumOf [a.expression embed, b.expression embed]
  | .subtract a b => .sumOf [a.expression embed, (b.expression embed).negate]
  | .multiply a b => .productOf [a.expression embed, b.expression embed]
  | .divide a b => .quotientOf (a.expression embed) (b.expression embed)
  | .power base exponent => .powerOf (base.expression embed) (exponent.expression embed)

end Arithmetic

instance : Evaluation Float where
  valueAt e point := ((e.expression Value.ofFloat).substitute (.ofFloat point)).toFloat

end PartialFractions.Verification
