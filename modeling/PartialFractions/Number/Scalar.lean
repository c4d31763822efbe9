import PartialFractions.Number.Format
import PartialFractions.Number.Numeral

/-!
The numbers of a decomposition. Coefficients, roots and constants are computed with the four
operations of a type of numbers and with what stands here. Floating-point numbers are such a type;
exact numbers are another one, for which the formulas hold without rounding.
-/
namespace PartialFractions

class Scalar (K : Type) where
  ofNat : Nat → K
  ofNumeral : Numeral → K
  /-- the square root of a positive number -/
  sqrt : K → K
  same : K → K → Bool
  below : K → K → Bool
  /-- the text that is read back as the number -/
  text : K → String
  /-- the text with a given count of significant digits -/
  roundedText : Int → K → Except PrecisionFault String

namespace Scalar

variable {K : Type} [Scalar K]

def read? (s : List Char) : Option K := (Numeral.read? s).map ofNumeral

def isZero (v : K) : Bool := same v (ofNat 0)

def isPositive (v : K) : Bool := below (ofNat 0) v

def isNegative (v : K) : Bool := below v (ofNat 0)

end Scalar

def Numeral.toFloat : Numeral → Float
  | .decimal negative digits exponent =>
    let v := Float.ofScientific digits (exponent < 0) exponent.natAbs
    if negative then -v else v
  | .infinity negative => if negative then -1 / 0 else 1 / 0
  | .undefined => 0 / 0

instance : Scalar Float where
  ofNat n := Float.ofScientific n false 0
  ofNumeral := Numeral.toFloat
  sqrt := Float.sqrt
  same a b := a == b
  below a b := a < b
  text := Number.formulaText
  roundedText := Number.roundedText

end PartialFractions
