import PartialFractions.Failure
import PartialFractions.Number.Digits
import PartialFractions.Text.Blank

/-!
Whole numbers read from text: spaces around, a sign, digits of any script with single low lines
between them. A number with more than `maxIntegerDigits` digits is refused for its length.
-/
namespace PartialFractions.Number

open Text

def readDigits (s : List Char) : Except Fault Nat :=
  if s.length > maxIntegerDigits then .error (.integerTooLong s.length)
  else .ok (ofDigits (s.filterMap digit?))

/-- The whole number that the text writes. The length is judged before what follows the digits. -/
def readInteger (text : String) : Except Fault Int :=
  let (negative, body) := splitSign (trimOf isSpace text.toList)
  let (digits, rest) := digitGroup body
  if digits.isEmpty || rest.head? == some '_' then .error (.notInteger text)
  else if digits.length > maxIntegerDigits then .error (.integerTooLong digits.length)
  else if ! rest.isEmpty then .error (.notInteger text)
  else .ok (if negative then - (ofDigits digits : Int) else ofDigits digits)

end PartialFractions.Number
