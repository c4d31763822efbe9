import PartialFractions.Number.Scalar

/-!
Values written as numbers of a formula: a whole number of any size, or a text. A text that writes
a number is written anew as that number, and any other text stays.
-/
namespace PartialFractions.Number

/-- The nearest floating-point number; a whole number beyond the greatest one is refused. -/
def ofInteger (n : Int) : Except Fault Float :=
  let v := (Numeral.decimal (n < 0) n.natAbs 0).toFloat
  if v.isInf then .error .integerTooBig else .ok v

def writeInteger (precision n : Int) : Except Fault String := do
  (roundedText precision (← ofInteger n)).mapError .precision

def writeText (precision : Int) (text : String) : Except Fault String :=
  match (Scalar.read? text.toList : Option Float) with
  | some v => (roundedText precision v).mapError .precision
  | none => .ok text

end PartialFractions.Number
