import PartialFractions.Number.Shortest

/-!
A binary number m · 2 ^ q rounded to a given count of significant decimal digits, ties to even.
-/
namespace PartialFractions.Number

/-- More significant digits than any 64-bit binary number has. -/
def mostSignificantDigits : Nat := 800

def significant (m : Nat) (q : Int) (count : Nat) : Decimal :=
  let e := binaryScale m q - (min count mostSignificantDigits : Nat)
  Decimal.strip ⟨roundEven (m * power 2 q * power 10 (-e))
    (power 2 (-q) * power 10 e), e⟩

end PartialFractions.Number
