/-!
Powers with integer exponents in natural arithmetic, as numerators or denominators of fractions.
-/
namespace PartialFractions.Number

/-- `base` to the power of a positive exponent, and 1 for any other one. A number times
`base` to the power e is the quotient of that number times `power base e` by `power base (-e)`. -/
def power (base : Nat) (e : Int) : Nat := Nat.pow base e.toNat

end PartialFractions.Number
