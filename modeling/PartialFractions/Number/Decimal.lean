/-!
Decimal numbers digits · 10 ^ exponent, and the position of the leading digit of a fraction.
-/
namespace PartialFractions.Number

/-- The number digits · 10 ^ exponent. -/
structure Decimal where
  digits : Nat
  exponent : Int
  deriving DecidableEq, Repr

def digitCount (n : Nat) : Nat := (Nat.toDigits 10 n).length

/-- The least k such that num / den is below 10 ^ k, for positive num and den. -/
def decimalScale (num den : Nat) : Int :=
  if den ≤ num then digitCount (num / den) else 1 - (digitCount ((den - 1) / num) : Int)

/-- Moves zeros at the end of `digits` into the exponent, as many as `fuel` allows. -/
def dropZeros : Nat → Nat → Int → Decimal
  | 0, digits, exponent => ⟨digits, exponent⟩
  | fuel + 1, digits, exponent =>
    if digits ≠ 0 ∧ digits % 10 = 0 then dropZeros fuel (digits / 10) (exponent + 1)
    else ⟨digits, exponent⟩

def Decimal.strip (d : Decimal) : Decimal := dropZeros (digitCount d.digits) d.digits d.exponent

/-- The position of the leading digit: 0 for the units. -/
def Decimal.leading (d : Decimal) : Int := d.exponent + digitCount d.digits - 1

/-- The whole number nearest to num / den; a tie goes to the even one. -/
def roundEven (num den : Nat) : Nat :=
  let floor := num / den
  match compare (2 * (num % den)) den with
  | .lt => floor
  | .gt => floor + 1
  | .eq => floor + floor % 2

end PartialFractions.Number
