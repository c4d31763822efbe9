import PartialFractions.Number.Wide

/-!
Powers with real exponents. Logarithms and exponentials are summed as series of numbers with a
fixed count of binary places behind the point, many more than the result has.
-/
namespace PartialFractions.Number

/-- The sum of term / k, term · z² / (k + 2), and so on, for |z| < 1; all numbers have `places`
binary places. -/
def artanhSum (places : Nat) (square : Int) : Nat → Int → Nat → Int → Int
  | 0, _, _, sum => sum
  | fuel + 1, term, k, sum =>
    artanhSum places square fuel (term * square / power 2 places) (k + 2) (sum + term / k)

/-- The logarithm of num / den, for a quotient between 1/2 and 2. -/
def logFixed (places num den : Nat) : Int :=
  let z : Int := ((num : Int) - den) * power 2 places / (num + den : Nat)
  2 * artanhSum places (z * z / power 2 places) places z 1 0

def logTwo (places : Nat) : Int := logFixed places 2 1

/-- The sum of term, term · z / k, and so on. -/
def expSum (places : Nat) (z : Int) : Nat → Int → Nat → Int → Int
  | 0, _, _, sum => sum
  | fuel + 1, term, k, sum =>
    expSum places z fuel (term * z / power 2 places / k) (k + 1) (sum + term)

namespace Wide

/-- The logarithm of a positive number. The power of two that is split off leaves a factor between
3/4 and 3/2, so nothing cancels near 1. -/
def log (w : Wide) (width : Nat) : Wide :=
  let m := w.mantissa.natAbs
  let size := m.log2 + 1
  let places := width + size + 64
  let (scale, den) : Int × Nat :=
    if 4 * m < 3 * Nat.pow 2 size then (w.exponent + size - 1, Nat.pow 2 (size - 1))
    else (w.exponent + size, Nat.pow 2 size)
  ofQuotient width (scale * logTwo places + logFixed places m den) (Nat.pow 2 places) 0

/-- The exponential: a power of two times the exponential of what is left below the logarithm
of 2. -/
def exp (w : Wide) (width : Nat) : Wide :=
  let places := width + 64 + w.leading.toNat
  let fixed := w.mantissa * power 2 (w.exponent + places) / power 2 (-(w.exponent + places))
  let two := logTwo places
  let scale := fixed / two
  let sum := expSum places (fixed - scale * two) places (Nat.pow 2 places) 1 0
  ofQuotient width sum (Nat.pow 2 places) scale

/-- The power of a positive number with any exponent. Whole exponents and halves need no
logarithm. -/
def pow (w exponent : Wide) : Wide :=
  let width := max w.width exponent.width
  if 0 ≤ exponent.exponent then
    w.powInt width (exponent.mantissa * power 2 exponent.exponent)
  else if exponent.exponent = -1 then
    if exponent.mantissa = 1 then w.sqrt width
    else (w.sqrt (width + 10)).powInt width exponent.mantissa
  else
    let log := w.log (width + 10)
    let product : Wide :=
      ⟨width, exponent.mantissa * log.mantissa, exponent.exponent + log.exponent⟩
    product.exp width

end Wide

end PartialFractions.Number
