import PartialFractions.Number.Decimal
import PartialFractions.Number.Power
import PartialFractions.Number.Root

/-!
Binary numbers of any width. The result of an operation is the number of that width nearest to the
exact result, a tie going to the even mantissa; the exponent has no bounds.
-/
namespace PartialFractions.Number

/-- The number mantissa · 2 ^ exponent, as one of `width` binary digits. The mantissa is odd or
zero. -/
structure Wide where
  width : Nat
  mantissa : Int
  exponent : Int
  deriving DecidableEq, Repr

/-- Moves zeros at the end of a binary mantissa into the exponent, as many as `fuel` allows. -/
def dropTwos : Nat → Nat → Int → Nat × Int
  | 0, mantissa, exponent => (mantissa, exponent)
  | fuel + 1, mantissa, exponent =>
    if mantissa % 2 = 0 then dropTwos fuel (mantissa / 2) (exponent + 1) else (mantissa, exponent)

/-- The greatest k such that 2 ^ k is at most num / den, for positive num and den. -/
def binaryFloor (num den : Nat) : Int :=
  let k : Int := (num.log2 : Int) - den.log2
  if num * power 2 (-k) < den * power 2 k then k - 1 else k

namespace Wide

def zero (width : Nat) : Wide := ⟨width, 0, 0⟩

/-- The number nearest to num / den · 2 ^ exponent, for a positive den. -/
def ofQuotient (width : Nat) (num : Int) (den : Nat) (exponent : Int) : Wide :=
  if num = 0 then zero width
  else
    let shift := (width : Int) - 1 - binaryFloor num.natAbs den
    let rounded := roundEven (num.natAbs * power 2 shift) (den * power 2 (-shift))
    let (mantissa, exponent) := dropTwos (width + 1) rounded (exponent - shift)
    ⟨width, if num < 0 then -mantissa else mantissa, exponent⟩

def ofRat (width : Nat) (q : Rat) : Wide := ofQuotient width q.num q.den 0

def resize (w : Wide) (width : Nat) : Wide := ofQuotient width w.mantissa 1 w.exponent

def isNegative (w : Wide) : Bool := w.mantissa < 0

def negate (w : Wide) : Wide := { w with mantissa := -w.mantissa }

def leading (w : Wide) : Int := w.exponent + w.mantissa.natAbs.log2

/-- Whether `b` is too small to change the sum with `a`. -/
def absorbs (a b : Wide) : Bool :=
  a.mantissa ≠ 0 && b.leading + 2 * max a.width b.width + 4 < a.leading

def add (a b : Wide) : Wide :=
  let width := max a.width b.width
  if b.mantissa = 0 || a.absorbs b then a.resize width
  else if a.mantissa = 0 || b.absorbs a then b.resize width
  else
    let exponent := min a.exponent b.exponent
    let aligned (w : Wide) : Int := w.mantissa * power 2 (w.exponent - exponent)
    ofQuotient width (aligned a + aligned b) 1 exponent

def mul (a b : Wide) : Wide :=
  ofQuotient (max a.width b.width) (a.mantissa * b.mantissa) 1 (a.exponent + b.exponent)

def div (a b : Wide) : Wide :=
  ofQuotient (max a.width b.width) (a.mantissa * b.mantissa.sign) b.mantissa.natAbs
    (a.exponent - b.exponent)

def truncate (width mantissa : Nat) (exponent : Int) : Nat × Int :=
  let excess := mantissa.log2 + 1 - width
  (mantissa / Nat.pow 2 excess, exponent + excess)

/-- The product of `found` and a power with a positive exponent, by squaring; mantissas are cut to
`width` digits. -/
def powerBySquares (width : Nat) (found base : Nat × Int) (n : Nat) : Nat × Int :=
  if n = 0 then found
  else
    let found :=
      if n % 2 = 1 then truncate width (found.1 * base.1) (found.2 + base.2) else found
    powerBySquares width found (truncate width (base.1 * base.1) (base.2 + base.2)) (n / 2)
termination_by n
decreasing_by omega

/-- The power with a natural exponent as a number of the given width. Up to a thousand binary digits
it is computed exactly before it is rounded. -/
def powNat (w : Wide) (width n : Nat) : Wide :=
  let size := w.mantissa.natAbs
  let negative := w.isNegative && n % 2 = 1
  let (mantissa, exponent) :=
    if n = 0 then (1, 0)
    else if size ≤ 1 then (size, w.exponent * n)
    else if (size.log2 + 1) * n < 1000 then (Nat.pow size n, w.exponent * n)
    else powerBySquares (width + 4 * (n.log2 + 1) + 4) (1, 0) (size, w.exponent) n
  ofQuotient width (if negative then -mantissa else mantissa) 1 exponent

/-- The power with an integer exponent of a number that is not zero. A quotient is taken of a power
with five digits more. -/
def powInt (w : Wide) (width : Nat) : Int → Wide
  | .ofNat n => w.powNat width n
  | .negSucc 0 => div ⟨width, 1, 0⟩ { w with width }
  | .negSucc n =>
    let inverse := w.powNat (width + 5) (n + 1)
    div ⟨width, 1, 0⟩ { inverse with width }

/-- The square root of a number that is not negative. A digit is added where the root is not
exact, so that the rounding sees it. -/
def sqrt (w : Wide) (width : Nat) : Wide :=
  let parity := w.exponent % 2
  let shift := 2 * (width + 2) + parity.toNat
  let radicand := w.mantissa.natAbs * Nat.pow 2 shift
  let floor := root 2 radicand
  let exponent := (w.exponent - shift) / 2
  if floor * floor = radicand then ofQuotient width floor 1 exponent
  else ofQuotient width (2 * floor + 1) 1 (exponent - 1)

def toRat (w : Wide) : Rat :=
  (w.mantissa * power 2 w.exponent : Int) / (power 2 (-w.exponent) : Rat)

def toFloat (w : Wide) : Float :=
  let w := w.resize 53
  (Float.ofInt w.mantissa).scaleB w.exponent

end Wide

end PartialFractions.Number
