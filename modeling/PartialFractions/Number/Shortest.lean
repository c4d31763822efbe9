import PartialFractions.Number.Binary
import PartialFractions.Number.Decimal

/-!
The shortest decimal that is read back as a given binary number m · 2 ^ q with m > 0. The reals that
round to that number form an interval, whose ends belong to it when m is even. Of the decimals with
the fewest digits in the interval the nearest is taken, of two equally near ones the even one.
-/
namespace PartialFractions.Number

/-- Whether the number below is nearer than the number above, as it is at a power of two. -/
def narrowBelow (m : Nat) (q : Int) : Bool := m = power 2 52 && Binary.leastExponent < q

/-- Comparison of m · 2 ^ q with the grid of step 10 ^ e. All counts are in units of
2 ^ (q - 2) · 10 ^ e over a common denominator: `unit` is the step, the others are the number and
the ends of its interval. -/
structure Grid where
  unit : Nat
  value : Nat
  low : Nat
  high : Nat
  /-- the ends belong to the interval -/
  closed : Bool

def Grid.of (m : Nat) (q e : Int) : Grid :=
  let scale := power 2 (q - 2) * power 10 (-e)
  { unit := power 2 (2 - q) * power 10 e
    value := 4 * m * scale
    low := (if narrowBelow m q then 4 * m - 1 else 4 * m - 2) * scale
    high := (4 * m + 2) * scale
    closed := m % 2 = 0 }

namespace Grid

/-- Whether the grid point number `n` is read back as the number. -/
def contains (g : Grid) (n : Nat) : Bool :=
  if g.closed then g.low ≤ n * g.unit && n * g.unit ≤ g.high
  else g.low < n * g.unit && n * g.unit < g.high

/-- The nearer of the grid points around the number that are read back as it. -/
def nearest? (g : Grid) : Option Nat :=
  let below := g.value / g.unit
  match g.contains below, g.contains (below + 1) with
  | true, true => some (roundEven g.value g.unit)
  | true, false => some below
  | false, true => some (below + 1)
  | false, false => none

end Grid

/-- The least k such that m · 2 ^ q is below 10 ^ k. -/
def binaryScale (m : Nat) (q : Int) : Int :=
  decimalScale (m * power 2 q) (power 2 (-q))

/-- The nearest decimal with `count` digits that is read back as m · 2 ^ q. -/
def withDigits? (m : Nat) (q : Int) (count : Nat) : Option Decimal :=
  let e := binaryScale m q - count
  (Grid.of m q e).nearest?.map (⟨·, e⟩)

def exactDecimal (m : Nat) (q : Int) : Decimal :=
  if 0 ≤ q then ⟨m * power 2 q, 0⟩ else ⟨m * power 5 (-q), q⟩

/-- The shortest decimal for m · 2 ^ q; seventeen digits suffice. -/
def shortest (m : Nat) (q : Int) : Decimal :=
  (((List.range 17).findSome? fun i => withDigits? m q (i + 1)).getD (exactDecimal m q)).strip

end PartialFractions.Number
