import PartialFractions.Number.Decimal

/-!
How a decimal is laid out as text: positionally, or with one digit before the point and an
exponent, according to the position of its leading digit.
-/
namespace PartialFractions.Number

structure Layout where
  /-- leading positions from this one on are written positionally … -/
  positionalFrom : Int
  /-- … up to below this one -/
  positionalBelow : Int
  /-- a whole number that is written positionally shows a zero behind the point -/
  showsPoint : Bool
  deriving DecidableEq, Repr

def twoDigits (n : Nat) : List Char :=
  let ds := Nat.toDigits 10 n
  if ds.length < 2 then '0' :: ds else ds

namespace Layout

def positional (layout : Layout) (d : Decimal) : List Char :=
  let ds := Nat.toDigits 10 d.digits
  let whole := ds.length + d.exponent
  if 0 ≤ d.exponent then
    ds ++ List.replicate d.exponent.toNat '0' ++ (if layout.showsPoint then ['.', '0'] else [])
  else if 0 < whole then ds.take whole.toNat ++ '.' :: ds.drop whole.toNat
  else '0' :: '.' :: List.replicate (-whole).toNat '0' ++ ds

/-- One digit before the point, and a signed exponent of at least two digits. -/
def scientific (d : Decimal) : List Char :=
  let mantissa := match Nat.toDigits 10 d.digits with
    | first :: second :: rest => first :: '.' :: second :: rest
    | ds => ds
  let sign := if d.leading < 0 then '-' else '+'
  mantissa ++ 'e' :: sign :: twoDigits d.leading.natAbs

def write (layout : Layout) (d : Decimal) : List Char :=
  if layout.positionalFrom ≤ d.leading ∧ d.leading < layout.positionalBelow then
    layout.positional d
  else scientific d

end Layout

end PartialFractions.Number
