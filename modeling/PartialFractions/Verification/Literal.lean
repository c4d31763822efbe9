import PartialFractions.Failure
import PartialFractions.Number.Digits

/-!
Numbers as they are written in formulas that are verified. A whole number has no zeros in front,
unless it is zero, and may be written in base 2, 8 or 16; a number with a point or an exponent is a
binary number, of a width that holds all its digits. So `05` is a zero with a five behind it.
-/
namespace PartialFractions.Verification

open Number

inductive Literal
  | whole (n : Nat)
  /-- the binary number of `width` digits nearest to digits · 10 ^ exponent -/
  | decimal (digits : Nat) (exponent : Int) (width : Nat)
  deriving DecidableEq, Repr

namespace Literal

def digitIn? (base : Nat) (c : Char) : Option Nat :=
  let v :=
    if '0' ≤ c && c ≤ '9' then c.toNat - '0'.toNat
    else if 'a' ≤ c && c ≤ 'f' then c.toNat - 'a'.toNat + 10
    else if 'A' ≤ c && c ≤ 'F' then c.toNat - 'A'.toNat + 10
    else base
  if v < base then some v else none

def digitRow (s : List Char) : List Nat × List Char := digitsFrom (digitIn? 10) false s

def exponentFrom? : List Char → Option (Int × List Char)
  | [] => none
  | c :: rest =>
    if c = 'e' || c = 'E' then
      let (negative, body) := splitSign rest
      match digitRow body with
      | ([], _) => none
      | (ds, rest) => some (if negative then -(ofDigits ds : Int) else ofDigits ds, rest)
    else none

/-- The count of decimal digits that a number without point keeps: those that are written, and those
of its value if it is whole. -/
def keptDigits (digits : Nat) (exponent : Int) : Nat :=
  let written := (Nat.toDigits 10 digits).length
  if 0 ≤ exponent && digits ≠ 0 then written + exponent.toNat else written

/-- The width that holds a count of decimal digits, which is taken as fifteen at least: the whole
number nearest to count + 1 times the binary logarithm of ten. -/
def widthOf (count : Nat) : Nat :=
  ((max 15 count + 1) * 33219280948873626 + 5000000000000000) / 10000000000000000

def decimalFrom? (s : List Char) : Option (Literal × List Char) :=
  let (units, rest) := digitRow s
  match rest with
  | '.' :: after =>
    let (fraction, rest) := digitRow after
    if units.isEmpty && fraction.isEmpty then none
    else
      let (exponent, rest) := (exponentFrom? rest).getD (0, rest)
      let digits := ofDigits (units ++ fraction)
      let width := widthOf (Nat.toDigits 10 digits).length
      some (.decimal digits (exponent - fraction.length) width, rest)
  | _ =>
    if units.isEmpty then none
    else (exponentFrom? rest).map fun (exponent, rest) =>
      let digits := ofDigits units
      (.decimal digits exponent (widthOf (keptDigits digits exponent)), rest)

/-- The base that a letter behind a zero stands for. -/
def base? (c : Char) : Option Nat :=
  if c = 'x' || c = 'X' then some 16
  else if c = 'o' || c = 'O' then some 8
  else if c = 'b' || c = 'B' then some 2
  else none

def basedFrom? : List Char → Option (Literal × List Char)
  | '0' :: c :: rest => do
    let base ← base? c
    match digitsFrom (digitIn? base) true rest with
    | ([], _) => none
    | (ds, rest) => some (.whole (ofDigitsIn base ds), rest)
  | _ => none

/-- A whole number at the front; behind a zero only zeros belong to it. -/
def wholeFrom? (s : List Char) : Option (Literal × List Char) :=
  let (ds, rest) := if s.head? = some '0' then digitsFrom (digitIn? 1) false s else digitRow s
  if ds.isEmpty then none else some (.whole (ofDigits ds), rest)

def read? (s : List Char) : Option (Literal × List Char) :=
  (decimalFrom? s).orElse fun _ => (basedFrom? s).orElse fun _ => wholeFrom? s

/-- Why a number is refused for its length; `written` is its text. A number with a point may have
any length, and so may zero and a number in another base. -/
def tooLong? (written : List Char) : Literal → Option Fault
  | .whole n =>
    let digits := (digitRow written).1.length
    if n ≠ 0 && maxIntegerDigits < digits then some (.literalTooLong digits) else none
  | .decimal digits exponent _ =>
    if '.' ∉ written && maxIntegerDigits < keptDigits digits exponent then some .valueTooLong
    else none

/-- The number at the front of a text that is imaginary, as the letter behind it tells. All digits
belong to it. -/
def readImaginary? (s : List Char) : Option (Literal × List Char) :=
  let number := (decimalFrom? s).orElse fun _ =>
    match digitRow s with
    | ([], _) => none
    | (ds, rest) => some (.whole (ofDigits ds), rest)
  number.bind fun (literal, rest) =>
    match rest with
    | c :: rest => if c = 'j' || c = 'J' then some (literal, rest) else none
    | [] => none

end Literal

end PartialFractions.Verification
