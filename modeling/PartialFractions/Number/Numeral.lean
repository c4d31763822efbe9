import PartialFractions.Number.Digits
import PartialFractions.Text.Blank

/-!
Numerals: the texts that stand for a number. A numeral is a decimal fraction with an optional
exponent, or a word for infinity or for the undefined number. Reading a numeral is exact; what
number it becomes is left to the arithmetic in use.
-/
namespace PartialFractions

inductive Numeral
  /-- ± digits · 10 ^ exponent -/
  | decimal (negative : Bool) (digits : Nat) (exponent : Int)
  | infinity (negative : Bool)
  | undefined
  deriving DecidableEq, Repr

namespace Numeral

open Number Text

/-- The words for numbers that are no decimal fractions, in any case of letters. -/
def ofWord? (negative : Bool) (s : List Char) : Option Numeral :=
  let word := s.map Char.toLower
  if word = ['i', 'n', 'f'] ∨ word = ['i', 'n', 'f', 'i', 'n', 'i', 't', 'y'] then
    some (.infinity negative)
  else if word = ['n', 'a', 'n'] then some .undefined
  else none

/-- The exponent behind the digits; `none` if the text is no exponent. -/
def exponent? : List Char → Option Int
  | [] => some 0
  | c :: rest =>
    if c = 'e' || c = 'E' then
      let (negative, body) := splitSign rest
      match digitGroup body with
      | ([], _) => none
      | (ds, []) => some (if negative then - (ofDigits ds : Int) else ofDigits ds)
      | _ => none
    else none

def ofDecimal? (negative : Bool) (s : List Char) : Option Numeral :=
  let (whole, rest) := digitGroup s
  let (fraction, rest) := match rest with
    | '.' :: after => digitGroup after
    | _ => ([], rest)
  if whole.isEmpty && fraction.isEmpty then none
  else (exponent? rest).map fun e =>
    .decimal negative (ofDigits (whole ++ fraction)) (e - fraction.length)

/-- The numeral that the text is; spaces around it do not count. -/
def read? (s : List Char) : Option Numeral :=
  let (negative, body) := splitSign (trimOf isSpace s)
  (ofWord? negative body).orElse fun _ => ofDecimal? negative body

end Numeral

end PartialFractions
