import PartialFractions.Text.Printable

/-!
Quoted text, as it stands in records and descriptions. The quotes are single, or double when the
text holds single quotes only; a character that could not be told apart is escaped.
-/
namespace PartialFractions.Text.Quoted

def hexDigit (d : Nat) : Char :=
  if d < 10 then Char.ofNat ('0'.toNat + d) else Char.ofNat ('a'.toNat + (d - 10))

def hex : Nat → Nat → List Char
  | 0, _ => []
  | width + 1, n => hex width (n / 16) ++ [hexDigit (n % 16)]

/-- A code point by its number: two, four or eight digits, whichever suffices first. -/
def escape (n : Nat) : List Char :=
  if n < 0x100 then '\\' :: 'x' :: hex 2 n
  else if n < 0x10000 then '\\' :: 'u' :: hex 4 n
  else '\\' :: 'U' :: hex 8 n

def encodeChar (quote c : Char) : List Char :=
  if c = quote || c = '\\' then ['\\', c]
  else if c = '\n' then ['\\', 'n']
  else if c = '\r' then ['\\', 'r']
  else if c = '\t' then ['\\', 't']
  else if isPrintable c then [c]
  else escape c.toNat

/-- The kind of quote that needs the fewer escapes; a tie goes to the single one. -/
def quoteFor (s : List Char) : Char :=
  if '\'' ∈ s ∧ '"' ∉ s then '"' else '\''

def encode (s : List Char) : List Char :=
  let quote := quoteFor s
  quote :: s.flatMap (encodeChar quote) ++ [quote]

end PartialFractions.Text.Quoted

namespace PartialFractions.Text

def quoted (s : String) : String := String.ofList (Quoted.encode s.toList)

end PartialFractions.Text
