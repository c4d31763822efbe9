import PartialFractions.Refusal
import PartialFractions.Text.Blank
import PartialFractions.Text.Cut

/-!
Fractions in a text: the first `\frac{N}{D}` that is complete. Braces are not counted. The
denominator ends at the first closing brace after its opening one, the numerator at the first
closing brace behind which a denominator stands.
-/
namespace PartialFractions

open Text

structure Fraction where
  numerator : String
  denominator : String
  deriving DecidableEq, Repr

namespace Fraction

/-- The text behind an opening brace, in front of which blanks may stand. -/
def opened? (s : List Char) : Option (List Char) :=
  match s.dropWhile isBlank with
  | '\x7b' :: rest => some rest
  | _ => none

def denominator? (s : List Char) : Option (List Char) :=
  (opened? s).bind fun rest => (cut? '\x7d' rest).map (·.1)

/-- Numerator and denominator, where the brace of the numerator is open. -/
def arguments? : List Char → Option (List Char × List Char)
  | [] => none
  | c :: rest =>
    match if c = '\x7d' then denominator? rest else none with
    | some denominator => some ([], denominator)
    | none => (arguments? rest).map fun (numerator, denominator) => (c :: numerator, denominator)

def command : List Char := ['\\', 'f', 'r', 'a', 'c']

def here? (s : List Char) : Option (List Char × List Char) :=
  (command.isPrefixOf? s).bind fun rest => (opened? rest).bind arguments?

def find? : List Char → Option (List Char × List Char)
  | [] => none
  | c :: rest => (here? (c :: rest)).orElse fun _ => find? rest

/-- The first fraction in the text, without the blanks around its two parts. -/
def ofText (text : String) : Except Refusal Fraction :=
  match find? text.toList with
  | none => .error .noFraction
  | some (numerator, denominator) =>
    .ok ⟨String.ofList (trim numerator), String.ofList (trim denominator)⟩

end Fraction

/-- Refuses a text that is missing or blank, and one that has more than `limit` characters. -/
def checkInput (limit : Int) : Option String → Except Refusal String
  | none => .error .emptyInput
  | some text =>
    if text.toList.all isBlank then .error .emptyInput
    else if text.length > limit then .error (.tooLong limit)
    else .ok text

end PartialFractions
