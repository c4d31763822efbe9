import PartialFractions.Exponent
import PartialFractions.Factor
import PartialFractions.Number.Integer
import PartialFractions.Trinomial

/-!
Gaps between the brackets of a denominator: a number, a power of x, both, or nothing. Blanks and
multiplication signs do not count. A sign may stand in front of the first bracket only, since
anywhere else it would make a sum.
-/
namespace PartialFractions

open Text Number

namespace Gap

def dropProducts : List Char → List Char
  | [] => []
  | '\\' :: 'c' :: 'd' :: 'o' :: 't' :: rest => dropProducts rest
  | '\\' :: 't' :: 'i' :: 'm' :: 'e' :: 's' :: rest => dropProducts rest
  | '*' :: rest => dropProducts rest
  | c :: rest => c :: dropProducts rest

def isNumberChar (c : Char) : Bool := isDigit c || c = '.'

/-- A number with an optional sign at the front, and the text behind it. -/
def splitNumber : List Char → List Char × List Char
  | '+' :: rest => ('+' :: rest.takeWhile isNumberChar, rest.dropWhile isNumberChar)
  | '-' :: rest => ('-' :: rest.takeWhile isNumberChar, rest.dropWhile isNumberChar)
  | s => (s.takeWhile isNumberChar, s.dropWhile isNumberChar)

inductive Variable
  | absent
  | plain
  | power (digits : List Char)
  deriving DecidableEq, Repr

def Variable.read? : List Char → Option Variable
  | [] => some .absent
  | ['x'] => some .plain
  | 'x' :: rest =>
    match exponent? rest with
    | some (digits, []) => some (.power digits)
    | _ => none
  | _ => none

def startsWithSign : List Char → Bool
  | '+' :: _ | '-' :: _ => true
  | _ => false

def parts? (leading : Bool) (s : List Char) : Option (List Char × Variable) :=
  if startsWithSign s && !leading then none
  else (Variable.read? (splitNumber s).2).map ((splitNumber s).1, ·)

variable {K : Type}

def factors : Variable → Except Fault (List (Factor K))
  | .absent => .ok []
  | .plain => .ok [.bare 1]
  | .power digits => (readDigits digits).map fun n => [.bare n]

variable [Neg K] [Scalar K]

/-- The multiplier and the factors of a gap; the `leading` one stands in front of the first
bracket. -/
def read (leading : Bool) (gap : List Char) : Except Failure (K × List (Factor K)) := do
  match parts? leading (dropProducts (squeeze gap)) with
  | none => throw (.refused (.badPolynomial (String.ofList (trim gap))))
  | some (number, x) =>
    let scale ← (leadingNumber number (trim gap)).mapError .refused
    let factors ← (factors x).mapError .fault
    return (scale, factors)

end Gap

end PartialFractions
