import PartialFractions.Failure
import PartialFractions.Verification.Arithmetic

/-!
Formulas that are read from text. Multiplication signs become stars and braces become parentheses;
what the text then writes is left to a parser of arithmetic.
-/
namespace PartialFractions.Verification

class Parsing (K : Type) where
  parse (s : List Char) : Except Fault (Arithmetic K)

def withStars : List Char → List Char
  | '\\' :: 'c' :: 'd' :: 'o' :: 't' :: rest => '*' :: withStars rest
  | c :: rest => c :: withStars rest
  | [] => []

def closesFirst (s : List Char) : Bool :=
  s.find? (fun c => c = '\x7b' || c = '\x7d') = some '\x7d'

/-- The text with the braces of exponents as parentheses; `inside` an exponent the next brace is the
one that closes it. Braces in braces are no exponent. -/
def withExponents (inside : Bool) : List Char → List Char
  | '^' :: '\x7b' :: rest =>
    if closesFirst rest then '^' :: '(' :: withExponents true rest
    else '^' :: '\x7b' :: withExponents false rest
  | '\x7d' :: rest => (if inside then ')' else '\x7d') :: withExponents false rest
  | c :: rest => c :: withExponents inside rest
  | [] => []

def asParenthesis (c : Char) : Char :=
  if c = '\x7b' then '(' else if c = '\x7d' then ')' else c

def formulaText (s : List Char) : List Char :=
  (withExponents false (withStars s)).map asParenthesis

def Arithmetic.read {K : Type} [Parsing K] (s : List Char) : Except Fault (Arithmetic K) :=
  Parsing.parse (formulaText s)

end PartialFractions.Verification
