import PartialFractions.Text.Blank
import PartialFractions.Text.DecimalDigit
import PartialFractions.Text.Word
import PartialFractions.Verification.Literal
import PartialFractions.Verification.Parsing

/-!
A parser of arithmetic. Powers bind closest, then signs, then products and quotients, which may go
without a sign, then sums. A row of letters is a product of symbols and whole numbers, unless a low
line holds it together.
-/
namespace PartialFractions.Verification

open Text

inductive Token
  | literal (l : Literal)
  | x
  | symbol (name : String)
  | plus
  | minus
  | times
  | slash
  | power
  | opening
  | closing
  /-- a blank that is more than space between tokens -/
  | blank (c : Char)
  deriving DecidableEq, Repr

namespace Token

/-- The tokens of a row of letters and digits; `pending` holds the digits before it, in reverse. -/
def splitName (pending : List Nat) : List Char → List Token
  | [] => number pending
  | c :: rest =>
    match Literal.digitIn? 10 c with
    | some d => splitName (d :: pending) rest
    | none =>
      number pending ++ (if c = 'x' then .x else .symbol (String.singleton c)) :: splitName [] rest
where
  number (pending : List Nat) : List Token :=
    if pending.isEmpty then [] else [.literal (.whole (Number.ofDigits pending.reverse))]

def longNames : List String := ["nan", "oo", "zoo", "pi"]

def ofName (name : List Char) : List Token :=
  let whole := String.ofList name
  if '_' ∈ name || whole ∈ longNames then [.symbol whole] else splitName [] name

/-- The characters that only keep tokens apart: the space, the tabulator and the form feed. -/
def spaces : List Char := [' ', '\t', '\x0c']

def marks : List (Char × Token) :=
  [('+', .plus), ('-', .minus), ('*', .times), ('/', .slash), ('^', .power), ('(', .opening),
    (')', .closing)]

def ofChar (c : Char) : Except Fault (List Token) :=
  if c ∈ spaces then .ok []
  else if isBlank c then .ok [.blank c]
  else
    match marks.lookup c with
    | some t => .ok [t]
    | none => .error .unreadableFormula

def next (c : Char) (rest : List Char) : Except Fault (List Token × List Char) :=
  match Literal.readImaginary? (c :: rest) with
  | some (l, rest) => .ok ([.literal l, .times, .symbol "I"], rest)
  | none =>
    match Literal.read? (c :: rest) with
    | some (l, after) =>
      match l.tooLong? ((c :: rest).take (rest.length + 1 - after.length)) with
      | some f => .error f
      | none => .ok ([.literal l], after)
    | none =>
      if isWordChar c && (digit? c).isNone then
        .ok (ofName ((c :: rest).takeWhile isWordChar), (c :: rest).dropWhile isWordChar)
      else (ofChar c).map fun ts => (ts, rest)

def scan : Nat → List Char → Except Fault (List Token)
  | _, [] => .ok []
  | 0, _ :: _ => .error .unreadableFormula
  | fuel + 1, c :: rest => do
    let (ts, rest) ← next c rest
    return ts ++ (← scan fuel rest)

/-- Two stars that follow each other are the sign of a power. -/
def joinTimes : List Token → List Token
  | .times :: .times :: rest => .power :: joinTimes rest
  | t :: rest => t :: joinTimes rest
  | [] => []

def isBlankToken : Token → Bool
  | .blank _ => true
  | _ => false

def startsFactor : Token → Bool
  | .literal _ | .x | .symbol _ | .opening => true
  | _ => false

def endsFactor : Token → Bool
  | .literal _ | .x | .symbol _ | .closing => true
  | _ => false

/-- The tokens without line breaks, which stand in brackets only and not between two factors;
`depth` counts the brackets that are open, and `after` tells that a factor stands in front. -/
def dropBreaks (depth : Nat) (after : Bool) : List Token → Except Fault (List Token)
  | [] => .ok []
  | .blank c :: rest =>
    if (c = '\n' || c = '\r') && depth ≠ 0 && !(after && rest.head?.any startsFactor) then
      dropBreaks depth after rest
    else .error .unreadableFormula
  | t :: rest =>
    let depth := match t with
      | .opening => depth + 1
      | .closing => depth - 1
      | _ => depth
    (dropBreaks depth t.endsFactor rest).map (t :: ·)

def ofText (s : List Char) : Except Fault (List Token) := do
  let ts ← scan s.length s
  let ts := (ts.dropWhile isBlankToken).reverse.dropWhile isBlankToken
  dropBreaks 0 false (joinTimes ts.reverse)

end Token

namespace Arithmetic

variable {K : Type}

mutual

def sumFrom : Nat → List Token → Option (Arithmetic K × List Token)
  | 0, _ => none
  | fuel + 1, ts => (productFrom fuel ts).bind fun (first, rest) => moreTerms fuel first rest

def moreTerms : Nat → Arithmetic K → List Token → Option (Arithmetic K × List Token)
  | 0, _, _ => none
  | fuel + 1, e, .plus :: rest =>
    (productFrom fuel rest).bind fun (next, rest) => moreTerms fuel (.add e next) rest
  | fuel + 1, e, .minus :: rest =>
    (productFrom fuel rest).bind fun (next, rest) => moreTerms fuel (.subtract e next) rest
  | _ + 1, e, rest => some (e, rest)

def productFrom : Nat → List Token → Option (Arithmetic K × List Token)
  | 0, _ => none
  | fuel + 1, ts => (signedFrom fuel ts).bind fun (first, rest) => moreFactors fuel first rest

def moreFactors : Nat → Arithmetic K → List Token → Option (Arithmetic K × List Token)
  | 0, _, _ => none
  | fuel + 1, e, .times :: rest =>
    (signedFrom fuel rest).bind fun (next, rest) => moreFactors fuel (.multiply e next) rest
  | fuel + 1, e, .slash :: rest =>
    (signedFrom fuel rest).bind fun (next, rest) => moreFactors fuel (.divide e next) rest
  | _ + 1, e, [] => some (e, [])
  | fuel + 1, e, t :: rest =>
    if t.startsFactor then
      (powerFrom fuel (t :: rest)).bind fun (next, rest) => moreFactors fuel (.multiply e next) rest
    else some (e, t :: rest)

def signedFrom : Nat → List Token → Option (Arithmetic K × List Token)
  | 0, _ => none
  | fuel + 1, .minus :: rest => (signedFrom fuel rest).map fun (e, rest) => (.negate e, rest)
  | fuel + 1, .plus :: rest => signedFrom fuel rest
  | fuel + 1, ts => powerFrom fuel ts

def powerFrom : Nat → List Token → Option (Arithmetic K × List Token)
  | 0, _ => none
  | fuel + 1, ts =>
    (atomFrom fuel ts).bind fun
      | (base, .power :: rest) =>
        (signedFrom fuel rest).map fun (exponent, rest) => (.power base exponent, rest)
      | (base, rest) => some (base, rest)

def atomFrom : Nat → List Token → Option (Arithmetic K × List Token)
  | _ + 1, .literal l :: rest => some (.literal l, rest)
  | _ + 1, .x :: rest => some (.x, rest)
  | _ + 1, .symbol name :: rest => some (.symbol name, rest)
  | fuel + 1, .opening :: rest =>
    (sumFrom fuel rest).bind fun
      | (e, .closing :: rest) => some (e, rest)
      | _ => none
  | _, _ => none

end

/-- The expression that the tokens are. No token is passed more than eight levels deep. -/
def ofTokens? (ts : List Token) : Option (Arithmetic K) :=
  match sumFrom (8 * (ts.length + 1)) ts with
  | some (e, []) => some e
  | _ => none

def parse (s : List Char) : Except Fault (Arithmetic K) := do
  match ofTokens? (← Token.ofText s) with
  | some e => return e
  | none => throw .unreadableFormula

end Arithmetic

instance : Parsing Float := ⟨Arithmetic.parse⟩

instance : Parsing Empty := ⟨Arithmetic.parse⟩

end PartialFractions.Verification
