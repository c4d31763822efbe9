import PartialFractions.Symbolic.Expression

/-!
Normal forms of sums, products and powers. Numbers are combined; terms that differ in a number only
and powers of one base are gathered, so what cancels is gone. Sums are not multiplied out, except
with a number.
-/
namespace PartialFractions.Symbolic

namespace Expression

def ofFactors : List Expression → Expression
  | [] => one
  | [f] => f
  | fs => .product fs

def ofTerms : List Expression → Expression
  | [] => zero
  | [t] => t
  | ts => .sum ts

def splitNumber : Expression → Value × Expression
  | .number v => (v, one)
  | .product (.number v :: fs) => (v, ofFactors fs)
  | e => (.one, e)

def withNumber (v : Value) : Expression → Expression
  | .product fs => .product (.number v :: fs)
  | e => .product [.number v, e]

/-- Adds `v` to the number that belongs to a key, or puts the key at the end. -/
def gather {α : Type} (alike : α → α → Bool) (key : α) (v : Value) :
    List (α × Value) → List (α × Value)
  | [] => [(key, v)]
  | (k, w) :: rest =>
    if alike k key then (k, w.add v) :: rest else (k, w) :: gather alike key v rest

def isOne : Expression → Bool
  | .number (.exact q) => q = 1
  | _ => false

def isExactZero : Expression → Bool
  | .number (.exact q) => q = 0
  | _ => false

def numbers (parts : List Expression) : List Value :=
  parts.filterMap fun
    | .number v => some v
    | _ => none

def symbolic (parts : List Expression) : List Expression :=
  parts.filter fun
    | .number _ => false
    | _ => true

/-- The terms of the sums among the parts come behind the other parts. -/
def joinTerms (parts : List Expression) : List Expression :=
  parts.filter (! ·.isSum) ++ parts.flatMap fun
    | .sum ts => ts
    | _ => []

/-- A term with the number that multiplies it; none if the number is zero. -/
def weighted? : Expression × Value → Option Expression
  | (e, v) =>
    if v.isZero then none else if v = .one then some e else some (withNumber v e)

def sumOf (parts : List Expression) : Expression :=
  match parts.filter (! ·.isExactZero) with
  | [] => zero
  | [e] => e
  | parts =>
    let parts := joinTerms parts
    let constant := (numbers parts).foldl .add .zero
    let weights := (symbolic parts).foldl (fun found e =>
      let (v, rest) := splitNumber e
      gather same rest v found) []
    if constant = .undefined || weights.any (·.2 = .undefined) then .number .undefined
    else
      let terms := arrange (weights.filterMap weighted?)
      if constant = .zero then ofTerms terms else ofTerms (.number constant :: terms)

def scaleTerm (v : Value) (e : Expression) : Expression :=
  let (w, rest) := splitNumber e
  let v := v.mul w
  if v.isZero || rest.isOne then .number v
  else if v = .one then rest
  else withNumber v rest

/-- The product of a number and an expression; a sum is multiplied term by term. -/
def scale (v : Value) : Expression → Expression
  | .sum ts => if v.isFinite then sumOf (ts.map (scaleTerm v)) else withNumber v (.sum ts)
  | e => scaleTerm v e

/-- The opposite. If the first factor of a product is a sum, it takes the sign and the number. -/
def negate : Expression → Expression
  | .product (.sum ts :: fs) => .product (scale (.exact (-1)) (.sum ts) :: fs)
  | .product (.number v :: .sum ts :: fs) =>
    .product ((if v = .exact (-1) then .sum ts else scale (v.mul (.exact (-1))) (.sum ts)) :: fs)
  | e => scale (.exact (-1)) e

/-- The power of a base that is no product. Powers of powers multiply whole exponents. -/
def powerOfFactor (base exponent : Expression) : Expression :=
  match base, exponent with
  | .number b, .number e => ((b.pow? e).map .number).getD (.power base exponent)
  | .number (.exact 1), _ => one
  | .number .undefined, _ | _, .number .undefined => .number .undefined
  | _, .number (.exact 0) => one
  | _, .number (.exact 1) => base
  | .power b e, .number (.exact n) =>
    if n.den ≠ 1 then .power base exponent
    else match b, scale (.exact n) e with
      | .number v, .number w => ((v.pow? w).map .number).getD (.power b (.number w))
      | _, .number (.exact 0) => one
      | b, .number (.exact 1) => b
      | b, e => .power b e
  | _, _ => .power base exponent

def splitPower : Expression → Expression × Expression
  | .power b e => (b, e)
  | e => (e, one)

/-- The factors of the products among the parts come behind the other parts. -/
def joinFactors (parts : List Expression) : List Expression :=
  let isProduct : Expression → Bool
    | .product _ => true
    | _ => false
  parts.filter (! isProduct ·) ++ parts.flatMap fun
    | .product fs => fs
    | _ => []

/-- The powers among the factors, with the exponents of equal bases added. -/
def gatherPowers (factors : List Expression) : List Expression :=
  let alike (a b : Expression × Expression) : Bool := same a.1 b.1 && same a.2 b.2
  let exponents := factors.foldl (fun found f =>
    let (base, exponent) := splitPower f
    let (v, rest) := splitNumber exponent
    gather alike (base, rest) v found) []
  exponents.map fun ((base, rest), v) => powerOfFactor base (scale v rest)

def assemble (v : Value) (factors : List Expression) : Expression :=
  if v = .undefined || v.isZero then .number v
  else match arrange factors with
    | [] => .number v
    | [.sum ts] => if v = .one then .sum ts else scale v (.sum ts)
    | factors => if v = .one then ofFactors factors else .product (.number v :: factors)

def productOf (parts : List Expression) : Expression :=
  match parts.filter (! ·.isOne) with
  | [] => one
  | [e] => e
  | parts =>
    let parts := joinFactors parts
    let powers := gatherPowers (symbolic parts)
    assemble ((numbers parts ++ numbers powers).foldl .mul .one)
      (symbolic (powers.filter (! ·.isOne)))

/-- The power in normal form. A whole power of a product is the product of the powers. -/
def powerOf (base exponent : Expression) : Expression :=
  match base, exponent with
  | _, .number (.exact 0) => one
  | _, .number (.exact 1) => base
  | .product fs, .number (.exact n) =>
    if n.den = 1 then productOf (fs.map (powerOfFactor · exponent)) else .power base exponent
  | _, _ => powerOfFactor base exponent

def quotientOf (a b : Expression) : Expression :=
  match a, b with
  | .number v, .number w => .number (v.div w)
  | _, _ => productOf [a, powerOf b (.number (.exact (-1)))]

end Expression

end PartialFractions.Symbolic
