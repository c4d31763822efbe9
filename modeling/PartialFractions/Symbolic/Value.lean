import PartialFractions.Failure
import PartialFractions.Number.Binary
import PartialFractions.Number.Exponential

/-!
The numbers of symbolic expressions: exact fractions, binary numbers of some width, and what
arithmetic leads to beyond them. An exact number that meets a binary one is rounded to its width; a
binary result that is zero counts as exact.
-/
namespace PartialFractions.Symbolic

open Number

inductive Value
  | exact (q : Rat)
  | rounded (w : Wide)
  | infinite (negative : Bool)
  /-- infinite, but not of one direction: what a division by zero leads to -/
  | pole
  | undefined
  /-- a number that is not real -/
  | imaginary
  deriving DecidableEq, Repr

namespace Value

def zero : Value := .exact 0

def one : Value := .exact 1

def ofWide (w : Wide) : Value := if w.mantissa = 0 then zero else .rounded w

def ofFloat (v : Float) : Value :=
  match Binary.ofFloat v with
  | .undefined => .undefined
  | .infinite negative => .infinite negative
  | .finite negative m e => ofWide (.ofQuotient 53 (if negative then -(m : Int) else m) 1 e)

def isZero : Value → Bool
  | .exact q => q = 0
  | .rounded w => w.mantissa = 0
  | _ => false

def isFinite : Value → Bool
  | .exact _ | .rounded _ => true
  | _ => false

def isNegative : Value → Bool
  | .exact q => q < 0
  | .rounded w => w.isNegative
  | .infinite negative => negative
  | _ => false

def add : Value → Value → Value
  | .undefined, _ | _, .undefined => .undefined
  | .pole, .pole | .pole, .infinite _ | .infinite _, .pole => .undefined
  | .pole, _ | _, .pole => .pole
  | .infinite a, .infinite b => if a = b then .infinite a else .undefined
  | .infinite a, _ | _, .infinite a => .infinite a
  | .imaginary, _ | _, .imaginary => .imaginary
  | .exact a, .exact b => .exact (a + b)
  | .exact a, .rounded b => ofWide ((Wide.ofRat b.width a).add b)
  | .rounded a, .exact b => ofWide (a.add (.ofRat a.width b))
  | .rounded a, .rounded b => ofWide (a.add b)

def mul (a b : Value) : Value :=
  match a, b with
  | .undefined, _ | _, .undefined => .undefined
  | .pole, v | v, .pole => if v.isZero then .undefined else .pole
  | .imaginary, v | v, .imaginary => if v.isZero then zero else .imaginary
  | .infinite _, v | v, .infinite _ =>
    if v.isZero then .undefined else .infinite (a.isNegative != b.isNegative)
  | .exact a, .exact b => .exact (a * b)
  | .exact a, .rounded b => ofWide ((Wide.ofRat b.width a).mul b)
  | .rounded a, .exact b => ofWide (a.mul (.ofRat a.width b))
  | .rounded a, .rounded b => ofWide (a.mul b)

def powWhole (q : Rat) : Int → Rat
  | .ofNat n => q ^ n
  | .negSucc n => (1 / q) ^ (n + 1)

def exactRoot? (degree : Nat) (q : Rat) : Option Rat :=
  if q < 0 then none
  else do
    let num ← Number.exactRoot? degree q.num.natAbs
    let den ← Number.exactRoot? degree q.den
    return (num : Rat) / den

/-- The power of a binary number. Zero has no power with a negative exponent, and a negative number
has real powers with whole exponents only. -/
def powRounded (a e : Wide) : Value :=
  if a.mantissa = 0 then if e.isNegative then .pole else .rounded a
  else if a.isNegative && e.exponent < 0 then .imaginary
  else .rounded (a.pow e)

def powInfinite (a : Value) (negative : Bool) : Value :=
  let size : Value := if a.isNegative then a.mul (.exact (-1)) else a
  let distance := size.add (.exact (-1))
  if ! size.isFinite then .undefined
  else if distance.isZero then .undefined
  else if distance.isNegative == negative then
    if a.isNegative then .pole else .infinite false
  else zero

def powOfInfinite (a e : Value) : Value :=
  if e.isNegative then zero
  else match a, e with
    | .infinite true, .exact q =>
      if q.den ≠ 1 then .imaginary else .infinite (q.num % 2 ≠ 0)
    | .infinite true, _ => .imaginary
    | _, _ => a

/-- The power, unless it is a root that no exact number is. -/
def pow? (a e : Value) : Option Value :=
  match a, e with
  | _, .exact 0 => some one
  | a, .exact 1 => some a
  | .undefined, _ | _, .undefined | _, .pole => some .undefined
  | a, .infinite negative => some (powInfinite a negative)
  | .infinite _, e | .pole, e => some (powOfInfinite a e)
  | .exact 1, _ => some one
  | .imaginary, _ | _, .imaginary => some .imaginary
  | .exact q, .exact e =>
    if q = 0 then some (if e < 0 then .pole else zero)
    else if e.den = 1 then some (.exact (powWhole q e.num))
    else if q < 0 then some .imaginary
    else (exactRoot? e.den q).map fun root => .exact (powWhole root e.num)
  | .exact q, .rounded e => some (powRounded (.ofRat e.width q) e)
  | .rounded a, .exact e =>
    if e.den = 1 then
      if a.mantissa = 0 then some (if e < 0 then .pole else .rounded a)
      else some (.rounded (a.powInt a.width e.num))
    else some (powRounded a (.ofRat a.width e))
  | .rounded a, .rounded e => some (powRounded a e)

def inverse (a : Value) : Value := (a.pow? (.exact (-1))).getD .undefined

/-- The quotient, which is rounded once if the dividend is a binary number. -/
def div (a b : Value) : Value :=
  match a, b with
  | .rounded v, .exact q =>
    if q = 0 then a.mul b.inverse else ofWide (v.div (.ofRat v.width q))
  | .rounded v, .rounded w => if w.mantissa = 0 then a.mul b.inverse else ofWide (v.div w)
  | _, _ => a.mul b.inverse

def widen (width : Nat) : Value → Value
  | .exact q => .rounded (.ofRat width q)
  | .rounded w => .rounded { w with width := max w.width width }
  | v => v

def toFloat : Value → Except Fault Float
  | .exact q => .ok (Wide.ofRat 53 q).toFloat
  | .rounded w => .ok w.toFloat
  | .infinite negative => .ok (if negative then -1 / 0 else 1 / 0)
  | .undefined => .ok (0 / 0)
  | .pole | .imaginary => .error .complexValue

end Value

end PartialFractions.Symbolic
