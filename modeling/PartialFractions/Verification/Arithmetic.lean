import PartialFractions.Symbolic.Coefficients
import PartialFractions.Verification.Literal

/-!
Arithmetic expressions in x and other symbols, with numbers of a type `K` that are put into them.
Those that are polynomials in x have exact coefficients.
-/
namespace PartialFractions.Verification

open Symbolic

inductive Arithmetic (K : Type)
  | literal (l : Literal)
  /-- a number that does not come from a text -/
  | constant (v : K)
  | x
  | symbol (name : String)
  | negate (e : Arithmetic K)
  | add (a b : Arithmetic K)
  | subtract (a b : Arithmetic K)
  | multiply (a b : Arithmetic K)
  | divide (a b : Arithmetic K)
  | power (base exponent : Arithmetic K)
  deriving DecidableEq, Repr

def Literal.toRat : Literal → Rat
  | .whole n => n
  | .decimal digits exponent _ => digits * 10 ^ exponent

namespace Arithmetic

variable {K : Type}

def wholeOf? (p : Coefficients) : Option Int := do
  let c ← p.constant?
  if c.den = 1 then some c.num else none

def isExact : Arithmetic K → Bool
  | .literal (.whole _) | .x | .symbol _ => true
  | .literal (.decimal ..) | .constant _ => false
  | .negate e => e.isExact
  | .add a b | .subtract a b | .multiply a b | .divide a b | .power a b => a.isExact && b.isExact

/-- The coefficients of the polynomial that the expression is. A divisor and the base of a negative
power have to be constant and not zero, exponents have to be whole without rounding. -/
def coefficients? : Arithmetic K → Option Coefficients
  | .literal l => some [l.toRat]
  | .constant _ | .symbol _ => none
  | .x => some [0, 1]
  | .negate e => e.coefficients?.map (Coefficients.scale (-1))
  | .add a b => do return Coefficients.add (← a.coefficients?) (← b.coefficients?)
  | .subtract a b => do
    return Coefficients.add (← a.coefficients?) (Coefficients.scale (-1) (← b.coefficients?))
  | .multiply a b => do return Coefficients.mul (← a.coefficients?) (← b.coefficients?)
  | .divide a b => do
    let p ← a.coefficients?
    let c ← (← b.coefficients?).constant?
    if c = 0 then none else some (Coefficients.scale (1 / c) p)
  | .power base exponent => do
    let p ← base.coefficients?
    guard exponent.isExact
    match ← wholeOf? (← exponent.coefficients?) with
    | .ofNat n => some (Coefficients.pow p n)
    | .negSucc n =>
      let c ← p.constant?
      if c = 0 then none else some [1 / c ^ (n + 1)]

end Arithmetic

end PartialFractions.Verification
