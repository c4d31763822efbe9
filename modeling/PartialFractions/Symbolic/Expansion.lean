import PartialFractions.Symbolic.Coefficients
import PartialFractions.Symbolic.Normal

/-!
Expressions multiplied out: polynomials in x over a power of x. An expression is a polynomial if
nothing is left below.
-/
namespace PartialFractions.Symbolic

/-- The quotient of a polynomial and a power of x. -/
structure Shifted where
  coefficients : Coefficients
  /-- the power of x below -/
  shift : Nat
  deriving DecidableEq, Repr

namespace Shifted

def ofRat (c : Rat) : Shifted := ⟨[c], 0⟩

def raised (p : Shifted) (shift : Nat) : Coefficients :=
  List.replicate (shift - p.shift) 0 ++ p.coefficients

def add (p q : Shifted) : Shifted :=
  let shift := max p.shift q.shift
  ⟨Coefficients.add (p.raised shift) (q.raised shift), shift⟩

def mul (p q : Shifted) : Shifted :=
  ⟨Coefficients.mul p.coefficients q.coefficients, p.shift + q.shift⟩

/-- The power; one with a negative exponent has to be of a single term. -/
def pow? (p : Shifted) : Int → Option Shifted
  | .ofNat n => some ⟨Coefficients.pow p.coefficients n, p.shift * n⟩
  | .negSucc n =>
    let low := p.coefficients.takeWhile (· == 0)
    match Coefficients.strip (p.coefficients.drop low.length) with
    | [c] =>
      let inverse : Shifted := ⟨List.replicate p.shift 0 ++ [1 / c], low.length⟩
      some ⟨Coefficients.pow inverse.coefficients (n + 1), inverse.shift * (n + 1)⟩
    | _ => none

def polynomial? (p : Shifted) : Option Coefficients :=
  if (p.coefficients.take p.shift).all (· == 0) then some (p.coefficients.drop p.shift) else none

end Shifted

namespace Expression

mutual

def expand? : Expression → Option Shifted
  | .number (.exact q) => some (.ofRat q)
  | .number (.rounded w) => some (.ofRat w.toRat)
  | .number _ => none
  | .symbol name => if name = "x" then some ⟨[0, 1], 0⟩ else none
  | .power b (.number (.exact n)) =>
    if n.den = 1 then (expand? b).bind (·.pow? n.num) else none
  | .power _ _ => none
  | .product fs => expandProduct? fs
  | .sum ts => expandSum? ts

def expandProduct? : List Expression → Option Shifted
  | [] => some (.ofRat 1)
  | e :: rest => do return (← expand? e).mul (← expandProduct? rest)

def expandSum? : List Expression → Option Shifted
  | [] => some (.ofRat 0)
  | e :: rest => do return (← expand? e).add (← expandSum? rest)

end

def coefficients? (e : Expression) : Option Coefficients := e.expand?.bind (·.polynomial?)

end Expression

end PartialFractions.Symbolic
