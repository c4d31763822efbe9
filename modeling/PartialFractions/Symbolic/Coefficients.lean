/-!
Polynomials with exact coefficients, as lists that start with the constant term.
-/
namespace PartialFractions.Symbolic

abbrev Coefficients := List Rat

namespace Coefficients

def add : Coefficients → Coefficients → Coefficients
  | [], q => q
  | p, [] => p
  | a :: p, b :: q => (a + b) :: add p q

def scale (c : Rat) (p : Coefficients) : Coefficients := p.map (c * ·)

def mul : Coefficients → Coefficients → Coefficients
  | [], _ => []
  | a :: p, q => add (scale a q) (0 :: mul p q)

def pow (p : Coefficients) : Nat → Coefficients
  | 0 => [1]
  | n + 1 => mul (pow p n) p

def strip (p : Coefficients) : Coefficients := (p.reverse.dropWhile (· == 0)).reverse

def constant? (p : Coefficients) : Option Rat :=
  match p.strip with
  | [] => some 0
  | [c] => some c
  | _ => none

end Coefficients

end PartialFractions.Symbolic
