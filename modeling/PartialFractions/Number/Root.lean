/-!
Roots of natural numbers, rounded down.
-/
namespace PartialFractions.Number

/-- The greatest number whose `degree`-th power is at most `n`, if `found` is what its binary digits
above the last `count` make. -/
def rootFrom (degree n : Nat) : Nat → Nat → Nat
  | 0, found => found
  | count + 1, found =>
    let next := found + Nat.pow 2 count
    rootFrom degree n count (if Nat.pow next degree ≤ n then next else found)

def root (degree n : Nat) : Nat := rootFrom degree n (n.log2 / degree + 1) 0

def exactRoot? (degree n : Nat) : Option Nat :=
  if Nat.pow (root degree n) degree = n then some (root degree n) else none

end PartialFractions.Number
