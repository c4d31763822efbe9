/-!
Sets of characters given as ascending, disjoint ranges of code points.
-/
namespace PartialFractions.Text

/-- Membership in a set given by ascending ranges; the search stops at the first range beyond. -/
def inRanges : List (Nat × Nat) → Nat → Bool
  | [], _ => false
  | (low, high) :: rest, n => if n < low then false else n ≤ high || inRanges rest n

end PartialFractions.Text
