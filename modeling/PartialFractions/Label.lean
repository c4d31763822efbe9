import PartialFractions.Failure

/-!
Labels of unknown constants: A to Z, then A1 to Z1, A2 to Z2, and so on.
-/
namespace PartialFractions.Label

/-- The label number `index`, counted from zero. -/
def ofNat (index : Nat) : String :=
  let letter := Char.ofNat ('A'.toNat + index % 26)
  let cycle := index / 26
  String.ofList (letter :: if cycle = 0 then [] else Nat.toDigits 10 cycle)

/-- The label with that number, which has to be natural. -/
def ofInt (index : Int) : Except Fault String :=
  match index with
  | .ofNat n => .ok (ofNat n)
  | .negSucc _ => .error (.negativeIndex index)

end PartialFractions.Label
