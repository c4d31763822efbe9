import PartialFractions.Text.DecimalDigit

/-!
Digits at the front of a text, and the whole number that a row of digits stands for.
-/
namespace PartialFractions.Number

open Text

/-- The digits at the front, which `value?` tells apart, and the text behind them. A low line
between two digits is skipped; `inside` tells whether one may stand in front. -/
def digitsFrom (value? : Char → Option Nat) (inside : Bool) : List Char → List Nat × List Char
  | [] => ([], [])
  | c :: rest =>
    if inside && c == '_' then
      match digitsFrom value? false rest with
      | ([], _) => ([], c :: rest)
      | group => group
    else
      match value? c with
      | none => ([], c :: rest)
      | some d =>
        let (ds, after) := digitsFrom value? true rest
        (d :: ds, after)

def digitGroup (s : List Char) : List Nat × List Char := digitsFrom digit? false s

def ofDigitsIn (base : Nat) (ds : List Nat) : Nat := ds.foldl (fun n d => base * n + d) 0

def ofDigits (ds : List Nat) : Nat := ofDigitsIn 10 ds

/-- Whether a minus sign stands in front, and the text behind a sign of either kind. -/
def splitSign : List Char → Bool × List Char
  | '-' :: rest => (true, rest)
  | '+' :: rest => (false, rest)
  | s => (false, s)

end PartialFractions.Number
