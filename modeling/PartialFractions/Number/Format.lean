import PartialFractions.Failure
import PartialFractions.Number.Binary
import PartialFractions.Number.Layout
import PartialFractions.Number.Significant

/-!
The texts of numbers. In formulas a whole number is written with all its digits and without a
point, any other number with the fewest digits that read back or with a given count of them. In
records every number shows a point or an exponent.
-/
namespace PartialFractions.Number

/-- Numbers in full: positional from 0.0001 up to sixteen digits before the point. -/
def fullLayout : Layout := ⟨-4, 16, false⟩

/-- Numbers in records: in full, and told apart from counts by their point. -/
def recordLayout : Layout := ⟨-4, 16, true⟩

/-- Numbers rounded to `count` digits: positional while the leading digit is among those. -/
def roundedLayout (count : Nat) : Layout := ⟨-4, count, false⟩

private def signed (negative : Bool) (s : List Char) : List Char :=
  if negative then '-' :: s else s

private def infinityText (negative : Bool) : List Char := signed negative ['i', 'n', 'f']

private def undefinedText : List Char := ['n', 'a', 'n']

/-- The text of a number in a formula: whole numbers have no point, and zero has no sign. -/
def formulaChars (b : Binary) : List Char :=
  match b with
  | .undefined => undefinedText
  | .infinite negative => infinityText negative
  | .finite negative m q =>
    if Binary.isWhole m q then signed (negative && m ≠ 0) (Nat.toDigits 10 (Binary.wholePart m q))
    else signed negative (fullLayout.write (shortest m q))

theorem formulaChars_whole {m : Nat} {q : Int} (hm : m ≠ 0) (h : Binary.isWhole m q = true)
    (negative : Bool) : formulaChars (.finite negative m q) =
      (if negative then ['-'] else []) ++ Nat.toDigits 10 (Binary.wholePart m q) := by
  cases negative <;> simp [formulaChars, h, signed, hm]

theorem formulaChars_fraction {m : Nat} {q : Int} (h : Binary.isWhole m q = false)
    (negative : Bool) : formulaChars (.finite negative m q) =
      (if negative then ['-'] else []) ++ fullLayout.write (shortest m q) := by
  cases negative <;> simp [formulaChars, h, signed]

theorem formulaChars_zero (negative : Bool) (q : Int) :
    formulaChars (.finite negative 0 q) = ['0'] := by
  simp [formulaChars, Binary.isWhole, Binary.wholePart, signed]

def formulaText (v : Float) : String := String.ofList (formulaChars (.ofFloat v))

def significantCount (precision : Int) : Except PrecisionFault Nat :=
  if precision < 0 then .error .negative
  else if (power 2 63 : Int) ≤ precision then .error .tooManyDigits
  else if (power 2 31 : Int) ≤ precision then .error .tooBig
  else .ok precision.toNat

/-- The text of a number in a formula, with `precision` significant digits unless it is whole;
precision 0 asks for the fewest digits that read back. -/
def roundedChars (precision : Int) (b : Binary) : Except PrecisionFault (List Char) :=
  match b with
  | .finite negative m q =>
    if Binary.isWhole m q || precision = 0 then .ok (formulaChars b)
    else do
      let count ← significantCount precision
      return signed negative ((roundedLayout count).write (significant m q count))
  | _ =>
    if precision = 0 then .ok (formulaChars b)
    else do
      let _ ← significantCount precision
      return formulaChars b

def roundedText (precision : Int) (v : Float) : Except PrecisionFault String :=
  (roundedChars precision (.ofFloat v)).map String.ofList

/-- The text of a number in a record; zero keeps its sign. -/
def recordChars (b : Binary) : List Char :=
  match b with
  | .undefined => undefinedText
  | .infinite negative => infinityText negative
  | .finite negative m q =>
    signed negative (recordLayout.write (if m = 0 then ⟨0, 0⟩ else shortest m q))

def recordText (v : Float) : String := String.ofList (recordChars (.ofFloat v))

end PartialFractions.Number
