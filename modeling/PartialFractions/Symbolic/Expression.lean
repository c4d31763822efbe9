import PartialFractions.Symbolic.Value

/-!
Symbolic expressions and their order. In a sum or a product the parts stand in that order, with a
number in front, so equal expressions are written alike; and since the order decides in which
sequence numbers are added and multiplied, it decides how results are rounded.
-/
namespace PartialFractions.Symbolic

open Number

inductive Expression
  | number (v : Value)
  | symbol (name : String)
  | power (base exponent : Expression)
  | product (factors : List Expression)
  | sum (terms : List Expression)
  deriving Repr

/-- The class of a number in the order: small whole numbers and infinite ones come first. -/
def Value.rank : Value → Nat
  | .exact q =>
    if q = 0 then 0 else if q = 1 then 1 else if q = 1 / 2 then 2 else if q = -1 then 5
    else if q.den = 1 then 7 else 8
  | .infinite negative => if negative then 6 else 3
  | .undefined => 4
  | .rounded _ => 9
  | .pole => 17
  | .imaginary => 18

def compareRat (a b : Rat) : Ordering := (compare a.num b.num).then (compare a.den b.den)

/-- Binary numbers compare by sign, size of the mantissa, exponent and width. -/
def compareWide (a b : Wide) : Ordering :=
  (compare a.isNegative.toNat b.isNegative.toNat).then <|
    (compare a.mantissa.natAbs b.mantissa.natAbs).then <|
    (compare a.exponent b.exponent).then (compare a.width b.width)

def Value.compare (a b : Value) : Ordering :=
  (Ord.compare a.rank b.rank).then <|
    match a, b with
    | .exact a, .exact b => compareRat a b
    | .rounded a, .rounded b => compareWide a b
    | _, _ => .eq

namespace Expression

def zero : Expression := .number .zero

def one : Expression := .number .one

def x : Expression := .symbol "x"

/-- The class of a symbol in the order: the names of constants come before other ones. -/
def symbolRank : String → Nat
  | "E" => 10
  | "pi" => 11
  | "I" => 12
  | _ => 13

def rank : Expression → Nat
  | .number v => v.rank
  | .symbol name => symbolRank name
  | .power .. => 14
  | .product _ => 15
  | .sum _ => 16

mutual

/-- The order of expressions: by class, then by the count of the parts, then part by part. -/
def compare : Expression → Expression → Ordering
  | .number a, .number b => a.compare b
  | .symbol s, .symbol t => (Ord.compare (symbolRank s) (symbolRank t)).then (Ord.compare s t)
  | .power b e, .power c f => (compare b c).then (compare e f)
  | .product fs, .product gs =>
    (Ord.compare fs.length gs.length).then (compareParts fs gs)
  | .sum ts, .sum us => (Ord.compare ts.length us.length).then (compareParts ts us)
  | a, b => Ord.compare a.rank b.rank

def compareParts : List Expression → List Expression → Ordering
  | a :: as, b :: bs => (compare a b).then (compareParts as bs)
  | _, _ => .eq

end

def same (a b : Expression) : Bool := compare a b == .eq

def arrange (parts : List Expression) : List Expression :=
  parts.mergeSort fun a b => (compare a b).isLE

def isSum : Expression → Bool
  | .sum _ => true
  | _ => false

end Expression

end PartialFractions.Symbolic
