import PartialFractions.Bracket
import PartialFractions.Gap

/-!
Factorizations of a denominator: a scale times factors. A denominator with a parenthesis lists its
factors itself; any other one is a trinomial, which is taken apart by its roots.
-/
namespace PartialFractions

open Text Number

inductive ExpressionKind
  | linear
  | quadratic
  | mixed
  | unknown
  deriving DecidableEq, Repr

namespace ExpressionKind

def name : ExpressionKind → String
  | .linear => "linear"
  | .quadratic => "quadratic"
  | .mixed => "mixed"
  | .unknown => "unknown"

def ofPresence (linear quadratic : Bool) : ExpressionKind :=
  match linear, quadratic with
  | true, true => .mixed
  | true, false => .linear
  | false, true => .quadratic
  | false, false => .unknown

end ExpressionKind

inductive DenominatorForm (K : Type)
  | listed
  | trinomial (t : Trinomial K)

structure Factorization (K : Type) where
  form : DenominatorForm K
  scale : K
  factors : List (Factor K)

namespace Factorization

variable {K : Type}

def hasLinear (f : Factorization K) : Bool := f.factors.any (·.kind == .linear)

def hasQuadratic (f : Factorization K) : Bool := f.factors.any (·.kind == .quadratic)

def kind (f : Factorization K) : ExpressionKind := .ofPresence f.hasLinear f.hasQuadratic

variable [Add K] [Sub K] [Mul K] [Div K] [Neg K] [Scalar K]

/-- The factor that a bracket is, without the blanks at the ends of its content. -/
def bracketFactor (b : Bracket) : Except Fault (Factor K) := do
  let multiplicity ← match b.exponent with
    | some digits => readDigits digits
    | none => .ok 1
  return .ofContent (trim b.content) multiplicity

/-- The scale and the factors of the brackets in order; `leading` tells whether the first one is
the first of the denominator. -/
def bracketFactors (leading : Bool) (scale : K) :
    List Bracket → Except Failure (K × List (Factor K))
  | [] => .ok (scale, [])
  | b :: rest => do
    let (multiplier, bare) ← Gap.read leading b.gap
    let factor ← (bracketFactor b).mapError .fault
    let (scale, others) ← bracketFactors false (scale * multiplier) rest
    return (scale, bare ++ factor :: others)

/-- The scale and the factors that a denominator lists; one without a complete bracket has none. -/
def listed (denominator : List Char) : Except Failure (K × List (Factor K)) := do
  let (brackets, last) := Bracket.all denominator
  if brackets.isEmpty then return (Scalar.ofNat 1, [])
  let (scale, factors) ← bracketFactors true (Scalar.ofNat 1) brackets
  let (multiplier, bare) ← Gap.read false last
  return (scale * multiplier, factors ++ bare)

def discriminant (t : Trinomial K) : K := t.b * t.b - Scalar.ofNat 4 * t.a * t.c

/-- The scale and the factors of a trinomial. One without real roots, and a number, is a quadratic
factor as a whole. -/
def ofTrinomial (denominator : String) (t : Trinomial K) : K × List (Factor K) :=
  let whole : K × List (Factor K) := (Scalar.ofNat 1, [⟨.quadratic, denominator, 1, none⟩])
  let delta := discriminant t
  let twice := Scalar.ofNat 2 * t.a
  if !Scalar.isZero t.a then
    if Scalar.isPositive delta then
      (t.a, [.ofRoot ((-t.b + Scalar.sqrt delta) / twice) 1,
        .ofRoot ((-t.b - Scalar.sqrt delta) / twice) 1])
    else if Scalar.isZero delta then (t.a, [.ofRoot (-t.b / twice) 2])
    else whole
  else if !Scalar.isZero t.b then (t.b, [.ofRoot (-t.c / t.b) 1])
  else whole

/-- The factorization of a denominator, before its scale is judged. -/
def read (denominator : String) : Except Failure (Factorization K) := do
  if '(' ∈ denominator.toList then
    let (scale, factors) ← listed denominator.toList
    return ⟨.listed, scale, factors⟩
  else
    let t ← Trinomial.read denominator.toList
    let (scale, factors) := ofTrinomial denominator t
    return ⟨.trinomial t, scale, factors⟩

/-- The factorization of a denominator; a scale of zero is refused. -/
def ofDenominator (denominator : String) : Except Failure (Factorization K) := do
  let f ← read denominator
  if Scalar.isZero f.scale then throw (.refused (.badPolynomial denominator))
  return f

end Factorization

end PartialFractions
