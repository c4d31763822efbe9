import PartialFractions.Factorization
import PartialFractions.Label
import PartialFractions.Term

/-!
The constants of a decomposition with two distinct factors, both linear or both of the form
x² + k. Over linear factors each constant is the numerator at one root, divided by the distance to
the other root; over x² - r and x² - s the constants follow from r - s in the same way.
-/
namespace PartialFractions

open Text

inductive SolvableShape (K : Type)
  | linear (first second : Factor K)
  | quadratic (first second : Factor K)

abbrev Constants (K : Type) := List (String × K)

namespace SolvableShape

variable {K : Type}

/-- The shape of the factors: two of them, of one kind, neither repeated. -/
def ofFactors (factors : List (Factor K)) (kind : ExpressionKind) :
    Except Refusal (SolvableShape K) :=
  if kind = .unknown then .error .unsupportedType
  else match factors with
    | [f, g] =>
      if f.multiplicity > 1 || g.multiplicity > 1 then .error .unsupportedShape
      else match kind with
        | .linear => .ok (.linear f g)
        | .quadratic => .ok (.quadratic f g)
        | _ => .error .unsupportedType
    | _ => .error .unsupportedShape

end SolvableShape

namespace Solution

variable {K : Type} [Add K] [Sub K] [Mul K] [Div K] [Neg K] [Scalar K]

/-- The degree of a sum; one without terms has degree 0. -/
def degree : List Term → Int
  | [] => 0
  | t :: rest => rest.foldl (fun d t => max d t.power) t.power

/-- The coefficient of a power. If it is no number, the first coefficient is told that is none. -/
def numericCoefficient (terms : List Term) (power : Int) : Except Failure K :=
  match (Term.valueAt terms power : Except Fault K) with
  | .ok v => .ok v
  | .error fault =>
    match terms.find? fun t => (Numeral.read? t.coefficient.toList).isNone with
    | some t => .error (.refused (.symbolicCoefficient t.coefficient))
    | none => .error (.fault fault)

/-- The coefficients of x and 1 in the numerator, divided by the scale of the denominator. -/
def numerator (terms : List Term) (scale : K) : Except Failure (K × K) := do
  if degree terms > 1 then throw (.refused (.numeratorDegree (degree terms)))
  let c₁ ← numericCoefficient terms 1
  let c₂ ← numericCoefficient terms 0
  if Scalar.isZero scale then throw (.fault .divisionByZero)
  return (c₁ / scale, c₂ / scale)

def root (f : Factor K) : Except Failure K :=
  match f.root.bind Root.value? with
  | some r => .ok r
  | none => .error (.refused (.missingRoot f.content))

/-- The number r of a factor x² - r. Its terms have powers 0 and 2 only, the first square has the
coefficient 1, and r is not zero. -/
def rate (f : Factor K) : Except Failure K := do
  let terms ← (Term.readAll f.content.toList).mapError .fault
  let refusal := Failure.refused (.unsupportedQuadratic f.content)
  if terms.all fun t => t.power = 0 || t.power = 2 then
    match (Term.valueAt terms 2 : Except Fault K), (Term.valueAt terms 0 : Except Fault K) with
    | .ok leading, .ok constant =>
      if Scalar.same leading (Scalar.ofNat 1) && !Scalar.isZero constant then return -constant
      else throw refusal
    | _, _ => throw refusal
  else throw refusal

def distinct (r s : K) : Except Failure Unit :=
  if Scalar.same r s then .error (.refused .repeatedFactor) else .ok ()

/-- A and B with (c₁ x + c₂) / ((x - r)(x - s)) = A / (x - r) + B / (x - s). -/
def overLinear (c₁ c₂ r s : K) : Constants K :=
  [(Label.ofNat 0, (c₁ * r + c₂) / (r - s)), (Label.ofNat 1, (c₁ * s + c₂) / (s - r))]

/-- A to D with (c₁ x + c₂) / ((x² - r)(x² - s)) = (A x + B) / (x² - r) + (C x + D) / (x² - s). -/
def overQuadratic (c₁ c₂ r s : K) : Constants K :=
  let a := c₁ / (r - s)
  let b := -c₂ / (s - r)
  [(Label.ofNat 0, a), (Label.ofNat 1, b), (Label.ofNat 2, -a), (Label.ofNat 3, -b)]

def ofShape (terms : List Term) (scale : K) : SolvableShape K → Except Failure (Constants K)
  | .linear f g => do
    let (c₁, c₂) ← numerator terms scale
    let r ← root f
    let s ← root g
    distinct r s
    return overLinear c₁ c₂ r s
  | .quadratic f g => do
    let (c₁, c₂) ← numerator terms scale
    let r ← rate f
    let s ← rate g
    distinct r s
    return overQuadratic c₁ c₂ r s

def constants (terms : List Term) (factors : List (Factor K)) (kind : ExpressionKind) (scale : K) :
    Except Failure (Constants K) := do
  let shape ← (SolvableShape.ofFactors factors kind).mapError .refused
  ofShape terms scale shape

end Solution

end PartialFractions
