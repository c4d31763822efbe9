import PartialFractions.Formula
import PartialFractions.Solution

/-!
The derivation behind the solved constants, line by line up to the antiderivative. Over linear
factors it ends in logarithms. Over factors x² + k the terms with x are substituted by u = x² + k
and end in logarithms; the other terms end in a logarithm of a ratio for k < 0 and in an arctangent
otherwise.
-/
namespace PartialFractions.Derivation

variable {K : Type}

def constantsLine (constants : Constants K) : Formula K :=
  .spaced (constants.map fun (label, v) => .equation (.latex label) (.number v))

/-- The label of the constant of integration, which must not be that of a solved constant. -/
def integrationConstant (labels : List String) : String := if "C" ∈ labels then "K" else "C"

def logarithm (argument : String) : Formula K := .beside ["\\ln ", .absolute (.latex argument)]

def squareRoot (v : K) : Formula K := .beside ["\\sqrt\x7b", .number v, "\x7d"]

def contents : List (Factor K) → Except Fault (Factor K × Factor K)
  | f :: g :: _ => .ok (f, g)
  | _ => .error .missingFactor

/-- The lines behind the identity for two linear factors. -/
def linearLines (constants : Constants K) (factors : List (Factor K)) :
    Except Fault (List (Formula K)) := do
  let [(_, a), (_, b)] := constants | throw (.wrongCount 2 constants.length)
  let (f, g) ← contents factors
  let a : Formula K := .number a
  let b : Formula K := .number b
  let f := f.content
  let g := g.content
  let constant := integrationConstant (constants.map (·.1))
  return [
    constantsLine constants,
    .sum [.quotient a f, .quotient b g],
    .sum [.integral (.quotient a f) "x", .integral (.quotient b g) "x"],
    .sum [.dotted [a, .integral (.quotient "1" f) "x"],
      .dotted [b, .integral (.quotient "1" g) "x"]],
    .sum [.dotted [a, logarithm f], .dotted [b, logarithm g], .latex constant]]

variable [Add K] [Sub K] [Mul K] [Div K] [Neg K] [Scalar K]

/-- The antiderivative of 1 / (x² - rate): a logarithm where the roots are real, else an
arctangent. -/
def reciprocalAntiderivative (rate : K) : Formula K :=
  if Scalar.isNegative (-rate) then
    .beside [
      .displayQuotient "1" (.beside ["2 \\cdot ", squareRoot rate]),
      " \\ln \\left| ",
      .displayQuotient (.beside ["x - ", squareRoot rate]) (.beside ["x + ", squareRoot rate]),
      " \\right|"]
  else
    .beside [
      .displayQuotient "1" (squareRoot (-rate)),
      " \\arctan \\left( ",
      .displayQuotient "x" (squareRoot (-rate)),
      " \\right)"]

/-- The solved numerator of a quadratic factor. -/
def affine (slope intercept : K) : Formula K :=
  .sum [.beside [.number slope, "x"], .number intercept]

/-- The integral of x / u after the substitution, where x cancels. -/
def cancelledIntegral (u : String) : Formula K :=
  .integral (.dotted [.displayQuotient "\\cancel\x7b x \x7d" u,
    .displayQuotient "1" "2\\cancel\x7b x \x7d"]) "u"

/-- The lines for constants a, b over the content `f` with rate `r`, and c, d over `g` with `s`. -/
def quadraticSteps (constants : Constants K) (a b c d : K) (f g : String) (r s : K) :
    List (Formula K) :=
  let two : K := Scalar.ofNat 2
  let constant := integrationConstant (constants.map (·.1))
  let reciprocal (content : String) : Formula K := .integral (.displayQuotient "1" content) "x"
  let last (u v : String) : Formula K :=
    .sum [
      .dotted [.number (a / two), logarithm u], .dotted [.number b, reciprocalAntiderivative r],
      .dotted [.number (c / two), logarithm v], .dotted [.number d, reciprocalAntiderivative s],
      .latex constant]
  let u := "u_\x7b1\x7d"
  let v := "u_\x7b2\x7d"
  [ constantsLine constants,
    .sum [.quotient (affine a b) f, .quotient (affine c d) g],
    .sum [.integral (.quotient (affine a b) f) "x", .integral (.quotient (affine c d) g) "x"],
    .sum [
      .integral (.displayQuotient (.beside [.number a, "x"]) f) "x",
      .integral (.displayQuotient (.number b) f) "x",
      .integral (.displayQuotient (.beside [.number c, "x"]) g) "x",
      .integral (.displayQuotient (.number d) g) "x"],
    .sum [
      .dotted [.number a, .integral (.displayQuotient "x" f) "x"],
      .dotted [.number b, reciprocal f],
      .dotted [.number c, .integral (.displayQuotient "x" g) "x"],
      .dotted [.number d, reciprocal g]],
    .spaced [.equation u f, .equation v g],
    .latex ("\\mathrm\x7bd\x7du = 2x ~\\mathrm\x7bd\x7dx ~~\\implies~~ "
      ++ "\\mathrm\x7bd\x7dx = \\dfrac\x7b1\x7d\x7b2x\x7d ~\\mathrm\x7bd\x7du"),
    .sum [
      .dotted [.number a, cancelledIntegral u], .dotted [.number b, reciprocal f],
      .dotted [.number c, cancelledIntegral v], .dotted [.number d, reciprocal g]],
    .sum [
      .dotted [.displayQuotient (.number a) "2", .integral (.displayQuotient "1" u) "u"],
      .dotted [.number b, reciprocal f],
      .dotted [.displayQuotient (.number c) "2", .integral (.displayQuotient "1" v) "u"],
      .dotted [.number d, reciprocal g]],
    last u v,
    last f g]

def quadraticLines (constants : Constants K) (factors : List (Factor K)) :
    Except Failure (List (Formula K)) := do
  let [(_, a), (_, b), (_, c), (_, d)] := constants
    | throw (.fault (.wrongCount 4 constants.length))
  let (f, g) ← (contents factors).mapError .fault
  let r ← Solution.rate f
  let s ← Solution.rate g
  return quadraticSteps constants a b c d f.content g.content r s

def lines (kind : ExpressionKind) (constants : Constants K) (factors : List (Factor K)) :
    Except Failure (List (Formula K)) :=
  match kind with
  | .linear => (linearLines constants factors).mapError .fault
  | _ => quadraticLines constants factors

end PartialFractions.Derivation
