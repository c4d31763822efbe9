import PartialFractions.Derivation
import PartialFractions.Formula.Rendering
import PartialFractions.Fraction
import PartialFractions.Template

/-!
Decompositions: an expression with its fraction taken apart. It can be expanded into the template
with unknown constants, or solved into a derivation that ends in the antiderivative.
-/
namespace PartialFractions

open Text

structure Decomposition (K : Type) where
  fraction : Fraction
  terms : List Term
  factorization : Factorization K

namespace Decomposition

variable {K : Type} [Add K] [Sub K] [Mul K] [Div K] [Neg K] [Scalar K]

/-- Takes the fraction in `text` apart; a text beyond `limit` characters is refused. -/
def ofText (limit : Int) (text : Option String) : Except Failure (Decomposition K) := do
  let text ← (checkInput limit text).mapError .refused
  let fraction ← (Fraction.ofText text).mapError .refused
  let terms ← (Term.readAll fraction.numerator.toList).mapError .fault
  let factorization ← Factorization.ofDenominator fraction.denominator
  return ⟨fraction, terms, factorization⟩

def kind (d : Decomposition K) : ExpressionKind := d.factorization.kind

/-- The lines that do not need the constants. -/
def identityLines (d : Decomposition K) : List (Formula K) :=
  Template.identityLines d.fraction.numerator d.fraction.denominator d.factorization.factors
    d.factorization.scale

def expand (d : Decomposition K) (precision : Int) : Except Fault String :=
  Formula.renderArray precision d.identityLines

def constants (d : Decomposition K) : Except Failure (Constants K) :=
  Solution.constants d.terms d.factorization.factors d.kind d.factorization.scale

def lines (d : Decomposition K) : Except Failure (List (Formula K)) := do
  let constants ← d.constants
  let steps ← Derivation.lines d.kind constants d.factorization.factors
  return d.identityLines ++ steps

def solve (d : Decomposition K) (precision : Int) : Except Failure String := do
  let lines ← d.lines
  (Formula.renderArray precision lines).mapError .fault

def description (d : Decomposition K) : String :=
  "PartialFraction(numerator=" ++ quoted d.fraction.numerator ++ ", denominator="
    ++ quoted d.fraction.denominator ++ ", type=" ++ quoted d.kind.name ++ ")"

end Decomposition

end PartialFractions
