import PartialFractions.Failure
import PartialFractions.Number.Integer
import PartialFractions.Number.Scalar
import PartialFractions.Text.LetterCase
import PartialFractions.Wording

/-!
Settings: the limit on input, the form of the output, and the tolerance of verification. They start
from values of the environment.
-/
namespace PartialFractions

structure Settings where
  /-- how many characters an expression may have -/
  maxInputLength : Int := 10000
  /-- how many significant digits numbers have in formulas; 0 stands for as many as needed -/
  precision : Int := 10
  languageName : String := "pt"
  tolerance : Float := 1e-9

namespace Settings

def version : String := "1.0.0"

def language (s : Settings) : Language := .ofName s.languageName

abbrev Environment := String → Option String

/-- The value of a setting read by `read`, and `given` where the environment has none. -/
private def valueOr {α : Type} (given : α) (read : String → Except Fault α) :
    Option String → Except Fault α
  | none => .ok given
  | some text => read text

def readNumber (text : String) : Except Fault Float :=
  match Scalar.read? text.toList with
  | some v => .ok v
  | none => .error (.notNumber text)

/-- The settings that an environment makes; of several values that cannot be read the first one in
the order of the fields is told. -/
def ofEnvironment (environment : Environment) : Except Fault Settings := do
  let given : Settings := {}
  let maxInputLength ←
    valueOr given.maxInputLength Number.readInteger (environment "PARFRAC_MAX_INPUT_LENGTH")
  let precision ←
    valueOr given.precision Number.readInteger (environment "PARFRAC_OUTPUT_PRECISION")
  let languageName ←
    valueOr given.languageName (fun s => .ok (String.ofList (Text.lower s.toList)))
      (environment "PARFRAC_LANG")
  let tolerance ← valueOr given.tolerance readNumber (environment "PARFRAC_VERIFY_TOLERANCE")
  return { maxInputLength, precision, languageName, tolerance }

end Settings

end PartialFractions
