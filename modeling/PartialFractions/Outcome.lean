import PartialFractions.Decomposition
import PartialFractions.Settings

/-!
Outcomes of an expression that is expanded, solved or checked: a derivation, or a code with a
message. The faults that are contained share one code.
-/
namespace PartialFractions

inductive Request
  | expand
  | solve
  deriving DecidableEq, Repr

inductive Outcome
  | derived (latex kind : Option String)
  | failed (code message : Option String)
  deriving DecidableEq, Repr

def decompose (settings : Settings) (text : Option String) :
    Except Failure (Decomposition Float) :=
  Decomposition.ofText settings.maxInputLength text

namespace Request

def answer (request : Request) (settings : Settings) (d : Decomposition Float) :
    Except Failure String :=
  match request with
  | .expand => (d.expand settings.precision).mapError .fault
  | .solve => d.solve settings.precision

def faultMessage : Request → String
  | .expand => "Expand failed unexpectedly"
  | .solve => "Solve failed unexpectedly"

end Request

namespace Outcome

def ok : Outcome → Bool
  | .derived .. => true
  | .failed .. => false

/-- The outcome of a request; a fault that is not contained is passed on. -/
def ofText (settings : Settings) (request : Request) (text : Option String) :
    Except Fault Outcome :=
  let result := do
    let d ← decompose settings text
    return (← request.answer settings d, d.kind)
  match result with
  | .ok (latex, kind) => .ok (.derived (some latex) (some kind.name))
  | .error (.refused r) => .ok (.failed (some r.code.name) (some (r.message settings.language)))
  | .error (.fault f) =>
    if f.kind.isContained then .ok (.failed (some "INTERNAL_ERROR") (some request.faultMessage))
    else .error f

private def quotedOrNone : Option String → String
  | some s => Text.quoted s
  | none => "None"

def description : Outcome → String
  | .derived latex kind =>
    "TraceResult(ok=True, expression_type=" ++ quotedOrNone kind ++ ", latex="
      ++ quotedOrNone latex ++ ")"
  | .failed code message =>
    "TraceResult(ok=False, code=" ++ quotedOrNone code ++ ", error=" ++ quotedOrNone message ++ ")"

end Outcome

/-- Whether an expression can be taken apart: `none` if so, else the message. -/
def validate (settings : Settings) (text : Option String) : Except Fault (Option String) :=
  match decompose settings text with
  | .ok _ => .ok none
  | .error (.refused r) => .ok (some (r.message settings.language))
  | .error (.fault f) => .error f

end PartialFractions
