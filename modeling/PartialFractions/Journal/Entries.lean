import PartialFractions.Journal
import PartialFractions.Outcome
import PartialFractions.Verification

/-!
The entries that a computation leaves in the journal. They follow from its results: what was read,
what was solved, and why something was not solved.
-/
namespace PartialFractions.Journal

open Text Number

def listText (items : List String) : String := "[" ++ ", ".intercalate items ++ "]"

def constantsText (constants : Constants Float) : String :=
  "\x7b" ++ ", ".intercalate (constants.map fun (label, v) => quoted label ++ ": " ++ recordText v)
    ++ "\x7d"

private def entry (level : Level) (part message : String) : Entry :=
  ⟨level, none, source (some part), message⟩

def ofFactorization (denominator : String) (f : Factorization Float) : List Entry :=
  let coefficients := match f.form with
    | .listed => []
    | .trinomial t =>
      [entry .debug "factorizer" ("Implicit denominator coefficients a=" ++ recordText t.a ++ " b="
        ++ recordText t.b ++ " c=" ++ recordText t.c)]
  let mode := match f.form with
    | .listed => "explicit"
    | .trinomial _ => "implicit"
  coefficients ++
    [entry .debug "factorizer" ("Factorized " ++ quoted denominator ++ " (" ++ mode
      ++ " mode, scale " ++ recordText f.scale ++ "): "
      ++ listText (f.factors.map Factor.description))]

def ofDecomposition (d : Decomposition Float) : List Entry :=
  ofFactorization d.fraction.denominator d.factorization ++
    [entry .debug "partial_fraction" ("Parsed " ++ quoted d.fraction.numerator ++ " / "
      ++ quoted d.fraction.denominator ++ " as " ++ d.kind.name ++ " with "
      ++ toString d.factorization.factors.length ++ " factor(s), scale "
      ++ recordText d.factorization.scale)]

/-- What is told of the constants: their values, or why the factors are not of a solvable shape. -/
def ofConstants (d : Decomposition Float) : List Entry :=
  let factors := d.factorization.factors
  match SolvableShape.ofFactors factors d.kind with
  | .error .unsupportedShape =>
    [entry .info "solver" ("Unsupported factor shape: " ++ toString factors.length
      ++ " factor(s), multiplicities " ++ listText (factors.map (toString ·.multiplicity)))]
  | .error _ =>
    if d.kind = .unknown then []
    else [entry .info "solver" ("Unsupported expression type: " ++ d.kind.name)]
  | .ok _ =>
    match d.constants with
    | .ok constants => [entry .debug "solver" ("Solved constants: " ++ constantsText constants)]
    | .error _ => []

def ofAnswer (request : Request) (d : Decomposition Float) : List Entry :=
  match request with
  | .expand => []
  | .solve => ofConstants d

def ofFault (request : Request) (f : Fault) : List Entry :=
  let name := match request with
    | .expand => "expand"
    | .solve => "solve"
  if f.kind.isContained then
    [entry .error "api" ("Unexpected " ++ name ++ " error: " ++ f.message)]
  else []

def ofRequest (settings : Settings) (request : Request) (text : Option String) : List Entry :=
  match decompose settings text with
  | .error (.refused _) => []
  | .error (.fault f) => ofFault request f
  | .ok d =>
    let fault := match request.answer settings d with
      | .error (.fault f) => ofFault request f
      | _ => []
    ofDecomposition d ++ ofAnswer request d ++ fault

def ofValidation (settings : Settings) (text : Option String) : List Entry :=
  match decompose settings text with
  | .ok d => ofDecomposition d
  | .error _ => []

/-- The entries of a verification. Nothing is told of the constants if the fraction is not read. -/
def ofVerification (d : Decomposition Float)
    (result : Except Failure (Option (Verification.Mismatch Float))) : List Entry :=
  let constants := match Verification.partsOf d with
    | .ok _ => ofConstants d
    | .error _ => []
  constants ++ match result with
    | .ok (some m) =>
      [entry .warning "verify" ("Decomposition mismatch at x=" ++ recordText m.point ++
        ": expected " ++ recordText m.expected ++ ", got " ++ recordText m.actual)]
    | _ => []

def rejection (language : Language) (text : String) (r : Refusal) : Entry :=
  { entry .debug "cli" ("Rejected " ++ quoted text ++ ": " ++ r.message language) with
    code := some r.code.name }

end PartialFractions.Journal
