import PartialFractions.CommandLine.Options
import PartialFractions.Journal.Entries
import PartialFractions.Journal.Session

/-!
The program behind the command line, as a function of its arguments and its input. It works on one
expression, or on the lines of the input up to one that ends the session.
-/
namespace PartialFractions.CommandLine

open Text Journal

/-- What the surroundings of the program tell it. -/
structure Surroundings where
  /-- the time that stands in front of journal lines -/
  time : String
  /-- the version of the algebra system that is at hand for comparison -/
  algebraVersion : String
  /-- the decomposition that the algebra system gives -/
  reference : String

/-- What a part of the program prints and enters into the journal, and how it ends. -/
structure Printed where
  output : String
  entries : List Entry
  status : Except Fault Nat

namespace Printed

/-- The two parts one after the other; the second is missing if the first ends in a fault. -/
def followedBy (first second : Printed) : Printed :=
  match first.status with
  | .error _ => first
  | .ok _ => ⟨first.output ++ second.output, first.entries ++ second.entries, second.status⟩

def line (text : String) (status : Nat) : Printed := ⟨text ++ "\n", [], .ok status⟩

end Printed

structure Task where
  expand : Bool
  verify : Bool

def Task.request (t : Task) : Request := if t.expand then .expand else .solve

def refusalReport (settings : Settings) (text : String) (r : Refusal) : Printed :=
  { Printed.line ("Error: " ++ r.message settings.language) 1 with
    entries := [rejection settings.language text r] }

def failureReport (settings : Settings) (text : String) : Failure → Printed
  | .refused r => refusalReport settings text r
  | .fault f => ⟨"", [], .error f⟩

def verificationReport (around : Surroundings) (settings : Settings) (text : String)
    (d : Decomposition Float) : Printed :=
  let result := Verification.firstMismatch settings.tolerance d
  match result with
  | .error failure =>
    let report := failureReport settings text failure
    { report with entries := ofVerification d result ++ report.entries }
  | .ok mismatch =>
    let verdict := if mismatch.isNone then "OK" else "MISMATCH"
    let reference :=
      if Verification.isRational d then "% sympy: " ++ around.reference ++ "\n" else ""
    { output := "% verification: " ++ verdict ++ "\n" ++ reference
      entries := ofVerification d result
      status := .ok 0 }

def processExpression (around : Surroundings) (settings : Settings) (task : Task) (text : String) :
    Printed :=
  match decompose settings (some text) with
  | .error failure => failureReport settings text failure
  | .ok d =>
    let entries := ofDecomposition d ++ ofAnswer task.request d
    match task.request.answer settings d with
    | .error failure =>
      let report := failureReport settings text failure
      { report with entries := entries ++ report.entries }
    | .ok latex =>
      let derivation : Printed := ⟨latex ++ "\n", entries, .ok 0⟩
      if task.verify && !task.expand then
        derivation.followedBy (verificationReport around settings text d)
      else derivation

def prompt : String := ">>> "

def banner : String :=
  "parfrac " ++ Settings.version ++ " - type 'quit' to exit\nExample: "
    ++ "\\int \\frac\x7bAx + B\x7d\x7b(x - x_\x7b1\x7d)(x - x_\x7b2\x7d)\x7d ~\\mathrm\x7bd\x7dx\n"

inductive Line
  | blank
  | leave
  | expression (text : String)
  deriving DecidableEq, Repr

/-- The meaning of a line; blanks around it and the case of the words to leave do not count. -/
def Line.ofText (text : String) : Line :=
  let s := trim text.toList
  if s.isEmpty then .blank
  else if String.ofList (lower s) ∈ ["quit", "exit"] then .leave
  else .expression (String.ofList s)

def interact (around : Surroundings) (settings : Settings) (task : Task) : List String → Printed
  | [] => Printed.line prompt 0
  | line :: rest =>
    match Line.ofText line with
    | .blank => Printed.followedBy ⟨prompt, [], .ok 0⟩ (interact around settings task rest)
    | .leave => ⟨prompt, [], .ok 0⟩
    | .expression text =>
      let printed := processExpression around settings task text
      { printed with output := prompt ++ printed.output }.followedBy
        (interact around settings task rest)

structure Check where
  line : String
  passed : Bool
  entries : List Entry

def linearCheck (settings : Settings) : Check :=
  match decompose settings (some "\\frac\x7b5x + 3\x7d\x7b(x + 2)(x - 2)\x7d") with
  | .error failure =>
    ⟨"[FAIL] Linear decomposition check failed: " ++ failure.message settings.language, false, []⟩
  | .ok d =>
    let entries := ofDecomposition d ++ ofConstants d
    match d.constants with
    | .error failure =>
      ⟨"[FAIL] Linear decomposition check failed: " ++ failure.message settings.language, false,
        entries⟩
    | .ok constants =>
      if constants == [("A", 1.75), ("B", 3.25)] then
        ⟨"[OK] Linear decomposition works", true, entries⟩
      else
        ⟨"[FAIL] Linear decomposition: expected A=1.75, B=3.25, got " ++ constantsText constants,
          false, entries⟩

def quadraticCheck (settings : Settings) : Check :=
  match decompose settings (some "\\frac\x7b2x + 1\x7d\x7b(x^2 + 1)(x^2 + 4)\x7d") with
  | .error failure =>
    ⟨"[FAIL] Quadratic verification check failed: " ++ failure.message settings.language, false,
      []⟩
  | .ok d =>
    let result := Verification.firstMismatch settings.tolerance d
    let entries := ofDecomposition d ++ ofVerification d result
    match result with
    | .error failure =>
      ⟨"[FAIL] Quadratic verification check failed: " ++ failure.message settings.language, false,
        entries⟩
    | .ok mismatch =>
      if mismatch.isNone then
        ⟨"[OK] Quadratic decomposition verified against SymPy", true, entries⟩
      else ⟨"[FAIL] Quadratic decomposition does not match SymPy", false, entries⟩

private def rule : String := String.ofList (List.replicate 50 '-')

def healthReport (around : Surroundings) (settings : Settings) : Printed :=
  let checks : List Check :=
    [⟨"[OK] SymPy " ++ around.algebraVersion ++ " imported successfully", true, []⟩,
      linearCheck settings, quadraticCheck settings]
  let passed := (checks.filter (·.passed)).length
  let failed := checks.length - passed
  let count := "Health check: " ++ toString passed ++ " passed, " ++ toString failed ++ " failed"
  let lines := "Running parfrac health check..." :: rule :: checks.map (·.line) ++ [rule, count]
  { output := String.join (lines.map (· ++ "\n"))
    entries := checks.flatMap (·.entries)
    status := .ok (if failed = 0 then 0 else 1) }

def Options.override (o : Options) (settings : Settings) : Settings :=
  { settings with
    precision := match o.precision with
      | some p => if 0 < p then p else settings.precision
      | none => settings.precision
    languageName := o.lang.getD settings.languageName }

def Options.task (o : Options) : Task := ⟨o.expand, o.verify⟩

/-- What the program does, if it does not work on the lines of the input. -/
def Options.single? (o : Options) (around : Surroundings) (settings : Settings) : Option Printed :=
  if o.version then some (.line Settings.version 0)
  else if o.healthCheck then some (healthReport around settings)
  else o.eval.map fun text =>
    let s := trim text.toList
    if s.isEmpty then .line "Error: Empty input. Please enter a LaTeX fraction." 1
    else processExpression around settings o.task (String.ofList s)

def inputLines (text : String) : List String :=
  let lines := (pieces '\n' text.toList).map String.ofList
  if lines.getLast? == some "" then lines.dropLast else lines

def Options.run (o : Options) (around : Surroundings) (settings : Settings) (input : String) :
    Printed :=
  match o.single? around settings with
  | some printed => printed
  | none =>
    Printed.followedBy ⟨banner, [], .ok 0⟩
      (interact around settings o.task (inputLines input))

structure Report where
  status : Except Fault Nat
  output : String
  errorLines : List String
  files : List (String × List String)

def helpText : String :=
  "usage: parfrac [options]\n\noptions:\n"
    ++ String.join (Flag.all.map fun f => "  " ++ ", ".intercalate f.names ++ "\n")

/-- Runs the program on a command line. What it overrides in the settings stays. -/
def execute (around : Surroundings) (settings : Settings) (arguments : List String)
    (input : String) : Settings × Report :=
  match Options.ofTexts arguments with
  | .error e => (settings, ⟨.ok 2, "", lines e.report, []⟩)
  | .ok .help => (settings, ⟨.ok 0, helpText, [], []⟩)
  | .ok (.run options) =>
    let settings := options.override settings
    let printed := options.run around settings input
    let (session, _) := ({} : Session).setup options.logLevel options.logFile
    let (session, written) := session.write around.time printed.entries
    (settings, ⟨printed.status, printed.output, written, session.files⟩)

end PartialFractions.CommandLine
