import PartialFractions.CommandLine.Program
import PartialFractions.Journal.Timestamp
import Std.Time.DateTime.Timestamp

/-!
The program: reads the command line, the environment and the input, and prints what the pure part
decides. Journal lines are stamped with the time at which they are written.
-/
namespace PartialFractions.CommandLine

/-- No algebra system is at hand when the program runs alone. -/
def standalone (time : String) : Surroundings := ⟨time, "(none)", "(none)"⟩

def now : IO String := do
  let t ← Std.Time.Timestamp.now
  match Journal.timestamp (Float.ofInt t.toNanosecondsSinceUnixEpoch.val / 1000000000) with
  | .ok text => return text
  | .error f => throw (IO.userError f.message)

def readEnvironment : IO Settings.Environment := do
  let names := ["PARFRAC_MAX_INPUT_LENGTH", "PARFRAC_OUTPUT_PRECISION", "PARFRAC_LANG",
    "PARFRAC_VERIFY_TOLERANCE"]
  let values ← names.mapM fun name => do return (name, ← IO.getEnv name)
  return fun name => (values.lookup name).join

def writeJournal (session : Journal.Session) (entries : List Journal.Entry) : IO Unit := do
  let (_, lines) := session.write (← now) entries
  for line in lines do IO.eprintln line
  if let .streams (some name) := session.destination then
    let file ← IO.FS.Handle.mk name .append
    for line in lines do file.putStrLn line

/-- Prints a part of the program; a fault ends the program. -/
def print (session : Journal.Session) (printed : Printed) : IO UInt32 := do
  IO.print printed.output
  (← IO.getStdout).flush
  writeJournal session printed.entries
  match printed.status with
  | .ok n => return n.toUInt32
  | .error f => throw (IO.userError f.message)

partial def converse (session : Journal.Session) (settings : Settings) (task : Task) :
    IO UInt32 := do
  IO.print prompt
  (← IO.getStdout).flush
  let line ← (← IO.getStdin).getLine
  if line.isEmpty then
    IO.println ""
    return 0
  match Line.ofText line with
  | .leave => return 0
  | .blank => converse session settings task
  | .expression text =>
    discard <| print session (processExpression (standalone (← now)) settings task text)
    converse session settings task

def start (settings : Settings) (options : Options) : IO UInt32 := do
  let (session, _) := ({} : Journal.Session).setup options.logLevel options.logFile
  let settings := options.override settings
  match options.single? (standalone (← now)) settings with
  | some printed => print session printed
  | none =>
    IO.print banner
    converse session settings options.task

end PartialFractions.CommandLine

open PartialFractions PartialFractions.CommandLine in
def main (arguments : List String) : IO UInt32 := do
  match Settings.ofEnvironment (← readEnvironment) with
  | .error f =>
    IO.eprintln f.message
    return 1
  | .ok settings =>
    match Options.ofTexts arguments with
    | .error e =>
      IO.eprint e.report
      return 2
    | .ok .help =>
      IO.print helpText
      return 0
    | .ok (.run options) => start settings options
