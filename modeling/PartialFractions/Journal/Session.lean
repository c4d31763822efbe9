import PartialFractions.Failure
import PartialFractions.Journal
import PartialFractions.Text.LetterCase
import PartialFractions.Text.Lines

/-!
Journal sessions: where the lines of the journal go, and which entries are severe enough for it. A
session starts silent; when it is set up, lines go to the error stream and, if one is named, to a
file, at the end of what the file holds.
-/
namespace PartialFractions.Journal

inductive Destination
  /-- nowhere -/
  | silent
  /-- no destination at all: messages that are severe go to the error stream, without more -/
  | missing
  /-- to the error stream and to the file, if there is one -/
  | streams (file : Option String)
  deriving DecidableEq, Repr

def Destination.handlers : Destination → List String
  | .silent => ["NullHandler"]
  | .missing => []
  | .streams none => ["StreamHandler"]
  | .streams (some _) => ["StreamHandler", "FileHandler"]

structure Session where
  /-- the least level that is written; `none` stands for the default one -/
  threshold : Option Level := none
  destination : Destination := .silent
  /-- the lines of every file that was opened -/
  files : List (String × List String) := []
  deriving DecidableEq, Repr

/-- What is done in the course of a session: it is set up, made silent, or told of an entry. -/
inductive Step
  | setup (level : String) (file : Option String)
  | reset
  | log (time : String) (entry : Entry)
  deriving DecidableEq, Repr

namespace Session

def defaultLevel : Level := .warning

/-- The threshold with that name in any case of letters; an unknown name means the default level.
Two names are taken by something else than a level. -/
def thresholdNamed (name : String) : Except Fault (Option Level) :=
  match name.toList.flatMap Text.capitals |> String.ofList with
  | "NOTSET" => .ok none
  | "BASIC_FORMAT" => .error .lineFormatAsLevel
  | "_STYLES" => .error .lineStylesAsLevel
  | name => .ok (some ((Level.ofName? name).getD defaultLevel))

def thresholdName (s : Session) : String := (s.threshold.map Level.name).getD "NOTSET"

def handlers (s : Session) : List String := s.destination.handlers

/-- The files with `lines` at the end of the one called `name`, which is opened if need be. -/
def append (files : List (String × List String)) (name : String) (lines : List String) :
    List (String × List String) :=
  if files.any (·.1 == name) then
    files.map fun (n, old) => if n == name then (n, old ++ lines) else (n, old)
  else files ++ [(name, lines)]

/-- The session set up anew; what the files hold stays. If the name of the level is refused, the
session is left without destination. -/
def setup (s : Session) (level : String) (file : Option String) : Session × Except Fault Unit :=
  match thresholdNamed level with
  | .error f => ({ s with destination := .missing }, .error f)
  | .ok threshold =>
    let file := file.filter (! ·.isEmpty)
    ({ threshold
       destination := .streams file
       files := match file with
        | some name => append s.files name []
        | none => s.files }, .ok ())

/-- The session made silent again, with the threshold it had. -/
def reset (s : Session) : Session := { s with destination := .silent }

def accepts (s : Session) (e : Entry) : Bool :=
  (s.threshold.getD defaultLevel).severity ≤ e.level.severity

def linesOf (s : Session) (time : String) (entries : List Entry) : List String :=
  (entries.filter s.accepts).flatMap fun e => Text.lines (e.line time ++ "\n")

def write (s : Session) (time : String) (entries : List Entry) : Session × List String :=
  match s.destination with
  | .silent => (s, [])
  | .missing =>
    let severe := entries.filter fun e => s.accepts e && defaultLevel.severity ≤ e.level.severity
    (s, severe.flatMap fun e => Text.lines (e.message ++ "\n"))
  | .streams none => (s, s.linesOf time entries)
  | .streams (some name) =>
    let lines := s.linesOf time entries
    ({ s with files := append s.files name lines }, lines)

def step (s : Session) : Step → Session × List String
  | .setup level file => ((s.setup level file).1, [])
  | .reset => (s.reset, [])
  | .log time e => s.write time [e]

def run (s : Session) : List Step → Session × List String
  | [] => (s, [])
  | step :: rest =>
    let (next, lines) := s.step step
    let (last, others) := next.run rest
    (last, lines ++ others)

end Session

end PartialFractions.Journal
