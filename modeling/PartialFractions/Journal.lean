/-!
Journal entries: a level, the part of the program that made the entry, a message, and the code of
the refusal that it tells of.
-/
namespace PartialFractions.Journal

inductive Level
  | debug
  | info
  | warning
  | error
  | critical
  deriving DecidableEq, Repr

namespace Level

def severity : Level → Nat
  | .debug => 10
  | .info => 20
  | .warning => 30
  | .error => 40
  | .critical => 50

def name : Level → String
  | .debug => "DEBUG"
  | .info => "INFO"
  | .warning => "WARNING"
  | .error => "ERROR"
  | .critical => "CRITICAL"

/-- The level with that name; two levels have a second name. -/
def ofName? : String → Option Level
  | "DEBUG" => some .debug
  | "INFO" => some .info
  | "WARNING" | "WARN" => some .warning
  | "ERROR" => some .error
  | "CRITICAL" | "FATAL" => some .critical
  | _ => none

end Level

structure Entry where
  level : Level
  code : Option String
  source : String
  message : String
  deriving DecidableEq, Repr

/-- The line of an entry; a code that is not empty follows the level. -/
def line (time level : String) (code : Option String) (source message : String) : String :=
  let level := match code with
    | none | some "" => level
    | some c => level ++ ":" ++ c
  time ++ " [" ++ level ++ "] " ++ source ++ ": " ++ message

def Entry.line (e : Entry) (time : String) : String :=
  Journal.line time e.level.name e.code e.source e.message

def source (part : Option String) : String :=
  match part with
  | none => "parfrac"
  | some part => "parfrac." ++ part

end PartialFractions.Journal
