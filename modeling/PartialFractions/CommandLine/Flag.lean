/-!
The flags of the command line, with their names in the order in which they are listed.
-/
namespace PartialFractions.CommandLine

inductive Flag
  | help
  | eval
  | solve
  | expand
  | verify
  | lang
  | precision
  | version
  | logLevel
  | logFile
  | healthCheck
  deriving DecidableEq, Repr

namespace Flag

def all : List Flag :=
  [.help, .eval, .solve, .expand, .verify, .lang, .precision, .version, .logLevel, .logFile,
    .healthCheck]

def names : Flag → List String
  | .help => ["-h", "--help"]
  | .eval => ["-e", "--eval"]
  | .solve => ["--solve"]
  | .expand => ["--expand"]
  | .verify => ["--verify"]
  | .lang => ["--lang"]
  | .precision => ["-p", "--precision"]
  | .version => ["-v", "--version"]
  | .logLevel => ["--log-level"]
  | .logFile => ["--log-file"]
  | .healthCheck => ["--health-check"]

def takesValue : Flag → Bool
  | .eval | .lang | .precision | .logLevel | .logFile => true
  | _ => false

/-- The only values that a flag takes, if they are limited. -/
def choices? : Flag → Option (List String)
  | .lang => some ["pt", "en"]
  | .logLevel => some ["DEBUG", "INFO", "WARNING", "ERROR"]
  | _ => none

/-- The flag that must not stand beside this one. -/
def conflict? : Flag → Option Flag
  | .solve => some .expand
  | .expand => some .solve
  | _ => none

def table : List (String × Flag) := all.flatMap fun f => f.names.map (·, f)

def ofName? (name : String) : Option Flag := table.lookup name

def title (f : Flag) : String := "/".intercalate f.names

end Flag

end PartialFractions.CommandLine
