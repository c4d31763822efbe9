import PartialFractions.CommandLine.Argument
import PartialFractions.Number.Integer

/-!
The options that a command line sets. Arguments are taken in order; what is no flag and no value of
one is refused in the end, unless help was asked for before.
-/
namespace PartialFractions.CommandLine

structure Options where
  eval : Option String := none
  solve : Bool := false
  expand : Bool := false
  verify : Bool := false
  lang : Option String := none
  precision : Option Int := none
  version : Bool := false
  logLevel : String := "WARNING"
  logFile : Option String := none
  healthCheck : Bool := false
  deriving DecidableEq, Repr

inductive Invocation
  | help
  | run (options : Options)
  deriving DecidableEq, Repr

namespace Options

def has (o : Options) : Flag → Bool
  | .solve => o.solve
  | .expand => o.expand
  | _ => false

/-- The options after a flag without value; `none` stands for help. -/
def set (o : Options) (flag : Flag) : Except UsageError (Option Options) :=
  match flag.conflict?.filter o.has with
  | some other => .error (.notBeside flag other)
  | none =>
    match flag with
    | .help => .ok none
    | .solve => .ok (some { o with solve := true })
    | .expand => .ok (some { o with expand := true })
    | .verify => .ok (some { o with verify := true })
    | .version => .ok (some { o with version := true })
    | .healthCheck => .ok (some { o with healthCheck := true })
    | _ => .error (.missingValue flag)

/-- The options after a flag with its value. -/
def put (o : Options) (flag : Flag) (value : String) : Except UsageError Options :=
  match flag.choices? with
  | some choices =>
    if value ∈ choices then
      match flag with
      | .lang => .ok { o with lang := some value }
      | _ => .ok { o with logLevel := value }
    else .error (.notChoice flag value choices)
  | none =>
    match flag with
    | .precision =>
      match Number.readInteger value with
      | .ok p => .ok { o with precision := some p }
      | .error _ => .error (.notInteger flag value)
    | .logFile => .ok { o with logFile := some value }
    | _ => .ok { o with eval := some value }

/-- How an argument with flags ends: in a flag with its value, or in one with nothing behind it. -/
inductive Ending
  | value (flag : Flag) (text : String)
  | pending (flag : Flag)
  deriving DecidableEq, Repr

/-- The flags that stand together in one argument: a flag and the text attached to it, which is the
flag's value or, behind a short flag without value, the letters of more short flags. -/
def cluster (flag : Flag) (short : Bool) : List Char → Except UsageError (List Flag × Ending)
  | [] => if flag.takesValue then .ok ([], .value flag "") else .error (.extraValue flag "")
  | c :: rest =>
    let attached := String.ofList (c :: rest)
    if flag.takesValue then .ok ([], .value flag attached)
    else match if short then Flag.ofName? (String.ofList ['-', c]) else none with
      | none => .error (.extraValue flag attached)
      | some next =>
        if rest.isEmpty then .ok ([flag], .pending next)
        else do
          let (flags, ending) ← cluster next true rest
          return (flag :: flags, ending)

def resolve (flag : Flag) (short : Bool) :
    Option (List Char) → Except UsageError (List Flag × Ending)
  | none => .ok ([], .pending flag)
  | some attached => cluster flag short attached

def setAll (o : Options) : List Flag → Except UsageError (Option Options)
  | [] => .ok (some o)
  | flag :: rest => do
    match ← o.set flag with
    | some o => setAll o rest
    | none => return none

/-- Takes the arguments in order. `extras` are those, in reverse, that found no use. -/
def take (o : Options) (extras : List String) : List Argument → Except UsageError Invocation
  | [] => if extras.isEmpty then .ok (.run o) else .error (.unrecognized extras.reverse)
  | .plain text :: rest => take o (text :: extras) rest
  | .separator :: rest => take o ("--" :: extras) rest
  | .unknown text :: rest => take o (text :: extras) rest
  | .flag flag short attached :: rest => do
    let (flags, ending) ← resolve flag short attached
    match ending with
    | .value last text =>
      match ← o.setAll flags with
      | some o => take (← o.put last text) extras rest
      | none => return .help
    | .pending last =>
      if last.takesValue then
        match rest with
        | .plain text :: rest =>
          match ← o.setAll flags with
          | some o => take (← o.put last text) extras rest
          | none => return .help
        | _ => throw (.missingValue last)
      else
        match ← o.setAll (flags ++ [last]) with
        | some o => take o extras rest
        | none => return .help

def ofTexts (texts : List String) : Except UsageError Invocation := do
  take {} [] (← Argument.ofTexts texts)

end Options

end PartialFractions.CommandLine
