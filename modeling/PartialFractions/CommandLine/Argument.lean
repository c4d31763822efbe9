import PartialFractions.CommandLine.Flag
import PartialFractions.Text.Cut
import PartialFractions.Text.DecimalDigit
import PartialFractions.Text.Quoted

/-!
Arguments of the command line told apart: plain texts, flags with the value attached to them, and
texts that look like a flag but are none. A flag may be shortened as long as no other one starts
in the same way. Behind a lone `--` every argument is plain.
-/
namespace PartialFractions.CommandLine

open Text

inductive Argument
  | plain (text : String)
  | separator
  | unknown (text : String)
  /-- a flag, whether its name is a short one, and the text in the same argument behind the name -/
  | flag (flag : Flag) (short : Bool) (attached : Option (List Char))
  deriving DecidableEq, Repr

inductive UsageError
  | ambiguous (text : String) (names : List String)
  | unrecognized (texts : List String)
  | missingValue (flag : Flag)
  | notInteger (flag : Flag) (text : String)
  | notChoice (flag : Flag) (text : String) (choices : List String)
  | notBeside (flag other : Flag)
  | extraValue (flag : Flag) (text : String)
  deriving DecidableEq, Repr

namespace UsageError

private def about (flag : Flag) (problem : String) : String :=
  "argument " ++ flag.title ++ ": " ++ problem

def message : UsageError → String
  | .ambiguous text names =>
    "ambiguous option: " ++ text ++ " could match " ++ ", ".intercalate names
  | .unrecognized texts => "unrecognized arguments: " ++ " ".intercalate texts
  | .missingValue flag => about flag "expected one argument"
  | .notInteger flag text => about flag ("invalid int value: " ++ quoted text)
  | .notChoice flag text choices =>
    about flag ("invalid choice: " ++ quoted text ++ " (choose from "
      ++ ", ".intercalate (choices.map quoted) ++ ")")
  | .notBeside flag other => about flag ("not allowed with argument " ++ other.title)
  | .extraValue flag text => about flag ("ignored explicit argument " ++ quoted text)

def report (e : UsageError) : String := "parfrac: error: " ++ e.message ++ "\n"

end UsageError

namespace Argument

def isShort (name : List Char) : Bool :=
  match name with
  | '-' :: '-' :: _ => false
  | _ => true

def splitEquals (s : List Char) : List Char × Option (List Char) :=
  match cut? '=' s with
  | some (name, value) => (name, some value)
  | none => (s, none)

/-- The flags that a text with a dash in front can stand for, with the names that match: long names
by their beginning, short ones with a value behind them. -/
def candidates (s : List Char) : List (String × Argument) :=
  if isShort s then
    (Flag.table.filter fun (name, _) => name.toList == s.take 2).map fun (name, f) =>
      (name, .flag f true (some (s.drop 2)))
  else
    let (stem, attached) := splitEquals s
    (Flag.table.filter fun (name, _) => stem.isPrefixOf name.toList).map fun (name, f) =>
      (name, .flag f false attached)

/-- Whether a text is a minus sign with a number behind it, and possibly the end of a line. -/
def isNegativeNumber : List Char → Bool
  | '-' :: rest =>
    let body := if rest.getLast? == some '\n' then rest.dropLast else rest
    match body.dropWhile isDigit with
    | [] => !body.isEmpty
    | '.' :: fraction => !fraction.isEmpty && fraction.all isDigit
    | _ => false
  | _ => false

def ofText (text : String) : Except UsageError Argument :=
  let s := text.toList
  match s with
  | '-' :: _ :: _ =>
    match Flag.ofName? text with
    | some f => .ok (.flag f (isShort s) none)
    | none =>
      let (name, attached) := splitEquals s
      match if attached.isSome then Flag.ofName? (String.ofList name) else none with
      | some f => .ok (.flag f (isShort s) attached)
      | none =>
        match candidates s with
        | [(_, argument)] => .ok argument
        | [] =>
          if isNegativeNumber s || ' ' ∈ s then .ok (.plain text) else .ok (.unknown text)
        | several => .error (.ambiguous text (several.map (·.1)))
  | _ => .ok (.plain text)

def ofTexts : List String → Except UsageError (List Argument)
  | [] => .ok []
  | text :: rest =>
    if text = "--" then .ok (.separator :: rest.map .plain)
    else do
      let first ← ofText text
      return first :: (← ofTexts rest)

end Argument

end PartialFractions.CommandLine
