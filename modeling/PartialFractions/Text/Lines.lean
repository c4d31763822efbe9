/-!
Lines of text: every character that ends a line in some script does so here, and a carriage return
with the newline behind it ends one line.
-/
namespace PartialFractions.Text

def lineEnds : List Char :=
  ['\n', '\x0b', '\x0c', '\r', '\x1c', '\x1d', '\x1e', '\u0085', '\u2028', '\u2029']

/-- The lines of a text of which `pending` holds the start, in reverse. The end of the last line may
be missing. -/
def linesFrom (pending : List Char) : List Char → List (List Char)
  | [] => if pending.isEmpty then [] else [pending.reverse]
  | '\r' :: '\n' :: rest => pending.reverse :: linesFrom [] rest
  | c :: rest =>
    if c ∈ lineEnds then pending.reverse :: linesFrom [] rest else linesFrom (c :: pending) rest

def lines (text : String) : List String := (linesFrom [] text.toList).map String.ofList

end PartialFractions.Text
