/-!
Wordings of messages: fixed text with named places for the details of a case, in Portuguese and in
English. A wording is filled from a table of details; the first place that the table leaves open
can be asked for.
-/
namespace PartialFractions

inductive Language
  | portuguese
  | english
  deriving DecidableEq, Repr

/-- The language with that name; any name but `en` means Portuguese. -/
def Language.ofName (name : String) : Language := if name = "en" then .english else .portuguese

inductive Wording.Piece
  | text (s : String)
  | place (name : String)
  deriving DecidableEq, Repr

abbrev Wording := List Wording.Piece

namespace Wording

abbrev Details := String → Option String

def missing? (details : Details) : Wording → Option String
  | [] => none
  | .text _ :: rest => missing? details rest
  | .place name :: rest => if (details name).isNone then some name else missing? details rest

/-- The message; a place without a detail stays empty. -/
def fill (details : Details) : Wording → String
  | [] => ""
  | .text s :: rest => s ++ fill details rest
  | .place name :: rest => (details name).getD "" ++ fill details rest

def places : Wording → List String
  | [] => []
  | .text _ :: rest => places rest
  | .place name :: rest => name :: places rest

theorem missing?_eq_none_iff (details : Details) (w : Wording) :
    missing? details w = none ↔ ∀ name ∈ places w, (details name).isSome := by
  induction w with
  | nil => simp [missing?, places]
  | cons piece rest ih =>
    cases piece with
    | text s => simpa [missing?, places] using ih
    | place name =>
      by_cases h : (details name).isNone
      · simp_all [missing?, places]
      · have hs : (details name).isSome := by simpa [Option.isSome_iff_ne_none] using h
        simp [missing?, places, h, hs, ih]

end Wording

end PartialFractions
