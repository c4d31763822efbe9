import PartialFractions.Exponent
import PartialFractions.Factor
import PartialFractions.Number.Integer
import PartialFractions.Text.Cut
import PartialFractions.Trinomial

/-!
Brackets and gaps: a denominator that lists its factors is cut into contents in parentheses, with
their exponents, and the gaps around them. A gap holds nothing but a number and a power of x.
-/
namespace PartialFractions

open Text Number

/-- A content in parentheses, the gap in front of it, and the digits of its exponent. -/
structure Bracket where
  gap : List Char
  content : List Char
  exponent : Option (List Char)
  deriving DecidableEq, Repr

namespace Bracket

/-- The first bracket and the text behind it. Its content ends at the first closing parenthesis. -/
def first? (s : List Char) : Option (Bracket × List Char) :=
  (cut? '(' s).bind fun (gap, inside) =>
    (cut? ')' inside).map fun (content, after) =>
      match exponent? after with
      | some (digits, rest) => (⟨gap, content, some digits⟩, rest)
      | none => (⟨gap, content, none⟩, after)

/-- Behind a bracket less text is left, which is why cutting a denominator ends. -/
theorem length_lt_of_first? {s rest : List Char} {b : Bracket} (h : first? s = some (b, rest)) :
    rest.length < s.length := by
  simp only [first?, Option.bind_eq_some_iff, Option.map_eq_some_iff] at h
  obtain ⟨⟨gap, inside⟩, h₁, ⟨content, after⟩, h₂, h₃⟩ := h
  have e₁ := congrArg List.length (cut?_eq_some h₁).1
  have e₂ := congrArg List.length (cut?_eq_some h₂).1
  simp only [List.length_append, List.length_cons] at e₁ e₂
  split at h₃
  · rename_i h₄
    have := length_lt_of_exponent? h₄
    simp_all only [Prod.mk.injEq]
    omega
  · simp_all only [Prod.mk.injEq]
    omega

/-- The brackets of a text in order, and the gap behind the last one. -/
def all (s : List Char) : List Bracket × List Char :=
  match h : first? s with
  | none => ([], s)
  | some (b, rest) =>
    have := length_lt_of_first? h
    let (others, last) := all rest
    (b :: others, last)
termination_by s.length

end Bracket

end PartialFractions
