import PartialFractions.Proofs.DecimalNumerals
import PartialFractions.Proofs.Spacing
import PartialFractions.Term

/-!
Written sums: summands with their signs, each a numeral, x, or both, where x may have an exponent.
A sum stands for a polynomial, and spacing does not change what the terms of the sum are read as.
-/
namespace PartialFractions

open Text Number

/-- The digits of an exponent, in braces or not. -/
structure WrittenExponent where
  digits : List Char
  braced : Bool
  isDigit_digits : ∀ c ∈ digits, isDigit c = true
  ne_nil : digits ≠ []
  length_le : digits.length ≤ maxIntegerDigits

namespace WrittenExponent

def tokens (e : WrittenExponent) : List (List Char) :=
  if e.braced then [['^'], ['\x7b'], e.digits, ['\x7d']] else [['^'], e.digits]

def value (e : WrittenExponent) : ℕ := ofDigits (e.digits.filterMap digit?)

def ofNat (n : ℕ) (braced : Bool)
    (h : (Nat.toDigits 10 n).length ≤ maxIntegerDigits) : WrittenExponent where
  digits := Nat.toDigits 10 n
  braced := braced
  isDigit_digits := isDigit_of_mem_toDigits
  ne_nil := Nat.toDigits_ne_nil
  length_le := h

theorem value_ofNat (n : ℕ) (braced : Bool)
    (h : (Nat.toDigits 10 n).length ≤ maxIntegerDigits) : (ofNat n braced h).value = n :=
  ofDigits_toDigits n

end WrittenExponent

inductive Summand
  | constant (value : DecimalNumeral)
  | multiple (coefficient : Option DecimalNumeral) (exponent : Option WrittenExponent)

namespace Summand

def tokens : Summand → List (List Char)
  | constant n => [n.chars]
  | multiple coefficient exponent =>
    (coefficient.map DecimalNumeral.chars).toList ++ [['x']] ++
      (exponent.map WrittenExponent.tokens).getD []

/-- The coefficient; one that is left out is 1. -/
def coefficient : Summand → DecimalNumeral
  | constant n => n
  | multiple coefficient _ => coefficient.getD .one

def power : Summand → ℕ
  | constant _ => 0
  | multiple _ exponent => (exponent.map WrittenExponent.value).getD 1

end Summand

structure SignedSummand where
  negative : Bool
  summand : Summand

namespace SignedSummand

def sign (t : SignedSummand) : Char := if t.negative then '-' else '+'

def term (t : SignedSummand) : Term :=
  ⟨t.summand.power, String.ofList (t.sign :: t.summand.coefficient.chars)⟩

def value {K : Type} [Field K] (t : SignedSummand) : K :=
  Scalar.signed t.negative t.summand.coefficient.value

/-- A sum, in which a plus sign in front of the first summand may be left out. -/
def sumTokens (plusShown : Bool) : List SignedSummand → List (List Char)
  | [] => []
  | t :: rest =>
    (if t.negative then [['-']] else if plusShown then [['+']] else []) ++ t.summand.tokens
      ++ sumTokens true rest

end SignedSummand

section Tokens

theorem DecimalNumeral.isToken_chars (n : DecimalNumeral) : IsToken n.chars where
  ne_nil := n.chars_ne_nil
  isBlank_of_mem _ h := n.isBlank_of_mem h

theorem WrittenExponent.isToken_of_mem (e : WrittenExponent) : ∀ t ∈ e.tokens, IsToken t := by
  have hdigits : IsToken e.digits :=
    ⟨e.ne_nil, fun c hc => isBlank_of_isDigit (e.isDigit_digits c hc)⟩
  unfold tokens
  split
  · simpa [hdigits] using ⟨isToken_singleton (c := '^') (by decide),
      isToken_singleton (c := '\x7b') (by decide), isToken_singleton (c := '\x7d') (by decide)⟩
  · simpa [hdigits] using isToken_singleton (c := '^') (by decide)

theorem Summand.isToken_of_mem (m : Summand) : ∀ t ∈ m.tokens, IsToken t := by
  have hx : IsToken ['x'] := isToken_singleton (by decide)
  cases m with
  | constant n =>
    intro t ht
    rw [List.mem_singleton.mp ht]
    exact n.isToken_chars
  | multiple coefficient exponent =>
    intro t ht
    simp only [tokens, List.mem_append, List.mem_singleton] at ht
    rcases ht with (ht | rfl) | ht
    · cases coefficient with
      | none => simp at ht
      | some n =>
        simp only [Option.map_some, Option.toList_some, List.mem_singleton] at ht
        rw [ht]
        exact n.isToken_chars
    · exact hx
    · cases exponent with
      | none => simp at ht
      | some e => exact e.isToken_of_mem t ht

/-- What holds of both signs and of the tokens of the summands holds of the tokens of their sum. -/
theorem SignedSummand.forall_mem_sumTokens {P : List Char → Prop} (hminus : P ['-'])
    (hplus : P ['+']) {terms : List SignedSummand} (h : ∀ t ∈ terms, ∀ u ∈ t.summand.tokens, P u)
    (plusShown : Bool) : ∀ u ∈ sumTokens plusShown terms, P u := by
  induction terms generalizing plusShown with
  | nil => simp [sumTokens]
  | cons first rest ih =>
    obtain ⟨hfirst, hrest⟩ := List.forall_mem_cons.mp h
    intro u hu
    simp only [sumTokens, List.mem_append] at hu
    rcases hu with (hu | hu) | hu
    · split at hu
      · rwa [List.mem_singleton.mp hu]
      · split at hu
        · rwa [List.mem_singleton.mp hu]
        · simp at hu
    · exact hfirst u hu
    · exact ih hrest true u hu

theorem SignedSummand.isToken_of_mem (plusShown : Bool) (terms : List SignedSummand) :
    ∀ t ∈ sumTokens plusShown terms, IsToken t :=
  forall_mem_sumTokens (isToken_singleton (by decide)) (isToken_singleton (by decide))
    (fun t _ => t.summand.isToken_of_mem) plusShown

end Tokens

end PartialFractions
