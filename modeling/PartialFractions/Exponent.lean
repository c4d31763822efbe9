import PartialFractions.Text.Blank
import PartialFractions.Text.DecimalDigit

/-!
Exponents: `^` and a row of digits, around which each brace may be missing.
-/
namespace PartialFractions

open Text

def exponent? : List Char → Option (List Char × List Char)
  | '^' :: rest =>
    let rest := rest.dropWhile isBlank
    let body := match rest with
      | '\x7b' :: inner => inner
      | _ => rest
    match body.takeWhile isDigit, body.dropWhile isDigit with
    | [], _ => none
    | digits, '\x7d' :: after => some (digits, after)
    | digits, after => some (digits, after)
  | _ => none

/-- An exponent is not empty, so the text behind it is shorter. -/
theorem length_lt_of_exponent? {s digits rest : List Char}
    (h : exponent? s = some (digits, rest)) : rest.length < s.length := by
  have dropped (p : Char → Bool) (l : List Char) : (l.dropWhile p).length ≤ l.length :=
    (List.dropWhile_suffix p).length_le
  unfold exponent? at h
  split at h
  · rename_i after
    have h₁ := dropped isBlank after
    dsimp only at h
    generalize after.dropWhile isBlank = inner at h h₁
    have h₂ : (match inner with | '\x7b' :: t => t | _ => inner).length ≤ inner.length := by
      split <;> simp
    generalize (match inner with | '\x7b' :: t => t | _ => inner) = body at h h₂
    have h₃ := dropped isDigit body
    split at h
    · simp at h
    · rename_i h₄ _
      rw [h₄] at h₃
      simp only [Option.some.injEq, Prod.mk.injEq] at h
      obtain ⟨-, rfl⟩ := h
      simp only [List.length_cons] at h₁ h₃ ⊢
      omega
    · simp only [Option.some.injEq, Prod.mk.injEq] at h
      obtain ⟨-, rfl⟩ := h
      simp only [List.length_cons] at h₁ ⊢
      omega
  · simp at h

end PartialFractions
