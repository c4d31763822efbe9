/-!
Decimal digits of every script: the Unicode characters of category Nd, version 14. Each script
has its ten digits in a row, so one code point, that of its zero, stands for the row.
-/
namespace PartialFractions.Text

/-- The zeros of the rows of digits, ascending. -/
def digitZeros : List Nat := [
  0x30, 0x660, 0x6f0, 0x7c0, 0x966, 0x9e6, 0xa66, 0xae6, 0xb66, 0xbe6, 0xc66, 0xce6, 0xd66,
  0xde6, 0xe50, 0xed0, 0xf20, 0x1040, 0x1090, 0x17e0, 0x1810, 0x1946, 0x19d0, 0x1a80, 0x1a90,
  0x1b50, 0x1bb0, 0x1c40, 0x1c50, 0xa620, 0xa8d0, 0xa900, 0xa9d0, 0xa9f0, 0xaa50, 0xabf0, 0xff10,
  0x104a0, 0x10d30, 0x11066, 0x110f0, 0x11136, 0x111d0, 0x112f0, 0x11450, 0x114d0, 0x11650,
  0x116c0, 0x11730, 0x118e0, 0x11950, 0x11c50, 0x11d50, 0x11da0, 0x16a60, 0x16ac0, 0x16b50,
  0x1d7ce, 0x1d7d8, 0x1d7e2, 0x1d7ec, 0x1d7f6, 0x1e140, 0x1e2f0, 0x1e950, 0x1fbf0]

private def digitFrom : List Nat → Nat → Option Nat
  | [], _ => none
  | first :: rest, n =>
    if n < first then none else if n < first + 10 then some (n - first) else digitFrom rest n

def digit? (c : Char) : Option Nat := digitFrom digitZeros c.toNat

def isDigit (c : Char) : Bool := (digit? c).isSome

private theorem digitFrom_lt {zeros : List Nat} {n d : Nat} (h : digitFrom zeros n = some d) :
    d < 10 := by
  induction zeros with
  | nil => simp [digitFrom] at h
  | cons first rest ih =>
    unfold digitFrom at h
    split at h
    · simp at h
    · split at h
      · simp only [Option.some.injEq] at h
        omega
      · exact ih h

private theorem exists_zero_of_digitFrom {zeros : List Nat} {n d : Nat}
    (h : digitFrom zeros n = some d) : ∃ z ∈ zeros, n = z + d := by
  induction zeros with
  | nil => simp [digitFrom] at h
  | cons first rest ih =>
    unfold digitFrom at h
    split at h
    · simp at h
    · split at h
      · simp only [Option.some.injEq] at h
        exact ⟨first, List.mem_cons_self .., by omega⟩
      · obtain ⟨z, hz, hn⟩ := ih h
        exact ⟨z, List.mem_cons_of_mem _ hz, hn⟩

/-- A digit stands in the row of ten that a zero begins, as far from it as its value tells. -/
theorem exists_zero_of_digit? {c : Char} {d : Nat} (h : digit? c = some d) :
    ∃ z ∈ digitZeros, c.toNat = z + d := exists_zero_of_digitFrom h

theorem digit?_lt {c : Char} {d : Nat} (h : digit? c = some d) : d < 10 := digitFrom_lt h

/-- The digits 0 to 9 of the first row. -/
theorem digit?_of_ascii {c : Char} (h : c.isDigit = true) :
    digit? c = some (c.toNat - '0'.toNat) := by
  simp only [Char.isDigit, Bool.and_eq_true, decide_eq_true_eq, ge_iff_le,
    UInt32.le_iff_toNat_le, Char.reduceVal, UInt32.reduceToNat] at h
  have hval : c.val.toNat = c.toNat := rfl
  rw [hval] at h
  have hlow : ¬ c.toNat < 48 := by omega
  have hhigh : c.toNat < 58 := by omega
  simp [digit?, digitZeros, digitFrom, hlow, hhigh]

theorem isDigit_of_ascii {c : Char} (h : c.isDigit = true) : isDigit c = true := by
  rw [isDigit, digit?_of_ascii h, Option.isSome_some]

end PartialFractions.Text
