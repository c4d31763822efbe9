import PartialFractions.Text.Range

/-!
Blank characters: Unicode white space together with the four information separators U+001C to
U+001F. Blanks carry no meaning between the tokens of a formula, so readers trim or squeeze first.
-/
namespace PartialFractions.Text

def spaceRanges : List (Nat × Nat) := [
  (0x9, 0xd), (0x20, 0x20), (0x85, 0x85), (0xa0, 0xa0), (0x1680, 0x1680), (0x2000, 0x200a),
  (0x2028, 0x2029), (0x202f, 0x202f), (0x205f, 0x205f), (0x3000, 0x3000)]

def isSpace (c : Char) : Bool := inRanges spaceRanges c.toNat

/-- A space or an information separator. -/
def isBlank (c : Char) : Bool := isSpace c || (0x1c ≤ c.toNat && c.toNat ≤ 0x1f)

def trimOf (p : Char → Bool) (s : List Char) : List Char :=
  ((s.dropWhile p).reverse.dropWhile p).reverse

def trim (s : List Char) : List Char := trimOf isBlank s

def squeeze (s : List Char) : List Char := s.filter (! isBlank ·)

theorem isBlank_space : isBlank ' ' = true := by decide

theorem not_isBlank_of_mem_squeeze {s : List Char} {c : Char} (h : c ∈ squeeze s) :
    isBlank c = false := by
  simpa using (List.mem_filter.mp h).2

@[simp] theorem squeeze_append (s t : List Char) : squeeze (s ++ t) = squeeze s ++ squeeze t := by
  simp [squeeze]

end PartialFractions.Text
