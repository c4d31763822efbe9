/-!
Cutting a text at a character: at its first occurrence, at its last one, or at every one.
-/
namespace PartialFractions.Text

/-- The texts before and behind the first `c`. -/
def cut? (c : Char) : List Char → Option (List Char × List Char)
  | [] => none
  | d :: rest =>
    if d = c then some ([], rest) else (cut? c rest).map fun (before, after) => (d :: before, after)

def cutLast? (c : Char) : List Char → Option (List Char × List Char)
  | [] => none
  | d :: rest =>
    match cutLast? c rest with
    | some (before, after) => some (d :: before, after)
    | none => if d = c then some ([], rest) else none

def pieces (c : Char) : List Char → List (List Char)
  | [] => [[]]
  | d :: rest =>
    if d = c then [] :: pieces c rest
    else match pieces c rest with
      | [] => [[d]]
      | first :: others => (d :: first) :: others

/-- The cut is at the first such character. -/
theorem cut?_eq_some {c : Char} {s before after : List Char} (h : cut? c s = some (before, after)) :
    s = before ++ c :: after ∧ c ∉ before := by
  induction s generalizing before after with
  | nil => simp [cut?] at h
  | cons d rest ih =>
    by_cases hd : d = c
    · simp_all [cut?]
    · simp only [cut?, if_neg hd, Option.map_eq_some_iff] at h
      obtain ⟨⟨b, a⟩, hb, heq⟩ := h
      obtain ⟨rfl, rfl⟩ := Prod.mk.inj heq
      obtain ⟨hs, hn⟩ := ih hb
      refine ⟨by simp [hs], ?_⟩
      simpa [hn] using fun h' => hd h'.symm

theorem cut?_append {c : Char} {before : List Char} (h : c ∉ before) (after : List Char) :
    cut? c (before ++ c :: after) = some (before, after) := by
  induction before with
  | nil => simp [cut?]
  | cons d rest ih =>
    simp only [List.mem_cons, not_or] at h
    simp [cut?, Ne.symm h.1, ih h.2]

theorem cut?_eq_none {c : Char} {s : List Char} (h : c ∉ s) : cut? c s = none := by
  induction s with
  | nil => rfl
  | cons d s ih =>
    simp only [List.mem_cons, not_or] at h
    simp [cut?, ih h.2, Ne.symm h.1]

theorem cutLast?_eq_none {c : Char} {s : List Char} (h : c ∉ s) : cutLast? c s = none := by
  induction s with
  | nil => rfl
  | cons d s ih =>
    simp only [List.mem_cons, not_or] at h
    simp [cutLast?, ih h.2, Ne.symm h.1]

theorem cutLast?_append {c : Char} {after : List Char} (h : c ∉ after) (before : List Char) :
    cutLast? c (before ++ c :: after) = some (before, after) := by
  induction before with
  | nil => simp [cutLast?, cutLast?_eq_none h]
  | cons d before ih => simp [cutLast?, ih]

/-- What has no `c` in it ends in front of a `c`. -/
theorem exists_eq_append_of_notMem {c : Char} {s rest before after : List Char}
    (h : s ++ rest = before ++ c :: after) (hc : c ∉ s) : ∃ t, before = s ++ t := by
  rcases List.append_eq_append_iff.mp h with ⟨t, hbefore, -⟩ | ⟨t, hs, ht⟩
  · exact ⟨t, hbefore⟩
  · cases t with
    | nil => exact ⟨[], by simpa using hs.symm⟩
    | cons d t =>
      obtain ⟨rfl, -⟩ := List.cons.inj ht
      exact absurd (hs ▸ by simp) hc

end PartialFractions.Text
