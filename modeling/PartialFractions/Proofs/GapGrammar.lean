import PartialFractions.Proofs.BracketGroups
import PartialFractions.Proofs.FactorizationInvariants

/-!
What any gap is read as. A gap is a number in front of a power of x, each of which may be missing;
the number is made of digits and points behind at most one sign. Every gap is of this form and says
what its multiplier and its power of x are, or it is one of the gaps that are refused.
-/
namespace PartialFractions

open Text Number

namespace Gap

variable {s number row text gap summand : List Char} {leading : Bool} {x : Variable}

def shown (gap : List Char) : List Char := dropProducts (squeeze gap)

def IsRow (row : List Char) : Prop := ∀ c ∈ row, isDigit c = true ∨ c = '.'

/-- A row of digits and points behind at most one sign. -/
inductive NumberText : List Char → Prop
  | unsigned {row : List Char} (hrow : IsRow row) : NumberText row
  | signed {sign : Char} {row : List Char} (hsign : Term.isSign sign = true) (hrow : IsRow row) :
      NumberText (sign :: row)

inductive VariableText : Variable → List Char → Prop
  | absent : VariableText .absent []
  | plain : VariableText .plain ['x']
  | power (e : SpelledExponent) : VariableText (.power e.digits) ('x' :: e.text)

inductive Shaped : List Char → List Char → Variable → Prop
  | mk {number text : List Char} {x : Variable} (hnumber : NumberText number)
      (hx : VariableText x text) : Shaped (number ++ text) number x

inductive Multiplier
  | omitted
  | minus
  | unsigned (n : DecimalNumeral)
  | signed (negative : Bool) (n : DecimalNumeral)

namespace Multiplier

def chars : Multiplier → List Char
  | omitted => []
  | minus => ['-']
  | unsigned n => n.chars
  | signed negative n => (if negative then '-' else '+') :: n.chars

def value {K : Type} [Neg K] [Scalar K] : Multiplier → K
  | omitted => Scalar.ofNat 1
  | minus => -Scalar.ofNat 1
  | unsigned n => Scalar.ofNumeral (.decimal false n.digits (-(n.places : ℤ)))
  | signed negative n => Scalar.ofNumeral (.decimal negative n.digits (-(n.places : ℤ)))

end Multiplier

structure Content where
  multiplier : Multiplier
  x : Variable

def Content.factors {K : Type} (c : Content) : List (Factor K) :=
  match c.x with
  | .absent => []
  | .plain => [.bare 1]
  | .power digits => [.bare (ofDigits (digits.filterMap digit?))]

/-- The gap says `c`; no sign stands at its front, unless it is the `leading` one. -/
structure Holds (leading : Bool) (gap : List Char) (c : Content) : Prop where
  shaped : Shaped (shown gap) c.multiplier.chars c.x
  unsigned : leading = false → ∀ d ∈ (shown gap).head?, Term.isSign d = false

inductive Unreadable (leading : Bool) (gap : List Char) : Prop
  | shape (h : ∀ number x, ¬ Shaped (shown gap) number x)
  | sign {c : Char} (hleading : leading = false) (hhead : c ∈ (shown gap).head?)
      (hsign : Term.isSign c = true)
  | number {number : List Char} {x : Variable} (h : Shaped (shown gap) number x)
      (hnumber : ∀ m : Multiplier, number ≠ m.chars)

theorem isNumberChar_iff {c : Char} : isNumberChar c = true ↔ isDigit c = true ∨ c = '.' := by
  simp [isNumberChar]

theorem isRow_singleton {c : Char} (h : isDigit c = true) : IsRow [c] :=
  List.forall_mem_singleton.mpr (Or.inl h)

theorem IsRow.isSign_of_mem (hrow : IsRow row) {c : Char} (hc : c ∈ row) :
    Term.isSign c = false := by
  refine Bool.eq_false_iff.mpr fun hsign => ?_
  rcases Term.isSign_iff.mp hsign with rfl | rfl
  all_goals exact absurd (hrow _ hc) (by decide)

/-- Blanks are taken out before a gap is read, and its grammar has none. -/
theorem NumberText.isBlank_of_mem (h : NumberText number) {c : Char} (hc : c ∈ number) :
    isBlank c = false := by
  have hmem {row : List Char} (hrow : IsRow row) (hc : c ∈ row) : isBlank c = false := by
    rcases hrow c hc with h | rfl
    · exact isBlank_of_isDigit h
    · decide
  cases h with
  | unsigned hrow => exact hmem hrow hc
  | signed hsign hrow =>
    rcases List.mem_cons.mp hc with rfl | hc
    · exact Term.isBlank_of_isSign hsign
    · exact hmem hrow hc

theorem startsWithSign_eq_true : startsWithSign s = true ↔ ∃ c ∈ s.head?, Term.isSign c = true := by
  unfold startsWithSign
  split
  · simp [Term.isSign]
  · simp [Term.isSign]
  · rename_i hplus hminus
    simp only [Bool.false_eq_true, false_iff, not_exists, not_and]
    intro c hc hsign
    obtain ⟨rest, rfl⟩ := List.head?_eq_some_iff.mp hc
    rcases Term.isSign_iff.mp hsign with rfl | rfl
    · exact hplus rest rfl
    · exact hminus rest rfl

/-- The number at the front of any text. -/
theorem splitNumber_spec (s : List Char) :
    NumberText (splitNumber s).1 ∧ (splitNumber s).1 ++ (splitNumber s).2 = s := by
  have hrow (t : List Char) : IsRow (t.takeWhile isNumberChar) := fun c hc =>
    isNumberChar_iff.mp (List.mem_takeWhile_imp hc)
  unfold splitNumber
  split
  · exact ⟨.signed (by decide) (hrow _), by simp⟩
  · exact ⟨.signed (by decide) (hrow _), by simp⟩
  · exact ⟨.unsigned (hrow _), List.takeWhile_append_dropWhile⟩

theorem VariableText.head?_eq (h : VariableText x text) : ∀ c ∈ text.head?, c = 'x' := by
  cases h <;> simp

theorem VariableText.isNumberChar_head (h : VariableText x text) :
    ∀ c ∈ text.head?, isNumberChar c = false := by
  intro c hc
  rw [h.head?_eq c hc]
  decide

/-- The number ends where the variable starts. -/
theorem splitNumber_text (hnumber : NumberText number) (hx : VariableText x text) :
    splitNumber (number ++ text) = (number, text) := by
  have hcut {row : List Char} (hrow : IsRow row) : (row ++ text).takeWhile isNumberChar = row ∧
      (row ++ text).dropWhile isNumberChar = text := by
    have hmem : ∀ c ∈ row, isNumberChar c = true := fun c hc => isNumberChar_iff.mpr (hrow c hc)
    exact ⟨takeWhile_append_of_head hmem hx.isNumberChar_head,
      dropWhile_append_of_head hmem hx.isNumberChar_head⟩
  cases hnumber with
  | unsigned hrow =>
    obtain ⟨htake, hdrop⟩ := hcut hrow
    have hplain : ∀ c ∈ (number ++ text).head?, Term.isSign c = false := by
      intro c hc
      cases number with
      | nil =>
        rw [hx.head?_eq c hc]
        decide
      | cons d row => exact hrow.isSign_of_mem (List.mem_of_mem_head? hc)
    unfold splitNumber
    split
    · rename_i heq
      exact absurd (hplain '+' (by rw [heq]; rfl)) (by decide)
    · rename_i heq
      exact absurd (hplain '-' (by rw [heq]; rfl)) (by decide)
    · rw [htake, hdrop]
  | signed hsign hrow =>
    obtain ⟨htake, hdrop⟩ := hcut hrow
    rcases Term.isSign_iff.mp hsign with rfl | rfl
    all_goals rw [List.cons_append, splitNumber, htake, hdrop]

/-- Every text of the grammar for the variable is read as that variable. -/
theorem VariableText.read?_eq (h : VariableText x text) : Variable.read? text = some x := by
  cases h with
  | absent => rfl
  | plain => rfl
  | power e =>
    have hends : e.EndsBefore [] := fun _ c hc => by cases hc
    have hread := SpelledExponent.exponent?_text hends
    rw [List.append_nil] at hread
    obtain ⟨t, ht⟩ : ∃ t, e.text = '^' :: t := ⟨_, rfl⟩
    rw [ht] at hread ⊢
    simp [Variable.read?, hread]

/-- What is read as a variable is a text of the grammar. -/
theorem variableText_of_read? (h : Variable.read? text = some x) : VariableText x text := by
  unfold Variable.read? at h
  split at h
  · obtain rfl := Option.some.inj h
    exact .absent
  · obtain rfl := Option.some.inj h
    exact .plain
  · split at h
    · rename_i hread
      obtain rfl := Option.some.inj h
      obtain ⟨e, rfl, rfl, -⟩ := SpelledExponent.exists_of_exponent? hread
      rw [List.append_nil]
      exact .power e
    · cases h
  · cases h

/-- A gap is cut into its parts, unless a sign stands in front where none may. -/
theorem parts?_eq_some_iff : parts? leading s = some (number, x) ↔
    (leading = false → ∀ c ∈ s.head?, Term.isSign c = false) ∧ Shaped s number x := by
  have hsign : (startsWithSign s && !leading) = false ↔
      (leading = false → ∀ c ∈ s.head?, Term.isSign c = false) := by
    cases leading with
    | true => simp
    | false =>
      rw [Bool.not_false, Bool.and_true, ← Bool.not_eq_true, startsWithSign_eq_true]
      simp
  unfold parts?
  constructor
  · intro h
    split at h
    · cases h
    · rename_i hstart
      obtain ⟨y, hread, hy⟩ := Option.map_eq_some_iff.mp h
      obtain ⟨rfl, rfl⟩ := Prod.mk.inj hy
      obtain ⟨hnumber, hs⟩ := splitNumber_spec s
      refine ⟨hsign.mp (Bool.eq_false_iff.mpr hstart), ?_⟩
      conv => arg 1; rw [← hs]
      exact .mk hnumber (variableText_of_read? hread)
  · rintro ⟨hstart, hshaped⟩
    rw [hsign.mpr hstart]
    cases hshaped with
    | mk hnumber hx =>
      simp only [splitNumber_text hnumber hx, hx.read?_eq]
      rfl

end Gap

namespace Numeral

variable {number row : List Char} {negative : Bool} {n : Numeral}

/-- The digits at the front of a row end at a point. -/
theorem digitGroup_row (hrow : Gap.IsRow row) : ∃ ds rest, row = ds ++ rest ∧
    (∀ c ∈ ds, isDigit c = true) ∧ digitGroup row = (ds.filterMap digit?, rest) ∧
    (rest = [] ∨ ∃ after, rest = '.' :: after) := by
  have hsplit := List.takeWhile_append_dropWhile (p := isDigit) (l := row)
  have hds : ∀ c ∈ row.takeWhile isDigit, isDigit c = true := fun c hc => List.mem_takeWhile_imp hc
  have hpoint : ∀ c ∈ (row.dropWhile isDigit).head?, c = '.' := by
    intro c hc
    have hmem := (List.dropWhile_suffix isDigit).subset (List.mem_of_mem_head? hc)
    have hdigit := head?_dropWhile isDigit row c hc
    exact (hrow c hmem).resolve_left (by simp [hdigit])
  refine ⟨_, _, hsplit.symm, hds, ?_, ?_⟩
  · conv_lhs => rw [← hsplit]
    refine digitsFrom_append digit?_low hds ?_ false
    intro c hc
    rw [hpoint c hc]
    decide
  · cases hrest : row.dropWhile isDigit with
    | nil => exact Or.inl rfl
    | cons c after => exact Or.inr ⟨after, by rw [hpoint c (by simp [hrest])]⟩

/-- A row that is read as a decimal fraction has a digit, and at most one point. -/
theorem exists_chars_of_ofDecimal? (hrow : Gap.IsRow row)
    (h : ofDecimal? negative row = some n) : ∃ m : DecimalNumeral, row = m.chars := by
  obtain ⟨whole, rest, rfl, hwhole, hgroup, hrest⟩ := digitGroup_row hrow
  rw [ofDecimal?, hgroup] at h
  rcases hrest with rfl | ⟨after, rfl⟩
  · have hne : whole ≠ [] := by
      rintro rfl
      simp at h
    exact ⟨⟨whole, none, hwhole, by simp, by simpa using hne⟩, rfl⟩
  · have hafter : Gap.IsRow after := fun c hc => hrow c (by simp [hc])
    obtain ⟨fraction, rest, rfl, hfraction, hbehind, hrest⟩ := digitGroup_row hafter
    simp only [hbehind] at h
    rcases hrest with rfl | ⟨after, rfl⟩
    · have hne : whole ++ fraction ≠ [] := by
        intro hnil
        obtain ⟨rfl, rfl⟩ := List.append_eq_nil_iff.mp hnil
        simp at h
      exact ⟨⟨whole, some fraction, hwhole, hfraction, hne⟩, by simp [DecimalNumeral.chars]⟩
    · simp [exponent?] at h

theorem splitSign_of_isRow (hrow : Gap.IsRow row) : splitSign row = (false, row) := by
  unfold splitSign
  split
  · exact absurd (hrow.isSign_of_mem (List.mem_cons_self ..)) (by decide)
  · exact absurd (hrow.isSign_of_mem (List.mem_cons_self ..)) (by decide)
  · rfl

/-- A number text that is read as a numeral is one that can be a multiplier. -/
theorem exists_multiplier_of_read? (hnumber : Gap.NumberText number) (h : read? number = some n) :
    ∃ m : Gap.Multiplier, number = m.chars := by
  have hspace : ∀ c ∈ number, isSpace c = false := fun c hc =>
    (Bool.or_eq_false_iff.mp (hnumber.isBlank_of_mem hc)).1
  have hword {row : List Char} (hrow : Gap.IsRow row) (negative : Bool) :
      ofWord? negative row = none := by
    refine ofWord?_eq_none negative fun c hc => ?_
    rcases hrow c (List.mem_of_mem_head? hc) with h | rfl
    · exact isAlpha_of_isDigit h
    · rfl
  rw [read?, trimOf_eq_self_of_all hspace] at h
  cases hnumber with
  | unsigned hrow =>
    rw [splitSign_of_isRow hrow] at h
    simp only [hword hrow, Option.orElse_none] at h
    obtain ⟨m, rfl⟩ := exists_chars_of_ofDecimal? hrow h
    exact ⟨.unsigned m, rfl⟩
  | @signed sign row hsign hrow =>
    obtain ⟨negative, hs, hsplit⟩ : ∃ negative : Bool, sign = (if negative then '-' else '+') ∧
        splitSign (sign :: row) = (negative, row) := by
      rcases Term.isSign_iff.mp hsign with rfl | rfl
      · exact ⟨false, rfl, rfl⟩
      · exact ⟨true, rfl, rfl⟩
    rw [hsplit] at h
    simp only [hword hrow, Option.orElse_none] at h
    obtain ⟨m, rfl⟩ := exists_chars_of_ofDecimal? hrow h
    exact ⟨.signed negative m, by rw [hs]; rfl⟩

end Numeral

namespace Gap

variable {s number gap : List Char} {leading : Bool} {x : Variable} {c : Content}
variable {K : Type} [Neg K] [Scalar K]

/-- A multiplier in front is read as its value, a mere sign as a one with that sign. -/
theorem Multiplier.leadingNumber_chars (m : Multiplier) (summand : List Char) :
    leadingNumber m.chars summand = (.ok m.value : Except Refusal K) := by
  have hminus (n : DecimalNumeral) : n.chars ≠ ['-'] := by
    intro h
    exact n.notMem_chars (c := '-') (by decide) (by decide) (by simp [h])
  cases m with
  | omitted => rfl
  | minus => rfl
  | unsigned n =>
    refine leadingNumber_eq_read? n.chars_ne_nil (hminus n) ?_ summand
    rw [Scalar.read?, Numeral.read?_chars, Option.map_some]
    rfl
  | signed negative n =>
    refine leadingNumber_eq_read? (List.cons_ne_nil _ _) ?_ ?_ summand
    · exact fun h => n.chars_ne_nil (List.cons.inj h).2
    · rw [Scalar.read?, Numeral.read?_sign_chars, Option.map_some]
      rfl

/-- A number text that is no multiplier, such as two points, is refused with the whole gap. -/
theorem leadingNumber_eq_error (hnumber : NumberText number)
    (h : ∀ m : Multiplier, number ≠ m.chars) (summand : List Char) :
    leadingNumber number summand =
      (.error (.badPolynomial (String.ofList summand)) : Except Refusal K) := by
  unfold leadingNumber
  split
  · exact absurd rfl (h .omitted)
  · exact absurd rfl (h .minus)
  · cases hread : Numeral.read? number with
    | none => simp [Scalar.read?, hread]
    | some n =>
      obtain ⟨m, hm⟩ := Numeral.exists_multiplier_of_read? hnumber hread
      exact absurd hm (h m)

/-- A gap that says something is read as what it says. -/
theorem Holds.read_eq (h : Holds leading gap c)
    (hlimit : ∀ digits, c.x = .power digits → digits.length ≤ maxIntegerDigits) :
    read leading gap = (.ok (c.multiplier.value, c.factors) : Except Failure (K × _)) := by
  have hfactors : factors c.x = (.ok c.factors : Except Fault (List (Factor K))) := by
    obtain ⟨m, x⟩ := c
    cases x with
    | absent => rfl
    | plain => rfl
    | power digits =>
      have hle : ¬ maxIntegerDigits < digits.length := Nat.not_lt.mpr (hlimit digits rfl)
      simp only [factors, readDigits, if_neg hle]
      rfl
  have hparts : parts? leading (dropProducts (squeeze gap)) = some (c.multiplier.chars, c.x) :=
    parts?_eq_some_iff.mpr ⟨h.unsigned, h.shaped⟩
  simp only [read, hparts, Multiplier.leadingNumber_chars, hfactors]
  rfl

theorem Shaped.numberText (h : Shaped s number x) : NumberText number := by
  cases h
  assumption

/-- A gap has one number and one variable. -/
theorem Shaped.unique {other : List Char} {y : Variable} (h : Shaped s number x)
    (h' : Shaped s other y) : number = other ∧ x = y := by
  have hparts : parts? true s = some (number, x) := parts?_eq_some_iff.mpr ⟨by simp, h⟩
  have hparts' : parts? true s = some (other, y) := parts?_eq_some_iff.mpr ⟨by simp, h'⟩
  exact Prod.mk.inj (Option.some.inj (hparts.symm.trans hparts'))

/-- A gap outside the grammar is refused with its text. -/
theorem Unreadable.read_eq (h : Unreadable leading gap) :
    read leading gap = (.error (.refused (.badPolynomial (String.ofList (trim gap)))) :
      Except Failure (K × List (Factor K))) := by
  cases hparts : parts? leading (dropProducts (squeeze gap)) with
  | none =>
    simp only [read, hparts]
    rfl
  | some parts =>
    obtain ⟨hunsigned, hshaped⟩ := parts?_eq_some_iff.mp hparts
    cases h with
    | shape hshape => exact absurd hshaped (hshape _ _)
    | sign hleading hhead hsign =>
      rw [hunsigned hleading _ hhead] at hsign
      cases hsign
    | number hnumber hne =>
      obtain ⟨rfl, -⟩ := hnumber.unique hshaped
      have herror : leadingNumber parts.1 (trim gap) =
          (.error (.badPolynomial (String.ofList (trim gap))) : Except Refusal K) :=
        leadingNumber_eq_error hshaped.numberText hne _
      simp only [read, hparts, herror]
      rfl

/-- An empty gap says nothing but the number 1. -/
theorem holds_nil (leading : Bool) : Holds leading [] ⟨.omitted, .absent⟩ := by
  have hnumber : NumberText [] := .unsigned fun c hc => by cases hc
  exact ⟨.mk hnumber .absent, fun _ c hc => by cases hc⟩

/-- Every gap says something or is refused. -/
theorem holds_or_unreadable (leading : Bool) (gap : List Char) :
    (∃ c, Holds leading gap c) ∨ Unreadable leading gap := by
  by_cases hshape : ∃ number x, Shaped (shown gap) number x
  · obtain ⟨number, x, hshaped⟩ := hshape
    by_cases hsign : leading = false ∧ ∃ c ∈ (shown gap).head?, Term.isSign c = true
    · obtain ⟨hleading, c, hhead, hc⟩ := hsign
      exact Or.inr (.sign hleading hhead hc)
    · by_cases hnumber : ∃ m : Multiplier, number = m.chars
      · obtain ⟨m, rfl⟩ := hnumber
        refine Or.inl ⟨⟨m, x⟩, hshaped, fun hleading c hhead => ?_⟩
        exact Bool.eq_false_iff.mpr fun hc => hsign ⟨hleading, c, hhead, hc⟩
      · exact Or.inr (.number hshaped (not_exists.mp hnumber))
  · exact Or.inr (.shape fun number x hshaped => hshape ⟨number, x, hshaped⟩)

end Gap

end PartialFractions
