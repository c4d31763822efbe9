import PartialFractions.Proofs.ArithmeticNotation

/-!
Numbers that are spelled in the notation of arithmetic, as they are read at the front of a text. A
number goes as far as its digits, so it is judged with the text behind it.
-/
namespace PartialFractions

open Text Number

namespace Verification

namespace Literal

theorem digitIn?_of_isDigit {c : Char} (h : c.isDigit = true) : digitIn? 10 c = digit? c := by
  rw [digit?_of_ascii h]
  simp only [Char.isDigit, Bool.and_eq_true, decide_eq_true_eq, ge_iff_le] at h
  have hhigh : c.toNat ≤ 57 := h.2
  have hfront : ('0' ≤ c && c ≤ '9') = true := by
    simpa only [Bool.and_eq_true, decide_eq_true_eq, Char.le_def] using h
  have hlt : c.toNat - '0'.toNat < 10 := by
    simp only [Char.reduceToNat]
    omega
  simp only [digitIn?, hfront, if_true, if_pos hlt]

theorem digitIn?_eq_none {base : ℕ} (hbase : base ≤ 10) {c : Char} (h : c.isDigit = false) :
    digitIn? base c = none := by
  have hfront : ('0' ≤ c && c ≤ '9') = false := h
  have hlarge : ¬ (if 'a' ≤ c && c ≤ 'f' then c.toNat - 'a'.toNat + 10
      else if 'A' ≤ c && c ≤ 'F' then c.toNat - 'A'.toNat + 10 else base) < base := by
    split
    · omega
    · split <;> omega
  simp only [digitIn?, hfront, Bool.false_eq_true, if_false, if_neg hlarge]

def EndsRow (s : List Char) : Prop := ∀ c ∈ s.head?, c.isDigit = false ∧ c ≠ '_'

/-- What stands at the front does not belong to a number in front of it: it is no digit, no point
and no letter of an exponent or an imaginary number, and behind a zero it is no number in another
base. -/
structure EndsNumber (s : List Char) : Prop where
  head? : ∀ c ∈ s.head?, c.isDigit = false ∧ c ∉ ['_', '.', 'e', 'E', 'j', 'J']
  basedFrom? : basedFrom? ('0' :: s) = none

theorem endsNumber_nil : EndsNumber [] where
  head? := by simp
  basedFrom? := rfl

variable {s t ds fs rest exponent : List Char} {e : ℤ} {l : Literal}

theorem EndsNumber.endsRow (h : EndsNumber rest) : EndsRow rest :=
  fun c hc => ⟨(h.head? c hc).1, fun heq => (h.head? c hc).2 (by simp [heq])⟩

theorem endsRow_cons {c : Char} (hdigit : c.isDigit = false) (hlow : c ≠ '_') (s : List Char) :
    EndsRow (c :: s) := by
  rintro d ⟨⟩
  exact ⟨hdigit, hlow⟩

namespace Row

theorem point_notMem (h : Row s ds) : '.' ∉ s := by
  have hne {c : Char} (hc : c.isDigit = true) : '.' ≠ c := by
    rintro rfl
    exact absurd hc (by decide)
  induction h with
  | nil => simp
  | digit hc h ih => simp [hne hc, ih]
  | low hc hds h ih => simp [hne hc, ih]

theorem head?_eq (h : Row s ds) : s.head? = ds.head? := by
  cases h <;> rfl

theorem values_ne_nil (h : Row s ds) (hds : ds ≠ []) : ds.filterMap digit? ≠ [] := by
  obtain ⟨c, ds, rfl⟩ := List.exists_cons_of_ne_nil hds
  simp [digit?_of_ascii (h.isDigit c (List.mem_cons_self ..))]

/-- A row is read up to what ends it. -/
theorem digitRow_append (h : Row s ds) (hrest : EndsRow rest) :
    digitRow (s ++ rest) = (ds.filterMap digit?, rest) := by
  have hfirst {c : Char} (hc : c.isDigit = true) : c ≠ '_' ∧ digitIn? 10 c = digit? c ∧
      digit? c = some (c.toNat - '0'.toNat) := by
    refine ⟨?_, digitIn?_of_isDigit hc, digit?_of_ascii hc⟩
    rintro rfl
    exact absurd hc (by decide)
  have hall (inside : Bool) :
      digitsFrom (digitIn? 10) inside (s ++ rest) = (ds.filterMap digit?, rest) := by
    induction h generalizing inside with
    | nil =>
      cases rest with
      | nil => rfl
      | cons c rest =>
        obtain ⟨hdigit, hlow⟩ := hrest c rfl
        simp [digitsFrom, hlow, digitIn?_eq_none le_rfl hdigit]
    | digit hc h ih =>
      obtain ⟨hlow, hvalue, hdigit⟩ := hfirst hc
      simp [digitsFrom, hlow, hvalue, hdigit, ih true]
    | low hc hds h ih =>
      obtain ⟨hlow, hvalue, hdigit⟩ := hfirst hc
      obtain ⟨v, values, hvalues⟩ := List.exists_cons_of_ne_nil (h.values_ne_nil hds)
      have hlater := ih false
      rw [hvalues] at hlater
      simp [digitsFrom, hlow, hvalue, hdigit, hlater, hvalues]
  exact hall false

theorem digitRow_eq (h : Row s ds) : digitRow s = (ds.filterMap digit?, []) := by
  have hend : EndsRow [] := by simp [EndsRow]
  have hrow := h.digitRow_append hend
  rwa [List.append_nil] at hrow

end Row

section Exponents

theorem exponentFrom?_eq_none (hrest : EndsNumber rest) : exponentFrom? rest = none := by
  cases rest with
  | nil => rfl
  | cons c rest =>
    have hletter := (hrest.head? c rfl).2
    simp only [List.mem_cons, not_or] at hletter
    simp [exponentFrom?, hletter]

/-- The sign of an exponent is split off when a digit follows it. -/
theorem splitSign_append {sign : List Char} {negative : Bool}
    (hsign : (sign, negative) ∈ exponentSigns) (h : Row s ds) (hds : ds ≠ []) (rest : List Char) :
    splitSign (sign ++ (s ++ rest)) = (negative, s ++ rest) := by
  unfold exponentSigns at hsign
  simp only [List.mem_cons, List.not_mem_nil, or_false, Prod.mk.injEq] at hsign
  rcases hsign with ⟨rfl, rfl⟩ | ⟨rfl, rfl⟩ | ⟨rfl, rfl⟩
  · have hfirst {c : Char} (hc : c.isDigit = true) (s : List Char) :
        splitSign (c :: s) = (false, c :: s) := by
      unfold splitSign
      split
      · rename_i heq
        rw [(List.cons.inj heq).1] at hc
        exact absurd hc (by decide)
      · rename_i heq
        rw [(List.cons.inj heq).1] at hc
        exact absurd hc (by decide)
      · rfl
    cases h with
    | nil => exact absurd rfl hds
    | digit hc h | low hc hds h => exact hfirst hc _
  · rfl
  · rfl

/-- A spelled exponent is read up to where the number ends. -/
theorem ExponentSpelled.exponentFrom?_append (h : ExponentSpelled exponent e)
    (hexponent : exponent ≠ []) (hrest : EndsNumber rest) :
    exponentFrom? (exponent ++ rest) = some (e, rest) := by
  cases h with
  | absent => exact absurd rfl hexponent
  | @written letter sign s ds negative hletter hsign hs hds =>
    have hletter : letter = 'e' ∨ letter = 'E' := by simpa using hletter
    have hrow := hs.digitRow_append hrest.endsRow
    obtain ⟨v, values, hvalues⟩ := List.exists_cons_of_ne_nil (hs.values_ne_nil hds)
    rw [hvalues] at hrow
    simp only [exponentFrom?, List.cons_append, List.append_assoc, Bool.or_eq_true,
      decide_eq_true_eq, if_pos hletter, splitSign_append hsign hs hds, hrow, ofNumeral, hvalues]

/-- Without an exponent, what follows the digits is not read as one. -/
theorem ExponentSpelled.getD_exponentFrom? (h : ExponentSpelled exponent e)
    (hrest : EndsNumber rest) :
    (exponentFrom? (exponent ++ rest)).getD (0, exponent ++ rest) = (e, rest) := by
  by_cases hexponent : exponent = []
  · cases h with
    | absent => rw [List.nil_append, exponentFrom?_eq_none hrest, Option.getD_none]
    | written => cases hexponent
  · rw [h.exponentFrom?_append hexponent hrest, Option.getD_some]

theorem ExponentSpelled.endsRow (h : ExponentSpelled exponent e) (hrest : EndsNumber rest) :
    EndsRow (exponent ++ rest) := by
  cases h with
  | absent => exact hrest.endsRow
  | @written letter sign s ds negative hletter hsign hs hds =>
    have hletter : letter = 'e' ∨ letter = 'E' := by simpa using hletter
    rcases hletter with rfl | rfl <;> exact endsRow_cons (by decide) (by decide) _

theorem ExponentSpelled.point_notMem (h : ExponentSpelled exponent e) : '.' ∉ exponent := by
  cases h with
  | absent => simp
  | @written letter sign s ds negative hletter hsign hs hds =>
    have hsigns : ∀ m ∈ exponentSigns, '.' ∉ m.1 := by decide
    have hne : letter ≠ '.' := by
      rintro rfl
      exact absurd hletter (by decide)
    simp [hsigns _ hsign, hs.point_notMem, hne.symm]

end Exponents

theorem decimalFrom?_eq_none (h : Row s ds) (hds : ds ≠ []) (hrest : EndsNumber rest) :
    decimalFrom? (s ++ rest) = none := by
  rw [decimalFrom?, h.digitRow_append hrest.endsRow]
  dsimp only
  split
  · exact absurd (hrest.head? '.' rfl).2 (by decide)
  · simp [h.values_ne_nil hds, exponentFrom?_eq_none hrest]

/-- The digits behind a point and an exponent are read up to what ends them. -/
theorem decimalFrom?_pointed (hs : Row s ds) (ht : Row t fs) (hne : ds ++ fs ≠ [])
    (he : ExponentSpelled exponent e) (hrest : EndsNumber rest) :
    decimalFrom? (s ++ '.' :: (t ++ (exponent ++ rest))) = some (.decimal (ofNumeral (ds ++ fs))
      (e - fs.length) (widthOf (Nat.toDigits 10 (ofNumeral (ds ++ fs))).length), rest) := by
  have hunits := hs.digitRow_append (endsRow_cons (c := '.') (by decide) (by decide)
    (t ++ (exponent ++ rest)))
  have hfraction := ht.digitRow_append (he.endsRow hrest)
  have hempty : ((ds.filterMap digit?).isEmpty && (fs.filterMap digit?).isEmpty) = false := by
    by_cases hds : ds = []
    · simp [ht.values_ne_nil (by simpa [hds] using hne)]
    · simp [hs.values_ne_nil hds]
  have hplaces : (fs.filterMap digit?).length = fs.length :=
    Numeral.length_filterMap_digit? fun c hc => isDigit_of_ascii (ht.isDigit c hc)
  rw [decimalFrom?, hunits]
  simp only [hfraction, hempty, Bool.false_eq_true, if_false, he.getD_exponentFrom? hrest, hplaces,
    ofNumeral, List.filterMap_append]

/-- Digits with an exponent but no point are a decimal literal, with its precision by their count.
-/
theorem decimalFrom?_scientific (hs : Row s ds) (hds : ds ≠ []) (he : ExponentSpelled exponent e)
    (hexponent : exponent ≠ []) (hrest : EndsNumber rest) :
    decimalFrom? (s ++ (exponent ++ rest)) =
      some (.decimal (ofNumeral ds) e (widthOf (keptDigits (ofNumeral ds) e)), rest) := by
  have hunits := hs.digitRow_append (he.endsRow hrest)
  have hread := he.exponentFrom?_append hexponent hrest
  have hpoint : (exponent ++ rest).head? ≠ some '.' := by
    obtain ⟨c, exponent, rfl⟩ := List.exists_cons_of_ne_nil hexponent
    rintro ⟨⟩
    exact he.point_notMem (List.mem_cons_self ..)
  rw [decimalFrom?, hunits]
  dsimp only
  split
  · rename_i heq
    exact absurd (by rw [heq]; rfl) hpoint
  · simp [hs.values_ne_nil hds, hread, ofNumeral]

/-- A number that the letter of an imaginary one does not follow is what it is read as. -/
theorem read_of_decimalFrom? (h : decimalFrom? s = some (l, rest)) (hrest : EndsNumber rest) :
    readImaginary? s = none ∧ read? s = some (l, rest) := by
  refine ⟨?_, by rw [read?, h]; rfl⟩
  rw [readImaginary?, h]
  cases rest with
  | nil => rfl
  | cons c rest =>
    have hletter := (hrest.head? c rfl).2
    simp only [List.mem_cons, not_or] at hletter
    simp [hletter]

section Whole

/-- A number that ends with its digits is not the front of an imaginary literal. -/
theorem readImaginary?_eq_none (h : Row s ds) (hds : ds ≠ []) (hrest : EndsNumber rest) :
    readImaginary? (s ++ rest) = none := by
  rw [readImaginary?, decimalFrom?_eq_none h hds hrest, h.digitRow_append hrest.endsRow]
  obtain ⟨v, values, hvalues⟩ := List.exists_cons_of_ne_nil (h.values_ne_nil hds)
  rw [hvalues]
  cases rest with
  | nil => rfl
  | cons c rest =>
    have hletter := (hrest.head? c rfl).2
    simp only [List.mem_cons, not_or] at hletter
    simp [hletter]

/-- The row of a numeral is the numeral zero if it begins with a zero. -/
theorem Row.eq_zero (h : Row s ds) (hds : IsNumeral ds) (hzero : s.head? = some '0') :
    s = ['0'] := by
  rw [hds.head?_zero (h.head?_eq ▸ hzero)] at h
  cases h with
  | digit hc h =>
    cases h
    rfl
  | low hc hne h => exact absurd (by cases h; rfl) hne

/-- A numeral is not the front of a hexadecimal, octal or binary literal. -/
theorem basedFrom?_eq_none (h : Row s ds) (hds : IsNumeral ds) (hrest : EndsNumber rest) :
    Literal.basedFrom? (s ++ rest) = none := by
  by_cases hzero : s.head? = some '0'
  · rw [h.eq_zero hds hzero]
    exact hrest.basedFrom?
  · have hhead : (s ++ rest).head? ≠ some '0' := by
      cases h with
      | nil => exact absurd rfl hds.ne_nil
      | digit hc h => exact hzero
      | low hc hne h => exact hzero
    unfold Literal.basedFrom?
    split
    · rename_i heq
      exact absurd (by rw [heq]; rfl) hhead
    · rfl

/-- A whole number is read up to what ends it. -/
theorem wholeFrom?_append (h : Row s ds) (hds : IsNumeral ds) (hrest : EndsNumber rest) :
    wholeFrom? (s ++ rest) = some (.whole (ofNumeral ds), rest) := by
  have hhead : (s ++ rest).head? = s.head? := by
    cases h with
    | nil => exact absurd rfl hds.ne_nil
    | digit hc h => rfl
    | low hc hne h => rfl
  unfold wholeFrom?
  by_cases hzero : s.head? = some '0'
  · have hds' := hds.head?_zero (h.head?_eq ▸ hzero)
    have hfront : ∀ c ∈ ['0'], (digitIn? 1 c).isSome = true :=
      List.forall_mem_singleton.mpr rfl
    have hends : ∀ c ∈ rest.head?, digitIn? 1 c = none ∧ c ≠ '_' := fun c hc =>
      ⟨digitIn?_eq_none (by decide) (hrest.head? c hc).1, (hrest.endsRow c hc).2⟩
    have hrow := digitsFrom_append (by decide) hfront hends false
    simp only [h.eq_zero hds hzero, hds', hrow]
    rfl
  · simp [hhead, hzero, h.digitRow_append hrest.endsRow, h.values_ne_nil hds.ne_nil, ofNumeral]

theorem tooLong?_eq_none (h : Row s ds) (hds : IsWholeNumeral ds) (n : ℕ) :
    tooLong? s (.whole n) = none := by
  have hlength : (ds.filterMap digit?).length ≤ maxIntegerDigits :=
    (List.length_filterMap_le ..).trans hds.length_le
  simp [tooLong?, h.digitRow_eq, Nat.not_lt.mpr hlength]

/-- A numeral that is longer than those that are read is refused for its length. -/
theorem tooLong?_eq_some (h : IsNumeral ds) (hlong : maxIntegerDigits < ds.length) :
    tooLong? ds (.whole (ofNumeral ds)) = some (.literalTooLong ds.length) := by
  have hrow := (Row.of_isDigit h.isDigit).digitRow_eq
  have hlength : (ds.filterMap digit?).length = ds.length :=
    Numeral.length_filterMap_digit? fun c hc => isDigit_of_ascii (h.isDigit c hc)
  have hne := h.ofNumeral_ne_zero (by
    have hlimit : 1 < maxIntegerDigits := by decide
    omega)
  simp [tooLong?, hrow, hlength, hlong, hne]

theorem read_whole (h : Row s ds) (hds : IsNumeral ds) (hrest : EndsNumber rest) :
    readImaginary? (s ++ rest) = none ∧
      read? (s ++ rest) = some (.whole (ofNumeral ds), rest) := by
  refine ⟨readImaginary?_eq_none h hds.ne_nil hrest, ?_⟩
  rw [read?, decimalFrom?_eq_none h hds.ne_nil hrest, basedFrom?_eq_none h hds hrest,
    wholeFrom?_append h hds hrest]
  rfl

end Whole

/-- A number that is spelled is read as the number that it spells, and is not too long. -/
theorem Spelled.read (h : l.Spelled s) (hrest : EndsNumber rest) :
    readImaginary? (s ++ rest) = none ∧ read? (s ++ rest) = some (l, rest) ∧
      tooLong? s l = none := by
  cases h with
  | whole hs hds =>
    obtain ⟨himaginary, hread⟩ := read_whole hs hds.toIsNumeral hrest
    exact ⟨himaginary, hread, tooLong?_eq_none hs hds _⟩
  | pointed hs ht hne he =>
    have hdecimal := decimalFrom?_pointed hs ht hne he hrest
    obtain ⟨himaginary, hread⟩ := read_of_decimalFrom? hdecimal hrest
    exact ⟨by simpa using himaginary, by simpa using hread, by simp [tooLong?]⟩
  | scientific hs hds he hexponent hlength =>
    have hdecimal := decimalFrom?_scientific hs hds he hexponent hrest
    obtain ⟨himaginary, hread⟩ := read_of_decimalFrom? hdecimal hrest
    refine ⟨by simpa using himaginary, by simpa using hread, ?_⟩
    simp [tooLong?, Nat.not_lt.mpr hlength]

/-- A number begins with a digit or a point. -/
theorem Spelled.exists_cons (h : l.Spelled s) :
    ∃ c t, s = c :: t ∧ (c.isDigit = true ∨ c = '.') := by
  have hrow {s ds : List Char} (hs : Row s ds) (hds : ds ≠ []) (rest : List Char) :
      ∃ c t, s ++ rest = c :: t ∧ (c.isDigit = true ∨ c = '.') := by
    cases hs with
    | nil => exact absurd rfl hds
    | digit hc h | low hc hne h => exact ⟨_, _, rfl, Or.inl hc⟩
  cases h with
  | whole hs hds => simpa using hrow hs hds.ne_nil []
  | @pointed s ds t fs exponent e hs ht hne he =>
    cases hs with
    | nil => exact ⟨_, _, rfl, Or.inr rfl⟩
    | digit hc h | low hc hne h => exact ⟨_, _, rfl, Or.inl hc⟩
  | scientific hs hds he hexponent hlength => exact hrow hs hds _

/-- A character that is neither a digit nor a point begins no number. -/
theorem read_eq_none {c : Char} (hdigit : c.isDigit = false) (hpoint : c ≠ '.')
    (rest : List Char) : readImaginary? (c :: rest) = none ∧ read? (c :: rest) = none := by
  have hzero : c ≠ '0' := by
    rintro rfl
    exact absurd hdigit (by decide)
  have hrow : digitRow (c :: rest) = ([], c :: rest) := by
    simp [digitRow, digitsFrom, digitIn?_eq_none le_rfl hdigit]
  have hdecimal : decimalFrom? (c :: rest) = none := by
    rw [decimalFrom?, hrow]
    dsimp only
    split
    · rename_i heq
      exact absurd (List.cons.inj heq).1 hpoint
    · rfl
  have hbased : Literal.basedFrom? (c :: rest) = none := by
    unfold Literal.basedFrom?
    split
    · rename_i heq
      exact absurd (List.cons.inj heq).1 hzero
    · rfl
  have hwhole : wholeFrom? (c :: rest) = none := by simp [wholeFrom?, hzero, hrow]
  refine ⟨?_, ?_⟩
  · rw [readImaginary?, hdecimal, hrow]
    rfl
  · rw [read?, hdecimal, hbased, hwhole]
    rfl

end Literal

end Verification

end PartialFractions
