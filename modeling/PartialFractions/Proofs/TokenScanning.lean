import PartialFractions.Proofs.LiteralReading

/-!
The scanner on texts in the notation of arithmetic. The characters that follow a number or an x
tell where it ends, and each step of the scanner takes one token or one space.
-/
namespace PartialFractions

open Text Number

namespace Verification

namespace Token

theorem digitIn?_of_mem_breaks : ∀ c ∈ breaks,
    Literal.digitIn? 16 c = none ∧ c.isDigit = false ∧ Literal.base? c = none ∧
      c ∉ ['_', '.', 'e', 'E', 'j', 'J'] := by
  intro c hc
  unfold breaks spaces marks at hc
  fin_cases hc <;> decide

theorem isWordChar_of_mem_breaks : ∀ c ∈ breaks, isWordChar c = false := by
  intro c hc
  unfold breaks spaces marks at hc
  fin_cases hc <;> rfl

theorem mem_breaks_of_mem_spaces : ∀ c ∈ spaces, c ∈ breaks :=
  fun _ hc => List.mem_append_left _ hc

theorem mem_breaks_of_mem_marks : ∀ m ∈ marks, m.1 ∈ breaks :=
  fun _ hm => List.mem_append_right _ (List.mem_map_of_mem hm)

variable {s : List Char} {ts : List Token}

namespace Scanned

theorem of_nil (h : Scanned [] ts) : ts = [] := by
  generalize hs : [] = s at h
  cases h with
  | done => rfl
  | space | mark | x => cases hs
  | literal hds =>
    obtain ⟨c, ds, rfl, -⟩ := hds.exists_cons
    cases hs

/-- The first character tells what kind of token is the first one. -/
theorem of_cons {c : Char} (h : Scanned (c :: s) ts) :
    (c ∈ spaces ∧ Scanned s ts) ∨
      (∃ t us, (c, t) ∈ marks ∧ ts = t :: us ∧ Scanned s us) ∨
      (c = 'x' ∧ ∃ us, ts = .x :: us ∧ (∀ d ∈ s.head?, d ∈ breaks) ∧ Scanned s us) ∨
      c.isDigit = true ∨ c = '.' := by
  generalize ht : c :: s = t at h
  cases h with
  | done => cases ht
  | space hc h =>
    obtain ⟨rfl, rfl⟩ := List.cons.inj ht
    exact Or.inl ⟨hc, h⟩
  | mark hc h =>
    obtain ⟨rfl, rfl⟩ := List.cons.inj ht
    exact Or.inr (Or.inl ⟨_, _, hc, rfl, h⟩)
  | x hs h =>
    obtain ⟨rfl, rfl⟩ := List.cons.inj ht
    exact Or.inr (Or.inr (Or.inl ⟨rfl, _, rfl, hs, h⟩))
  | literal hds hs h =>
    obtain ⟨d, ds, rfl, hfirst⟩ := hds.exists_cons
    obtain ⟨rfl, -⟩ := List.cons.inj ht
    exact Or.inr (Or.inr (Or.inr hfirst))

theorem of_x (h : Scanned ('x' :: s) ts) :
    ∃ us, ts = .x :: us ∧ (∀ c ∈ s.head?, c ∈ breaks) ∧ Scanned s us := by
  rcases h.of_cons with ⟨hc, -⟩ | ⟨t, us, hc, -⟩ | ⟨-, hx⟩ | hdigit | hpoint
  · exact absurd hc (by decide)
  · have hmem : 'x' ∈ breaks := mem_breaks_of_mem_marks _ hc
    exact absurd hmem (by decide)
  · exact hx
  · exact absurd hdigit (by decide)
  · exact absurd hpoint (by decide)

theorem endsNumber_of_breaks (hs : ∀ c ∈ s.head?, c ∈ breaks) : Literal.EndsNumber s where
  head? c hc := by
    obtain ⟨-, hdigit, -, hletter⟩ := digitIn?_of_mem_breaks c (hs c hc)
    exact ⟨hdigit, hletter⟩
  basedFrom? := by
    cases s with
    | nil => rfl
    | cons c s =>
      obtain ⟨-, -, hbase, -⟩ := digitIn?_of_mem_breaks c (hs c rfl)
      simp [Literal.basedFrom?, hbase]

/-- What is scanned behind a number ends it, also if it is an x. -/
theorem endsNumber (h : Scanned s ts) (hs : ∀ c ∈ s.head?, c ∈ 'x' :: breaks) :
    Literal.EndsNumber s := by
  by_cases hx : s.head? = some 'x'
  · obtain ⟨s, rfl⟩ := List.head?_eq_some_iff.mp hx
    obtain ⟨us, rfl, hbreaks, -⟩ := h.of_x
    refine ⟨by rintro c ⟨⟩; decide, ?_⟩
    have hdigits : Number.digitsFrom (Literal.digitIn? 16) true s = ([], s) := by
      cases s with
      | nil => rfl
      | cons c s =>
        obtain ⟨hdigit, -, -, hletter⟩ := digitIn?_of_mem_breaks c (hbreaks c rfl)
        simp only [List.mem_cons, not_or] at hletter
        simp [digitsFrom, hdigit, hletter]
    simp [Literal.basedFrom?, Literal.base?, hdigits]
  · refine endsNumber_of_breaks fun c hc => ?_
    refine (List.mem_cons.mp (hs c hc)).resolve_left ?_
    rintro rfl
    exact hx hc

end Scanned

theorem next_of_breaks {c : Char} (hc : c ∈ breaks) (rest : List Char) :
    Literal.readImaginary? (c :: rest) = none ∧ Literal.read? (c :: rest) = none ∧
      (isWordChar c && (digit? c).isNone) = false := by
  obtain ⟨-, hdigit, -, hletter⟩ := digitIn?_of_mem_breaks c hc
  have hpoint : c ≠ '.' := fun h => hletter (by simp [h])
  obtain ⟨himaginary, hread⟩ := Literal.read_eq_none hdigit hpoint rest
  exact ⟨himaginary, hread, by simp [isWordChar_of_mem_breaks c hc]⟩

theorem next_space {c : Char} (hc : c ∈ spaces) (rest : List Char) :
    next c rest = .ok ([], rest) := by
  obtain ⟨himaginary, hread, hword⟩ := next_of_breaks (mem_breaks_of_mem_spaces c hc) rest
  simp [next, himaginary, hread, hword, ofChar, hc, Except.map]

theorem next_mark {c : Char} {t : Token} (hc : (c, t) ∈ marks) (rest : List Char) :
    next c rest = .ok ([t], rest) := by
  obtain ⟨himaginary, hread, hword⟩ := next_of_breaks (mem_breaks_of_mem_marks _ hc) rest
  have hchar : ofChar c = .ok [t] := by
    have hall : ∀ m ∈ marks, ofChar m.1 = .ok [m.2] := by decide
    exact hall _ hc
  simp [next, himaginary, hread, hword, hchar, Except.map]

theorem next_x (hs : ∀ c ∈ s.head?, isWordChar c = false) : next 'x' s = .ok ([.x], s) := by
  have hx : isWordChar 'x' = true := by decide +kernel
  have hdigit : (digit? 'x').isNone = true := by decide
  obtain ⟨himaginary, hread⟩ := Literal.read_eq_none (c := 'x') (by decide) (by decide) s
  have htake : ('x' :: s).takeWhile isWordChar = ['x'] := by
    rw [List.takeWhile_cons_of_pos hx]
    cases s with
    | nil => rfl
    | cons c s => simp [hs c rfl]
  have hdrop : ('x' :: s).dropWhile isWordChar = s := by
    rw [List.dropWhile_cons_of_pos hx]
    cases s with
    | nil => rfl
    | cons c s => simp [hs c rfl]
  simp only [next, himaginary, hread, hx, hdigit, htake, hdrop]
  rfl

/-- A number that is read is a token, unless it is too long. -/
theorem next_of_read {c : Char} {ds : List Char} {l : Literal}
    (himaginary : Literal.readImaginary? (c :: ds ++ s) = none)
    (hread : Literal.read? (c :: ds ++ s) = some (l, s)) :
    next c (ds ++ s) = (l.tooLong? (c :: ds)).elim (.ok ([.literal l], s)) .error := by
  have hwritten : (c :: (ds ++ s)).take ((ds ++ s).length + 1 - s.length) = c :: ds := by
    have hlength : (ds ++ s).length + 1 - s.length = (c :: ds).length := by
      simp only [List.length_append, List.length_cons]
      omega
    rw [hlength, ← List.cons_append, List.take_left']
    rfl
  rw [List.cons_append] at himaginary hread
  simp only [next, himaginary, hread, hwritten]
  cases l.tooLong? (c :: ds) <;> rfl

theorem next_literal {c : Char} {ds : List Char} {l : Literal} (hds : l.Spelled (c :: ds))
    (hs : Literal.EndsNumber s) : next c (ds ++ s) = .ok ([.literal l], s) := by
  obtain ⟨himaginary, hread, hlong⟩ := hds.read hs
  rw [next_of_read himaginary hread, hlong]
  rfl

/-- A text of nothing but a numeral that is too long is refused. -/
theorem ofText_of_long {ds : List Char} (hds : IsNumeral ds)
    (hlong : maxIntegerDigits < ds.length) : ofText ds = .error (.literalTooLong ds.length) := by
  have htoo := Literal.tooLong?_eq_some hds hlong
  obtain ⟨himaginary, hread⟩ := Literal.read_whole (Literal.Row.of_isDigit hds.isDigit) hds
    Literal.endsNumber_nil
  obtain ⟨c, rest, rfl⟩ := List.exists_cons_of_ne_nil hds.ne_nil
  have hnext := next_of_read himaginary hread
  rw [List.append_nil, htoo] at hnext
  have hscan : scan (c :: rest).length (c :: rest) =
      .error (.literalTooLong (c :: rest).length) := by
    simp only [List.length_cons, scan, hnext, bind, Except.bind]
    rfl
  rw [ofText, hscan]
  rfl

/-- Each step of the scanner takes at least one character. -/
theorem scan_cons {c : Char} {rest after : List Char} {front ts : List Token}
    (hnext : next c rest = .ok (front, after)) (hlength : after.length ≤ rest.length)
    (h : ∀ fuel, after.length ≤ fuel → scan fuel after = .ok ts) (fuel : ℕ)
    (hfuel : (c :: rest).length ≤ fuel) : scan fuel (c :: rest) = .ok (front ++ ts) := by
  cases fuel with
  | zero => simp at hfuel
  | succ fuel =>
    rw [List.length_cons] at hfuel
    have hrest := h fuel (by omega)
    simp only [scan, hnext, hrest, bind, Except.bind]
    rfl

/-- Each token takes at least one character, so the length of the text is fuel enough. -/
theorem Scanned.scan (h : Scanned s ts) : ∀ fuel, s.length ≤ fuel → scan fuel s = .ok ts := by
  induction h with
  | done =>
    intro fuel hfuel
    cases fuel <;> rfl
  | space hc h ih => exact scan_cons (next_space hc _) le_rfl ih
  | mark hc h ih => exact scan_cons (next_mark hc _) le_rfl ih
  | x hs h ih =>
    exact scan_cons (next_x fun c hc => isWordChar_of_mem_breaks c (hs c hc)) le_rfl ih
  | literal hds hs h ih =>
    obtain ⟨c, ds, rfl, -⟩ := hds.exists_cons
    exact scan_cons (next_literal hds (h.endsNumber hs)) (by simp) ih

theorem Scanned.isBlankToken (h : Scanned s ts) : ∀ t ∈ ts, t.isBlankToken = false := by
  induction h with
  | done => simp
  | space hc h ih => exact ih
  | mark hc h ih =>
    have hall : ∀ m ∈ marks, m.2.isBlankToken = false := by decide
    exact List.forall_mem_cons.mpr ⟨hall _ hc, ih⟩
  | x hs h ih | literal hds hs h ih => exact List.forall_mem_cons.mpr ⟨rfl, ih⟩

/-- Without blanks among the tokens there are no line breaks to drop. -/
theorem dropBreaks_eq (h : ∀ t ∈ ts, t.isBlankToken = false) (depth : ℕ) (after : Bool) :
    dropBreaks depth after ts = .ok ts := by
  induction ts generalizing depth after with
  | nil => rfl
  | cons t ts ih =>
    obtain ⟨ht, hts⟩ := List.forall_mem_cons.mp h
    cases t with
    | blank c => cases ht
    | _ => simp only [dropBreaks, ih hts, Except.map]

theorem dropWhile_isBlankToken (h : ∀ t ∈ ts, t.isBlankToken = false) :
    ts.dropWhile isBlankToken = ts := by
  cases ts with
  | nil => rfl
  | cons t ts => rw [List.dropWhile_cons_of_neg (by simp [h t (List.mem_cons_self ..)])]

theorem ofText_of_scanned (h : Scanned s ts) (hjoin : joinTimes ts = ts) : ofText s = .ok ts := by
  have hplain := h.isBlankToken
  have hreverse : ts.reverse.dropWhile isBlankToken = ts.reverse :=
    dropWhile_isBlankToken fun t ht => hplain t (List.mem_reverse.mp ht)
  have hbreaks := dropBreaks_eq hplain 0 false
  simp only [ofText, h.scan s.length le_rfl, bind, Except.bind, dropWhile_isBlankToken hplain,
    hreverse, List.reverse_reverse, hjoin, hbreaks]

end Token

end Verification

end PartialFractions
