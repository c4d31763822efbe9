import Mathlib
import PartialFractions.Proofs.DigitClasses
import PartialFractions.Proofs.ExactNumbers

/-!
Decimal numerals: digits of any script with a point among them or not. A numeral is read as the
number that its digits write, with the sign in front of it.
-/
namespace PartialFractions

open Text Number

/-- Digits, and those behind a point if there is one; at least one digit in all. -/
structure DecimalNumeral where
  whole : List Char
  fraction : Option (List Char)
  isDigit_whole : ∀ c ∈ whole, isDigit c = true
  isDigit_fraction : ∀ c ∈ fraction.getD [], isDigit c = true
  ne_nil : whole ++ fraction.getD [] ≠ []

namespace DecimalNumeral

def chars (n : DecimalNumeral) : List Char :=
  n.whole ++ match n.fraction with
    | none => []
    | some s => '.' :: s

def digits (n : DecimalNumeral) : ℕ :=
  ofDigits ((n.whole ++ n.fraction.getD []).filterMap digit?)

def places (n : DecimalNumeral) : ℕ := (n.fraction.getD []).length

def value {K : Type} [Field K] (n : DecimalNumeral) : K := n.digits / (10 ^ n.places : ℕ)

variable (n : DecimalNumeral)

theorem mem_parts {c : Char} (h : c ∈ n.chars) : c ∈ n.whole ++ n.fraction.getD [] ∨ c = '.' := by
  unfold chars at h
  cases hfraction : n.fraction with
  | none => simp_all
  | some s =>
    simp only [hfraction, List.mem_append, List.mem_cons] at h
    simp only [Option.getD_some, List.mem_append]
    tauto

theorem mem_chars {c : Char} (h : c ∈ n.chars) : isDigit c = true ∨ c = '.' :=
  (n.mem_parts h).imp_left fun h => (List.mem_append.mp h).elim (n.isDigit_whole c)
    (n.isDigit_fraction c)

theorem chars_ne_nil : n.chars ≠ [] := by
  intro h
  have hnil := n.ne_nil
  unfold chars at h
  obtain ⟨hwhole, hrest⟩ := List.append_eq_nil_iff.mp h
  cases hfraction : n.fraction with
  | none => simp [hwhole, hfraction] at hnil
  | some s => simp [hfraction] at hrest

/-- A character that is neither a digit nor a point is none of a numeral. -/
theorem notMem_chars {c : Char} (hdigit : isDigit c = false) (hpoint : c ≠ '.') : c ∉ n.chars := by
  intro h
  rcases n.mem_chars h with h | h
  · simp [hdigit] at h
  · exact hpoint h

theorem isBlank_of_mem {c : Char} (h : c ∈ n.chars) : isBlank c = false := by
  rcases n.mem_chars h with h | rfl
  · exact isBlank_of_isDigit h
  · decide

def ofDigit (c : Char) (h : isDigit c = true) : DecimalNumeral where
  whole := [c]
  fraction := none
  isDigit_whole d hd := by
    rw [List.mem_singleton.mp hd]
    exact h
  isDigit_fraction := by simp
  ne_nil := by simp

theorem value_ofDigit {K : Type} [Field K] {c : Char} {d : ℕ} (h : digit? c = some d)
    (hc : isDigit c = true) : ((ofDigit c hc).value : K) = d := by
  simp [ofDigit, value, digits, places, h, ofDigits, ofDigitsIn]

def zero : DecimalNumeral := ofDigit '0' (by decide)

def one : DecimalNumeral := ofDigit '1' (by decide)

theorem chars_zero : zero.chars = ['0'] := rfl

theorem value_zero {K : Type} [Field K] : (zero.value : K) = 0 := by
  have hdigit : digit? '0' = some 0 := by decide
  rw [zero, value_ofDigit hdigit, Nat.cast_zero]

theorem value_one {K : Type} [Field K] : (one.value : K) = 1 := by
  have hdigit : digit? '1' = some 1 := by decide
  rw [one, value_ofDigit hdigit, Nat.cast_one]

end DecimalNumeral

namespace Number

/-- The digits at the front are read up to a character that continues no row of digits. -/
theorem digitsFrom_append {value? : Char → Option ℕ} (hlow : value? '_' = none)
    {ds rest : List Char} (hds : ∀ c ∈ ds, (value? c).isSome = true)
    (hrest : ∀ c ∈ rest.head?, value? c = none ∧ c ≠ '_') (inside : Bool) :
    digitsFrom value? inside (ds ++ rest) = (ds.filterMap value?, rest) := by
  induction ds generalizing inside with
  | nil =>
    cases rest with
    | nil => rfl
    | cons c rest =>
      obtain ⟨hnone, hc⟩ := hrest c rfl
      simp [digitsFrom, hnone, hc]
  | cons c ds ih =>
    obtain ⟨hc, hds'⟩ := List.forall_mem_cons.mp hds
    obtain ⟨d, hd⟩ := Option.isSome_iff_exists.mp hc
    have hne : c ≠ '_' := by
      rintro rfl
      simp [hlow] at hd
    simp [digitsFrom, hne, hd, ih hds' true]

theorem digit?_low : digit? '_' = none := by decide

theorem digitsFrom_digits {ds : List Char} (hds : ∀ c ∈ ds, isDigit c = true) (inside : Bool) :
    digitsFrom digit? inside ds = (ds.filterMap digit?, []) := by
  have hall := @digitsFrom_append digit? digit?_low ds [] hds (by simp) inside
  rwa [List.append_nil] at hall

theorem isDigit_toDigits (n : ℕ) : ∀ c ∈ Nat.toDigits 10 n, c.isDigit = true :=
  fun _ hc => Nat.isDigit_of_mem_toDigits (by decide) (by decide) hc

theorem isDigit_of_mem_toDigits {n : ℕ} : ∀ c ∈ Nat.toDigits 10 n, isDigit c = true :=
  fun c hc => isDigit_of_ascii (isDigit_toDigits n c hc)

/-- The digits of a number in base ten are read as the number. -/
theorem ofDigits_toDigits (n : ℕ) : ofDigits ((Nat.toDigits 10 n).filterMap digit?) = n := by
  have hmap : (Nat.toDigits 10 n).filterMap digit? =
      (Nat.toDigits 10 n).map fun c => c.toNat - '0'.toNat := by
    rw [← List.filterMap_eq_map]
    exact List.filterMap_congr fun c hc => digit?_of_ascii (isDigit_toDigits n c hc)
  rw [hmap, ofDigits, ofDigitsIn, List.foldl_map, ← Nat.ofDigitChars_eq_foldl,
    Nat.ofDigitChars_ten_toDigits]

theorem isDigit_zeros (k : ℕ) : ∀ c ∈ List.replicate k '0', c.isDigit = true := by
  intro c hc
  rw [List.eq_of_mem_replicate hc]
  rfl

/-- Zeros in front change no number. -/
theorem ofDigits_zeros_append (k : ℕ) (ds : List Char) :
    ofDigits ((List.replicate k '0' ++ ds).filterMap digit?) = ofDigits (ds.filterMap digit?) := by
  have hzero : digit? '0' = some 0 := by decide
  induction k with
  | zero => rfl
  | succ k ih =>
    rw [List.replicate_succ, List.cons_append, List.filterMap_cons_some hzero]
    exact ih

end Number

namespace Numeral

variable (n : DecimalNumeral) (negative : Bool)

private theorem isEmpty_filterMap_digit? {ds : List Char} (hds : ∀ c ∈ ds, isDigit c = true) :
    (ds.filterMap digit?).isEmpty = ds.isEmpty := by
  cases ds with
  | nil => rfl
  | cons c ds =>
    obtain ⟨d, hd⟩ := Option.isSome_iff_exists.mp (hds c (List.mem_cons_self ..))
    simp [hd]

theorem length_filterMap_digit? {ds : List Char} (hds : ∀ c ∈ ds, isDigit c = true) :
    (ds.filterMap digit?).length = ds.length := by
  rw [List.length_filterMap_eq_countP]
  exact List.countP_eq_length.mpr hds

/-- A numeral and what may be read as the exponent behind it. -/
theorem ofDecimal?_append {rest : List Char} {k : ℤ}
    (hrest : ∀ c ∈ rest.head?, digit? c = none ∧ c ≠ '_' ∧ c ≠ '.')
    (hexponent : exponent? rest = some k) :
    ofDecimal? negative (n.chars ++ rest) =
      some (.decimal negative n.digits (k - n.places)) := by
  obtain ⟨whole, fraction, hwhole, hfraction, hne⟩ := n
  have hrest' : ∀ c ∈ rest.head?, digit? c = none ∧ c ≠ '_' :=
    fun c hc => ⟨(hrest c hc).1, (hrest c hc).2.1⟩
  cases fraction with
  | none =>
    have hgroup := digitsFrom_append digit?_low hwhole hrest' false
    have hsome : whole.isEmpty = false := by simpa using hne
    simp only [ofDecimal?, DecimalNumeral.chars, DecimalNumeral.digits, DecimalNumeral.places,
      digitGroup, List.append_nil, hgroup, Option.getD_none]
    split
    · exact absurd rfl (hrest '.' rfl).2.2
    · simp [isEmpty_filterMap_digit? hwhole, hsome, hexponent]
  | some s =>
    have hpoint : ∀ c ∈ ('.' :: (s ++ rest)).head?, digit? c = none ∧ c ≠ '_' := by
      rintro c ⟨⟩
      decide
    have hgroup := digitsFrom_append digit?_low hwhole hpoint false
    simp only [Option.getD_some] at hfraction hne
    have hbehind := digitsFrom_append digit?_low hfraction hrest' false
    have hsome : (whole.isEmpty && s.isEmpty) = false := by
      cases whole <;> cases s <;> simp_all
    simp [ofDecimal?, DecimalNumeral.chars, DecimalNumeral.digits, DecimalNumeral.places,
      digitGroup, hgroup, hbehind, isEmpty_filterMap_digit? hwhole,
      isEmpty_filterMap_digit? hfraction, hsome, hexponent, length_filterMap_digit? hfraction]

theorem ofDecimal?_chars :
    ofDecimal? negative n.chars = some (.decimal negative n.digits (-(n.places : ℤ))) := by
  have hexponent : exponent? [] = some 0 := rfl
  have happend := ofDecimal?_append n negative (by simp) hexponent
  rwa [List.append_nil, zero_sub] at happend

/-- Every word for a number begins with a letter. -/
theorem ofWord?_eq_none {s : List Char} (h : ∀ c ∈ s.head?, c.isAlpha = false) :
    ofWord? negative s = none := by
  cases s with
  | nil => simp [ofWord?]
  | cons c s =>
    have halpha : c.toLower.isAlpha = false := by
      rw [Char.isAlpha_toLower_eq_isAlpha]
      exact h c rfl
    have hletter {d : Char} (hd : d.isAlpha = true) : c.toLower ≠ d := by
      rintro rfl
      simp [halpha] at hd
    simp [ofWord?, hletter (d := 'i') rfl, hletter (d := 'n') rfl]

theorem ofWord?_chars : ofWord? negative n.chars = none := by
  refine ofWord?_eq_none negative ?_
  intro c hc
  rcases n.mem_chars (List.mem_of_mem_head? hc) with h | rfl
  · exact isAlpha_of_isDigit h
  · rfl

theorem trimOf_eq_self {p : Char → Bool} {s : List Char} (hhead : ∀ c ∈ s.head?, p c = false)
    (hlast : ∀ c ∈ s.getLast?, p c = false) : trimOf p s = s := by
  have hdrop {t : List Char} (ht : ∀ c ∈ t.head?, p c = false) : t.dropWhile p = t := by
    cases t with
    | nil => rfl
    | cons c t => simp [ht c rfl]
  rw [trimOf, hdrop hhead, hdrop (by simpa using hlast), List.reverse_reverse]

theorem trimOf_eq_self_of_all {p : Char → Bool} {s : List Char} (h : ∀ c ∈ s, p c = false) :
    trimOf p s = s :=
  trimOf_eq_self (fun c hc => h c (List.mem_of_mem_head? hc))
    fun c hc => h c (List.mem_of_getLast? hc)

theorem isSpace_of_mem_chars {c : Char} (h : c ∈ n.chars) : isSpace c = false := by
  have hblank := n.isBlank_of_mem h
  simp only [isBlank, Bool.or_eq_false_iff] at hblank
  exact hblank.1

/-- A numeral behind a sign. -/
theorem read?_sign_chars :
    read? ((if negative then '-' else '+') :: n.chars) =
      some (.decimal negative n.digits (-(n.places : ℤ))) := by
  have hspace : ∀ c ∈ (if negative then '-' else '+') :: n.chars, isSpace c = false := by
    intro c hc
    rcases List.mem_cons.mp hc with rfl | hc
    · cases negative <;> decide
    · exact isSpace_of_mem_chars n hc
  unfold read?
  rw [trimOf_eq_self_of_all hspace]
  cases negative <;> simp [splitSign, ofWord?_chars, ofDecimal?_chars]

theorem read?_chars : read? n.chars = some (.decimal false n.digits (-(n.places : ℤ))) := by
  have hspace : ∀ c ∈ n.chars, isSpace c = false := fun c hc => isSpace_of_mem_chars n hc
  have hsplit : splitSign n.chars = (false, n.chars) := by
    obtain ⟨c, rest, hchars⟩ := List.exists_cons_of_ne_nil n.chars_ne_nil
    have hminus : c ≠ '-' := by
      rintro rfl
      exact n.notMem_chars (by decide) (by decide) (hchars ▸ List.mem_cons_self ..)
    have hplus : c ≠ '+' := by
      rintro rfl
      exact n.notMem_chars (by decide) (by decide) (hchars ▸ List.mem_cons_self ..)
    rw [hchars]
    unfold splitSign
    split <;> simp_all
  unfold read?
  rw [trimOf_eq_self_of_all hspace]
  simp [hsplit, ofWord?_chars, ofDecimal?_chars]

/-- A numeral behind a minus sign or no sign. -/
theorem read?_minus_chars : read? ((if negative then ['-'] else []) ++ n.chars) =
    some (.decimal negative n.digits (-(n.places : ℤ))) := by
  cases negative with
  | true => exact read?_sign_chars n true
  | false => exact read?_chars n

end Numeral

namespace Scalar

variable {K : Type} [Field K] (n : DecimalNumeral) (negative : Bool)

def signed (negative : Bool) (v : K) : K := if negative then -v else v

theorem signed_signed (v : K) : signed negative (signed negative v) = v := by
  cases negative with
  | true => exact neg_neg v
  | false => rfl

variable [LinearOrder K] [Notated K]

theorem ofNumeral_decimal :
    (ofNumeral (.decimal negative n.digits (-(n.places : ℤ))) : Exact K) =
      .finite (signed negative n.value) := by
  simp [Exact.ofNumeral, signed, DecimalNumeral.value, div_eq_mul_inv]

theorem read?_sign_chars :
    (read? ((if negative then '-' else '+') :: n.chars) : Option (Exact K)) =
      some (.finite (signed negative n.value)) := by
  rw [read?, Numeral.read?_sign_chars, Option.map_some, ofNumeral_decimal]

theorem read?_chars : (read? n.chars : Option (Exact K)) = some (.finite n.value) := by
  rw [read?, Numeral.read?_chars, Option.map_some, ofNumeral_decimal]
  rfl

end Scalar

end PartialFractions
