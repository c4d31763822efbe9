import PartialFractions.Factor
import PartialFractions.Proofs.ReadDecimals
import PartialFractions.Proofs.ShortestDecimals

/-!
The text of a finite number is a numeral that is rounded to the number: all digits of a whole
number, and the fewest digits that read back of any other one. What is read in a text is what was
laid out in it, whether the digits stand around the point or in front of an exponent.
-/
namespace PartialFractions

open Text Number

namespace Number

theorem ofDigits_twoDigits (k : ℕ) : ofDigits ((twoDigits k).filterMap digit?) = k := by
  unfold twoDigits
  dsimp only
  split
  · exact (ofDigits_zeros_append 1 _).trans (ofDigits_toDigits k)
  · exact ofDigits_toDigits k

theorem filterMap_twoDigits_ne_nil (k : ℕ) : (twoDigits k).filterMap digit? ≠ [] := by
  apply List.ne_nil_of_length_pos
  rw [Numeral.length_filterMap_digit? fun c hc => isDigit_of_ascii (isDigit_twoDigits k c hc),
    twoDigits]
  have hpos := Nat.length_toDigits_pos (b := 10) (n := k)
  split
  · exact Nat.succ_pos _
  · exact hpos

end Number

namespace Numeral

variable (negative : Bool)

/-- A signed exponent is read back. -/
theorem exponent?_twoDigits (k : ℤ) :
    exponent? ('e' :: (if k < 0 then '-' else '+') :: twoDigits k.natAbs) = some k := by
  have hgroup : digitGroup (twoDigits k.natAbs) = ((twoDigits k.natAbs).filterMap digit?, []) :=
    digitsFrom_digits (fun c hc => isDigit_of_ascii (isDigit_twoDigits _ c hc)) false
  have hvalue := ofDigits_twoDigits k.natAbs
  obtain ⟨d, ds, hds⟩ := List.exists_cons_of_ne_nil (filterMap_twoDigits_ne_nil k.natAbs)
  rw [hds] at hgroup hvalue
  by_cases hk : k < 0
  · have hsign : splitSign ('-' :: twoDigits k.natAbs) = (true, twoDigits k.natAbs) := rfl
    have hread : exponent? ('e' :: '-' :: twoDigits k.natAbs) = some (-(k.natAbs : ℤ)) := by
      simp [exponent?, hsign, hgroup, hvalue]
    rw [if_pos hk, hread]
    congr 1
    omega
  · have hsign : splitSign ('+' :: twoDigits k.natAbs) = (false, twoDigits k.natAbs) := rfl
    have hread : exponent? ('e' :: '+' :: twoDigits k.natAbs) = some (k.natAbs : ℤ) := by
      simp [exponent?, hsign, hgroup, hvalue]
    rw [if_neg hk, hread]
    congr 1
    omega

/-- A decimal that is no whole number is read back from each of its layouts. -/
theorem ofDecimal?_write (layout : Layout) {d : Decimal} (h : d.exponent < 0) :
    ofDecimal? negative (layout.write d) = some (.decimal negative d.digits d.exponent) := by
  unfold Layout.write
  split
  · obtain ⟨whole, fraction, hne, hascii, hchars, -, hnumeral⟩ := exists_positional layout d
    obtain ⟨hdigits, hplaces⟩ := hnumeral h
    rw [hchars, ofDecimal?_chars, hdigits, hplaces]
  · obtain ⟨whole, fraction, hne, hascii, hchars, hdigits, hplaces⟩ := exists_scientific d
    have hletter : ∀ c ∈ ('e' :: (if d.leading < 0 then '-' else '+') ::
        twoDigits d.leading.natAbs).head?, digit? c = none ∧ c ≠ '_' ∧ c ≠ '.' := by
      rintro c ⟨⟩
      decide
    rw [hchars, ofDecimal?_append _ negative hletter (exponent?_twoDigits d.leading), hdigits,
      hplaces]

end Numeral

namespace Number

open Float.Model.UnpackedFloat (Sign)

section Whole

variable {m : ℕ} {q : ℤ}

/-- The whole part of a whole number is the number. -/
theorem cast_wholePart (h : Binary.isWhole m q = true) :
    (Binary.wholePart m q : ℚ) = m * 2 ^ q := by
  have hdvd : 2 ^ (-q).toNat ∣ m := Nat.dvd_of_mod_eq_zero (of_decide_eq_true h)
  have hN : Binary.wholePart m q * 2 ^ (-q).toNat = m * 2 ^ q.toNat :=
    Nat.div_mul_cancel (hdvd.mul_right _)
  exact (mul_zpow_eq_of_nat hN.symm).symm

/-- The binary test for a whole number is exact. -/
theorem isWhole_iff_exists : Binary.isWhole m q = true ↔ ∃ z : ℤ, (m * 2 ^ q : ℚ) = z := by
  constructor
  · intro h
    exact ⟨Binary.wholePart m q, by rw [Int.cast_natCast, cast_wholePart h]⟩
  · rintro ⟨z, hz⟩
    have hself := inInterval_self m q
    have hnonneg : (0 : ℚ) ≤ z := by
      rw [← hz]
      exact mul_nonneg (Nat.cast_nonneg m) (two_zpow_pos q).le
    obtain ⟨n, rfl⟩ := Int.eq_ofNat_of_zero_le (by exact_mod_cast hnonneg)
    rw [hz] at hself
    exact InInterval.isWhole (n := n) (by exact_mod_cast hself)

/-- The shortest decimal of a number that is no whole one has places behind the point. -/
theorem exponent_shortest_neg (hm : 0 < m) (hlt : m < 2 ^ 53)
    (hfraction : Binary.isWhole m q = false) : (shortest m q).exponent < 0 := by
  by_contra hexponent
  have hin := inInterval_shortest (q := q) hm hlt
  have hexp : (shortest m q).exponent = ((shortest m q).exponent.toNat : ℤ) := by omega
  have hwhole : (shortest m q).value =
      ((shortest m q).digits * 10 ^ (shortest m q).exponent.toNat : ℕ) := by
    rw [Decimal.value, hexp, zpow_natCast]
    push_cast
    rfl
  rw [hwhole] at hin
  rw [hin.isWhole] at hfraction
  cases hfraction

end Whole

section Texts

variable {v : Float} {s : Sign} {m : ℕ} {e : ℤ} {hm : 0 < m}

/-- The value of a number is whole if the number is written as one. -/
theorem isWhole_iff_exactValue (h : v.isFinite = true) :
    isWhole v = true ↔ ∃ z : ℤ, exactValue v = z := by
  obtain ⟨negative, m, e, hbinary, -⟩ := ofFloat_of_isFinite h
  rw [isWhole, hbinary, (exactValue_of_ofFloat hbinary).1, isWhole_iff_exists]
  cases negative with
  | false => exact Iff.rfl
  | true =>
    constructor
    · rintro ⟨z, hz⟩
      exact ⟨-z, by rw [Scalar.signed, if_pos rfl, hz, Int.cast_neg]⟩
    · rintro ⟨z, hz⟩
      exact ⟨-z, by rw [Int.cast_neg, ← hz, Scalar.signed, if_pos rfl, neg_neg]⟩

/-- A row of digits, with a minus sign in front or not, is read as a whole number. -/
theorem read?_digits {ds : List Char} (hne : ds ≠ []) (hds : ∀ c ∈ ds, c.isDigit = true)
    (negative : Bool) : Numeral.read? ((if negative then ['-'] else []) ++ ds) =
      some (.decimal negative (ofDigits (ds.filterMap digit?)) 0) := by
  simpa [DecimalNumeral.chars, DecimalNumeral.digits, DecimalNumeral.places,
    DecimalNumeral.ofAscii] using
    Numeral.read?_minus_chars (.ofAscii ds none hne (by simpa using hds)) negative

theorem read?_whole (h : parts v = .finite s m e hm) (hwhole : Binary.isWhole m e = true) :
    Numeral.read? (Scalar.text v).toList =
      some (.decimal (s == .negative) (Binary.wholePart m e) 0) := by
  rw [toList_text, ofFloat_of_parts h, formulaChars_whole hm.ne' hwhole,
    read?_digits Nat.toDigits_ne_nil (isDigit_toDigits _), ofDigits_toDigits]

theorem read?_fraction (h : parts v = .finite s m e hm) (hfraction : Binary.isWhole m e = false) :
    Numeral.read? (Scalar.text v).toList =
      some (.decimal (s == .negative) (shortest m e).digits (shortest m e).exponent) := by
  have hexponent := exponent_shortest_neg hm (isStandard_of_parts h).mantissa_lt hfraction
  obtain ⟨hplain, -, hminus⟩ := (isMagnitude_write fullLayout (shortest m e)).read?_numeral
  rw [toList_text, ofFloat_of_parts h, formulaChars_fraction hfraction]
  cases s with
  | positive => exact hplain.trans (Numeral.ofDecimal?_write false fullLayout hexponent)
  | negative => exact hminus.trans (Numeral.ofDecimal?_write true fullLayout hexponent)

theorem isWhole_of_parts (h : parts v = .finite s m e hm) : isWhole v = Binary.isWhole m e := by
  rw [isWhole, ofFloat_of_parts h]

theorem isWhole_of_zero (h : parts v = .zero s) : isWhole v = true := by
  obtain ⟨negative, hbinary⟩ := Binary.ofFloat_zero h
  simp [isWhole, hbinary, Binary.isWhole]

theorem exactValue_ne_zero_of_parts (h : parts v = .finite s m e hm) : exactValue v ≠ 0 := by
  have hpos : (0 : ℚ) < m * 2 ^ e := mul_pos (by exact_mod_cast hm) (two_zpow_pos e)
  rw [(exactValue_of_parts h).1]
  cases s with
  | positive => exact hpos.ne'
  | negative => exact neg_ne_zero.mpr hpos.ne'

/-- The numeral that is written is rounded to the number, and if this is no whole one then no
decimal with fewer digits is. -/
theorem exists_numeral (h : v.isFinite = true) : ∃ negative digits exponent,
    Numeral.read? (Scalar.text v).toList = some (.decimal negative digits exponent) ∧
      RoundsTo (Scalar.signed negative (digits * 10 ^ exponent)) v ∧
      (isWhole v = false → exponent < 0 ∧ ∀ (negative' : Bool) (n : ℕ) (k : ℤ),
        RoundsTo (Scalar.signed negative' (n * 10 ^ k)) v → digitCount digits ≤ digitCount n) := by
  rcases (isFinite_iff v).mp h with ⟨s, hparts⟩ | ⟨s, m, e, hm, hparts⟩
  · refine ⟨false, 0, 0, ?_, ?_, ?_⟩
    · rw [text_of_zero hparts]
      decide
    · rw [Nat.cast_zero, zero_mul]
      exact roundsTo_zero hparts
    · intro hfraction
      rw [isWhole_of_zero hparts] at hfraction
      cases hfraction
  · have hlt := (isStandard_of_parts hparts).mantissa_lt
    rw [isWhole_of_parts hparts]
    cases hwhole : Binary.isWhole m e with
    | true =>
      refine ⟨_, _, _, read?_whole hparts hwhole, ?_, nofun⟩
      have hvalue := roundsTo_exactValue h
      rw [(exactValue_of_parts hparts).1, ← cast_wholePart hwhole] at hvalue
      rwa [zpow_zero, mul_one]
    | false =>
      refine ⟨_, _, _, read?_fraction hparts hwhole, ?_, fun _ => ⟨?_, ?_⟩⟩
      · rw [roundsTo_iff hparts, Scalar.signed_signed]
        exact inInterval_shortest hm hlt
      · exact exponent_shortest_neg hm hlt hwhole
      · intro negative n k hn
        have hnonneg : (0 : ℚ) ≤ n * 10 ^ k :=
          mul_nonneg (Nat.cast_nonneg n) (ten_zpow_pos k).le
        exact digitCount_shortest_le hm hlt (((roundsTo_iff hparts).mp hn).of_signed hm hnonneg).2

/-- Every number but zero is read back from its text. -/
theorem read?_text (h : v.isFinite = true) (hne : exactValue v ≠ 0) :
    Scalar.read? (Scalar.text v).toList = some v := by
  obtain ⟨negative, digits, exponent, hread, hrounds, -⟩ := exists_numeral h
  rw [Scalar.read?, hread, Option.map_some]
  exact congrArg some (toFloat_of_roundsTo hne hrounds)

theorem read?_text_of_parts (h : parts v = .finite s m e hm) :
    Scalar.read? (Scalar.text v).toList = some v :=
  read?_text ((isFinite_iff v).mpr (Or.inr ⟨s, m, e, hm, h⟩)) (exactValue_ne_zero_of_parts h)

theorem text_of_exactValue_eq_zero (h : v.isFinite = true) (hzero : exactValue v = 0) :
    Scalar.text v = "0" := by
  rcases (isFinite_iff v).mp h with ⟨s, hparts⟩ | ⟨s, m, e, hm, hparts⟩
  · exact String.toList_injective (text_of_zero hparts)
  · exact absurd hzero (exactValue_ne_zero_of_parts hparts)

/-- What is read in the text of a computed root is the root. -/
theorem read?_root_text (h : v.isFinite = true) :
    Scalar.read? (Root.text (.computed v)).toList = Root.value? (.computed v) := by
  change Scalar.read? (Scalar.text v).toList = some (v + Scalar.ofNat 0)
  rcases (isFinite_iff v).mp h with ⟨s, hparts⟩ | ⟨s, m, e, hm, hparts⟩
  · rw [text_of_zero hparts, add_zero_of_isZero hparts]
    rfl
  · rw [read?_text_of_parts hparts, add_zero_of_parts hparts]

def IsInteger (s : List Char) : Prop :=
  ∃ negative ds, ds ≠ [] ∧ (∀ c ∈ ds, c.isDigit = true) ∧
    s = (if negative = true then ['-'] else []) ++ ds

theorem IsInteger.read? {t : List Char} (h : IsInteger t) :
    ∃ negative n, Numeral.read? t = some (.decimal negative n 0) := by
  obtain ⟨negative, ds, hne, hdigits, rfl⟩ := h
  exact ⟨negative, _, read?_digits hne hdigits negative⟩

/-- The whole numbers are those that are written without a point and an exponent. -/
theorem isInteger_text_iff (h : v.isFinite = true) :
    IsInteger (Scalar.text v).toList ↔ isWhole v = true := by
  constructor
  · intro hinteger
    obtain ⟨negative, digits, exponent, hread, -, hfraction⟩ := exists_numeral h
    obtain ⟨negative', n, hread'⟩ := hinteger.read?
    obtain ⟨-, -, hexponent⟩ := Numeral.decimal.inj (Option.some.inj (hread.symm.trans hread'))
    by_contra hnot
    have hneg := (hfraction (Bool.eq_false_iff.mpr hnot)).1
    omega
  · intro hwhole
    rcases (isFinite_iff v).mp h with ⟨s, hparts⟩ | ⟨s, m, e, hm, hparts⟩
    · rw [text_of_zero hparts]
      exact ⟨false, ['0'], by simp, by simp, rfl⟩
    · rw [isWhole_of_parts hparts] at hwhole
      rw [toList_text, ofFloat_of_parts hparts, formulaChars_whole hm.ne' hwhole]
      exact ⟨_, _, Nat.toDigits_ne_nil, isDigit_toDigits _, rfl⟩

theorem roundedText_zero (v : Float) : roundedText 0 v = .ok (Scalar.text v) := by
  have hchars : roundedChars 0 (Binary.ofFloat v) = .ok (formulaChars (Binary.ofFloat v)) := by
    unfold roundedChars
    split <;> simp
  rw [roundedText, hchars]
  rfl

/-- Without a precision every finite number is written as a numeral that reads back: what it
denotes is rounded to the number. It is an integer just if the number is one, and of any other
number no decimal with fewer digits reads back. -/
theorem roundedText_reads_back (v : Float) (h : v.isFinite = true) :
    ∃ t, roundedText 0 v = .ok t ∧
      (∃ negative digits exponent,
        Numeral.read? t.toList = some (.decimal negative digits exponent) ∧
        RoundsTo (Scalar.signed negative (digits * 10 ^ exponent)) v ∧
        ((¬ ∃ z : ℤ, exactValue v = z) → ∀ (negative' : Bool) (n : ℕ) (k : ℤ),
          RoundsTo (Scalar.signed negative' (n * 10 ^ k)) v →
            digitCount digits ≤ digitCount n)) ∧
      (exactValue v ≠ 0 → Scalar.read? t.toList = some v) ∧ (exactValue v = 0 → t = "0") ∧
      (IsInteger t.toList ↔ ∃ z : ℤ, exactValue v = z) := by
  obtain ⟨negative, digits, exponent, hread, hrounds, hfraction⟩ := exists_numeral h
  refine ⟨_, roundedText_zero v, ⟨negative, digits, exponent, hread, hrounds, ?_⟩, read?_text h,
    text_of_exactValue_eq_zero h, ?_⟩
  · intro hnot
    rw [← isWhole_iff_exactValue h] at hnot
    exact (hfraction (Bool.eq_false_iff.mpr hnot)).2
  · rw [← isWhole_iff_exactValue h]
    exact isInteger_text_iff h

/-- The sum of 0.1 and 0.2 needs all of its seventeen digits. -/
theorem roundedText_reads_back_sum : (0.1 + 0.2 : Float).isFinite = true ∧
    roundedText 0 (0.1 + 0.2) = .ok "0.30000000000000004" ∧
    RoundsTo (30000000000000004 * 10 ^ (-17 : ℤ)) (0.1 + 0.2) ∧
    ∀ (negative : Bool) (n : ℕ) (k : ℤ),
      RoundsTo (Scalar.signed negative (n * 10 ^ k)) (0.1 + 0.2) → 17 ≤ digitCount n := by
  have hfinite : (0.1 + 0.2 : Float).isFinite = true := by decide +kernel
  have htext : roundedText 0 (0.1 + 0.2) = .ok "0.30000000000000004" := by decide +kernel
  have hnumeral : Numeral.read? "0.30000000000000004".toList =
      some (.decimal false 30000000000000004 (-17)) := by decide +kernel
  have hfraction : ¬ ∃ z : ℤ, exactValue (0.1 + 0.2) = z := by
    rw [← isWhole_iff_exactValue hfinite]
    decide +kernel
  obtain ⟨t, ht, ⟨negative, digits, exponent, hread, hrounds, hleast⟩, -⟩ :=
    roundedText_reads_back (0.1 + 0.2) hfinite
  rw [htext] at ht
  obtain rfl := Except.ok.inj ht
  rw [hnumeral] at hread
  obtain ⟨rfl, rfl, rfl⟩ := Numeral.decimal.inj (Option.some.inj hread)
  refine ⟨hfinite, htext, hrounds, ?_⟩
  intro negative n k hn
  exact (by decide : 17 ≤ digitCount 30000000000000004).trans (hleast hfraction negative n k hn)

end Texts

end Number

end PartialFractions
