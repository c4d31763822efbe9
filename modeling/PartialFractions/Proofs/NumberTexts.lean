import PartialFractions.Proofs.BinaryNumbers
import PartialFractions.Proofs.DecimalNumerals

/-!
The texts of finite numbers: a minus sign or none and a row of digits, with a point among them, an
exponent behind them, or both.
-/
namespace PartialFractions

open Text

namespace DecimalNumeral

def ofAscii (whole : List Char) (fraction : Option (List Char)) (hne : whole ≠ [])
    (hdigits : ∀ c ∈ whole ++ fraction.getD [], c.isDigit = true) : DecimalNumeral where
  whole
  fraction
  isDigit_whole c hc := isDigit_of_ascii (hdigits c (List.mem_append_left _ hc))
  isDigit_fraction c hc := isDigit_of_ascii (hdigits c (List.mem_append_right _ hc))
  ne_nil := List.append_ne_nil_of_left_ne_nil hne _

section Ascii

variable {whole : List Char} {fraction : Option (List Char)} {hne : whole ≠ []}
  {hdigits : ∀ c ∈ whole ++ fraction.getD [], c.isDigit = true}

theorem digits_ofAscii : (ofAscii whole fraction hne hdigits).digits =
    Number.ofDigits ((whole ++ fraction.getD []).filterMap digit?) := rfl

theorem places_ofAscii :
    (ofAscii whole fraction hne hdigits).places = (fraction.getD []).length := rfl

end Ascii

end DecimalNumeral

namespace Number

open Float.Model.UnpackedFloat (Sign)

/-- What stands behind the sign of a number. Without an exponent it is a decimal numeral. -/
structure IsMagnitude (s : List Char) : Prop where
  head : ∃ c ∈ s.head?, c.isDigit = true
  mem : ∀ c ∈ s, c.isDigit = true ∨ c ∈ ['.', 'e', '+', '-']
  numeral : 'e' ∉ s → ∃ n : DecimalNumeral, n.chars = s

theorem isMagnitude_ofAscii (whole : List Char) (fraction : Option (List Char)) (hne : whole ≠ [])
    (hdigits : ∀ c ∈ whole ++ fraction.getD [], c.isDigit = true) :
    IsMagnitude (DecimalNumeral.ofAscii whole fraction hne hdigits).chars where
  head := by
    obtain ⟨c, rest, rfl⟩ := List.exists_cons_of_ne_nil hne
    exact ⟨c, rfl, hdigits c (List.mem_cons_self ..)⟩
  mem c hc := by
    rcases (DecimalNumeral.ofAscii whole fraction hne hdigits).mem_parts hc with hc | rfl
    · exact Or.inl (hdigits c hc)
    · exact Or.inr (by decide)
  numeral _ := ⟨_, rfl⟩

theorem isMagnitude_digits {ds : List Char} (hne : ds ≠ []) (hds : ∀ c ∈ ds, c.isDigit = true) :
    IsMagnitude ds := by
  have hmagnitude := isMagnitude_ofAscii ds none hne (by simpa using hds)
  rwa [DecimalNumeral.chars, DecimalNumeral.ofAscii, List.append_nil] at hmagnitude

/-- An exponent behind a magnitude leaves its first character a digit. -/
theorem isMagnitude_of_exponent {mantissa exponent : List Char} (h : IsMagnitude mantissa)
    (hexponent : ∀ c ∈ exponent, c.isDigit = true ∨ c ∈ ['+', '-']) :
    IsMagnitude (mantissa ++ 'e' :: exponent) where
  head := by
    obtain ⟨c, hc, hdigit⟩ := h.head
    exact ⟨c, by simp [Option.mem_def.mp hc], hdigit⟩
  mem c hc := by
    simp only [List.mem_append, List.mem_cons] at hc
    rcases hc with hc | rfl | hc
    · exact h.mem c hc
    · exact Or.inr (by decide)
    · rcases hexponent c hc with hdigit | hsign
      · exact Or.inl hdigit
      · exact Or.inr (List.mem_cons_of_mem _ (List.mem_cons_of_mem _ hsign))
  numeral he := absurd (by simp) he

/-- What is laid out around the point is a numeral with digits on both sides of the point, if it has
one; the numeral of a decimal with places behind the point has its digits and these places. -/
theorem exists_positional (layout : Layout) (d : Decimal) : ∃ whole fraction,
    ∃ (hne : whole ≠ []) (hdigits : ∀ c ∈ whole ++ fraction.getD [], c.isDigit = true),
      layout.positional d = (DecimalNumeral.ofAscii whole fraction hne hdigits).chars ∧
      fraction ≠ some [] ∧
      (d.exponent < 0 → (DecimalNumeral.ofAscii whole fraction hne hdigits).digits = d.digits ∧
        -((DecimalNumeral.ofAscii whole fraction hne hdigits).places : ℤ) = d.exponent) := by
  have hdigits := isDigit_toDigits d.digits
  have hpos := Nat.length_toDigits_pos (b := 10) (n := d.digits)
  have hvalue := ofDigits_toDigits d.digits
  unfold Layout.positional
  generalize Nat.toDigits 10 d.digits = ds at hdigits hpos hvalue
  have hne := List.ne_nil_of_length_pos hpos
  dsimp only
  split
  · rename_i hexponent
    have hwhole : ∀ c ∈ ds ++ List.replicate d.exponent.toNat '0', c.isDigit = true :=
      List.forall_mem_append.mpr ⟨hdigits, isDigit_zeros _⟩
    have hne' : ds ++ List.replicate d.exponent.toNat '0' ≠ [] :=
      List.append_ne_nil_of_left_ne_nil hne _
    cases layout.showsPoint with
    | true =>
      exact ⟨_, some ['0'], hne', List.forall_mem_append.mpr ⟨hwhole, isDigit_zeros 1⟩, rfl,
        by simp, fun hneg => absurd hexponent hneg.not_ge⟩
    | false =>
      exact ⟨_, none, hne', by simpa using hwhole, rfl, by simp,
        fun hneg => absurd hexponent hneg.not_ge⟩
  · split
    · have htake : ds.take (ds.length + d.exponent).toNat ≠ [] :=
        List.ne_nil_of_length_pos (by rw [List.length_take]; omega)
      have hdrop : ds.drop (ds.length + d.exponent).toNat ≠ [] :=
        List.ne_nil_of_length_pos (by rw [List.length_drop]; omega)
      have hsplit := List.take_append_drop (ds.length + d.exponent).toNat ds
      refine ⟨_, some _, htake, hsplit.symm ▸ hdigits, rfl, by simpa using hdrop, fun hneg => ?_⟩
      rw [DecimalNumeral.digits_ofAscii, DecimalNumeral.places_ofAscii, Option.getD_some, hsplit,
        List.length_drop]
      exact ⟨hvalue, by omega⟩
    · have hbehind : ∀ c ∈ List.replicate (-(ds.length + d.exponent)).toNat '0' ++ ds,
          c.isDigit = true := List.forall_mem_append.mpr ⟨isDigit_zeros _, hdigits⟩
      refine ⟨['0'], some _, by simp, List.forall_mem_append.mpr ⟨isDigit_zeros 1, hbehind⟩, rfl,
        by simpa using fun _ => hne, fun hneg => ?_⟩
      have hzeros := ofDigits_zeros_append ((-(ds.length + d.exponent)).toNat + 1) ds
      refine ⟨hzeros.trans hvalue, ?_⟩
      rw [DecimalNumeral.places_ofAscii, Option.getD_some, List.length_append,
        List.length_replicate]
      omega

/-- In front of an exponent stands a numeral with one digit before the point. -/
theorem exists_scientific (d : Decimal) : ∃ whole fraction,
    ∃ (hne : whole ≠ []) (hdigits : ∀ c ∈ whole ++ fraction.getD [], c.isDigit = true),
      Layout.scientific d = (DecimalNumeral.ofAscii whole fraction hne hdigits).chars ++
        'e' :: (if d.leading < 0 then '-' else '+') :: twoDigits d.leading.natAbs ∧
      (DecimalNumeral.ofAscii whole fraction hne hdigits).digits = d.digits ∧
      d.leading - (DecimalNumeral.ofAscii whole fraction hne hdigits).places = d.exponent := by
  have hdigits := isDigit_toDigits d.digits
  have hne : Nat.toDigits 10 d.digits ≠ [] := Nat.toDigits_ne_nil
  have hvalue := ofDigits_toDigits d.digits
  have hleading : d.leading = d.exponent + (Nat.toDigits 10 d.digits).length - 1 := rfl
  unfold Layout.scientific
  generalize Nat.toDigits 10 d.digits = ds at hdigits hne hvalue hleading
  dsimp only
  split
  · rename_i first second rest
    refine ⟨[first], some (second :: rest), by simp, hdigits, rfl, hvalue, ?_⟩
    rw [DecimalNumeral.places_ofAscii, Option.getD_some, hleading]
    simp only [List.length_cons]
    omega
  · rename_i hshort
    refine ⟨ds, none, hne, by simpa using hdigits, ?_, ?_, ?_⟩
    · rw [DecimalNumeral.chars, DecimalNumeral.ofAscii, List.append_nil]
    · rw [DecimalNumeral.digits_ofAscii, Option.getD_none, List.append_nil, hvalue]
    · have hone : ds.length = 1 := by
        obtain ⟨first, rest, rfl⟩ := List.exists_cons_of_ne_nil hne
        cases rest with
        | nil => rfl
        | cons second rest => exact absurd rfl (hshort first second rest)
      rw [hleading, hone]
      exact (sub_zero _).trans (by omega)

theorem isDigit_twoDigits (k : ℕ) : ∀ c ∈ twoDigits k, c.isDigit = true := by
  intro c hc
  unfold twoDigits at hc
  dsimp only at hc
  split at hc
  · rcases List.mem_cons.mp hc with rfl | hc
    · rfl
    · exact isDigit_toDigits k c hc
  · exact isDigit_toDigits k c hc

theorem isMagnitude_positional (layout : Layout) (d : Decimal) :
    IsMagnitude (layout.positional d) := by
  obtain ⟨whole, fraction, hne, hdigits, hchars, -⟩ := exists_positional layout d
  rw [hchars]
  exact isMagnitude_ofAscii whole fraction hne hdigits

theorem isMagnitude_scientific (d : Decimal) : IsMagnitude (Layout.scientific d) := by
  obtain ⟨whole, fraction, hne, hdigits, hchars, -⟩ := exists_scientific d
  rw [hchars]
  refine isMagnitude_of_exponent (isMagnitude_ofAscii whole fraction hne hdigits) ?_
  intro c hc
  rcases List.mem_cons.mp hc with rfl | hc
  · split <;> simp
  · exact Or.inl (isDigit_twoDigits _ c hc)

theorem isMagnitude_write (layout : Layout) (d : Decimal) : IsMagnitude (layout.write d) := by
  unfold Layout.write
  split
  · exact isMagnitude_positional layout d
  · exact isMagnitude_scientific d

def signChars (s : Sign) : List Char := if s == .negative then ['-'] else []

def isWhole (v : Float) : Bool :=
  match Binary.ofFloat v with
  | .finite _ m q => Binary.isWhole m q
  | _ => false

theorem toList_text (v : Float) : (Scalar.text v).toList = formulaChars (.ofFloat v) :=
  String.toList_ofList

variable {v : Float} {s : Sign} {m : ℕ} {e : ℤ} {hm : 0 < m}

theorem text_of_zero (h : parts v = .zero s) : (Scalar.text v).toList = ['0'] := by
  obtain ⟨negative, hbinary⟩ := Binary.ofFloat_zero h
  rw [toList_text, hbinary, formulaChars_zero]

theorem ofFloat_of_parts (h : parts v = .finite s m e hm) :
    Binary.ofFloat v = .finite (s == .negative) m e := by
  cases s with
  | positive => exact Binary.ofFloat_positive h
  | negative => exact Binary.ofFloat_negative h

theorem exists_magnitude (h : parts v = .finite s m e hm) :
    ∃ t, IsMagnitude t ∧ (Scalar.text v).toList = signChars s ++ t := by
  rw [toList_text, ofFloat_of_parts h]
  cases hwhole : Binary.isWhole m e with
  | true =>
    refine ⟨_, ?_, formulaChars_whole hm.ne' hwhole _⟩
    exact isMagnitude_digits Nat.toDigits_ne_nil (isDigit_toDigits _)
  | false => exact ⟨_, isMagnitude_write .., formulaChars_fraction hwhole _⟩

/-- A minus sign in front negates what is read, also where the value is zero. -/
theorem toFloat_ofDecimal?_true (t : List Char) : (Numeral.ofDecimal? true t).map Numeral.toFloat =
    ((Numeral.ofDecimal? false t).map Numeral.toFloat).map (-·) := by
  unfold Numeral.ofDecimal?
  dsimp only
  -- first the point, then the test for digits
  split
  all_goals
    split
    · rfl
    · simp only [Option.map_map]
      rfl

namespace IsMagnitude

variable {t : List Char}

theorem isBlank_of_mem (h : IsMagnitude t) : ∀ c ∈ t, isBlank c = false := by
  intro c hc
  rcases h.mem c hc with hdigit | hc
  · exact isBlank_of_isDigit (isDigit_of_ascii hdigit)
  · fin_cases hc <;> decide

theorem isSpace_of_mem (h : IsMagnitude t) : ∀ c ∈ t, isSpace c = false := by
  intro c hc
  have hblank := h.isBlank_of_mem c hc
  simp only [isBlank, Bool.or_eq_false_iff] at hblank
  exact hblank.1

/-- A magnitude behind a sign is a decimal numeral with that sign. -/
theorem read?_numeral (h : IsMagnitude t) :
    Numeral.read? t = Numeral.ofDecimal? false t ∧
      Numeral.read? ('+' :: t) = Numeral.ofDecimal? false t ∧
      Numeral.read? ('-' :: t) = Numeral.ofDecimal? true t := by
  have hspaces := h.isSpace_of_mem
  obtain ⟨c, hc, hdigit⟩ := h.head
  have hword (negative : Bool) : Numeral.ofWord? negative t = none := by
    refine Numeral.ofWord?_eq_none negative fun d hd => ?_
    rw [Option.mem_unique hd hc]
    exact isAlpha_of_isDigit (isDigit_of_ascii hdigit)
  have hsplit : splitSign t = (false, t) := by
    obtain ⟨rest, rfl⟩ := List.head?_eq_some_iff.mp hc
    unfold splitSign
    split
    · rename_i heq
      rw [(List.cons.inj heq).1] at hdigit
      exact absurd hdigit (by decide)
    · rename_i heq
      rw [(List.cons.inj heq).1] at hdigit
      exact absurd hdigit (by decide)
    · rfl
  have htrim (c : Char) (hc : isSpace c = false) : trimOf isSpace (c :: t) = c :: t :=
    Numeral.trimOf_eq_self_of_all (List.forall_mem_cons.mpr ⟨hc, hspaces⟩)
  refine ⟨?_, ?_, ?_⟩
  · rw [Numeral.read?, Numeral.trimOf_eq_self_of_all hspaces, hsplit]
    simp [hword]
  · rw [Numeral.read?, htrim '+' (by decide)]
    simp [splitSign, hword]
  · rw [Numeral.read?, htrim '-' (by decide)]
    simp [splitSign, hword]

theorem read?_plus (h : IsMagnitude t) :
    (Scalar.read? ('+' :: t) : Option Float) = Scalar.read? t := by
  obtain ⟨hnone, hplus, -⟩ := h.read?_numeral
  rw [Scalar.read?, Scalar.read?, hnone, hplus]

theorem read?_minus (h : IsMagnitude t) :
    (Scalar.read? ('-' :: t) : Option Float) = (Scalar.read? t).map (-·) := by
  obtain ⟨hnone, -, hminus⟩ := h.read?_numeral
  rw [Scalar.read?, Scalar.read?, hnone, hminus]
  exact toFloat_ofDecimal?_true t

end IsMagnitude

end Number

end PartialFractions
