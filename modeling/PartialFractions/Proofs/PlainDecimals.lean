import PartialFractions.Formula.Rendering
import PartialFractions.Proofs.RoundedDecimals
import PartialFractions.Proofs.RoundedNumbers
import PartialFractions.Proofs.WrittenNumbers

/-!
Which numbers are written as plain decimals, digits and a point, and which ones with an exponent. A
whole number is always written plainly. Any other one is from 0.0001 on, and if it is rounded then
up to the power of ten that its digits reach.
-/
namespace PartialFractions

/-- Digits, and a point with digits behind it or nothing. -/
def IsMagnitudePlain (s : List Char) : Prop :=
  ∃ whole fraction, whole ≠ [] ∧ (∀ c ∈ whole ++ fraction, c.isDigit = true) ∧
    s = whole ++ if fraction = [] then [] else '.' :: fraction

/-- A decimal numeral without an exponent, behind a minus sign or none. -/
def IsDecimal (s : List Char) : Prop :=
  ∃ negative t, IsMagnitudePlain t ∧ s = (if negative = true then ['-'] else []) ++ t

theorem IsMagnitudePlain.not_exponent {s : List Char} (h : IsMagnitudePlain s) : 'e' ∉ s := by
  obtain ⟨whole, fraction, -, hdigits, rfl⟩ := h
  intro hmem
  have hdigit : 'e' ∈ whole ++ fraction := by
    rcases List.mem_append.mp hmem with hwhole | hrest
    · exact List.mem_append_left _ hwhole
    · split at hrest
      · cases hrest
      · simpa using Or.inr hrest
  exact absurd (hdigits 'e' hdigit) (by decide)

theorem IsDecimal.not_exponent {s : List Char} (h : IsDecimal s) : 'e' ∉ s := by
  obtain ⟨negative, t, ht, rfl⟩ := h
  cases negative <;> simp [ht.not_exponent]

namespace Number

open Float.Model.UnpackedFloat (Sign)

section Layouts

variable {layout : Layout} {d : Decimal}

theorem isMagnitudePlain_positional (layout : Layout) (d : Decimal) :
    IsMagnitudePlain (layout.positional d) := by
  obtain ⟨whole, fraction, hne, hdigits, hchars, hpoint, -⟩ := exists_positional layout d
  refine ⟨whole, fraction.getD [], hne, hdigits, ?_⟩
  rw [hchars]
  cases fraction with
  | none => rfl
  | some ds =>
    have hds : ds ≠ [] := by simpa using hpoint
    rw [Option.getD_some, if_neg hds]
    rfl

theorem exponent_mem_write (h : ¬ (layout.positionalFrom ≤ d.leading ∧
    d.leading < layout.positionalBelow)) : 'e' ∈ layout.write d := by
  rw [Layout.write, if_neg h]
  simp [Layout.scientific]

/-- A laid-out decimal is plain just if its leading digit is in the range of the layout. -/
theorem isDecimal_write_iff (layout : Layout) (d : Decimal) (negative : Bool) :
    IsDecimal ((if negative = true then ['-'] else []) ++ layout.write d) ↔
      layout.positionalFrom ≤ d.leading ∧ d.leading < layout.positionalBelow := by
  constructor
  · intro hdecimal
    by_contra hrange
    exact hdecimal.not_exponent (List.mem_append_right _ (exponent_mem_write hrange))
  · intro hrange
    rw [Layout.write, if_pos hrange]
    exact ⟨negative, _, isMagnitudePlain_positional layout d, rfl⟩

end Layouts

/-- Where a number that is no whole one is written without an exponent: from 0.0001 on, and with a
count of digits from half a unit of the last place before it up to half a unit before the power of
ten that has one digit more. -/
def InPlainRange (precision : ℤ) (x : ℚ) : Prop :=
  if precision = 0 then (10 : ℚ) ^ (-4 : ℤ) ≤ |x|
  else (10 : ℚ) ^ (-4 : ℤ) - 10 ^ (-4 - precision) / 2 ≤ |x| ∧ |x| < 10 ^ precision - 1 / 2

section Texts

variable {v : Float} {s : Sign} {m : ℕ} {e precision : ℤ} {hm : 0 < m}

theorem abs_exactValue (h : parts v = .finite s m e hm) : |exactValue v| = m * 2 ^ e := by
  have hpos : (0 : ℚ) < m * 2 ^ e := mul_pos (by exact_mod_cast hm) (two_zpow_pos e)
  rw [(exactValue_of_parts h).1]
  cases s with
  | positive => exact abs_of_pos hpos
  | negative => exact (abs_neg _).trans (abs_of_pos hpos)

/-- A whole number is written with all its digits, whatever the precision. -/
theorem roundedText_of_isWhole (h : isWhole v = true) (precision : ℤ) :
    roundedText precision v = .ok (Scalar.text v) := by
  have hchars : roundedChars precision (Binary.ofFloat v) =
      .ok (formulaChars (Binary.ofFloat v)) := by
    unfold isWhole at h
    split at h
    · rename_i heq
      rw [heq, roundedChars, h]
      rfl
    · cases h
  rw [roundedText, hchars]
  rfl

theorem isDecimal_of_isWhole (hfinite : v.isFinite = true) (h : isWhole v = true) :
    IsDecimal (Scalar.text v).toList := by
  obtain ⟨negative, ds, hne, hdigits, heq⟩ := (isInteger_text_iff hfinite).mpr h
  exact ⟨negative, ds, ⟨ds, [], hne, by simpa using hdigits, by simp⟩, heq⟩

theorem roundedChars_of_fraction {negative : Bool} (hfraction : Binary.isWhole m e = false)
    (hlow : 0 < precision) : roundedChars precision (.finite negative m e) =
      (significantCount precision).map fun count => (if negative = true then ['-'] else []) ++
        (roundedLayout count).write (significant m e count) := by
  have hne : decide (precision = 0) = false := decide_eq_false hlow.ne'
  simp only [roundedChars, hfraction, hne, Bool.or_self, Bool.false_eq_true, if_false]
  cases significantCount precision with
  | error fault => rfl
  | ok count => cases negative <;> rfl

/-- A fraction is rounded to as many digits as asked for, if there are not too many of them. -/
theorem roundedText_of_fraction (h : parts v = .finite s m e hm)
    (hfraction : Binary.isWhole m e = false) (hlow : 0 < precision) {t : String} :
    roundedText precision v = .ok t ↔ precision < 2 ^ 31 ∧
      t.toList = (if (s == .negative) = true then ['-'] else []) ++
        (roundedLayout precision.toNat).write (significant m e precision.toNat) := by
  rw [roundedText, ofFloat_of_parts h, roundedChars_of_fraction hfraction hlow]
  by_cases hhigh : precision < 2 ^ 31
  · rw [significantCount_eq_ok hlow.le hhigh]
    constructor
    · intro ht
      rw [← Except.ok.inj ht]
      exact ⟨hhigh, String.toList_ofList⟩
    · rintro ⟨-, ht⟩
      change Except.ok (String.ofList ((if (s == .negative) = true then ['-'] else []) ++
        (roundedLayout precision.toNat).write (significant m e precision.toNat))) = Except.ok t
      rw [← ht, String.ofList_toList]
  · refine iff_of_false ?_ fun ht => hhigh ht.1
    intro ht
    have hcount := significantCount_ne_ok (not_lt.mp hhigh)
    generalize significantCount precision = r at ht hcount
    cases r with
    | error fault => cases ht
    | ok count => exact hcount count rfl

theorem toList_text_of_fraction (h : parts v = .finite s m e hm)
    (hfraction : Binary.isWhole m e = false) : (Scalar.text v).toList =
      (if (s == .negative) = true then ['-'] else []) ++ fullLayout.write (shortest m e) := by
  rw [toList_text, ofFloat_of_parts h, formulaChars_fraction hfraction]

/-- The layout of a fraction, in full or rounded, and where it is positional. -/
theorem exists_write (h : parts v = .finite s m e hm) (hfraction : Binary.isWhole m e = false)
    (hprecision : 0 ≤ precision) : ∃ (layout : Layout) (d : Decimal),
      (layout.positionalFrom ≤ d.leading ∧ d.leading < layout.positionalBelow ↔
        InPlainRange precision (exactValue v)) ∧
      ∀ t, roundedText precision v = .ok t ↔ precision < 2 ^ 31 ∧
        t.toList = (if (s == .negative) = true then ['-'] else []) ++ layout.write d := by
  have hstd := isStandard_of_parts h
  have hlt := hstd.mantissa_lt
  rw [InPlainRange, abs_exactValue h]
  by_cases hzero : precision = 0
  · subst hzero
    rw [if_pos rfl, ← le_leading_shortest_iff hm hstd]
    refine ⟨fullLayout, shortest m e, and_iff_left (leading_shortest_lt hm hlt hfraction), ?_⟩
    intro t
    rw [roundedText_zero, ← toList_text_of_fraction h hfraction, and_iff_right (by omega),
      String.toList_inj, eq_comm, Except.ok.injEq]
  · obtain ⟨count, rfl⟩ := Int.eq_ofNat_of_zero_le hprecision
    have hcount : 0 < count := by omega
    rw [if_neg hzero, ← le_leading_significant_iff hm hstd hcount,
      ← leading_significant_lt_iff hm hlt hfraction hcount]
    refine ⟨roundedLayout count, significant m e count, Iff.rfl, ?_⟩
    intro t
    exact roundedText_of_fraction h hfraction (by omega)

/-- A text of a number is plain just if the number is a whole one or in the range; any other text
has an exponent. -/
theorem isDecimal_roundedText (hfinite : v.isFinite = true) (hprecision : 0 ≤ precision) :
    ((∃ t, roundedText precision v = .ok t ∧ IsDecimal t.toList) ↔
        (∃ z : ℤ, exactValue v = z) ∨
          (precision < 2 ^ 31 ∧ InPlainRange precision (exactValue v))) ∧
      ∀ t, roundedText precision v = .ok t → IsDecimal t.toList ∨ 'e' ∈ t.toList := by
  rw [← isWhole_iff_exactValue hfinite]
  by_cases hwhole : isWhole v = true
  · rw [roundedText_of_isWhole hwhole]
    have hdecimal := isDecimal_of_isWhole hfinite hwhole
    refine ⟨iff_of_true ⟨_, rfl, hdecimal⟩ (Or.inl hwhole), ?_⟩
    intro t ht
    rw [← Except.ok.inj ht]
    exact Or.inl hdecimal
  · rcases (isFinite_iff v).mp hfinite with ⟨s, hparts⟩ | ⟨s, m, e, hm, hparts⟩
    · exact absurd (isWhole_of_zero hparts) hwhole
    · have hfraction : Binary.isWhole m e = false := by
        rw [← isWhole_of_parts hparts]
        exact Bool.eq_false_iff.mpr hwhole
      obtain ⟨layout, d, hrange, htext⟩ := exists_write hparts hfraction hprecision
      rw [or_iff_right hwhole, ← hrange]
      constructor
      · constructor
        · rintro ⟨t, ht, hdecimal⟩
          obtain ⟨hhigh, ht⟩ := (htext t).mp ht
          rw [ht, isDecimal_write_iff] at hdecimal
          exact ⟨hhigh, hdecimal⟩
        · rintro ⟨hhigh, hplain⟩
          refine ⟨String.ofList _, (htext _).mpr ⟨hhigh, String.toList_ofList⟩, ?_⟩
          rw [String.toList_ofList]
          exact (isDecimal_write_iff layout d _).mpr hplain
      · intro t ht
        rw [((htext t).mp ht).2, isDecimal_write_iff]
        by_cases hplain : layout.positionalFrom ≤ d.leading ∧ d.leading < layout.positionalBelow
        · exact Or.inl hplain
        · exact Or.inr (List.mem_append_right _ (exponent_mem_write hplain))

/-- Below `0.0001` the shortest digits are written with an exponent, unless the number is whole. -/
theorem isDecimal_text_iff (hfinite : v.isFinite = true) :
    IsDecimal (Scalar.text v).toList ↔
      (∃ z : ℤ, exactValue v = z) ∨ (10 : ℚ) ^ (-4 : ℤ) ≤ |exactValue v| := by
  have hrounded := (isDecimal_roundedText hfinite le_rfl).1
  rw [InPlainRange, if_pos rfl, and_iff_right (by omega)] at hrounded
  rw [← hrounded]
  constructor
  · intro hdecimal
    exact ⟨_, roundedText_zero v, hdecimal⟩
  · rintro ⟨t, ht, hdecimal⟩
    rwa [Except.ok.inj ((roundedText_zero v).symm.trans ht)]

theorem isDecimal_text_neg (hfinite : v.isFinite = true) :
    IsDecimal (Scalar.text (-v)).toList ↔ IsDecimal (Scalar.text v).toList := by
  rw [isDecimal_text_iff hfinite, isDecimal_text_iff (isFinite_neg.trans hfinite),
    (exactValue_neg hfinite).1, abs_neg]
  refine or_congr_left ⟨?_, ?_⟩
  · rintro ⟨z, hz⟩
    exact ⟨-z, by rw [Int.cast_neg, ← hz, neg_neg]⟩
  · rintro ⟨z, hz⟩
    exact ⟨-z, by rw [Int.cast_neg, hz]⟩

def IsFront (front : String) : Prop := front = "x - " ∨ front = "x + "

theorem exists_content (v : Float) (multiplicity : ℤ) : ∃ front w, IsFront front ∧
    (w = v ∨ w = -v) ∧ (Factor.ofRoot v multiplicity).content = front ++ Scalar.text w := by
  unfold Factor.ofRoot
  dsimp only
  split_ifs
  · exact ⟨"x - ", v, Or.inl rfl, Or.inl rfl, rfl⟩
  · exact ⟨"x + ", -v, Or.inr rfl, Or.inr rfl, rfl⟩
  · exact ⟨"x + ", v, Or.inr rfl, Or.inl rfl, rfl⟩

/-- The content of a computed factor is its variable and sign in front of the root's own text. -/
theorem isDecimal_content_iff (hfinite : v.isFinite = true) (multiplicity : ℤ) :
    (∃ front t, IsFront front ∧ (Factor.ofRoot v multiplicity).content = front ++ t ∧
      IsDecimal t.toList) ↔ IsDecimal (Scalar.text v).toList := by
  obtain ⟨front, w, hfront, hw, hcontent⟩ := exists_content v multiplicity
  have htext : IsDecimal (Scalar.text w).toList ↔ IsDecimal (Scalar.text v).toList := by
    rcases hw with rfl | rfl
    · exact Iff.rfl
    · exact isDecimal_text_neg hfinite
  rw [← htext, hcontent]
  constructor
  · rintro ⟨front', t, hfront', heq, hdecimal⟩
    have hlength (f : String) (hf : IsFront f) : f.toList.length = 4 := by
      rcases hf with rfl | rfl <;> rfl
    have hlists := congrArg String.toList heq
    rw [String.toList_append, String.toList_append] at hlists
    rwa [(List.append_inj hlists ((hlength _ hfront).trans (hlength _ hfront').symm)).2]
  · intro hdecimal
    exact ⟨front, _, hfront, rfl, hdecimal⟩

/-- Numbers are written as decimals where they are whole or in the range of their precision: alone,
in a formula, and as the root of a linear factor and in its content. -/
theorem isDecimal_iff (v : Float) (hfinite : v.isFinite = true) (precision : ℤ)
    (hprecision : 0 ≤ precision) (multiplicity : ℤ) :
    ((∃ t, roundedText precision v = .ok t ∧ IsDecimal t.toList) ↔
        (∃ z : ℤ, exactValue v = z) ∨
          (precision < 2 ^ 31 ∧ InPlainRange precision (exactValue v))) ∧
      (∀ t, roundedText precision v = .ok t → IsDecimal t.toList ∨ 'e' ∈ t.toList) ∧
      (∀ t, Formula.render precision (.number v) = .ok t ↔ roundedText precision v = .ok t) ∧
      ((∃ front t, IsFront front ∧ (Factor.ofRoot v multiplicity).content = front ++ t ∧
          IsDecimal t.toList) ↔
        (∃ z : ℤ, exactValue v = z) ∨ (10 : ℚ) ^ (-4 : ℤ) ≤ |exactValue v|) ∧
      ∃ root, (Factor.ofRoot v multiplicity).root = some root ∧
        (IsDecimal root.text.toList ↔
          (∃ z : ℤ, exactValue v = z) ∨ (10 : ℚ) ^ (-4 : ℤ) ≤ |exactValue v|) := by
  obtain ⟨hrounded, hexponent⟩ := isDecimal_roundedText hfinite hprecision
  refine ⟨hrounded, hexponent, ?_, ?_, _, rfl, isDecimal_text_iff hfinite⟩
  · intro t
    change (roundedText precision v).mapError Fault.precision = .ok t ↔ _
    cases roundedText precision v with
    | error fault => exact iff_of_false nofun nofun
    | ok text =>
      exact ⟨fun h => congrArg Except.ok (Except.ok.inj h),
        fun h => congrArg Except.ok (Except.ok.inj h)⟩
  · rw [isDecimal_content_iff hfinite, isDecimal_text_iff hfinite]

/-- Four digits are enough up to 9999.5, which is rounded to 10000. -/
theorem isDecimal_iff_half : ((9999.5 : Float).isFinite = true ∧ (0 : ℤ) ≤ 4) ∧
    (∃ t, roundedText 4 9999.25 = .ok t ∧ IsDecimal t.toList) ∧
      ¬ ∃ t, roundedText 4 9999.5 = .ok t ∧ IsDecimal t.toList := by
  have hfinite : (9999.5 : Float).isFinite = true := by decide +kernel
  have hfinite' : (9999.25 : Float).isFinite = true := by decide +kernel
  have hvalue : exactValue 9999.5 = 19999 / 2 := by
    have hbinary : Binary.ofFloat 9999.5 = .finite false (19999 * 2 ^ 38) (-39) := by
      decide +kernel
    rw [(exactValue_of_ofFloat hbinary).1]
    norm_num [Scalar.signed]
  have hvalue' : exactValue 9999.25 = 39997 / 4 := by
    have hbinary : Binary.ofFloat 9999.25 = .finite false (39997 * 2 ^ 37) (-39) := by
      decide +kernel
    rw [(exactValue_of_ofFloat hbinary).1]
    norm_num [Scalar.signed]
  refine ⟨⟨hfinite, by omega⟩, ?_, ?_⟩
  · rw [(isDecimal_iff 9999.25 hfinite' 4 (by omega) 1).1, hvalue']
    refine Or.inr ⟨by omega, ?_⟩
    norm_num [InPlainRange, abs_of_pos]
  · rw [(isDecimal_iff 9999.5 hfinite 4 (by omega) 1).1, hvalue]
    rintro (⟨z, hz⟩ | ⟨-, hrange⟩)
    · have hodd : (19999 : ℚ) = (2 * z : ℤ) := by
        push_cast
        linarith
      have hodd' : (19999 : ℤ) = 2 * z := by exact_mod_cast hodd
      omega
    · norm_num [InPlainRange, abs_of_pos] at hrange

/-- Small numbers have an exponent in their texts, and so have large ones that are rounded. -/
theorem exists_exponent_texts : (0.00001 : Float).isFinite = true ∧
    roundedText 0 0.00001 = .ok "1e-05" ∧ ¬ IsDecimal "1e-05".toList ∧
    (Factor.ofRoot (0.00001 : Float) 1).content = "x - 1e-05" ∧
    (Formula.render 3 (.number (123456.7 : Float))) = .ok "1.23e+05" ∧
    ¬ IsDecimal "1.23e+05".toList := by
  refine ⟨by decide +kernel, by decide +kernel, ?_, by decide +kernel, by decide +kernel, ?_⟩
  · intro hdecimal
    exact hdecimal.not_exponent (by decide)
  · intro hdecimal
    exact hdecimal.not_exponent (by decide)

end Texts

end Number

end PartialFractions
