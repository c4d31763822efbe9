import PartialFractions.Proofs.GapReading

/-!
The two readings of a polynomial with powers up to 2. One cuts the text at its plus signs and puts
each coefficient in its place, the other one reads terms and looks a power up. On a written sum with
different powers both find the same numbers.
-/
namespace PartialFractions

open Text Number

/-- The numerals 1 and -1 are the numbers that a coefficient without digits stands for. -/
class UnitNumerals (K : Type) [Neg K] [Scalar K] : Prop where
  one : (Scalar.ofNumeral (.decimal false 1 0) : K) = Scalar.ofNat 1
  neg_one : (Scalar.ofNumeral (.decimal true 1 0) : K) = -Scalar.ofNat 1

instance : UnitNumerals Float where
  one := rfl
  neg_one := rfl

instance {K : Type} [Field K] [LinearOrder K] [Notated K] : UnitNumerals (Exact K) where
  one := by simp [Exact.ofNumeral]
  neg_one := by simp [Exact.ofNumeral]

namespace Text

/-- What stands in front of the first separator belongs to the first piece. -/
theorem pieces_append {c : Char} {s t first : List Char} {others : List (List Char)} (hs : c ∉ s)
    (ht : pieces c t = first :: others) : pieces c (s ++ t) = (s ++ first) :: others := by
  induction s with
  | nil => exact ht
  | cons d s ih =>
    obtain ⟨hd, hs⟩ := not_or.mp (List.mem_cons.not.mp hs)
    rw [List.cons_append, pieces, if_neg (Ne.symm hd), ih hs, List.cons_append]

end Text

namespace SignedSummand

variable {K : Type} [Neg K] [Scalar K] (t : SignedSummand)

def gap : WrittenGap := ⟨t.negative, some t.summand⟩

def front : List Char := t.gap.signText ++ t.gap.numberText

/-- The text of the summand, with its sign only if that is a minus. -/
def piece : List Char := t.front ++ t.gap.variableText

def number : K :=
  Scalar.ofNumeral (.decimal t.negative t.summand.coefficient.digits
    (-(t.summand.coefficient.places : ℤ)))

theorem piece_eq : t.piece = t.gap.signText ++ t.summand.body := by
  rw [piece, front, List.append_assoc, t.gap.numberText_append_variableText]
  rfl

theorem piece_ne_nil : t.piece ≠ [] := by
  simp [piece_eq, t.summand.body_ne_nil]

theorem plus_notMem_piece : '+' ∉ t.piece := by
  have hbody : '+' ∉ t.summand.body := fun h =>
    absurd (t.summand.isSign_of_mem_body h) (by decide)
  rw [piece_eq, List.mem_append, not_or]
  refine ⟨?_, hbody⟩
  unfold WrittenGap.signText
  split <;> decide

theorem x_notMem_front : 'x' ∉ t.front := by
  have hsign : 'x' ∉ t.gap.signText := by
    unfold WrittenGap.signText
    split <;> decide
  rw [front, List.mem_append, not_or]
  refine ⟨hsign, ?_⟩
  intro h
  exact absurd (t.gap.isNumberChar_of_mem 'x' h) (by decide)

omit [Neg K] in
/-- The term of the summand has the coefficient as its value. -/
theorem value_term_eq_number : (t.term.value : Except Fault K) = .ok t.number := by
  have hread := Numeral.read?_sign_chars t.summand.coefficient t.negative
  simp only [Term.value, term, String.toList_ofList, sign, Scalar.read?, hread, Option.map_some]
  rfl

theorem number_eq_finite {K : Type} [Field K] [LinearOrder K] [Notated K] :
    (t.number : Exact K) = .finite t.value :=
  Scalar.ofNumeral_decimal t.summand.coefficient t.negative

theorem leadingNumber_front [UnitNumerals K] (summand : List Char) :
    leadingNumber t.front summand = (.ok t.number : Except Refusal K) := by
  obtain ⟨negative, n | ⟨_ | n, exponent⟩⟩ := t
  · exact Gap.leadingNumber_chars negative n summand
  · cases negative with
    | false => exact congrArg Except.ok UnitNumerals.one.symm
    | true => exact congrArg Except.ok UnitNumerals.neg_one.symm
  · exact Gap.leadingNumber_chars negative n summand

end SignedSummand

namespace Trinomial

theorem power?_eq_none {s : List Char} (h : 'x' ∉ s) : power? s = none := by
  induction s with
  | nil => rfl
  | cons c s ih =>
    obtain ⟨hc, hs⟩ := not_or.mp (List.mem_cons.not.mp h)
    simp [power?, Ne.symm hc, ih hs]

/-- An x without an exponent behind it is no power. -/
theorem power?_single {before : List Char} (h : 'x' ∉ before) :
    power? (before ++ ['x']) = none := by
  induction before with
  | nil => rfl
  | cons c before ih =>
    obtain ⟨hc, hbefore⟩ := not_or.mp (List.mem_cons.not.mp h)
    simp [power?, Ne.symm hc, ih hbefore]

theorem power?_append {before after digits rest : List Char} (h : 'x' ∉ before)
    (hafter : exponent? after = some (digits, rest)) :
    power? (before ++ 'x' :: after) = some (before, digits) := by
  induction before with
  | nil => simp [power?, hafter]
  | cons c before ih =>
    obtain ⟨hc, hbefore⟩ := not_or.mp (List.mem_cons.not.mp h)
    simp [power?, Ne.symm hc, ih hbefore]

/-- A written summand is split at its power into the front and the exponent. -/
theorem splitPower_piece (t : SignedSummand) :
    splitPower t.piece = .ok (t.front, t.summand.power) := by
  have hx := t.x_notMem_front
  unfold SignedSummand.piece
  obtain ⟨negative, n | ⟨coefficient, _ | e⟩⟩ := t
  · simp [splitPower, WrittenGap.variableText, SignedSummand.gap, Summand.power,
      power?_eq_none hx, cut?_eq_none hx]
  · simp [splitPower, WrittenGap.variableText, SignedSummand.gap, Summand.power,
      power?_single hx, cut?_append hx]
  · simp [splitPower, WrittenGap.variableText, SignedSummand.gap, Summand.power,
      power?_append hx e.exponent?_flatten, e.readDigits_digits, Except.map]

def marked (s : List Char) : List Char := s.flatMap fun c => if c = '-' then ['+', '-'] else [c]

theorem marked_append (s t : List Char) : marked (s ++ t) = marked s ++ marked t :=
  List.flatMap_append

theorem marked_of_isSign {s : List Char} (h : ∀ c ∈ s, Term.isSign c = false) : marked s = s := by
  have hplain : ∀ c ∈ s, (if c = '-' then ['+', '-'] else [c]) = [c] := by
    intro c hc
    refine if_neg ?_
    rintro rfl
    exact absurd (h _ hc) (by decide)
  rw [marked, List.flatMap_congr hplain, List.flatMap_singleton']

theorem marked_body (m : Summand) : marked m.body = m.body :=
  marked_of_isSign fun _ hc => m.isSign_of_mem_body hc

theorem marked_sign (t : SignedSummand) : marked [t.sign] = '+' :: t.gap.signText := by
  unfold SignedSummand.sign SignedSummand.gap WrittenGap.signText
  cases t.negative <;> rfl

/-- Cut at the signs, the text falls into an empty piece and one for each summand. -/
theorem pieces_signedText (terms : List SignedSummand) :
    pieces '+' (marked (SignedSummand.signedText terms)) = [] :: terms.map SignedSummand.piece := by
  induction terms with
  | nil => rfl
  | cons t rest ih =>
    have hmarked : marked (SignedSummand.signedText (t :: rest)) =
        '+' :: (t.piece ++ marked (SignedSummand.signedText rest)) := by
      rw [SignedSummand.signedText, ← List.singleton_append, marked_append, marked_append,
        marked_sign, marked_body, t.piece_eq, List.cons_append, List.append_assoc]
    rw [hmarked, pieces, if_pos rfl, pieces_append t.plus_notMem_piece ih, List.append_nil,
      List.map_cons]

theorem filter_pieces (terms : List SignedSummand) :
    (terms.map SignedSummand.piece).filter (! ·.isEmpty) = terms.map SignedSummand.piece := by
  refine List.filter_eq_self.mpr ?_
  intro s hs
  obtain ⟨t, ht, rfl⟩ := List.mem_map.mp hs
  simpa using t.piece_ne_nil

variable {plusShown : Bool} {terms : List SignedSummand} {s : List Char}

/-- A written sum is cut into its summands. -/
theorem summands_of_squeeze (h : squeeze s = (SignedSummand.sumTokens plusShown terms).flatten) :
    summands s = terms.map SignedSummand.piece := by
  have hsigned : summands s = (pieces '+' (marked (squeeze s))).filter (! ·.isEmpty) := rfl
  cases terms with
  | nil =>
    rw [hsigned, h]
    rfl
  | cons t rest =>
    by_cases hshown : t.negative = true ∨ plusShown = true
    · have htext : squeeze s = SignedSummand.signedText (t :: rest) := by
        rw [h, ← SignedSummand.flatten_sumTokens_true]
        rcases hshown with hnegative | rfl
        · simp [SignedSummand.sumTokens, hnegative]
        · rfl
      rw [hsigned, htext, pieces_signedText, List.filter_cons_of_neg (by simp), filter_pieces]
    · obtain ⟨hpositive, hhidden⟩ := not_or.mp hshown
      have htext : squeeze s = t.piece ++ SignedSummand.signedText rest := by
        rw [h, SignedSummand.sumTokens, List.flatten_append, List.flatten_append,
          SignedSummand.flatten_sumTokens_true, t.piece_eq]
        simp [hpositive, hhidden, WrittenGap.signText, SignedSummand.gap, Summand.body]
      have hpiece : marked t.piece = t.piece := by
        have hnone : t.gap.signText = [] := if_neg hpositive
        rw [t.piece_eq, hnone, List.nil_append, marked_body]
      rw [hsigned, htext, marked_append, hpiece,
        pieces_append t.plus_notMem_piece (pieces_signedText rest), List.append_nil,
        ← List.map_cons, filter_pieces]

variable {K : Type}

def coefficient (t : Trinomial K) : ℕ → K
  | 0 => t.c
  | 1 => t.b
  | _ => t.a

/-- A power up to 2 has a place, and only that place is changed. -/
theorem exists_set? (t : Trinomial K) (v : K) {power : ℕ} (h : power ≤ 2) :
    ∃ updated, t.set? v power = some updated ∧ updated.coefficient power = v ∧
      ∀ p ≤ 2, p ≠ power → updated.coefficient p = t.coefficient p := by
  obtain rfl | rfl | rfl : power = 0 ∨ power = 1 ∨ power = 2 := by omega
  · refine ⟨{ t with c := v }, rfl, rfl, ?_⟩
    rintro (_ | _ | p) hp hne
    · exact absurd rfl hne
    · rfl
    · rfl
  · refine ⟨{ t with b := v }, rfl, rfl, ?_⟩
    rintro (_ | _ | p) hp hne
    · rfl
    · exact absurd rfl hne
    · rfl
  · refine ⟨{ t with a := v }, rfl, rfl, ?_⟩
    rintro (_ | _ | p) hp hne
    · rfl
    · rfl
    · omega

variable [Neg K] [Scalar K] [UnitNumerals K]

theorem put_piece (init : Trinomial K) (t : SignedSummand) {updated : Trinomial K}
    (h : init.set? t.number t.summand.power = some updated) : init.put t.piece = .ok updated := by
  have hnumber := t.leadingNumber_front (K := K) t.piece
  rw [put, splitPower_piece]
  simp only [Except.mapError, bind, Except.bind, hnumber, h]
  rfl

/-- Every summand puts its coefficient in a place of its own, and the other places keep theirs. -/
theorem foldlM_put (terms : List SignedSummand) (init : Trinomial K)
    (hpowers : (terms.map fun t => t.summand.power).Nodup)
    (hle : ∀ t ∈ terms, t.summand.power ≤ 2) :
    ∃ read, (terms.map SignedSummand.piece).foldlM put init = .ok read ∧ ∀ p ≤ 2,
      read.coefficient p = ((terms.find? (·.summand.power = p)).map SignedSummand.number).getD
        (init.coefficient p) := by
  induction terms generalizing init with
  | nil => exact ⟨init, rfl, fun p hp => rfl⟩
  | cons t rest ih =>
    obtain ⟨hnew, hrest⟩ := List.nodup_cons.mp hpowers
    obtain ⟨htwo, hle⟩ := List.forall_mem_cons.mp hle
    obtain ⟨updated, hset, hput, hkept⟩ := init.exists_set? t.number htwo
    obtain ⟨read, hread, hcoefficient⟩ := ih updated hrest hle
    refine ⟨read, ?_, ?_⟩
    · rw [List.map_cons, List.foldlM_cons, put_piece init t hset]
      exact hread
    · intro p hp
      rw [hcoefficient p hp]
      by_cases hpower : t.summand.power = p
      · -- the power does not come again
        have hnone : rest.find? (·.summand.power = p) = none := by
          refine List.find?_eq_none.mpr ?_
          intro u hu hup
          have hsame : u.summand.power = p := by simpa using hup
          exact hnew (List.mem_map.mpr ⟨u, hu, hsame.trans hpower.symm⟩)
        rw [hnone, List.find?_cons_of_pos (by simpa using hpower), ← hpower]
        exact hput
      · rw [List.find?_cons_of_neg (by simpa using hpower), hkept p hp (Ne.symm hpower)]

/-- A written sum with different powers up to 2 is a trinomial. -/
theorem read_of_squeeze (hpowers : (terms.map fun t => t.summand.power).Nodup)
    (hle : ∀ t ∈ terms, t.summand.power ≤ 2)
    (h : squeeze s = (SignedSummand.sumTokens plusShown terms).flatten) :
    ∃ t : Trinomial K, read s = .ok t ∧ ∀ p ≤ 2, t.coefficient p =
      ((terms.find? (·.summand.power = p)).map SignedSummand.number).getD (Scalar.ofNat 0) := by
  let zero : Trinomial K := ⟨Scalar.ofNat 0, Scalar.ofNat 0, Scalar.ofNat 0⟩
  obtain ⟨t, hread, hcoefficient⟩ := foldlM_put terms zero hpowers hle
  refine ⟨t, ?_, ?_⟩
  · rw [read, summands_of_squeeze h]
    exact hread
  · intro p hp
    have hzero : zero.coefficient p = Scalar.ofNat 0 := by
      obtain rfl | rfl | rfl : p = 0 ∨ p = 1 ∨ p = 2 := by omega
      all_goals rfl
    rw [hcoefficient p hp, hzero]

end Trinomial

namespace Term

variable {K : Type} [Scalar K]

/-- The value at a power is the coefficient of the summand with that power. -/
theorem valueAt_terms (terms : List SignedSummand) (p : ℕ) :
    (valueAt (terms.map SignedSummand.term) p : Except Fault K) =
      .ok (((terms.find? (·.summand.power = p)).map SignedSummand.number).getD
        (Scalar.ofNat 0)) := by
  have hpower : ((fun t : Term => t.power == (p : ℤ)) ∘ SignedSummand.term) =
      fun t => decide (t.summand.power = p) := by
    funext t
    simp [SignedSummand.term, Bool.beq_eq_decide_eq]
  rw [valueAt, List.find?_map, hpower]
  cases terms.find? (·.summand.power = p) with
  | none => rfl
  | some t => exact t.value_term_eq_number

end Term

/-- A written sum with different powers up to 2 is read alike as a trinomial and as terms, with the
coefficients that the terms have at the powers 2, 1 and 0. -/
theorem Trinomial.read_eq_valueAt {K : Type} [Neg K] [Scalar K] [UnitNumerals K] {plusShown : Bool}
    {terms : List SignedSummand} {s : List Char}
    (hpowers : (terms.map fun t => t.summand.power).Nodup)
    (hle : ∀ t ∈ terms, t.summand.power ≤ 2)
    (hs : Spaced ((SignedSummand.sumTokens plusShown terms).flatten.map fun c => [c]) s) :
    ∃ (read : List Term) (a b c : K), Term.readAll s = .ok read ∧
      Trinomial.read s = .ok ⟨a, b, c⟩ ∧ Term.valueAt read 2 = .ok a ∧
      Term.valueAt read 1 = .ok b ∧ Term.valueAt read 0 = .ok c := by
  have hblank : ∀ c ∈ (SignedSummand.sumTokens plusShown terms).flatten, isBlank c = false := by
    intro c hc
    obtain ⟨u, hu, hcu⟩ := List.mem_flatten.mp hc
    exact (SignedSummand.isToken_of_mem plusShown terms u hu).isBlank_of_mem c hcu
  have hsqueeze := hs.squeeze_eq_of_chars hblank
  obtain ⟨⟨a, b, c⟩, hread, hcoefficient⟩ := read_of_squeeze (K := K) hpowers hle hsqueeze
  have hvalue (p : ℕ) (hp : p ≤ 2) :
      Term.valueAt (terms.map SignedSummand.term) p = .ok (coefficient ⟨a, b, c⟩ p) := by
    rw [Term.valueAt_terms, hcoefficient p hp]
  exact ⟨_, a, b, c, Term.readAll_of_squeeze hsqueeze, hread, hvalue 2 (by omega),
    hvalue 1 (by omega), hvalue 0 (by omega)⟩

theorem Trinomial.read_eq_valueAt_blanks :
    ∃ (read : List Term) (a b c : Float),
      Term.readAll " .5 - x - 5 x^\x7b 2\x7d".toList = .ok read ∧
      Trinomial.read " .5 - x - 5 x^\x7b 2\x7d".toList = .ok ⟨a, b, c⟩ ∧
      Term.valueAt read 2 = .ok a ∧ Term.valueAt read 1 = .ok b ∧ Term.valueAt read 0 = .ok c := by
  have hfive : ∀ c ∈ ['5'], isDigit c = true := by
    rintro c (_ | ⟨_, ⟨⟩⟩)
    decide
  let half : DecimalNumeral := ⟨[], some ['5'], by simp, hfive, by simp⟩
  let five : DecimalNumeral := ⟨['5'], none, hfive, by simp, by simp⟩
  let terms : List SignedSummand := [⟨false, .constant half⟩, ⟨true, .multiple none none⟩,
    ⟨true, .multiple (some five) (some (.ofNat 2 true (by decide)))⟩]
  have hpowers : terms.map (fun t => t.summand.power) = [0, 1, 2] := rfl
  have hspaced := Spaced.squeezed " .5 - x - 5 x^\x7b 2\x7d".toList
  have hsqueeze : squeeze " .5 - x - 5 x^\x7b 2\x7d".toList =
      ['.', '5', '-', 'x', '-', '5', 'x', '^', '\x7b', '2', '\x7d'] := by
    decide +kernel
  rw [hsqueeze] at hspaced
  refine @Trinomial.read_eq_valueAt Float _ _ _ false terms _ ?_ ?_ hspaced
  · rw [hpowers]
    decide
  · have hle : ∀ p ∈ terms.map (fun t => t.summand.power), p ≤ 2 := by
      rw [hpowers]
      decide
    exact List.forall_mem_map.mp hle

end PartialFractions
