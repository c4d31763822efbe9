import PartialFractions.Proofs.DottedDenominators
import PartialFractions.Proofs.ExpressionParsing
import PartialFractions.Proofs.TrinomialReading

/-!
The reader of the verification and the reader of the solver on the same texts. A sum is read as a
polynomial by one and as terms by the other, with the same coefficients; a denominator that lists
its factors is read as the product of the scale and the factors that it is taken apart into.
-/
namespace PartialFractions

open Polynomial Text Number

/-- Where every power stands once, the coefficient is that of the summand with the power. -/
theorem SignedSummand.coeff_sumPolynomial {terms : List SignedSummand}
    (h : (terms.map fun t => t.summand.power).Nodup) (n : ℕ) :
    (sumPolynomial terms).coeff n =
      ((terms.find? (·.summand.power = n)).map SignedSummand.value).getD 0 := by
  induction terms with
  | nil => simp [sumPolynomial]
  | cons t rest ih =>
    obtain ⟨ht, hrest⟩ := List.nodup_cons.mp h
    have hcons : sumPolynomial (t :: rest) = t.monomial + sumPolynomial rest := rfl
    rw [hcons, coeff_add, monomial_eq, coeff_C_mul_X_pow, ih hrest]
    by_cases hn : t.summand.power = n
    · have hnone : rest.find? (·.summand.power = n) = none := by
        refine List.find?_eq_none.mpr ?_
        intro t' ht' heq
        exact ht (List.mem_map.mpr ⟨t', ht', (of_decide_eq_true heq).trans hn.symm⟩)
      simp [hn, hnone]
    · simp [hn, Ne.symm hn]

/-- The terms of the sum have the coefficients of its polynomial. -/
theorem SumText.exists_terms {plusShown : Bool} {terms : List SignedSummand} {s : List Char}
    (h : SumText plusShown terms s) :
    ∃ read : List Term, Term.readAll s = .ok read ∧ ∀ n : ℕ,
      (Term.valueAt read n : Except Fault (Exact ℚ)) =
        .ok (.finite ((SignedSummand.sumPolynomial terms).coeff n)) := by
  refine ⟨_, Term.readAll_of_spaced h.spaced, fun n => ?_⟩
  rw [Term.valueAt_terms, SignedSummand.coeff_sumPolynomial h.nodup]
  cases terms.find? (·.summand.power = n) with
  | none => simp
  | some t => simp [SignedSummand.number_eq_finite]

namespace Verification

/-- The two readers agree, where the parser of the verification follows the notation. The
coefficients of the terms of a sum are those of the polynomial that it is read as, and a denominator
is read as the scale times the factors that it is taken apart into. -/
theorem readers_agree [Parsing Empty] (hparse : FollowsNotation Empty) :
    (∀ (plusShown : Bool) (terms : List SignedSummand) (s : List Char),
      SumText plusShown terms s → ∃ (p : ℚ[X]) (read : List Term), Denotes s p ∧
        Term.readAll s = .ok read ∧ ∀ n : ℕ,
          (Term.valueAt read n : Except Fault (Exact ℚ)) = .ok (.finite (p.coeff n))) ∧
    ∀ (brackets : List (ListedBracket DottedGap)) (last : DottedGap) (s : List Char),
      DottedText brackets last s → ∃ (F : Factorization (Exact ℚ)) (c : ℚ),
        Factorization.ofDenominator (String.ofList s) = .ok F ∧ F.scale = .finite c ∧
        (∀ f ∈ F.factors, 0 ≤ f.multiplicity ∧
          Denotes f.content.toList (denoted f.content.toList)) ∧
        Denotes s (C c * Factor.denotedProduct F.factors) := by
  refine ⟨?_, fun brackets last s h => h.exists_factorization hparse⟩
  intro plusShown terms s h
  obtain ⟨read, hread, hvalue⟩ := h.exists_terms
  exact ⟨_, read, h.denotes hparse, hread, hvalue⟩

/-- The parser that runs follows the notation. -/
theorem followsNotation : FollowsNotation Empty := fun _ _ h => Arithmetic.parse_of_written h

section Samples

open Factorization

theorem isWhole_digit {c : Char} (h : c.isDigit = true) (hc : isDigit c = true) :
    (DecimalNumeral.ofDigit c hc).IsWhole :=
  DecimalNumeral.isWhole_ofDigit h hc

theorem spacesOnly_of_all {s : List Char} (h : (s.all fun c => !isBlank c || c == ' ') = true) :
    Token.SpacesOnly s := by
  intro c hc hblank
  simpa [hblank] using List.all_eq_true.mp h c hc

def braced : Option WrittenExponent := some (bracedExponent '2' isDigit_two)

theorem isWholeNumeral_braced : ∀ e ∈ braced, IsWholeNumeral e.digits := by
  rintro e ⟨⟩
  exact isWholeNumeral_digit (by decide)

/-- The sum 3x^{2} - 5. -/
theorem sumText_difference : SumText false
    [⟨false, .multiple (some (.ofDigit '3' isDigit_three)) braced⟩,
      ⟨true, .constant (.ofDigit '5' isDigit_five)⟩] "3x^\x7b2\x7d - 5".toList where
  ne_nil := by simp
  isWhole := by
    have hthree := isWhole_digit (c := '3') (by decide) isDigit_three
    have hfive := isWhole_digit (c := '5') (by decide) isDigit_five
    simpa [Summand.IsWhole, hthree, hfive] using isWholeNumeral_braced
  nodup := by decide
  spaced := .token (t := ['3']) (.token (t := ['x']) (.token (t := ['^']) (.token (t := ['\x7b'])
    (.token (t := ['2']) (.token (t := ['\x7d']) (.blank (c := ' ') (by decide)
      (.token (t := ['-']) (.blank (c := ' ') (by decide) (.token (t := ['5']) .done)))))))))
  spaces := spacesOnly_of_all (by decide)

theorem sumText_linear : SumText false
    [⟨false, .multiple none none⟩, ⟨true, .constant (.ofDigit '1' isDigit_one)⟩]
    "x - 1".toList where
  ne_nil := by simp
  isWhole := by simp [Summand.IsWhole, isWhole_digit (c := '1') (by decide) isDigit_one]
  nodup := by decide
  spaced := .token (t := ['x']) (.blank (c := ' ') (by decide) (.token (t := ['-'])
    (.blank (c := ' ') (by decide) (.token (t := ['1']) .done))))
  spaces := spacesOnly_of_all (by decide)

theorem sumText_quadratic : SumText false
    [⟨false, .multiple none braced⟩, ⟨false, .constant (.ofDigit '4' isDigit_four)⟩]
    "x^\x7b2\x7d + 4".toList where
  ne_nil := by simp
  isWhole := by
    have hfour := isWhole_digit (c := '4') (by decide) isDigit_four
    simpa [Summand.IsWhole, hfour] using isWholeNumeral_braced
  nodup := by decide
  spaced := .token (t := ['x']) (.token (t := ['^']) (.token (t := ['\x7b'])
    (.token (t := ['2']) (.token (t := ['\x7d']) (.blank (c := ' ') (by decide)
      (.token (t := ['+']) (.blank (c := ' ') (by decide) (.token (t := ['4']) .done))))))))
  spaces := spacesOnly_of_all (by decide)

/-- The gap -2x\cdot and the bracket (x - 1)^2. -/
def dottedSquare : ListedBracket DottedGap where
  gap := ⟨true, some ⟨false, .ofDigit '2' isDigit_two⟩, some ⟨false, none⟩, true⟩
  content := "x - 1".toList
  exponent := some .two
  closed := paren_notMem_content

theorem paren_notMem_quadratic : ')' ∉ "x^\x7b2\x7d + 4".toList := by decide

/-- The gap with the number 3 and the bracket (x^{2} + 4). -/
def spacedQuadratic : ListedBracket DottedGap where
  gap := ⟨false, some ⟨false, .ofDigit '3' isDigit_three⟩, none, false⟩
  content := "x^\x7b2\x7d + 4".toList
  exponent := none
  closed := paren_notMem_quadratic

/-- A gap with a one-digit multiplier other than zero and a power without exponent is a whole one.
-/
theorem isWhole_gap {negative : Bool} {c : Char} (h : c.isDigit = true) (hc : isDigit c = true)
    (hne : digit? c ≠ some 0) (power : Option (Dotted (Option WrittenExponent)))
    (hpower : ∀ x ∈ power, x.item = none) (dotted : Bool) :
    (⟨negative, some ⟨false, .ofDigit c hc⟩, power, dotted⟩ : DottedGap).IsWhole where
  number := by
    rintro n ⟨⟩
    refine ⟨isWhole_digit h hc, ?_⟩
    obtain ⟨d, hd⟩ := Option.isSome_iff_exists.mp hc
    simpa [DecimalNumeral.ofDigit, Number.ofNumeral, hd, ofDigits, ofDigitsIn] using hne
  power := by
    intro x hx e he
    rw [hpower x hx] at he
    cases he

/-- Two brackets with a sign, a power, a dot and a multiplier in the gaps before them. -/
theorem dottedText_sample : DottedText [dottedSquare, spacedQuadratic] ⟨false, none, none, false⟩
    "-2x\\cdot(x - 1)^2 3(x^\x7b2\x7d + 4)".toList where
  text := by
    have hfront : Spaced dottedSquare.gap.tokens "-2x\\cdot".toList :=
      .token (t := ['-']) (.token (t := ['2']) (.token (t := ['x'])
        (.token (t := ProductSign.dot.chars) .done)))
    have hmiddle : Spaced spacedQuadratic.gap.tokens " 3".toList :=
      .blank (c := ' ') (by decide) (.token (t := ['3']) .done)
    have hblanks : ∀ c ∈ ([] : List Char), isBlank c = true := by simp
    have hdigit : ∀ c ∈ (" 3(x^\x7b2\x7d + 4)".toList).head?, isDigit c = false := by
      rintro c ⟨⟩
      decide
    exact .bracket hfront (.some hblanks fun _ => hdigit) (.bracket hmiddle .none (.last .done))
  ne_nil := by simp
  spaces := spacesOnly_of_all (by decide)
  isWhole := by
    have hsquare : dottedSquare.IsWhole :=
      { gap := isWhole_gap (by decide) isDigit_two (by decide) _ (by rintro x ⟨⟩; rfl) true
        content := ⟨_, _, sumText_linear⟩
        exponent := by
          rintro e ⟨⟩
          exact isWholeNumeral_digit (by decide) }
    have hquadratic : spacedQuadratic.IsWhole :=
      { gap := isWhole_gap (by decide) isDigit_three (by decide) _ (by simp) false
        content := ⟨_, _, sumText_quadratic⟩
        exponent := by simp [spacedQuadratic] }
    simp [hsquare, hquadratic]
  isWhole_last := ⟨by simp, by simp⟩
  negative := by simp [spacedQuadratic]
  negative_last := rfl
  startsDotted := by simp [dottedSquare, DottedGap.StartsDotted]
  dotted_last := rfl

/-- The sum 3x^{2} - 5, and a denominator with a number and x before the brackets and a number
between them. -/
theorem readers_agree_sample :
    (∃ read : List Term, Term.readAll "3x^\x7b2\x7d - 5".toList = .ok read ∧
      (Term.valueAt read 2 : Except Fault (Exact ℚ)) = .ok (.finite 3) ∧
      (Term.valueAt read 1 : Except Fault (Exact ℚ)) = .ok (.finite 0) ∧
      (Term.valueAt read 0 : Except Fault (Exact ℚ)) = .ok (.finite (-5))) ∧
    ∃ (F : Factorization (Exact ℚ)) (c : ℚ),
      ofDenominator "-2x\\cdot(x - 1)^2 3(x^\x7b2\x7d + 4)" = .ok F ∧ F.scale = .finite c ∧
      C c * Factor.denotedProduct F.factors =
        Symbolic.Coefficients.polynomial [0, -24, 48, -30, 12, -6] := by
  constructor
  · obtain ⟨p, read, hp, hread, hvalue⟩ :=
      (readers_agree followsNotation).1 _ _ _ sumText_difference
    have hexact : exactCoefficients "3x^\x7b2\x7d - 5".toList = .ok [3, 0, -5] := by decide +kernel
    obtain ⟨cs, hcs, rfl⟩ := hp
    obtain rfl := Except.ok.inj (hexact.symm.trans hcs)
    refine ⟨read, hread, ?_, ?_, ?_⟩
    · simpa [coeff_X, coeff_C] using hvalue 2
    · simpa [coeff_X, coeff_C] using hvalue 1
    · simpa [coeff_X, coeff_C] using hvalue 0
  · obtain ⟨F, c, hF, hc, -, cs, hcs, hproduct⟩ :=
      (readers_agree followsNotation).2 _ _ _ dottedText_sample
    have hexact : exactCoefficients "-2x\\cdot(x - 1)^2 3(x^\x7b2\x7d + 4)".toList =
        .ok [-6, 12, -30, 48, -24, 0] := by decide +kernel
    obtain rfl := Except.ok.inj (hexact.symm.trans hcs)
    exact ⟨F, c, hF, hc, hproduct.symm⟩

end Samples

section Ones

variable {k : ℕ}

theorem isNumeral_ones (hk : k ≠ 0) : IsNumeral (List.replicate k '1') where
  isDigit _ hc := by
    rw [List.eq_of_mem_replicate hc]
    rfl
  ne_nil := by simpa using hk
  head?_zero h := by
    have hone := List.eq_of_mem_replicate (List.mem_of_mem_head? h)
    exact absurd hone (by decide)

theorem isDigit_of_mem_ones : ∀ c ∈ List.replicate k '1', isDigit c = true :=
  fun _ hc => List.eq_of_mem_replicate hc ▸ isDigit_one

theorem isDigit_of_mem_none : ∀ c ∈ (none : Option (List Char)).getD [], isDigit c = true := by
  simp

theorem ones_append_ne_nil (hk : List.replicate k '1' ≠ []) :
    List.replicate k '1' ++ (none : Option (List Char)).getD [] ≠ [] := by
  simpa using hk

def ones (hk : List.replicate k '1' ≠ []) : DecimalNumeral where
  whole := List.replicate k '1'
  fraction := none
  isDigit_whole := isDigit_of_mem_ones
  isDigit_fraction := isDigit_of_mem_none
  ne_nil := ones_append_ne_nil hk

/-- Ones that are too many for the verification are a term of the solver. -/
theorem exactCoefficients_ones (hk : maxIntegerDigits < k) :
    exactCoefficients (List.replicate k '1') = .error (.literalTooLong k) ∧
      ∃ (read : List Term) (v : ℚ), Term.readAll (List.replicate k '1') = .ok read ∧
        (Term.valueAt read 0 : Except Fault (Exact ℚ)) = .ok (.finite v) := by
  have hones := isNumeral_ones (Nat.ne_zero_of_lt hk)
  constructor
  · have htoo := Token.ofText_of_long hones (by simpa using hk)
    rw [List.length_replicate] at htoo
    have htext : formulaText (List.replicate k '1') = List.replicate k '1' := by
      have hkept := formulaText_append (fun c hc => isKept_of_isDigit (hones.isDigit c hc)) []
      rwa [List.append_nil, formulaText_nil, List.append_nil] at hkept
    have hparse : (Parsing.parse (List.replicate k '1') : Except Fault (Arithmetic Empty)) =
        .error (.literalTooLong k) := by
      simp only [Parsing.parse, Arithmetic.parse, htoo, bind, Except.bind]
    simp only [exactCoefficients, Arithmetic.read, htext, hparse, bind, Except.bind]
  · have hspaced := Spaced.flatten
      (SignedSummand.sumTokens false [⟨false, .constant (ones hones.ne_nil)⟩])
    have htext : (SignedSummand.sumTokens false
        [⟨false, .constant (ones hones.ne_nil)⟩]).flatten = List.replicate k '1' := by
      simp [SignedSummand.sumTokens, Summand.tokens, DecimalNumeral.chars, ones]
    rw [htext] at hspaced
    have hvalue := Term.valueAt_terms (K := Exact ℚ) [⟨false, .constant (ones hones.ne_nil)⟩] 0
    refine ⟨_, (⟨false, .constant (ones hones.ne_nil)⟩ : SignedSummand).value,
      Term.readAll_of_spaced hspaced, hvalue.trans ?_⟩
    simp [SignedSummand.number_eq_finite, Summand.power]

end Ones

/-- A numeral that the solver rounds to 4503599627370496 · 2 and the verification does not round,
and one that is too long for the verification. -/
theorem exists_other_coefficient :
    (exactCoefficients "9007199254740993".toList = .ok [9007199254740993] ∧
      ∃ read : List Term, Term.readAll "9007199254740993".toList = .ok read ∧
        (Term.valueAt read 0).map Binary.ofFloat = .ok (.finite false 4503599627370496 1)) ∧
    exactCoefficients (List.replicate 4301 '1') = .error (.literalTooLong 4301) ∧
      ∃ (read : List Term) (v : ℚ), Term.readAll (List.replicate 4301 '1') = .ok read ∧
        (Term.valueAt read 0 : Except Fault (Exact ℚ)) = .ok (.finite v) :=
  ⟨⟨by decide +kernel, [⟨0, "+9007199254740993"⟩], by decide +kernel, by decide +kernel⟩,
    exactCoefficients_ones (by decide)⟩

end Verification

end PartialFractions
