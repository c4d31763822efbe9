import PartialFractions.Gap
import PartialFractions.Proofs.TermReading

/-!
Gaps between brackets as they are written: a number, a power of x, or both, with a minus sign where
one may stand. A gap is read as its number and its power of x, whatever its spacing.
-/
namespace PartialFractions

open Text Number

/-- What stands in a gap; a number or a power of x that is missing is 1. -/
structure WrittenGap where
  negative : Bool
  product : Option Summand

namespace WrittenGap

def tokens (g : WrittenGap) : List (List Char) :=
  (if g.negative then [['-']] else []) ++ (g.product.map Summand.tokens).getD []

def value {K : Type} [Field K] (g : WrittenGap) : K :=
  Scalar.signed g.negative ((g.product.map fun m => m.coefficient.value).getD 1)

def bare {K : Type} (g : WrittenGap) : List (Factor K) :=
  match g.product with
  | some (.multiple coefficient exponent) =>
    [Factor.bare (Summand.multiple coefficient exponent).power]
  | _ => []

def signText (g : WrittenGap) : List Char := if g.negative then ['-'] else []

def numberText (g : WrittenGap) : List Char :=
  match g.product with
  | none => []
  | some (.constant n) => n.chars
  | some (.multiple coefficient _) => (coefficient.map DecimalNumeral.chars).getD []

def variableText (g : WrittenGap) : List Char :=
  match g.product with
  | some (.multiple _ exponent) =>
    'x' :: ((exponent.map WrittenExponent.tokens).getD []).flatten
  | _ => []

def shownVariable (g : WrittenGap) : Gap.Variable :=
  match g.product with
  | some (.multiple _ none) => .plain
  | some (.multiple _ (some e)) => .power e.digits
  | _ => .absent

variable (g : WrittenGap) {s : List Char}

theorem forall_mem_tokens {P : List Char → Prop} (hminus : P ['-'])
    (h : ∀ m ∈ g.product, ∀ t ∈ m.tokens, P t) : ∀ t ∈ g.tokens, P t := by
  intro t ht
  rcases List.mem_append.mp ht with ht | ht
  · split at ht
    · rwa [List.mem_singleton.mp ht]
    · simp at ht
  · cases hproduct : g.product with
    | none => simp [hproduct] at ht
    | some m =>
      rw [hproduct] at ht
      exact h m hproduct t ht

theorem isToken_of_mem : ∀ t ∈ g.tokens, IsToken t :=
  g.forall_mem_tokens (isToken_singleton (by decide)) fun m _ => m.isToken_of_mem

theorem numberText_append_variableText :
    g.numberText ++ g.variableText = (g.product.map Summand.body).getD [] := by
  obtain ⟨negative, _ | n | ⟨coefficient, exponent⟩⟩ := g
  · rfl
  · simp [numberText, variableText, Summand.body_constant]
  · simp [numberText, variableText, Summand.body_multiple]

theorem squeeze_of_spaced (h : Spaced g.tokens s) :
    squeeze s = g.signText ++ (g.numberText ++ g.variableText) := by
  rw [h.squeeze_eq g.isToken_of_mem, numberText_append_variableText]
  obtain ⟨negative, _ | m⟩ := g
  · cases negative <;> rfl
  · cases negative <;> rfl

/-- Behind its sign a gap has no sign, no backslash and no star. -/
theorem isPlain_of_mem {c : Char} (h : c ∈ g.numberText ++ g.variableText) :
    Term.isSign c = false ∧ c ≠ '\\' ∧ c ≠ '*' := by
  rw [numberText_append_variableText] at h
  cases hproduct : g.product with
  | none => simp [hproduct] at h
  | some m =>
    simp only [hproduct, Option.map_some, Option.getD_some] at h
    refine ⟨m.isSign_of_mem_body h, ?_, ?_⟩
    · rintro rfl
      exact absurd (m.mem_body h) (by decide)
    · rintro rfl
      exact absurd (m.mem_body h) (by decide)

/-- No character of a gap belongs to a multiplication sign. -/
theorem isFactorChar_of_mem {c : Char} (h : c ∈ g.signText ++ (g.numberText ++ g.variableText)) :
    c ≠ '\\' ∧ c ≠ '*' := by
  rcases List.mem_append.mp h with h | h
  · have hminus : c = '-' := by
      unfold signText at h
      split at h <;> simp_all
    rw [hminus]
    decide
  · exact (g.isPlain_of_mem h).2

theorem numberText_eq : g.numberText = [] ∨ ∃ n : DecimalNumeral, g.numberText = n.chars := by
  obtain ⟨negative, _ | n | ⟨_ | n, exponent⟩⟩ := g
  · exact Or.inl rfl
  · exact Or.inr ⟨n, rfl⟩
  · exact Or.inl rfl
  · exact Or.inr ⟨n, rfl⟩

theorem isNumberChar_of_mem : ∀ c ∈ g.numberText, Gap.isNumberChar c = true := by
  intro c hc
  rcases g.numberText_eq with h | ⟨n, h⟩
  · simp [h] at hc
  · rw [h] at hc
    rcases n.mem_chars hc with hdigit | rfl
    · simp [Gap.isNumberChar, hdigit]
    · decide

theorem head?_variableText : ∀ c ∈ g.variableText.head?, c = 'x' := by
  obtain ⟨negative, _ | n | ⟨coefficient, exponent⟩⟩ := g
  · simp [variableText]
  · simp [variableText]
  · simp [variableText]

/-- Sign and digits go to the number, what starts with `x` to the variable. -/
theorem splitNumber_text : Gap.splitNumber (g.signText ++ (g.numberText ++ g.variableText)) =
    (g.signText ++ g.numberText, g.variableText) := by
  have hhead : ∀ c ∈ g.variableText.head?, Gap.isNumberChar c = false := by
    intro c hc
    rw [g.head?_variableText c hc]
    decide
  have htake := takeWhile_append_of_head g.isNumberChar_of_mem hhead
  have hdrop := dropWhile_append_of_head g.isNumberChar_of_mem hhead
  cases hnegative : g.negative with
  | true => simp [signText, hnegative, Gap.splitNumber, htake, hdrop]
  | false =>
    have hsign : g.signText = [] := by simp [signText, hnegative]
    rw [hsign, List.nil_append, List.nil_append, Gap.splitNumber]
    · rw [htake, hdrop]
    all_goals
      intro rest heq
      have hplain := g.isPlain_of_mem (heq ▸ List.mem_cons_self ..)
      exact absurd hplain.1 (by decide)

theorem read?_variableText : Gap.Variable.read? g.variableText = some g.shownVariable := by
  obtain ⟨negative, _ | n | ⟨coefficient, _ | e⟩⟩ := g
  · rfl
  · rfl
  · rfl
  · have hread := e.exponent?_flatten
    obtain ⟨t, ht⟩ := List.head?_eq_some_iff.mp e.head?_tokens
    rw [ht] at hread
    simp [variableText, shownVariable, ht, Gap.Variable.read?, hread]

end WrittenGap

namespace Gap

theorem dropProducts_eq_self {s : List Char} (hcommand : '\\' ∉ s) (hstar : '*' ∉ s) :
    dropProducts s = s := by
  fun_induction dropProducts s with
  | case1 => rfl
  | case2 rest => simp at hcommand
  | case3 rest => simp at hcommand
  | case4 rest => simp at hstar
  | case5 c rest hc ht hs ih =>
    simp only [List.mem_cons, not_or] at hcommand hstar
    rw [ih hcommand.2 hstar.2]

theorem startsWithSign_eq_false {s : List Char} (h : ∀ c ∈ s, Term.isSign c = false) :
    startsWithSign s = false := by
  unfold startsWithSign
  split
  · exact absurd (h '+' (List.mem_cons_self ..)) (by decide)
  · exact absurd (h '-' (List.mem_cons_self ..)) (by decide)
  · rfl

theorem leadingNumber_eq_read? {K : Type} [Neg K] [Scalar K] {s : List Char} {v : K}
    (hne : s ≠ []) (hminus : s ≠ ['-']) (hread : Scalar.read? s = some v) (summand : List Char) :
    leadingNumber s summand = .ok v := by
  unfold leadingNumber
  split
  · exact absurd rfl hne
  · exact absurd rfl hminus
  · rw [hread]

/-- A numeral behind a minus sign or no sign stands for the number that it is read as. -/
theorem leadingNumber_of_read? {K : Type} [Neg K] [Scalar K] {negative : Bool} {n : DecimalNumeral}
    {v : K} (hread : Scalar.read? ((if negative then ['-'] else []) ++ n.chars) = some v)
    (summand : List Char) :
    leadingNumber ((if negative then ['-'] else []) ++ n.chars) summand = .ok v := by
  have hne := n.chars_ne_nil
  have hminus : n.chars ≠ ['-'] := by
    intro h
    exact n.notMem_chars (c := '-') (by decide) (by decide) (by simp [h])
  refine leadingNumber_eq_read? (by simpa using fun _ => hne) ?_ hread summand
  cases negative with
  | true => simpa using hne
  | false => simpa using hminus

theorem leadingNumber_chars {K : Type} [Neg K] [Scalar K] (negative : Bool) (n : DecimalNumeral)
    (summand : List Char) :
    leadingNumber ((if negative then ['-'] else []) ++ n.chars) summand =
      (.ok (Scalar.ofNumeral (.decimal negative n.digits (-(n.places : ℤ)))) :
        Except Refusal K) :=
  leadingNumber_of_read? (by rw [Scalar.read?, Numeral.read?_minus_chars, Option.map_some]) summand

/-- A coefficient that may be left out, with its sign. -/
theorem leadingNumber_numeral {K : Type} [Field K] [LinearOrder K] [Notated K] (negative : Bool)
    (n : Option DecimalNumeral) (summand : List Char) :
    leadingNumber ((if negative then ['-'] else []) ++ (n.map DecimalNumeral.chars).getD [])
      summand = (.ok (.finite (Scalar.signed negative ((n.map DecimalNumeral.value).getD 1))) :
        Except Refusal (Exact K)) := by
  cases n with
  | none => cases negative <;> simp [leadingNumber, Scalar.signed]
  | some n =>
    simp only [Option.map_some, Option.getD_some, leadingNumber_chars, Scalar.ofNumeral_decimal]

/-- The number of a gap, its sign included; one where no digit is written. -/
theorem leadingNumber_text {K : Type} [Field K] [LinearOrder K] [Notated K] (g : WrittenGap)
    (summand : List Char) : leadingNumber (g.signText ++ g.numberText) summand =
      (.ok (.finite g.value) : Except Refusal (Exact K)) := by
  obtain ⟨negative, _ | n | ⟨_ | n, exponent⟩⟩ := g
  · exact leadingNumber_numeral negative none summand
  · exact leadingNumber_numeral negative (some n) summand
  · have hvalue : (⟨negative, some (.multiple none exponent)⟩ : WrittenGap).value =
        Scalar.signed negative (1 : K) := by
      simp [WrittenGap.value, Summand.coefficient, DecimalNumeral.value_one]
    rw [hvalue]
    exact leadingNumber_numeral negative none summand
  · exact leadingNumber_numeral negative (some n) summand

theorem factors_shownVariable {K : Type} (g : WrittenGap) :
    (factors g.shownVariable : Except Fault (List (Factor K))) = .ok g.bare := by
  obtain ⟨negative, _ | n | ⟨coefficient, _ | e⟩⟩ := g
  · rfl
  · rfl
  · rfl
  · simp only [WrittenGap.shownVariable, factors, e.readDigits_digits]
    rfl

/-- A gap is read as what is left of it without blanks and multiplication signs. -/
theorem read_of_leadingNumber {K : Type} [Neg K] [Scalar K] {g : WrittenGap} {s : List Char}
    {leading : Bool} {v : K}
    (hdrop : dropProducts (squeeze s) = g.signText ++ (g.numberText ++ g.variableText))
    (hsign : g.negative = true → leading = true)
    (hnumber : leadingNumber (g.signText ++ g.numberText) (trim s) = .ok v) :
    read leading s = .ok (v, g.bare) := by
  have hallowed : (startsWithSign (g.signText ++ (g.numberText ++ g.variableText)) && !leading) =
      false := by
    cases hnegative : g.negative with
    | true => simp [hsign hnegative]
    | false =>
      have hnone : g.signText = [] := by simp [WrittenGap.signText, hnegative]
      have hstart : startsWithSign (g.numberText ++ g.variableText) = false :=
        startsWithSign_eq_false fun c hc => (g.isPlain_of_mem hc).1
      simp [hnone, hstart]
  have hparts : parts? leading (dropProducts (squeeze s)) =
      some (g.signText ++ g.numberText, g.shownVariable) := by
    rw [hdrop, parts?, hallowed, g.splitNumber_text, g.read?_variableText]
    rfl
  rw [read, hparts]
  simp only [hnumber, factors_shownVariable]
  rfl

theorem read_of_dropProducts {K : Type} [Field K] [LinearOrder K] [Notated K] {g : WrittenGap}
    {s : List Char} {leading : Bool}
    (hdrop : dropProducts (squeeze s) = g.signText ++ (g.numberText ++ g.variableText))
    (hsign : g.negative = true → leading = true) :
    read leading s = (.ok (.finite g.value, g.bare) : Except Failure (Exact K × _)) :=
  read_of_leadingNumber hdrop hsign (leadingNumber_text g _)

theorem dropProducts_of_spaced {g : WrittenGap} {s : List Char} (h : Spaced g.tokens s) :
    dropProducts (squeeze s) = g.signText ++ (g.numberText ++ g.variableText) := by
  rw [g.squeeze_of_spaced h]
  exact dropProducts_eq_self (fun hc => (g.isFactorChar_of_mem hc).1 rfl)
    (fun hc => (g.isFactorChar_of_mem hc).2 rfl)

/-- A gap is read as its number and its power of x. -/
theorem read_of_spaced {K : Type} [Field K] [LinearOrder K] [Notated K] {g : WrittenGap}
    {s : List Char} {leading : Bool} (h : Spaced g.tokens s)
    (hsign : g.negative = true → leading = true) :
    read leading s = (.ok (.finite g.value, g.bare) : Except Failure (Exact K × _)) :=
  read_of_dropProducts (dropProducts_of_spaced h) hsign

/-- An empty gap is the number 1. -/
theorem read_nil {K : Type} [Field K] [LinearOrder K] [Notated K] (leading : Bool) :
    read leading [] = (.ok (.finite 1, []) : Except Failure (Exact K × _)) := by
  have hread : read leading [] = .ok (Exact.finite (WrittenGap.value ⟨false, none⟩ : K),
      WrittenGap.bare ⟨false, none⟩) := read_of_spaced .done (by simp)
  simpa [WrittenGap.value, WrittenGap.bare, Scalar.signed] using hread

end Gap

end PartialFractions
