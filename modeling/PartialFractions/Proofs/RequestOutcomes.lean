import PartialFractions.Outcome
import PartialFractions.Proofs.RenderedFormulas
import PartialFractions.Proofs.RoundedNumbers
import PartialFractions.Proofs.SolutionOutcomes
import PartialFractions.Proofs.UnreadableTexts

/-!
Requests of one text side by side. Expanding, solving and checking take the text apart in the same
way, so they stop at the same refusals; what is expanded begins what is solved. No request raises a
fault, but checking passes on the one that the other two contain: an exponent with too many digits.
-/
namespace PartialFractions

open Text Number

section Numbers

variable {precision : ℤ}

theorem Number.exists_significantCount (hlow : 0 ≤ precision) (hhigh : precision < 2147483648) :
    ∃ count, significantCount precision = .ok count :=
  ⟨_, significantCount_eq_ok hlow hhigh⟩

/-- A number without a text has none because of the precision. -/
theorem Number.failsWithin_roundedText (precision : ℤ) (v : Float) :
    FailsWithin (fun e => significantCount precision = .error e)
      (Scalar.roundedText precision v) := by
  have hcount {α : Type} (f : ℕ → α) :
      FailsWithin (fun e => significantCount precision = .error e)
        (significantCount precision >>= fun count => .ok (f count)) :=
    FailsWithin.bind (fun _ => id) fun _ _ => .value _
  refine FailsWithin.map ?_
  unfold roundedChars
  split
  · split
    · exact .value _
    · exact hcount _
  · split
    · exact .value _
    · exact hcount _

/-- With a precision that is accepted every number has a text. -/
theorem Number.exists_roundedText (h : ∃ count, significantCount precision = .ok count)
    (v : Float) : ∃ s, Scalar.roundedText precision v = .ok s := by
  obtain ⟨count, hcount⟩ := h
  refine (failsWithin_roundedText precision v).exists_value ?_
  intro e he
  cases hcount.symm.trans he

end Numbers

namespace Decomposition

variable {limit precision : ℤ} {text : Option String} {d : Decomposition Float}

/-- A solved derivation has lines behind those of the identity. Otherwise solving is refused for
the expression or its type, or fails at an exponent in a quadratic factor that has too many
digits. -/
theorem lines_cases (h : ofText limit text = .ok d) :
    (∃ steps, d.lines = .ok (d.identityLines ++ steps) ∧ (∀ f ∈ steps, f.Drawn) ∧
        (d.kind = .linear ∨ d.kind = .quadratic)) ∨
      (∃ r, d.lines = .error (.refused r) ∧ r.code ∈ Solution.refusalCodes) ∨
      ∃ n, d.lines = .error (.fault (.integerTooLong n)) ∧ d.kind = .quadratic ∧
        ∃ f ∈ d.factorization.factors, HasLongExponent (Term.signed f.content.toList) n := by
  obtain ⟨denominator, hdenominator⟩ := ofText_eq_ok h
  obtain ⟨-, hscale⟩ := Factorization.read_of_ofDenominator hdenominator
  have hends : Solution.Ends _ _ d.constants := Solution.ends_constants hscale
  cases hresult : d.constants with
  | ok cs =>
    have hsolved := Solution.solved_of_constants hresult
    obtain ⟨steps, hsteps, hdrawn⟩ := Derivation.exists_lines hsolved
    refine Or.inl ⟨steps, ?_, hdrawn, ?_⟩
    · rw [lines, hresult]
      simp only [bind, Except.bind, hsteps]
      rfl
    · rcases hsolved.labels with ⟨hkind, -⟩ | ⟨hkind, -⟩
      · exact Or.inl hkind
      · exact Or.inr hkind
  | error failure =>
    have hlines : d.lines = .error failure := by
      rw [lines, hresult]
      rfl
    rw [hresult] at hends
    cases hends with
    | refused hkind => exact Or.inr (Or.inl ⟨_, hlines, Solution.code_mem_refusalCodes hkind⟩)
    | tooLong hlong => exact Or.inr (Or.inr ⟨_, hlines, hlong⟩)

theorem drawn_identityLines (d : Decomposition Float) : ∀ f ∈ d.identityLines, f.Drawn :=
  Template.drawn_identityLines _ _ _ _

/-- What is expanded has its text, and solving writes the lines behind it, or is refused for the
expression or its type, or fails at an exponent in a quadratic factor that has too many digits. -/
theorem expand_solve_cases (h : ofText limit text = .ok d)
    (hprecision : ∃ count, significantCount precision = .ok count) :
    ∃ opening, d.expand precision = .ok (opening ++ "\n\\end\x7barray\x7d") ∧
      ((∃ steps, d.solve precision = .ok (opening ++ "\n" ++ steps) ∧
          (d.kind = .linear ∨ d.kind = .quadratic)) ∨
        (∃ r, d.solve precision = .error (.refused r) ∧ r.code ∈ Solution.refusalCodes) ∨
        ∃ n, d.solve precision = .error (.fault (.integerTooLong n)) ∧ d.kind = .quadratic ∧
          ∃ f ∈ d.factorization.factors, HasLongExponent (Term.signed f.content.toList) n) := by
  have hnumber := exists_roundedText hprecision
  have hne : d.identityLines ≠ [] := List.cons_ne_nil _ _
  have hnone : ∀ f ∈ ([] : List (Formula Float)), f.Drawn := by simp
  have hrender {steps : List (Formula Float)} (hdrawn : ∀ f ∈ steps, f.Drawn) :=
    Formula.exists_renderArray_append hne d.drawn_identityLines hdrawn hnumber
  rcases lines_cases h with ⟨steps, hlines, hdrawn, hkind⟩ | ⟨r, hlines, hcode⟩ |
    ⟨n, hlines, hlong⟩
  · obtain ⟨opening, rest, hexpand, hall⟩ := hrender hdrawn
    refine ⟨opening, hexpand, Or.inl ⟨rest, ?_, hkind⟩⟩
    rw [solve, hlines]
    exact congrArg (Except.mapError Failure.fault) hall
  · obtain ⟨opening, -, hexpand, -⟩ := hrender hnone
    exact ⟨opening, hexpand, Or.inr (Or.inl ⟨r, by rw [solve, hlines]; rfl, hcode⟩)⟩
  · obtain ⟨opening, -, hexpand, -⟩ := hrender hnone
    exact ⟨opening, hexpand, Or.inr (Or.inr ⟨n, by rw [solve, hlines]; rfl, hlong⟩)⟩

end Decomposition

section Requests

variable {settings : Settings} {text : Option String}

/-- A text is taken apart, or refused as malformed, or has an exponent that is too long. -/
theorem decompose_cases (settings : Settings) (text : Option String) :
    (∃ d, decompose settings text = .ok d) ∨
      (∃ r, decompose settings text = .error (.refused r) ∧
        r.code ∈ Decomposition.refusalCodes) ∨
      ∃ n, decompose settings text = .error (.fault (.integerTooLong n)) ∧
        HasLongRow (text.elim [] String.toList) n := by
  cases hresult : decompose settings text with
  | ok d => exact Or.inl ⟨d, rfl⟩
  | error failure =>
    cases Decomposition.failsWithin_ofText settings.maxInputLength text failure hresult with
    | refused hkind =>
      exact Or.inr (Or.inl ⟨_, rfl, Decomposition.code_mem_refusalCodes hkind⟩)
    | tooLong hlong => exact Or.inr (Or.inr ⟨_, rfl, hlong⟩)

namespace Outcome

section Results

variable (request : Request) {d : Decomposition Float}

theorem ofText_of_answer {latex : String} (hd : decompose settings text = .ok d)
    (h : request.answer settings d = .ok latex) :
    ofText settings request text = .ok (.derived (some latex) (some d.kind.name)) := by
  simp only [ofText, hd, bind, Except.bind, h]
  rfl

theorem ofText_of_expand {latex : String} (hd : decompose settings text = .ok d)
    (h : d.expand settings.precision = .ok latex) :
    ofText settings .expand text = .ok (.derived (some latex) (some d.kind.name)) :=
  ofText_of_answer .expand hd (mapError_eq_ok.mpr h)

theorem request_eq_error {failure : Failure} (hd : decompose settings text = .ok d)
    (h : request.answer settings d = .error failure) :
    (decompose settings text >>= request.answer settings) = .error failure := by
  rw [hd]
  exact h

/-- A refusal becomes an outcome with its code and its message in the settings' language. -/
theorem ofText_of_refused {r : Refusal}
    (h : (decompose settings text >>= request.answer settings) = .error (.refused r)) :
    ofText settings request text =
      .ok (.failed (some r.code.name) (some (r.message settings.language))) := by
  cases hd : decompose settings text with
  | ok d =>
    rw [hd] at h
    have hanswer : request.answer settings d = .error (.refused r) := h
    simp only [ofText, hd, bind, Except.bind, hanswer]
  | error failure =>
    rw [hd] at h
    obtain rfl := Except.error.inj h
    simp only [ofText, hd, bind, Except.bind]

/-- The contained faults share one code. -/
theorem ofText_of_fault {f : Fault} (hcontained : f.kind.isContained = true)
    (h : (decompose settings text >>= request.answer settings) = .error (.fault f)) :
    ofText settings request text =
      .ok (.failed (some "INTERNAL_ERROR") (some request.faultMessage)) := by
  cases hd : decompose settings text with
  | ok d =>
    rw [hd] at h
    have hanswer : request.answer settings d = .error (.fault f) := h
    simp only [ofText, hd, bind, Except.bind, hanswer, if_pos hcontained]
  | error failure =>
    rw [hd] at h
    obtain rfl := Except.error.inj h
    simp only [ofText, hd, bind, Except.bind, if_pos hcontained]

end Results

def unreadCodes : List String :=
  ["EMPTY_INPUT", "TOO_LONG", "NO_FRACTION", "BAD_POLYNOMIAL", "INTERNAL_ERROR"]

theorem name_mem_unreadCodes {code : RefusalCode} (h : code ∈ Decomposition.refusalCodes) :
    code.name ∈ unreadCodes := by
  cases code <;> simp_all [Decomposition.refusalCodes, RefusalCode.name, unreadCodes]

theorem name_notMem_unreadCodes {code : RefusalCode} (h : code ∈ Solution.refusalCodes) :
    code.name ∉ unreadCodes := by
  cases code <;> simp_all [Solution.refusalCodes, RefusalCode.name, unreadCodes]

def IsComplete : Outcome → Prop
  | .derived latex kind => latex.isSome ∧ kind.isSome
  | .failed code message => code.isSome ∧ message.isSome

structure Consistent (settings : Settings) (text : Option String) (expanded solved : Outcome) :
    Prop where
  expanded_complete : expanded.IsComplete
  solved_complete : solved.IsComplete
  /-- what is solved begins with what is expanded, except for the line that closes the array -/
  of_solved : ∀ latex kind, solved = .derived (some latex) (some kind) →
    (kind = "linear" ∨ kind = "quadratic") ∧ ∃ opening steps,
      expanded = .derived (some (opening ++ "\n\\end\x7barray\x7d")) (some kind) ∧
      latex = opening ++ "\n" ++ steps
  of_unexpanded : ∀ code message, expanded = .failed (some code) (some message) →
    code ∈ unreadCodes ∧ ∃ message', solved = .failed (some code) (some message') ∧
      (code ≠ "INTERNAL_ERROR" → message' = message)
  /-- solving alone has codes of its own, except for a long exponent in a quadratic factor -/
  of_unsolved : ∀ latex kind code message, expanded = .derived (some latex) (some kind) →
    solved = .failed (some code) (some message) →
    code ∉ unreadCodes ∨ code = "INTERNAL_ERROR" ∧ kind = "quadratic" ∧
      ∃ d n, decompose settings text = .ok d ∧
        ∃ f ∈ d.factorization.factors, HasLongExponent (Term.signed f.content.toList) n

/-- What is solved is also expanded, to the opening lines of the derivation. -/
theorem consistent_of_solved {d : Decomposition Float}
    (hkind : d.kind = .linear ∨ d.kind = .quadratic) (opening steps : String) :
    Consistent settings text
      (.derived (some (opening ++ "\n\\end\x7barray\x7d")) (some d.kind.name))
      (.derived (some (opening ++ "\n" ++ steps)) (some d.kind.name)) where
  expanded_complete := ⟨rfl, rfl⟩
  solved_complete := ⟨rfl, rfl⟩
  of_solved := by
    rintro latex kind ⟨⟩
    refine ⟨?_, opening, steps, rfl, rfl⟩
    rcases hkind with hkind | hkind
    · exact Or.inl (congrArg ExpressionKind.name hkind)
    · exact Or.inr (congrArg ExpressionKind.name hkind)
  of_unexpanded := by rintro code message ⟨⟩
  of_unsolved := by rintro latex kind code message - ⟨⟩

/-- What is expanded but not solved fails with a code of the solver, or at an exponent of a
quadratic factor beyond the digit limit. -/
theorem consistent_of_unsolved {latex kind code message : String}
    (h : code ∉ unreadCodes ∨ code = "INTERNAL_ERROR" ∧ kind = "quadratic" ∧
      ∃ d n, decompose settings text = .ok d ∧
        ∃ f ∈ d.factorization.factors, HasLongExponent (Term.signed f.content.toList) n) :
    Consistent settings text (.derived (some latex) (some kind))
      (.failed (some code) (some message)) where
  expanded_complete := ⟨rfl, rfl⟩
  solved_complete := ⟨rfl, rfl⟩
  of_solved := by rintro latex kind ⟨⟩
  of_unexpanded := by rintro code message ⟨⟩
  of_unsolved := by
    rintro latex kind code message ⟨⟩ ⟨⟩
    exact h

/-- What is not even read fails in both requests with the same code, and with the same message
unless the error is an internal one. -/
theorem consistent_of_unexpanded {code message message' : String} (hcode : code ∈ unreadCodes)
    (hmessage : code ≠ "INTERNAL_ERROR" → message' = message) :
    Consistent settings text (.failed (some code) (some message))
      (.failed (some code) (some message')) where
  expanded_complete := ⟨rfl, rfl⟩
  solved_complete := ⟨rfl, rfl⟩
  of_solved := by rintro latex kind ⟨⟩
  of_unexpanded := by
    rintro code message ⟨⟩
    exact ⟨hcode, message', rfl, hmessage⟩
  of_unsolved := by rintro latex kind code message ⟨⟩

/-- Expanding and solving never raise a fault, and their outcomes go together. -/
theorem exists_consistent (settings : Settings)
    (hprecision : ∃ count, significantCount settings.precision = .ok count)
    (text : Option String) : ∃ expanded solved,
      ofText settings .expand text = .ok expanded ∧ ofText settings .solve text = .ok solved ∧
        Consistent settings text expanded solved := by
  rcases decompose_cases settings text with ⟨d, hd⟩ | ⟨r, hr, hcode⟩ | ⟨n, hn, -⟩
  · obtain ⟨opening, hexpand, hsolve⟩ := Decomposition.expand_solve_cases hd hprecision
    have hexpanded := ofText_of_expand hd hexpand
    rcases hsolve with ⟨steps, hsolve, hkind⟩ | ⟨r, hsolve, hcode⟩ | ⟨n, hsolve, hkind, hlong⟩
    · have hsolved := ofText_of_answer .solve hd hsolve
      exact ⟨_, _, hexpanded, hsolved, consistent_of_solved hkind opening steps⟩
    · have hunsolved := ofText_of_refused .solve (request_eq_error .solve hd hsolve)
      refine ⟨_, _, hexpanded, hunsolved, consistent_of_unsolved ?_⟩
      exact Or.inl (name_notMem_unreadCodes hcode)
    · have hunsolved := ofText_of_fault .solve rfl (request_eq_error .solve hd hsolve)
      refine ⟨_, _, hexpanded, hunsolved, consistent_of_unsolved ?_⟩
      exact Or.inr ⟨rfl, congrArg ExpressionKind.name hkind, d, n, hd, hlong⟩
  · have hrefused (request : Request) := ofText_of_refused request (by rw [hr]; rfl)
    refine ⟨_, _, hrefused .expand, hrefused .solve, ?_⟩
    exact consistent_of_unexpanded (name_mem_unreadCodes hcode) fun _ => rfl
  · have hfault (request : Request) := ofText_of_fault request rfl (by rw [hn]; rfl)
    refine ⟨_, _, hfault .expand, hfault .solve, ?_⟩
    exact consistent_of_unexpanded (by simp [unreadCodes]) fun hne => absurd rfl hne

theorem exists_consistent_linear : ∃ expanded solved,
    ofText {} .expand (some "\\frac\x7b1\x7d\x7b(x - 1)(x + 2)\x7d") = .ok expanded ∧
      ofText {} .solve (some "\\frac\x7b1\x7d\x7b(x - 1)(x + 2)\x7d") = .ok solved ∧
      Consistent {} (some "\\frac\x7b1\x7d\x7b(x - 1)(x + 2)\x7d") expanded solved ∧
      expanded.ok = true ∧ solved.ok = true := by
  have hexpand : (ofText {} .expand (some "\\frac\x7b1\x7d\x7b(x - 1)(x + 2)\x7d")).map ok =
      .ok true := by decide +kernel
  have hsolve : (ofText {} .solve (some "\\frac\x7b1\x7d\x7b(x - 1)(x + 2)\x7d")).map ok =
      .ok true := by decide +kernel
  obtain ⟨expanded, solved, hexpanded, hsolved, hconsistent⟩ :=
    exists_consistent {} ⟨10, rfl⟩ (some "\\frac\x7b1\x7d\x7b(x - 1)(x + 2)\x7d")
  rw [hexpanded] at hexpand
  rw [hsolved] at hsolve
  exact ⟨expanded, solved, hexpanded, hsolved, hconsistent, Except.ok.inj hexpand,
    Except.ok.inj hsolve⟩

theorem decompose_ones :
    decompose {} (some (String.ofList (OverPower.text (List.replicate 4301 '1')))) =
      .ok (OverPower.decomposition (List.replicate 4301 '1')) := OverPower.ofText_ones

theorem request_ones :
    (decompose {} (some (String.ofList (OverPower.text (List.replicate 4301 '1')))) >>=
      Request.solve.answer {}) = .error (.fault (.integerTooLong 4301)) := by
  have hsolve : (OverPower.decomposition (List.replicate 4301 '1')).solve 10 =
      .error (.fault (.integerTooLong 4301)) := by
    rw [Decomposition.solve, Decomposition.lines, OverPower.constants_ones]
    rfl
  exact request_eq_error .solve decompose_ones hsolve

/-- An exponent with one digit more than can be read makes solving fail where expanding succeeds,
with the code of a text that is not taken apart. -/
theorem exists_overlong_factor : ∃ text latex : String,
    text = String.ofList (OverPower.text (List.replicate 4301 '1')) ∧
      ofText {} .expand (some text) = .ok (.derived (some latex) (some "quadratic")) ∧
      ofText {} .solve (some text) =
        .ok (.failed (some "INTERNAL_ERROR") (some "Solve failed unexpectedly")) := by
  have hprecision : ∃ count, significantCount 10 = .ok count := ⟨10, rfl⟩
  obtain ⟨opening, hexpand, -⟩ :=
    Decomposition.expand_solve_cases OverPower.ofText_ones hprecision
  exact ⟨_, _, rfl, ofText_of_expand decompose_ones hexpand,
    ofText_of_fault .solve rfl request_ones⟩

end Outcome

/-- Checking says what expanding a text gives: nothing where it succeeds, the message where it is
refused, and then solving is refused too. What is not so is a text with an exponent that has too
many digits: checking raises the fault that expanding and solving contain. -/
theorem validate_cases (settings : Settings) (hlow : 1 ≤ settings.precision)
    (hhigh : settings.precision ≤ 1000) (text : Option String) :
    (validate settings text = .ok none ∧ ∃ latex kind,
        Outcome.ofText settings .expand text = .ok (.derived (some latex) (some kind))) ∨
      (∃ r : Refusal, r.code ∈ Decomposition.refusalCodes ∧
        validate settings text = .ok (some (r.message settings.language)) ∧
        ∀ request, Outcome.ofText settings request text =
          .ok (.failed (some r.code.name) (some (r.message settings.language)))) ∨
      ∃ n, HasLongRow (text.elim [] String.toList) n ∧
        validate settings text = .error (.integerTooLong n) ∧
        ∀ request, Outcome.ofText settings request text =
          .ok (.failed (some "INTERNAL_ERROR") (some request.faultMessage)) := by
  rcases decompose_cases settings text with ⟨d, hd⟩ | ⟨r, hr, hcode⟩ | ⟨n, hn, hlong⟩
  · have hprecision : ∃ count, significantCount settings.precision = .ok count :=
      exists_significantCount (by omega) (by omega)
    obtain ⟨opening, hexpand, -⟩ := Decomposition.expand_solve_cases hd hprecision
    exact Or.inl ⟨by rw [validate, hd], _, _, Outcome.ofText_of_expand hd hexpand⟩
  · refine Or.inr (Or.inl ⟨r, hcode, by rw [validate, hr], ?_⟩)
    exact fun request => Outcome.ofText_of_refused request (by rw [hr]; rfl)
  · refine Or.inr (Or.inr ⟨n, hlong, by rw [validate, hn], ?_⟩)
    exact fun request => Outcome.ofText_of_fault request rfl (by rw [hn]; rfl)

theorem validate_cases_linear :
    validate {} (some "\\frac\x7b1\x7d\x7b(x - 1)(x + 2)\x7d") = .ok none ∧ ∃ latex kind,
      Outcome.ofText {} .expand (some "\\frac\x7b1\x7d\x7b(x - 1)(x + 2)\x7d") =
        .ok (.derived (some latex) (some kind)) := by
  have hvalid : validate {} (some "\\frac\x7b1\x7d\x7b(x - 1)(x + 2)\x7d") = .ok none := by
    decide +kernel
  rcases validate_cases {} (by decide) (by decide)
    (some "\\frac\x7b1\x7d\x7b(x - 1)(x + 2)\x7d") with h | ⟨r, -, h, -⟩ | ⟨n, -, h, -⟩
  · exact h
  · cases hvalid.symm.trans h
  · cases hvalid.symm.trans h

end Requests

/-! A fraction with a numerator that is x with an exponent. -/
namespace LongNumerator

def text (digits : List Char) : List Char :=
  Fraction.command ++ '\x7b' :: (OverPower.content digits ++ '\x7d' :: '\x7b' ::
    ("(x - 1)(x + 1)".toList ++ ['\x7d']))

theorem length_text (digits : List Char) : (text digits).length = digits.length + 25 := by
  simp [text, OverPower.content, Fraction.command]

theorem text_eq (digits : List Char) :
    text digits = OverBrackets.text (OverPower.content digits) "x - 1".toList "x + 1".toList := by
  have hdenominator : "(x - 1)(x + 1)".toList =
      OverBrackets.denominator "x - 1".toList "x + 1".toList := by decide
  rw [text, hdenominator]
  rfl

/-- An exponent beyond the digit limit is a fault, which no refusal code stands for. -/
theorem decompose_eq {digits : List Char} (h : IsDigits digits) {settings : Settings}
    (hlimit : (text digits).length ≤ settings.maxInputLength)
    (hlong : maxIntegerDigits < digits.length) :
    decompose settings (some (String.ofList (text digits))) =
      .error (.fault (.integerTooLong digits.length)) := by
  have htrim : trim (OverPower.content digits) = OverPower.content digits :=
    Numeral.trimOf_eq_self_of_all (OverPower.isBlank_of_mem_content h)
  rw [text_eq] at hlimit ⊢
  rw [decompose, OverBrackets.ofText_eq (OverPower.closed_content h).2 (by decide) (by decide),
    if_pos hlimit, htrim, OverPower.readAll_content h hlong]
  rfl

end LongNumerator

/-- An exponent in the numerator with one digit more than can be read makes checking raise a fault,
where expanding fails with an outcome. -/
theorem exists_validate_fault : ∃ text : String,
    text = String.ofList (LongNumerator.text (List.replicate 4301 '1')) ∧
      validate {} (some text) = .error (.integerTooLong 4301) ∧
      Outcome.ofText {} .expand (some text) =
        .ok (.failed (some "INTERNAL_ERROR") (some "Expand failed unexpectedly")) := by
  have hlength : (List.replicate 4301 '1').length = 4301 := List.length_replicate
  have hlimit : ((LongNumerator.text (List.replicate 4301 '1')).length : ℤ) ≤ 10000 := by
    rw [LongNumerator.length_text, hlength]
    decide
  have hdigits : IsDigits (List.replicate 4301 '1') := OverPower.isDigits_ones (by decide)
  have hd : decompose {} (some (String.ofList (LongNumerator.text (List.replicate 4301 '1')))) =
      .error (.fault (.integerTooLong (List.replicate 4301 '1').length)) :=
    LongNumerator.decompose_eq hdigits hlimit (by rw [hlength]; decide)
  rw [hlength] at hd
  exact ⟨_, rfl, by rw [validate, hd], Outcome.ofText_of_fault .expand rfl (by rw [hd]; rfl)⟩

end PartialFractions
