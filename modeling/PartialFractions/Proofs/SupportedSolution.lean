import PartialFractions.Decomposition
import PartialFractions.Proofs.FractionReading
import PartialFractions.Proofs.SupportedGrammar

/-!
The constants of the fractions that are solved. Every spelling of such a fraction is read as its
numerator, its scale and its two divisors, and the constants are the only solution of the identity
that they state.
-/
namespace PartialFractions

open Text Number

variable {K : Type} [Field K] [LinearOrder K] [Notated K]

namespace WrittenNumerator

variable (n : WrittenNumerator)

theorem degree_terms : Solution.degree (n.summands.map SignedSummand.term) ≤ 1 := by
  have hslope (m : Slope) : m.summand.term.power = 1 := rfl
  have hconstant (k : Offset) : k.summand.term.power = 0 := rfl
  obtain ⟨_ | m, _ | k, _ | _, plusShown⟩ := n <;>
    simp [summands, Solution.degree, hslope, hconstant]

theorem valueAt_one :
    (Term.valueAt (n.summands.map SignedSummand.term) 1 : Except Fault (Exact K)) =
      .ok (.finite n.leading) := by
  have hslope (m : Slope) : m.summand.term.power = 1 := rfl
  have hconstant (k : Offset) : k.summand.term.power = 0 := rfl
  obtain ⟨_ | m, _ | k, _ | _, plusShown⟩ := n <;>
    simp [summands, Term.valueAt, hslope, hconstant, leading, Term.value_term]

theorem valueAt_zero :
    (Term.valueAt (n.summands.map SignedSummand.term) 0 : Except Fault (Exact K)) =
      .ok (.finite n.trailing) := by
  have hslope (m : Slope) : m.summand.term.power = 1 := rfl
  have hconstant (k : Offset) : k.summand.term.power = 0 := rfl
  have hvalue (k : Offset) : (k.summand.value : K) = k.value := rfl
  obtain ⟨_ | m, _ | k, _ | _, plusShown⟩ := n <;>
    simp [summands, Term.valueAt, hslope, hconstant, trailing, Term.value_term, hvalue]

theorem numerator_terms {scale : K} (hscale : scale ≠ 0) :
    Solution.numerator (n.summands.map SignedSummand.term) (.finite scale) =
      .ok (Exact.finite (n.leading / scale), Exact.finite (n.trailing / scale)) :=
  Solution.numerator_eq n.degree_terms n.valueAt_one n.valueAt_zero hscale

end WrittenNumerator

/-- The two factors are the divisors, of their kind and with their numbers, and not repeated. -/
inductive Divisors.ReadFrom : Divisors K → Factor (Exact K) → Factor (Exact K) → Prop
  | linear {f g : Factor (Exact K)} {r s : K}
      (hf : f.kind = .linear) (hg : g.kind = .linear)
      (hfirst : f.multiplicity = 1) (hsecond : g.multiplicity = 1)
      (hr : Solution.root f = .ok (.finite r)) (hs : Solution.root g = .ok (.finite s)) :
      ReadFrom (.linear r s) f g
  | quadratic {f g : Factor (Exact K)} {r s : K}
      (hf : f.kind = .quadratic) (hg : g.kind = .quadratic)
      (hfirst : f.multiplicity = 1) (hsecond : g.multiplicity = 1)
      (hr : Solution.rate f = .ok (.finite r)) (hs : Solution.rate g = .ok (.finite s)) :
      ReadFrom (.quadratic r s) f g

namespace Divisors

variable {d : Divisors K} {f g : Factor (Exact K)}

/-- Two divisors of one kind are read as a factorization of that kind. -/
theorem ReadFrom.kind_eq (h : d.ReadFrom f g) (form : DenominatorForm (Exact K))
    (scale : Exact K) : Factorization.kind ⟨form, scale, [f, g]⟩ = d.kind := by
  cases h with
  | linear hf hg =>
    have hne : (FactorKind.linear == FactorKind.quadratic) = false := rfl
    simp [Factorization.kind, Factorization.hasLinear, Factorization.hasQuadratic, hf, hg, hne,
      ExpressionKind.ofPresence, kind]
  | quadratic hf hg =>
    have hne : (FactorKind.quadratic == FactorKind.linear) = false := rfl
    simp [Factorization.kind, Factorization.hasLinear, Factorization.hasQuadratic, hf, hg, hne,
      ExpressionKind.ofPresence, kind]

/-- The constants over two factors that were read are the closed forms of their numbers. -/
theorem ReadFrom.constants_eq (h : d.ReadFrom f g) (hd : d.Solvable) {terms : List Term}
    {scale c₁ c₂ : K}
    (hnumerator : Solution.numerator terms (.finite scale) =
      .ok (Exact.finite c₁, Exact.finite c₂)) :
    Solution.constants terms [f, g] d.kind (.finite scale) =
      .ok (Solution.labelled d.labels (d.constants c₁ c₂)) := by
  cases h with
  | linear hf hg hfirst hsecond hr hs =>
    exact Solution.constants_linear hfirst.le hsecond.le hnumerator hr hs hd
  | quadratic hf hg hfirst hsecond hr hs =>
    exact Solution.constants_quadratic hfirst.le hsecond.le hnumerator hr hs hd.2.2

end Divisors

namespace WrittenDenominator

theorem root_bare (multiplicity : ℤ) :
    Solution.root (Factor.bare multiplicity) = .ok (Exact.finite (0 : K)) := by
  have hread := Scalar.read?_chars (K := K) .zero
  rw [DecimalNumeral.chars_zero, DecimalNumeral.value_zero] at hread
  simp [Solution.root, Factor.bare, Root.value?, hread]

/-- The denominator is read as its scale and two factors that are its divisors. -/
theorem listed_of_spaced {d : WrittenDenominator} {s : List Char} (h : Spaced d.tokens s)
    (hd : (d.divisors : Divisors K).Solvable) :
    ∃ f g, Factorization.listed s = .ok (Exact.finite (d.scale : K), [f, g]) ∧
      (d.divisors : Divisors K).ReadFrom f g := by
  have hsigns : WrittenBracket.SignsAllowed true d.brackets := by
    cases d <;> simp [brackets, WrittenBracket.SignsAllowed, plainGap]
  have hlast : d.last.negative = false := by cases d <;> rfl
  have hne : d.brackets ≠ [] := by cases d <;> simp [brackets]
  obtain ⟨cut, hcut, hlisted⟩ := Factorization.listed_of_spaced (K := K) h hne hsigns hlast
  rw [d.scale_eq] at hlisted
  cases d with
  | linear front first middle second back =>
    obtain _ | @⟨_, b, _, _, hfirst, _ | @⟨_, b', _, _, hsecond, _ | _⟩⟩ := hcut
    refine ⟨.ofContent (trim b.content) 1, .ofContent (trim b'.content) 1, ?_, ?_⟩
    · rw [hlisted]
      simp [WrittenBracket.factors, brackets, last, bare_plainGap]
    · have hb : Spaced first.tokens (trim b.content) := hfirst.trim
      have hb' : Spaced second.tokens (trim b'.content) := hsecond.trim
      exact .linear (first.kind_ofContent hb 1) (second.kind_ofContent hb' 1) rfl rfl
        (first.root_ofContent hb 1) (second.root_ofContent hb' 1)
  | bareFirst front second back =>
    obtain _ | @⟨_, b, _, _, hsecond, _ | _⟩ := hcut
    refine ⟨.bare 1, .ofContent (trim b.content) 1, ?_, ?_⟩
    · rw [hlisted]
      simp [WrittenBracket.factors, brackets, last, bare_plainGap, bare_bareGap]
    · have hb : Spaced second.tokens (trim b.content) := hsecond.trim
      exact .linear rfl (second.kind_ofContent hb 1) rfl rfl (root_bare 1)
        (second.root_ofContent hb 1)
  | bareLast front first back =>
    obtain _ | @⟨_, b, _, _, hfirst, _ | _⟩ := hcut
    refine ⟨.ofContent (trim b.content) 1, .bare 1, ?_, ?_⟩
    · rw [hlisted]
      simp [WrittenBracket.factors, brackets, last, bare_plainGap, bare_bareGap]
    · have hb : Spaced first.tokens (trim b.content) := hfirst.trim
      exact .linear (first.kind_ofContent hb 1) rfl rfl rfl (first.root_ofContent hb 1)
        (root_bare 1)
  | quadratic front first middle second back =>
    obtain _ | @⟨_, b, _, _, hfirst, _ | @⟨_, b', _, _, hsecond, _ | _⟩⟩ := hcut
    obtain ⟨hr, hs, -⟩ := hd
    refine ⟨.ofContent (trim b.content) 1, .ofContent (trim b'.content) 1, ?_, ?_⟩
    · rw [hlisted]
      simp [WrittenBracket.factors, brackets, last, bare_plainGap]
    · have hb : Spaced first.tokens (trim b.content) := hfirst.trim
      have hb' : Spaced second.tokens (trim b'.content) := hsecond.trim
      exact .quadratic (first.kind_ofContent hb 1) (second.kind_ofContent hb' 1) rfl rfl
        (first.rate_ofContent hb 1 hr) (second.rate_ofContent hb' 1 hs)

end WrittenDenominator

namespace WrittenFraction

variable {f : WrittenFraction} {s : List Char}

/-- The braces of a spaced fraction, and what stands between and inside them. -/
theorem exists_parts (h : Spaced f.tokens s) :
    ∃ blanks numerator gap denominator rest,
      s = blanks ++ '\x7b' :: (numerator ++ '\x7d' ::
        (gap ++ '\x7b' :: (denominator ++ '\x7d' :: rest))) ∧
      (∀ c ∈ blanks, isBlank c = true) ∧ (∀ c ∈ gap, isBlank c = true) ∧
      Spaced f.numerator.tokens numerator ∧ Spaced f.denominator.tokens denominator := by
  obtain ⟨blanks, s₁, rfl, hblanks, h₁⟩ := h.exists_cons
  obtain ⟨numerator, s₂, rfl, hnumerator, h₂⟩ := h₁.exists_append
  obtain ⟨blanks₂, s₃, rfl, hblanks₂, h₃⟩ := h₂.exists_cons
  obtain ⟨gap, s₄, rfl, hgap, h₄⟩ := h₃.exists_cons
  obtain ⟨denominator, s₅, rfl, hdenominator, h₅⟩ := h₄.exists_append
  obtain ⟨blanks₅, rest, rfl, hblanks₅, -⟩ := h₅.exists_cons
  exact ⟨blanks, numerator ++ blanks₂, gap, denominator ++ blanks₅, rest, by simp, hblanks, hgap,
    hnumerator.append_blanks hblanks₂, hdenominator.append_blanks hblanks₅⟩

/-- The fraction (3x + 5) / (-2 (x - 1) (x + 2)). -/
def sample : WrittenFraction where
  numerator :=
    { slope := some ⟨false, some (.ofDigit '3' (by decide))⟩
      constant := some ⟨false, .ofDigit '5' (by decide)⟩
      constantFirst := false
      plusShown := false }
  denominator :=
    .linear ⟨true, some (.ofDigit '2' (by decide))⟩ ⟨some ⟨true, .one⟩⟩ none
      ⟨some ⟨false, .ofDigit '2' (by decide)⟩⟩ none

end WrittenFraction

namespace Decomposition

/-- A text with a backslash in it is no blank one. -/
theorem checkInput_backslash {text : List Char} {limit : ℤ} (hmem : '\\' ∈ text)
    (hlength : text.length ≤ limit) :
    checkInput limit (some (String.ofList text)) = .ok (String.ofList text) := by
  have hblank : ¬ text.all isBlank = true := by
    intro hall
    exact absurd (List.all_eq_true.mp hall _ hmem) (by decide)
  simp only [checkInput, String.toList_ofList, String.length_ofList, if_neg hblank,
    if_neg (not_lt.mpr hlength)]

/-- A spelling of the grammar is read as the divisors it writes. -/
theorem read_of_spaced {d : WrittenDenominator} {s : List Char} (h : Spaced d.tokens s)
    (hd : (d.divisors : Divisors K).Solvable) :
    ∃ f g, Factorization.read (String.ofList s) =
        .ok ⟨.listed, Exact.finite (d.scale : K), [f, g]⟩ ∧
      (d.divisors : Divisors K).ReadFrom f g := by
  obtain ⟨f, g, hlisted, hread⟩ := d.listed_of_spaced h hd
  have hopen : '(' ∈ s := by
    refine h.mem_of_mem_token (t := ['(']) ?_ (List.mem_singleton.mpr rfl)
    cases d <;> simp [WrittenDenominator.tokens, WrittenDenominator.brackets,
      WrittenBracket.productTokens]
  refine ⟨f, g, ?_, hread⟩
  simp only [Factorization.read, String.toList_ofList, if_pos hopen, hlisted]
  rfl

/-- A fraction that is written in the grammar is read as its kind and its scale, and its constants
are the only solution of its identity. -/
theorem constants_of_written [IsStrictOrderedRing K] (f : WrittenFraction)
    {before s suffix : List Char} {limit : ℤ} (hspaced : Spaced f.tokens s)
    (hbefore : ¬ Fraction.command <:+: before)
    (hlength : (before ++ (Fraction.command ++ (s ++ suffix))).length ≤ limit)
    (hscale : (f.denominator.scale : K) ≠ 0)
    (hdivisors : (f.denominator.divisors : Divisors K).Solvable) :
    ∃ d : Decomposition (Exact K),
      ofText limit (some (String.ofList (before ++ (Fraction.command ++ (s ++ suffix))))) =
        .ok d ∧
      d.kind = (f.denominator.divisors : Divisors K).kind ∧
      d.factorization.scale = .finite f.denominator.scale ∧
      ∃ values : List K,
        d.constants =
          .ok (Solution.labelled (f.denominator.divisors : Divisors K).labels values) ∧
        ∀ others, f.denominator.divisors.Identity f.numerator.value f.denominator.scale others ↔
          others = values := by
  obtain ⟨blanks, numerator, gap, denominator, rest, rfl, hblanks, hgap, hnumerator,
    hdenominator⟩ := WrittenFraction.exists_parts hspaced
  have hclosed : '\x7d' ∉ numerator :=
    hnumerator.notMem (by decide) f.numerator.brace_notMem
  have hclosed' : '\x7d' ∉ denominator :=
    hdenominator.notMem (by decide) f.denominator.brace_notMem
  have htrimmed := hnumerator.trim (SignedSummand.isToken_of_mem _ _)
  have htrimmed' := hdenominator.trim (Bracket.isToken_productTokens _ _)
  obtain ⟨g, h, hread, hfactors⟩ := read_of_spaced (K := K) htrimmed' hdivisors
  have hfind := Fraction.find?_eq_some hbefore hblanks hgap hclosed hclosed' (rest ++ suffix)
  have htext : before ++ (Fraction.command ++ ((blanks ++ '\x7b' :: (numerator ++ '\x7d' ::
      (gap ++ '\x7b' :: (denominator ++ '\x7d' :: rest)))) ++ suffix)) =
      before ++ (Fraction.command ++ (blanks ++ '\x7b' :: (numerator ++ '\x7d' ::
        (gap ++ '\x7b' :: (denominator ++ '\x7d' :: (rest ++ suffix)))))) := by simp
  rw [htext] at hlength ⊢
  have hcheck := checkInput_backslash (by simp [Fraction.command]) hlength
  have hfraction : Fraction.ofText (String.ofList (before ++ (Fraction.command ++ (blanks ++
      '\x7b' :: (numerator ++ '\x7d' :: (gap ++ '\x7b' :: (denominator ++ '\x7d' ::
        (rest ++ suffix)))))))) =
      .ok ⟨String.ofList (trim numerator), String.ofList (trim denominator)⟩ := by
    simp only [Fraction.ofText, String.toList_ofList, hfind]
  have hterms := Term.readAll_of_spaced htrimmed
  have hfactorization : Factorization.ofDenominator (String.ofList (trim denominator)) =
      .ok ⟨.listed, Exact.finite (f.denominator.scale : K), [g, h]⟩ := by
    simp only [Factorization.ofDenominator, hread, bind, Except.bind, Exact.isZero_finite,
      decide_eq_false hscale]
    rfl
  have hkind := hfactors.kind_eq .listed (Exact.finite f.denominator.scale)
  have hconstants := hfactors.constants_eq hdivisors (f.numerator.numerator_terms hscale)
  refine ⟨⟨⟨String.ofList (trim numerator), String.ofList (trim denominator)⟩,
    f.numerator.summands.map SignedSummand.term,
    ⟨.listed, .finite f.denominator.scale, [g, h]⟩⟩, ?_, hkind, rfl,
    f.denominator.divisors.constants (f.numerator.leading / f.denominator.scale)
      (f.numerator.trailing / f.denominator.scale), ?_, ?_⟩
  · simp only [ofText, hcheck, Except.mapError, bind, Except.bind, hfraction,
      String.toList_ofList, hterms, hfactorization]
    rfl
  · rw [constants, kind, hkind]
    exact hconstants
  · exact fun others => Divisors.identity_iff hdivisors hscale others

theorem constants_of_written_linear :
    ∃ d : Decomposition (Exact ℚ),
      ofText 1000 (some "let \\frac\x7b3x+5\x7d\x7b-2(x-1)(x+2)\x7d be") = .ok d ∧
      d.kind = .linear ∧ d.factorization.scale = .finite (-2) ∧
      d.constants = .ok [("A", .finite (-4 / 3)), ("B", .finite (-1 / 6))] := by
  have hdigit (c : Char) (h : isDigit c = true) {k : ℕ} (hk : digit? c = some k) :
      ((DecimalNumeral.ofDigit c h).value : ℚ) = k := DecimalNumeral.value_ofDigit hk h
  have h₂ := hdigit '2' (by decide) (k := 2) (by decide)
  have h₃ := hdigit '3' (by decide) (k := 3) (by decide)
  have h₅ := hdigit '5' (by decide) (k := 5) (by decide)
  have hscale : (WrittenFraction.sample.denominator.scale : ℚ) = -2 := by
    simp [WrittenFraction.sample, WrittenDenominator.scale, Front.value, multiplierValue,
      Scalar.signed, h₂]
  have hdivisors : (WrittenFraction.sample.denominator.divisors : Divisors ℚ) = .linear 1 (-2) := by
    simp [WrittenFraction.sample, WrittenDenominator.divisors, LinearContent.root, Offset.value,
      Scalar.signed, DecimalNumeral.value_one, h₂]
  have hvalue : (WrittenFraction.sample.numerator.value : ℚ → ℚ) = fun x => 3 * x + 5 := by
    funext x
    simp [WrittenFraction.sample, WrittenNumerator.value, WrittenNumerator.leading,
      WrittenNumerator.trailing, Slope.summand, SignedSummand.value, Summand.coefficient,
      Offset.value, Scalar.signed, h₃, h₅]
  have hbefore : ¬ Fraction.command <:+: ['l', 'e', 't', ' '] := by decide
  have hlength : (['l', 'e', 't', ' '] ++ (Fraction.command ++
      (WrittenFraction.sample.tokens.flatten ++ [' ', 'b', 'e']))).length ≤ (1000 : ℤ) := by decide
  have hne : (WrittenFraction.sample.denominator.scale : ℚ) ≠ 0 := by
    rw [hscale]
    decide
  have hsolvable : (WrittenFraction.sample.denominator.divisors : Divisors ℚ).Solvable := by
    rw [hdivisors, Divisors.Solvable]
    norm_num
  obtain ⟨d, htext, hkind, hfactorization, values, hconstants, hunique⟩ :=
    constants_of_written WrittenFraction.sample (.flatten _) hbefore hlength hne hsolvable
  rw [hdivisors, hscale, hvalue] at hunique
  have hvalues : [-4 / 3, -1 / 6] = values := by
    refine (hunique _).mp ?_
    intro x
    ring
  refine ⟨d, ?_, ?_, ?_, ?_⟩
  · exact htext
  · rw [hkind, hdivisors]
    rfl
  · rw [hfactorization, hscale]
  · rw [hconstants, hdivisors, ← hvalues]
    rfl
end Decomposition

end PartialFractions
