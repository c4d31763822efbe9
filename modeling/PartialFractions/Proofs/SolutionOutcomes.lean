import PartialFractions.Proofs.BracketPairs
import PartialFractions.Proofs.FiniteNumbers
import PartialFractions.Proofs.SolvedShapes
import PartialFractions.Proofs.TermFronts

/-!
How the solving of constants ends for a text whose fraction is taken apart: with the labels of its
kind, with a refusal, or with an exponent in a quadratic factor that has too many digits. Nothing is
divided by zero: the scale was judged with the denominator, and numbers that are not the same have a
difference.
-/
namespace PartialFractions

open Text Number

namespace Solution

def refusalCodes : List RefusalCode :=
  [.unsupportedShape, .missingRoot, .numeratorDegree, .symbolicCoefficient, .repeatedFactor,
    .unsupportedQuadratic, .unsupportedType]

theorem code_mem_refusalCodes {r : Refusal}
    (h : r.kind = .unsupportedExpression ∨ r.kind = .unsupportedType) :
    r.code ∈ refusalCodes := by
  cases r <;> simp_all [Refusal.kind, Refusal.code, refusalCodes]

/-- How a step of solving ends: with a value in `P`, with a refusal of the expression or of its
type, or at an exponent that is too long, with a number of digits in `Q`. -/
inductive Ends {α : Type} (P : α → Prop) (Q : ℕ → Prop) : Except Failure α → Prop
  | value {a : α} (h : P a) : Ends P Q (.ok a)
  | refused {r : Refusal} (hkind : r.kind = .unsupportedExpression ∨ r.kind = .unsupportedType) :
      Ends P Q (.error (.refused r))
  | tooLong {n : ℕ} (h : Q n) : Ends P Q (.error (.fault (.integerTooLong n)))

/-- Constants over two factors, where no divisor on the way is zero: neither the scale nor a
difference of the roots or rates. -/
inductive SafelyDivided (terms : List Term) (factors : List (Factor Float)) (scale : Float) :
    ExpressionKind → Constants Float → Prop
  | linear {c₁ c₂ r s : Float} (hfrom : SolvedFrom root terms factors c₁ c₂ r s)
      (hscale : Scalar.isZero scale = false) (hrs : Scalar.isZero (r - s) = false)
      (hsr : Scalar.isZero (s - r) = false) :
      SafelyDivided terms factors scale .linear (overLinear (c₁ / scale) (c₂ / scale) r s)
  | quadratic {c₁ c₂ r s : Float} (hfrom : SolvedFrom rate terms factors c₁ c₂ r s)
      (hscale : Scalar.isZero scale = false) (hrs : Scalar.isZero (r - s) = false)
      (hsr : Scalar.isZero (s - r) = false) :
      SafelyDivided terms factors scale .quadratic (overQuadratic (c₁ / scale) (c₂ / scale) r s)

section Solved

variable {terms : List Term} {factors : List (Factor Float)} {scale : Float}
  {kind : ExpressionKind} {cs : Constants Float}

/-- What is not the same has a difference, also where it is rounded. -/
theorem Solved.safelyDivided (h : Solved terms factors scale kind cs)
    (hscale : Scalar.isZero scale = false) : SafelyDivided terms factors scale kind cs := by
  cases h with
  | linear hfactors _ _ hc₁ hc₂ hr hs hrs =>
    have hsr := same_comm hrs
    exact .linear ⟨hc₁, hc₂, _, _, hfactors, hr, hs⟩ hscale (isZero_sub hrs) (isZero_sub hsr)
  | quadratic hfactors _ _ hc₁ hc₂ hr hs hrs =>
    have hsr := same_comm hrs
    exact .quadratic ⟨hc₁, hc₂, _, _, hfactors, hr, hs⟩ hscale (isZero_sub hrs) (isZero_sub hsr)

theorem Solved.labels (h : Solved terms factors scale kind cs) :
    (kind = .linear ∧ cs.map Prod.fst = ["A", "B"]) ∨
      (kind = .quadratic ∧ cs.map Prod.fst = ["A", "B", "C", "D"]) := by
  cases h with
  | linear => exact Or.inl ⟨rfl, rfl⟩
  | quadratic => exact Or.inr ⟨rfl, rfl⟩

end Solved

section Steps

variable {α β : Type} {P : α → Prop} {P' : β → Prop} {Q : ℕ → Prop}

theorem Ends.bind {x : Except Failure α} {f : α → Except Failure β} (h : Ends P Q x)
    (hf : ∀ a, P a → Ends P' Q (f a)) : Ends P' Q (x >>= f) := by
  cases h with
  | value h => exact hf _ h
  | refused hkind => exact .refused hkind
  | tooLong h => exact .tooLong h

theorem Ends.imp {Q' : ℕ → Prop} {x : Except Failure α} (h : Ends P Q x) (hQ : ∀ n, Q n → Q' n) :
    Ends P Q' x := by
  cases h with
  | value h => exact .value h
  | refused hkind => exact .refused hkind
  | tooLong h => exact .tooLong (hQ _ h)

variable {K : Type} {terms : List Term}

/-- A shape comes with the two factors it was made from, and a refusal with its reason. -/
theorem ends_ofFactors (factors : List (Factor K)) (kind : ExpressionKind) :
    Ends (fun shape => ∃ f g, factors = [f, g] ∧
      ((kind = .linear ∧ shape = .linear f g) ∨ (kind = .quadratic ∧ shape = .quadratic f g))) Q
      ((SolvableShape.ofFactors factors kind).mapError .refused) := by
  cases hshape : SolvableShape.ofFactors factors kind with
  | ok shape =>
    obtain ⟨f, g, hfactors, -, -, hkind⟩ := SolvableShape.ofFactors_eq_ok hshape
    exact .value ⟨f, g, hfactors, hkind⟩
  | error r =>
    unfold SolvableShape.ofFactors at hshape
    split at hshape
    · obtain rfl := Except.error.inj hshape
      exact .refused (Or.inr rfl)
    · split at hshape
      · split at hshape
        · obtain rfl := Except.error.inj hshape
          exact .refused (Or.inl rfl)
        · split at hshape
          · cases hshape
          · cases hshape
          · obtain rfl := Except.error.inj hshape
            exact .refused (Or.inr rfl)
      · obtain rfl := Except.error.inj hshape
        exact .refused (Or.inl rfl)

/-- A coefficient that is no number is one of the coefficients that are told. -/
theorem exists_symbolic [Scalar K] {power : ℤ} {fault : Fault}
    (h : Term.valueAt (K := K) terms power = .error fault) :
    ∃ t, terms.find? (fun t => (Numeral.read? t.coefficient.toList).isNone) = some t := by
  unfold Term.valueAt at h
  split at h
  · rename_i t ht
    have hnone : (Numeral.read? t.coefficient.toList).isNone = true := by
      unfold Term.value Scalar.read? at h
      split at h
      · cases h
      · rename_i hread
        simpa using hread
    exact Option.isSome_iff_exists.mp
      (List.find?_isSome.mpr ⟨t, List.mem_of_find?_eq_some ht, hnone⟩)
  · cases h

theorem ends_numericCoefficient [Scalar K] (power : ℤ) :
    Ends (fun _ => True) Q (numericCoefficient (K := K) terms power) := by
  unfold numericCoefficient
  split
  · exact .value trivial
  · rename_i fault hfault
    obtain ⟨t, ht⟩ := exists_symbolic hfault
    rw [ht]
    exact .refused (Or.inl rfl)

/-- Coefficients of the numerator are numbers or are refused as symbolic. -/
theorem ends_numerator [Div K] [Scalar K] {scale : K} (hscale : Scalar.isZero scale = false) :
    Ends (fun _ => True) Q (numerator terms scale) := by
  unfold numerator
  by_cases hdegree : degree terms > 1
  · rw [if_pos hdegree]
    exact .refused (Or.inl rfl)
  · rw [if_neg hdegree]
    refine (ends_numericCoefficient 1).bind ?_
    intro c₁ _
    refine (ends_numericCoefficient 0).bind ?_
    intro c₂ _
    rw [if_neg (by simp [hscale])]
    exact .value trivial

theorem root_cases [Add K] [Scalar K] (f : Factor K) :
    (∃ r, root f = .ok r) ∨ root f = .error (.refused (.missingRoot f.content)) := by
  unfold root
  split
  · exact Or.inl ⟨_, rfl⟩
  · exact Or.inr rfl

theorem ends_root [Add K] [Scalar K] (f : Factor K) : Ends (fun _ => True) Q (root f) := by
  rcases root_cases f with ⟨r, hr⟩ | hr
  · rw [hr]
    exact .value trivial
  · rw [hr]
    exact .refused (Or.inl rfl)

/-- Apart from a refusal, only the exponents of the content can fail. -/
theorem rate_cases [Neg K] [Scalar K] (f : Factor K) :
    (∃ r, rate f = .ok r) ∨ rate f = .error (.refused (.unsupportedQuadratic f.content)) ∨
      ∃ n, HasLongExponent (Term.signed f.content.toList) n ∧
        rate f = .error (.fault (.integerTooLong n)) := by
  unfold rate
  rcases Term.readAll_cases f.content.toList with ⟨ts, -, hread⟩ | ⟨n, hlong, hread⟩
  · rw [hread]
    dsimp only [Except.mapError, bind, Except.bind]
    split
    · split
      · split
        · exact Or.inl ⟨_, rfl⟩
        · exact Or.inr (Or.inl rfl)
      · exact Or.inr (Or.inl rfl)
    · exact Or.inr (Or.inl rfl)
  · rw [hread]
    exact Or.inr (Or.inr ⟨n, hlong, rfl⟩)

theorem ends_rate [Neg K] [Scalar K] (f : Factor K) :
    Ends (fun _ => True) (HasLongExponent (Term.signed f.content.toList)) (rate f) := by
  rcases rate_cases f with ⟨r, hr⟩ | hr | ⟨n, hlong, hr⟩
  · rw [hr]
    exact .value trivial
  · rw [hr]
    exact .refused (Or.inl rfl)
  · rw [hr]
    exact .tooLong hlong

theorem ends_distinct [Scalar K] (r s : K) : Ends (fun _ => True) Q (distinct r s) := by
  unfold distinct
  split
  · exact .refused (Or.inl rfl)
  · exact .value trivial

variable [Add K] [Sub K] [Mul K] [Div K] [Neg K] [Scalar K] {factors : List (Factor K)}
  {kind : ExpressionKind} {scale : K}

/-- Where the scale is not zero, solving fails for nothing but a refusal and a long exponent in a
quadratic factor. -/
theorem ends_constants (hscale : Scalar.isZero scale = false) :
    Ends (fun _ => True)
      (fun n => kind = .quadratic ∧
        ∃ f ∈ factors, HasLongExponent (Term.signed f.content.toList) n)
      (constants terms factors kind scale) := by
  unfold constants
  refine (ends_ofFactors factors kind).bind ?_
  rintro shape ⟨f, g, rfl, ⟨rfl, rfl⟩ | ⟨rfl, rfl⟩⟩
  · refine (ends_numerator hscale).bind ?_
    intro _ _
    refine (ends_root f).bind ?_
    intro r _
    refine (ends_root g).bind ?_
    intro s _
    refine (ends_distinct r s).bind ?_
    exact fun _ _ => .value trivial
  · refine (ends_numerator hscale).bind ?_
    intro _ _
    refine ((ends_rate f).imp fun n hn => ⟨rfl, f, by simp, hn⟩).bind ?_
    intro r _
    refine ((ends_rate g).imp fun n hn => ⟨rfl, g, by simp, hn⟩).bind ?_
    intro s _
    refine (ends_distinct r s).bind ?_
    exact fun _ _ => .value trivial

end Steps

end Solution

namespace Decomposition

/-- Solving gives the constants of the kind, without a division by zero, or a refusal of the
expression or of its type, or it fails at an exponent in a quadratic factor that has too many
digits. -/
theorem constants_outcome {limit : ℤ} {text : Option String} {d : Decomposition Float}
    (h : ofText limit text = .ok d) :
    (∃ cs, d.constants = .ok cs ∧
        Solution.SafelyDivided d.terms d.factorization.factors d.factorization.scale d.kind cs ∧
        ((d.kind = .linear ∧ cs.map Prod.fst = ["A", "B"]) ∨
          (d.kind = .quadratic ∧ cs.map Prod.fst = ["A", "B", "C", "D"]))) ∨
      (∃ r, d.constants = .error (.refused r) ∧
        (r.kind = .unsupportedExpression ∨ r.kind = .unsupportedType) ∧
        r.code ∈ Solution.refusalCodes) ∨
      ∃ n, d.constants = .error (.fault (.integerTooLong n)) ∧ d.kind = .quadratic ∧
        ∃ f ∈ d.factorization.factors, HasLongExponent (Term.signed f.content.toList) n := by
  obtain ⟨denominator, hdenominator⟩ := ofText_eq_ok h
  obtain ⟨-, hscale⟩ := Factorization.read_of_ofDenominator hdenominator
  have hends : Solution.Ends _ _ d.constants := Solution.ends_constants hscale
  cases hresult : d.constants with
  | ok cs =>
    have hsolved := Solution.solved_of_constants hresult
    exact Or.inl ⟨cs, rfl, hsolved.safelyDivided hscale, hsolved.labels⟩
  | error failure =>
    rw [hresult] at hends
    cases hends with
    | refused hkind => exact Or.inr (Or.inl ⟨_, rfl, hkind, Solution.code_mem_refusalCodes hkind⟩)
    | tooLong hlong => exact Or.inr (Or.inr ⟨_, rfl, hlong⟩)

theorem constants_outcome_linear :
    ∃ (d : Decomposition Float) (cs : Constants Float),
      ofText 1000 (some "\\frac\x7b1\x7d\x7b(x - 1)(x + 2)\x7d") = .ok d ∧
      d.constants = .ok cs ∧
      Solution.SafelyDivided d.terms d.factorization.factors d.factorization.scale d.kind cs ∧
      d.kind = .linear ∧ cs.map Prod.fst = ["A", "B"] := by
  have hrun : (ofText (K := Float) 1000 (some "\\frac\x7b1\x7d\x7b(x - 1)(x + 2)\x7d") >>=
      fun d => d.constants.map fun cs => (d.kind, cs.map Prod.fst)) =
      .ok (.linear, ["A", "B"]) := by decide +kernel
  obtain ⟨d, hd, hmap⟩ := bind_eq_ok.mp hrun
  obtain ⟨cs, hcs, heq⟩ := map_eq_ok.mp hmap
  obtain ⟨hkind, hlabels⟩ := Prod.mk.inj heq
  rcases constants_outcome hd with ⟨cs', hcs', hsafe, -⟩ | ⟨r, hr, -⟩ | ⟨n, hn, -⟩
  · obtain rfl := Except.ok.inj (hcs.symm.trans hcs')
    exact ⟨d, cs, hd, hcs, hsafe, hkind, hlabels⟩
  · cases hcs.symm.trans hr
  · cases hcs.symm.trans hn

end Decomposition

/-! A fraction over two quadratic factors of which the first is x with an exponent. -/
namespace OverPower

def content (digits : List Char) : List Char := 'x' :: '^' :: digits

def denominator (digits : List Char) : List Char :=
  '(' :: (content digits ++ ')' :: "(x^2 + 1)".toList)

def text (digits : List Char) : List Char :=
  Fraction.command ++ '\x7b' :: '1' :: '\x7d' :: '\x7b' :: (denominator digits ++ ['\x7d'])

def decomposition (digits : List Char) : Decomposition Float where
  fraction := ⟨"1", String.ofList (denominator digits)⟩
  terms := [⟨0, "+1"⟩]
  factorization :=
    { form := .listed
      scale := Scalar.ofNat 1
      factors := [⟨.quadratic, String.ofList (content digits), 1, none⟩,
        ⟨.quadratic, "x^2 + 1", 1, none⟩] }

theorem text_eq (digits : List Char) :
    text digits = OverBrackets.text ['1'] (content digits) "x^2 + 1".toList := by
  have hsecond : "(x^2 + 1)".toList = '(' :: ("x^2 + 1".toList ++ [')']) := by decide
  rw [text, denominator, hsecond]
  rfl

theorem length_text (digits : List Char) : (text digits).length = digits.length + 23 := by
  simp [text, denominator, content, Fraction.command]

section Digits

variable {digits : List Char} (h : IsDigits digits)

include h

theorem forall_mem_content {p : Char → Prop} (hx : p 'x') (hcaret : p '^')
    (hp : ∀ c, isDigit c = true → p c) : ∀ c ∈ content digits, p c := by
  simp only [content, List.forall_mem_cons]
  exact ⟨hx, hcaret, fun c hc => hp c (h.isDigit_of_mem c hc)⟩

theorem notMem_content {c : Char} (hx : c ≠ 'x') (hcaret : c ≠ '^')
    (hdigit : isDigit c = false) : c ∉ content digits := by
  intro hmem
  refine forall_mem_content h (p := fun e => c ≠ e) hx hcaret ?_ c hmem rfl
  rintro e he rfl
  rw [hdigit] at he
  cases he

theorem isBlank_of_mem_content : ∀ c ∈ content digits, isBlank c = false :=
  forall_mem_content h (by decide) (by decide) fun _ hc => isBlank_of_isDigit hc

/-- An exponent beyond the digit limit is not refused but ends in a fault. -/
theorem readAll_content (hlong : maxIntegerDigits < digits.length) :
    Term.readAll (content digits) = .error (.integerTooLong digits.length) := by
  have hsign : ∀ c ∈ content digits, Term.isSign c = false := by
    have hplus := notMem_content h (c := '+') (by decide) (by decide) (by decide)
    have hminus := notMem_content h (c := '-') (by decide) (by decide) (by decide)
    intro c hc
    have hne : c ≠ '+' ∧ c ≠ '-' := ⟨fun heq => hplus (heq ▸ hc), fun heq => hminus (heq ▸ hc)⟩
    simp [Term.isSign, hne]
  have hsigned : Term.signed (content digits) = '+' :: (content digits ++ []) := by
    rw [Term.signed, squeeze_eq_self (isBlank_of_mem_content h), List.append_nil]
    rfl
  have hshape : Term.shape? (content digits) = some (.multiple [] ('^' :: digits)) :=
    Term.shape?_multiple Term.isWord_nil (by simp)
  have hfail : Term.ofShape '+' (.multiple [] ('^' :: digits ++ [])) = _ :=
    Term.ofShape_long h (.plain (by simp)) hlong
  rw [List.append_nil] at hfail
  rw [Term.readAll_eq_readSigned, hsigned, Term.readSigned_cons rfl hsign (by simp) hshape, hfail]
  rfl

theorem closed_content : ')' ∉ content digits ∧ '\x7d' ∉ content digits :=
  ⟨notMem_content h (by decide) (by decide) (by decide),
    notMem_content h (by decide) (by decide) (by decide)⟩

theorem ofContent_content : (.ofContent (trim (content digits)) 1 : Factor Float) =
    ⟨.quadratic, String.ofList (content digits), 1, none⟩ := by
  rw [trim, Numeral.trimOf_eq_self_of_all (isBlank_of_mem_content h)]
  rfl

theorem rate_content (hlong : maxIntegerDigits < digits.length) :
    Solution.rate (K := Float) (.ofContent (trim (content digits)) 1) =
      .error (.fault (.integerTooLong digits.length)) := by
  rw [ofContent_content h, Solution.rate, String.toList_ofList, readAll_content h hlong]
  rfl

theorem decomposition_eq : decomposition digits =
    OverBrackets.decomposition ['1'] (content digits) "x^2 + 1".toList [⟨0, "+1"⟩] := by
  have hsecond : "(x^2 + 1)".toList = '(' :: ("x^2 + 1".toList ++ [')']) := by decide
  rw [decomposition, denominator, hsecond, OverBrackets.decomposition, ofContent_content h]
  rfl

theorem ofText_eq {limit : ℤ} (hlimit : (text digits).length ≤ limit) :
    Decomposition.ofText limit (some (String.ofList (text digits))) =
      .ok (decomposition digits) := by
  rw [text_eq] at hlimit ⊢
  rw [decomposition_eq h]
  exact OverBrackets.ofText_one (closed_content h) (by decide) hlimit

theorem constants_eq (hlong : maxIntegerDigits < digits.length) :
    (decomposition digits).constants = .error (.fault (.integerTooLong digits.length)) := by
  have hkind : (decomposition digits).kind = .quadratic := rfl
  rw [decomposition_eq h] at hkind ⊢
  exact OverBrackets.constants_of_rate_error hkind (rate_content h hlong)

end Digits

theorem isDigits_ones {n : ℕ} (hn : 0 < n) : IsDigits (List.replicate n '1') where
  isDigit_of_mem := by
    intro c hc
    rw [List.eq_of_mem_replicate hc]
    decide
  ne_nil := List.ne_nil_of_length_pos (by simpa using hn)

/-- One digit more than can be read, and few enough for a text that is not too long. -/
theorem ofText_ones :
    Decomposition.ofText 10000 (some (String.ofList (text (List.replicate 4301 '1')))) =
      .ok (decomposition (List.replicate 4301 '1')) := by
  refine ofText_eq (isDigits_ones (by decide)) ?_
  rw [length_text, List.length_replicate]
  decide

theorem constants_ones : (decomposition (List.replicate 4301 '1')).constants =
    .error (.fault (.integerTooLong 4301)) := by
  have hlength : (List.replicate 4301 '1').length = 4301 := List.length_replicate
  have hdigits : IsDigits (List.replicate 4301 '1') := isDigits_ones (by decide)
  have hfault := constants_eq hdigits (by rw [hlength]; decide)
  rwa [hlength] at hfault

end OverPower

/-- An exponent with one digit more than can be read is not refused. -/
theorem Decomposition.exists_integerTooLong :
    ∃ (text : String) (d : Decomposition Float),
      text = String.ofList (OverPower.text (List.replicate 4301 '1')) ∧
      ofText 10000 (some text) = .ok d ∧
      d.constants = .error (.fault (.integerTooLong 4301)) :=
  ⟨_, _, rfl, OverPower.ofText_ones, OverPower.constants_ones⟩

end PartialFractions
