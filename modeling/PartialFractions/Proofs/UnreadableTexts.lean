import PartialFractions.Proofs.FirstFractions
import PartialFractions.Proofs.GapGrammar
import PartialFractions.Proofs.SolvedShapes
import PartialFractions.Proofs.TrinomialFronts

/-!
Why a text is not taken apart. It is refused as malformed input, or an exponent in it has more
digits than can be read; there is no third way, whatever the arithmetic is.
-/
namespace PartialFractions

open Text Number

/-- Behind a caret of the text there are `n` digits, which are more than can be read. Blanks and
multiplication signs between them do not count, so other characters may be among them. -/
def HasLongRow (s : List Char) (n : ℕ) : Prop :=
  maxIntegerDigits < n ∧ ∃ digits, IsDigits digits ∧ digits.length = n ∧ ('^' :: digits).Sublist s

def Decomposition.refusalCodes : List RefusalCode :=
  [.emptyInput, .tooLong, .noFraction, .badPolynomial]

theorem Decomposition.code_mem_refusalCodes {r : Refusal} (h : r.kind = .malformedInput) :
    r.code ∈ refusalCodes := by
  cases r <;> simp_all [Refusal.kind, Refusal.code, refusalCodes]

inductive Failure.OfText (s : List Char) : Failure → Prop
  | refused {r : Refusal} (hkind : r.kind = .malformedInput) : OfText s (.refused r)
  | tooLong {n : ℕ} (h : HasLongRow s n) : OfText s (.fault (.integerTooLong n))

theorem Text.trim_sublist (s : List Char) : (trim s).Sublist s := by
  have hback : (trim s).Sublist (s.dropWhile isBlank) := by
    simpa [trim, trimOf] using
      (List.dropWhile_suffix (p := isBlank) (l := (s.dropWhile isBlank).reverse)).sublist.reverse
  exact hback.trans (List.dropWhile_suffix _).sublist

section LongRows

variable {s t digits after before : List Char} {n : ℕ}

theorem HasLongRow.mono (h : HasLongRow s n) (hst : s.Sublist t) : HasLongRow t n := by
  obtain ⟨hn, digits, hdigits, hlength, hsub⟩ := h
  exact ⟨hn, digits, hdigits, hlength, hsub.trans hst⟩

theorem Failure.OfText.mono {e : Failure} (h : OfText s e) (hst : s.Sublist t) : OfText t e := by
  cases h with
  | refused hkind => exact .refused hkind
  | tooLong h => exact .tooLong (h.mono hst)

/-- The caret and the digits of an exponent stand in the text in this order. -/
theorem HasLongExponent.hasLongRow (h : HasLongExponent s n) : HasLongRow s n := by
  obtain ⟨hn, before, digits, text, rest, rfl, hdigits, hlength, hfront⟩ := h
  have htext : ('^' :: digits).Sublist text := by
    cases hfront with
    | plain => exact .refl _
    | unclosed => exact (List.sublist_cons_self _ _).cons_cons '^'
    | braced =>
      exact ((List.sublist_append_left _ _).trans (List.sublist_cons_self _ _)).cons_cons '^'
  have hbehind : (text ++ rest).Sublist (before ++ 'x' :: (text ++ rest)) :=
    (List.sublist_cons_self _ _).trans (List.sublist_append_right _ _)
  exact ⟨hn, digits, hdigits, hlength, (htext.trans (List.sublist_append_left _ _)).trans hbehind⟩

/-- A sign in front is not part of a row of digits. -/
theorem HasLongRow.of_signed (h : HasLongRow (Term.signed s) n) : HasLongRow s n := by
  obtain ⟨hn, digits, hdigits, hlength, hsub⟩ := h
  have hplus {t : List Char} (hsub : ('^' :: digits).Sublist ('+' :: t)) :
      ('^' :: digits).Sublist t := by
    cases hsub with
    | cons _ hsub => exact hsub
  have hsqueeze : ('^' :: digits).Sublist (squeeze s) := by
    unfold Term.signed at hsub
    split at hsub
    · cases hplus hsub
    · rename_i c rest heq
      rw [heq]
      split at hsub
      · exact hsub
      · exact hplus hsub
  exact ⟨hn, digits, hdigits, hlength, hsqueeze.trans List.filter_sublist⟩

/-- What cannot be read as an exponent has too many digits. -/
theorem failsWithin_readDigits (hdigits : IsDigits digits) (hs : ('^' :: digits).Sublist s) :
    FailsWithin (fun e => Failure.OfText s (.fault e)) (readDigits digits) := by
  unfold readDigits
  split
  · rename_i hlong
    exact .failure (.tooLong ⟨hlong, digits, hdigits, rfl, hs⟩)
  · exact .value _

theorem SpelledExponent.sublist_text (e : SpelledExponent) : ('^' :: e.digits).Sublist e.text :=
  (((List.sublist_append_left _ _).trans (List.sublist_append_right _ _)).trans
    (List.sublist_append_right _ _)).cons_cons '^'

end LongRows

section Readers

variable {s : List Char} {K : Type}

/-- A text is read as terms unless an exponent of it is too long. -/
theorem Term.failsWithin_readAll (s : List Char) :
    FailsWithin (fun e => Failure.OfText s (.fault e)) (readAll s) := by
  rcases readAll_cases s with ⟨ts, -, hread⟩ | ⟨n, hlong, hread⟩
  · rw [hread]
    exact .value ts
  · rw [hread]
    exact .failure (.tooLong hlong.hasLongRow.of_signed)

theorem Trinomial.failsWithin_read [Neg K] [Scalar K] (s : List Char) :
    FailsWithin (Failure.OfText s) (read s : Except Failure (Trinomial K)) := by
  have hblank : ∀ c ∈ squeeze s, isBlank c = false := fun c hc => not_isBlank_of_mem_squeeze hc
  intro e he
  have hfold : (summandsFrom (squeeze s)).foldlM put (⟨_, _, _⟩ : Trinomial K) = .error e := he
  rcases frontSummands_cases (K := K) hblank with
    ⟨rs, hrs⟩ | ⟨body, -, hrefused⟩ | ⟨n, hlong, hfail⟩
  · obtain ⟨t, hok, -⟩ := hrs.foldlM_eq hblank _
    cases hok.symm.trans hfold
  · obtain rfl := Except.error.inj ((hrefused _).symm.trans hfold)
    exact .refused rfl
  · obtain rfl := Except.error.inj ((hfail _).symm.trans hfold)
    exact .tooLong (hlong.hasLongRow.mono List.filter_sublist)

theorem failsWithin_leadingNumber [Neg K] [Scalar K] (number summand : List Char) :
    FailsWithin (fun r => Failure.OfText s (.refused r))
      (leadingNumber number summand : Except Refusal K) := by
  unfold leadingNumber
  split
  · exact .value _
  · exact .value _
  · split
    · exact .value _
    · exact .failure (.refused rfl)

theorem Gap.sublist_dropProducts (s : List Char) : (dropProducts s).Sublist s := by
  fun_induction dropProducts s with
  | case1 => exact .refl _
  | case2 rest ih => exact ih.trans (List.sublist_append_right ['\\', 'c', 'd', 'o', 't'] rest)
  | case3 rest ih =>
    exact ih.trans (List.sublist_append_right ['\\', 't', 'i', 'm', 'e', 's'] rest)
  | case4 rest ih => exact ih.cons '*'
  | case5 c rest _ _ _ ih => exact ih.cons_cons c

/-- The digits of a power of x stand behind its caret. -/
theorem Gap.Shaped.sublist_of_power {number digits : List Char}
    (h : Shaped s number (.power digits)) : IsDigits digits ∧ ('^' :: digits).Sublist s := by
  cases h with
  | mk hnumber hx =>
    cases hx with
    | power e =>
      exact ⟨e.isDigits_digits,
        (e.sublist_text.cons 'x').trans (List.sublist_append_right number _)⟩

theorem Gap.failsWithin_read [Neg K] [Scalar K] (leading : Bool) (gap : List Char) :
    FailsWithin (Failure.OfText gap) (read leading gap : Except Failure (K × List (Factor K))) := by
  unfold read
  split
  · exact .failure (.refused rfl)
  · rename_i number x hparts
    refine (failsWithin_leadingNumber number (trim gap)).mapError.bind fun scale _ => ?_
    refine FailsWithin.bind (.mapError ?_) fun fs _ => .value _
    cases x with
    | absent => exact .value _
    | plain => exact .value _
    | power digits =>
      obtain ⟨hdigits, hsub⟩ := (parts?_eq_some_iff.mp hparts).2.sublist_of_power
      have hgap := (sublist_dropProducts (squeeze gap)).trans List.filter_sublist
      exact .map (.bind (failsWithin_readDigits hdigits (hsub.trans hgap)) fun _ _ => .value _)

structure Bracket.Within (b : Bracket) (s : List Char) : Prop where
  gap : b.gap.Sublist s
  content : b.content.Sublist s
  exponent : ∀ digits ∈ b.exponent, IsDigits digits ∧ ('^' :: digits).Sublist s

theorem Bracket.Within.mono {t : List Char} {b : Bracket} (h : b.Within s) (hst : s.Sublist t) :
    b.Within t where
  gap := h.gap.trans hst
  content := h.content.trans hst
  exponent digits hdigits :=
    have hrow := h.exponent digits hdigits
    ⟨hrow.1, hrow.2.trans hst⟩

theorem Group.within_text (g : Group) : g.bracket.Within g.text where
  gap := List.sublist_append_left _ _
  content := ((List.sublist_append_left _ _).cons _).trans (List.sublist_append_right _ _)
  exponent digits hdigits := by
    obtain ⟨e, he, rfl⟩ := Option.map_eq_some_iff.mp hdigits
    have hexponent : g.exponentText = e.text := by rw [exponentText, he]; rfl
    have hbehind : g.exponentText.Sublist g.text :=
      (((List.sublist_cons_self _ _).trans (List.sublist_append_right _ _)).cons _).trans
        (List.sublist_append_right _ _)
    exact ⟨e.isDigits_digits, (hexponent ▸ e.sublist_text).trans hbehind⟩

/-- The brackets of a text stand in it, and what is behind them is left. -/
theorem Bracket.within_of_all (s : List Char) :
    (∀ b ∈ (all s).1, b.Within s) ∧ (all s).2.Sublist s := by
  obtain ⟨groups, last, hcut⟩ := Group.exists_cut s
  rw [hcut.all_eq, ← hcut.flatten_eq]
  refine ⟨List.forall_mem_map.mpr fun g hg => g.within_text.mono ?_, List.sublist_append_right _ _⟩
  exact (List.sublist_flatten_of_mem (List.mem_map_of_mem hg)).trans (List.sublist_append_left _ _)

end Readers

section Decompositions

variable {s : List Char} {K : Type}

namespace Factorization

theorem failsWithin_bracketFactor {b : Bracket} (h : b.Within s) :
    FailsWithin (fun e => Failure.OfText s (.fault e)) (bracketFactor (K := K) b) := by
  unfold bracketFactor
  cases hexponent : b.exponent with
  | none => exact .value _
  | some digits =>
    obtain ⟨hdigits, hsub⟩ := h.exponent digits hexponent
    exact (failsWithin_readDigits hdigits hsub).bind fun _ _ => .value _

variable [Add K] [Sub K] [Mul K] [Div K] [Neg K] [Scalar K]

omit [Add K] [Sub K] [Div K] in
theorem failsWithin_bracketFactors {brackets : List Bracket} (h : ∀ b ∈ brackets, b.Within s)
    (leading : Bool) (scale : K) :
    FailsWithin (Failure.OfText s) (bracketFactors leading scale brackets) := by
  induction brackets generalizing leading scale with
  | nil => exact .value _
  | cons b rest ih =>
    obtain ⟨hb, hrest⟩ := List.forall_mem_cons.mp h
    have hread : FailsWithin (Failure.OfText s)
        (Gap.read leading b.gap : Except Failure (K × List (Factor K))) :=
      fun e he => (Gap.failsWithin_read leading b.gap e he).mono hb.gap
    rw [bracketFactors]
    refine hread.bind fun _ _ => ?_
    refine FailsWithin.bind (.mapError (failsWithin_bracketFactor hb)) fun _ _ => ?_
    exact (ih hrest false _).bind fun _ _ => .value _

omit [Add K] [Sub K] [Div K] in
theorem failsWithin_listed (s : List Char) :
    FailsWithin (Failure.OfText s) (listed s : Except Failure (K × List (Factor K))) := by
  obtain ⟨hbrackets, hlast⟩ := Bracket.within_of_all s
  unfold listed
  dsimp only
  split
  · exact .value _
  · refine (failsWithin_bracketFactors hbrackets true _).bind fun _ _ => ?_
    have hread : FailsWithin (Failure.OfText s)
        (Gap.read false (Bracket.all s).2 : Except Failure (K × List (Factor K))) :=
      fun e he => (Gap.failsWithin_read false _ e he).mono hlast
    exact hread.bind fun _ _ => .value _

/-- The only fault a denominator can end in is an exponent beyond the digit limit. -/
theorem failsWithin_ofDenominator (denominator : String) :
    FailsWithin (Failure.OfText denominator.toList)
      (ofDenominator denominator : Except Failure (Factorization K)) := by
  unfold ofDenominator
  refine FailsWithin.bind ?_ fun F _ => ?_
  · unfold read
    split
    · exact (failsWithin_listed _).bind fun _ _ => .value _
    · exact (Trinomial.failsWithin_read _).bind fun _ _ => .value _
  · split
    · exact .failure (.refused rfl)
    · exact .value _

end Factorization

namespace Fraction

/-- Both parts of the fraction that is read stand at its place. -/
theorem sublist_of_find? {n d : List Char} (h : find? s = some (n, d)) :
    n.Sublist s ∧ d.Sublist s := by
  obtain ⟨p, rfl, rfl, rfl⟩ := exists_place_of_find? h
  have hdenominator : p.denominator.Sublist p.arguments :=
    ((((List.sublist_append_left _ _).cons _).trans (List.sublist_append_right _ _)).cons _).trans
      (List.sublist_append_right _ _)
  have harguments : p.arguments.Sublist p.text :=
    (((List.sublist_cons_self _ _).trans (List.sublist_append_right _ _)).trans
      (List.sublist_append_right _ _)).trans (List.sublist_append_right _ _)
  exact ⟨(List.sublist_append_left _ _).trans harguments, hdenominator.trans harguments⟩

theorem sublist_of_ofText {text : String} {F : Fraction} (h : ofText text = .ok F) :
    F.numerator.toList.Sublist text.toList ∧ F.denominator.toList.Sublist text.toList := by
  unfold ofText at h
  split at h
  · cases h
  · rename_i n d hfind
    obtain ⟨hn, hd⟩ := sublist_of_find? hfind
    obtain rfl := Except.ok.inj h
    simp only [String.toList_ofList]
    exact ⟨(trim_sublist n).trans hn, (trim_sublist d).trans hd⟩

end Fraction

/-- A text that passes is left as it is. -/
theorem checkInput_eq_ok {limit : ℤ} {text : Option String} {t : String}
    (h : checkInput limit text = .ok t) : text = some t := by
  unfold checkInput at h
  split at h
  · cases h
  · split at h
    · cases h
    · split at h
      · cases h
      · rw [Except.ok.inj h]

variable [Add K] [Sub K] [Mul K] [Div K] [Neg K] [Scalar K]

/-- A text is taken apart unless it is refused as malformed or has an exponent that is too long. -/
theorem Decomposition.failsWithin_ofText (limit : ℤ) (text : Option String) :
    FailsWithin (Failure.OfText (text.elim [] String.toList))
      (ofText limit text : Except Failure (Decomposition K)) := by
  have hcheck : FailsWithin (Failure.OfText (text.elim [] String.toList))
      ((checkInput limit text).mapError .refused) := by
    refine .mapError ?_
    unfold checkInput
    split
    · exact .failure (.refused rfl)
    · split
      · exact .failure (.refused rfl)
      · split
        · exact .failure (.refused rfl)
        · exact .value _
  unfold ofText
  refine hcheck.bind fun s hs => ?_
  obtain rfl : text = some s := checkInput_eq_ok (mapError_eq_ok.mp hs)
  refine FailsWithin.bind (.mapError ?_) fun F hF => ?_
  · unfold Fraction.ofText
    split
    · exact .failure (.refused rfl)
    · exact .value _
  · obtain ⟨hnumerator, hdenominator⟩ := Fraction.sublist_of_ofText (mapError_eq_ok.mp hF)
    refine FailsWithin.bind (.mapError ?_) fun terms _ => ?_
    · exact fun e he => (Term.failsWithin_readAll _ e he).mono hnumerator
    · refine FailsWithin.bind ?_ fun _ _ => .value _
      exact fun e he => (Factorization.failsWithin_ofDenominator _ e he).mono hdenominator

end Decompositions

end PartialFractions
