import PartialFractions.Proofs.FactorizationInvariants
import PartialFractions.Proofs.PrintedFactors
import PartialFractions.Proofs.SignedZeros
import PartialFractions.Proofs.WrittenNumbers

/-!
Trinomials that are written anew as a list of their factors. The list is read as the same scale and
factors, so that both denominators have the same constants.
-/
namespace PartialFractions

open Text Number

def WrittenGap.empty : WrittenGap := ⟨false, none⟩

namespace Factor

variable {K : Type}

def multiplicityText (n : ℤ) : String := if 1 < n then "^\x7b" ++ toString n ++ "\x7d" else ""

def listing (f : Factor K) : String := "(" ++ f.content ++ ")" ++ multiplicityText f.multiplicity

end Factor

def Factorization.listing {K : Type} [Scalar K] (F : Factorization K) : String :=
  Scalar.text F.scale ++ String.join (F.factors.map Factor.listing)

namespace Factor

def rootContent (sign : Char) (t : List Char) : List Char := 'x' :: ' ' :: sign :: ' ' :: t

variable {t : List Char} {sign : Char}

theorem mem_rootContent (h : IsMagnitude t) (hsign : sign = '+' ∨ sign = '-') {c : Char}
    (hc : c ∈ rootContent sign t) : c.isDigit = true ∨ c ∈ ['x', ' ', '.', 'e', '+', '-'] := by
  simp only [rootContent, List.mem_cons] at hc
  rcases hc with rfl | rfl | rfl | rfl | hc
  · simp
  · simp
  · rcases hsign with rfl | rfl <;> simp
  · simp
  · exact (h.mem c hc).imp_right fun hc => List.mem_cons_of_mem _ (List.mem_cons_of_mem _ hc)

theorem notMem_rootContent (h : IsMagnitude t) (hsign : sign = '+' ∨ sign = '-') {c : Char}
    (hdigit : c.isDigit = false) (hc : c ∉ ['x', ' ', '.', 'e', '+', '-']) :
    c ∉ rootContent sign t := by
  intro hmem
  rcases mem_rootContent h hsign hmem with h | h
  · simp [hdigit] at h
  · exact hc h

theorem trim_rootContent (h : IsMagnitude t) : trim (rootContent sign t) = rootContent sign t := by
  obtain ⟨c, hc, -⟩ := h.head
  have hne : t ≠ [] := List.ne_nil_of_mem (List.mem_of_mem_head? hc)
  refine Numeral.trimOf_eq_self ?_ fun d hd => ?_
  · rintro _ ⟨⟩
    decide
  · have hlast : (rootContent sign t).getLast? = t.getLast? :=
      List.getLast?_append_of_ne_nil ['x', ' ', sign, ' '] hne
    exact h.isBlank_of_mem d (List.mem_of_getLast? (hlast ▸ hd))

theorem showsPower_rootContent (h : IsMagnitude t) (hsign : sign = '+' ∨ sign = '-') :
    showsPower (rootContent sign t) = false := by
  rw [← Bool.not_eq_true, showsPower_iff]
  rintro ⟨before, blanks, after, -, heq⟩
  exact notMem_rootContent h hsign (c := '^') (by decide) (by decide) (heq ▸ by simp)

theorem shownRoot?_rootContent (h : IsMagnitude t) (hsign : sign = '+' ∨ sign = '-') :
    shownRoot? (rootContent sign t) = some ((if sign = '+' then '-' else '+') :: t) := by
  have hx : isBlank 'x' = false := by decide
  have hminus : isBlank '-' = false := by decide
  have hplus : isBlank '+' = false := by decide
  have hsqueeze : squeeze t = t := squeeze_eq_self h.isBlank_of_mem
  unfold squeeze at hsqueeze
  rcases hsign with rfl | rfl <;>
    simp [shownRoot?, rootContent, squeeze, hx, isBlank_space, hminus, hplus, hsqueeze]

theorem ofContent_rootContent (h : IsMagnitude t) (hsign : sign = '+' ∨ sign = '-')
    (multiplicity : ℤ) : (ofContent (rootContent sign t) multiplicity : Factor Float) =
      { kind := .linear
        content := String.ofList (rootContent sign t)
        multiplicity
        root := some (.written (String.ofList ((if sign = '+' then '-' else '+') :: t))) } := by
  simp [ofContent, showsPower_rootContent h hsign, shownRoot?_rootContent h hsign]

/-- The root of a factor like one with a finite root is the same number. -/
theorem same_root_of_alike {r : Float} (hfinite : r.isFinite = true) {n : ℤ} {g : Factor Float}
    (h : (ofRoot r n).Alike g) : ∃ v w, Solution.root (ofRoot r n) = .ok v ∧
      Solution.root g = .ok w ∧ Scalar.same v w = true := by
  have hroot := h.root
  unfold Solution.root
  generalize g.root.bind Root.value? = s at hroot ⊢
  cases hroot with
  | some h => exact ⟨_, _, rfl, rfl, h.same (isFinite_add_zero hfinite)⟩

theorem alike_ofContent {r s : Float} {multiplicity : ℤ} (h : IsMagnitude t)
    (hsign : sign = '+' ∨ sign = '-')
    (hcontent : (ofRoot r multiplicity).content.toList = rootContent sign t)
    (hread : Scalar.read? ((if sign = '+' then '-' else '+') :: t) = some s)
    (hroot : Number.Alike (r + Scalar.ofNat 0) s) :
    (ofRoot r multiplicity).Alike (ofContent (rootContent sign t) multiplicity) := by
  rw [ofContent_rootContent h hsign, ← hcontent]
  refine ⟨rfl, String.ofList_toList, rfl, ?_⟩
  simp only [ofRoot, Root.value?, Option.bind_some, String.toList_ofList, hread]
  exact .some hroot

/-- The content of a computed root shows the same root, except that a zero has a minus sign. -/
theorem exists_rootContent {r : Float} (hfinite : r.isFinite = true) (multiplicity : ℤ) :
    ∃ sign t, IsMagnitude t ∧ (sign = '+' ∨ sign = '-') ∧
      (ofRoot r multiplicity).content.toList = rootContent sign t ∧
      (ofRoot r multiplicity).Alike (ofContent (rootContent sign t) multiplicity) := by
  rcases (isFinite_iff r).mp hfinite with ⟨s, hparts⟩ | ⟨s, m, e, hm, hparts⟩
  · -- a zero is shown behind a plus sign, which is turned when the content is read
    obtain ⟨hpositive, hnegative⟩ := isPositive_of_parts_zero hparts
    have ht : IsMagnitude ['0'] := isMagnitude_ofAscii ['0'] none (by simp) (by simp)
    have hcontent : (ofRoot r multiplicity).content.toList = rootContent '+' ['0'] := by
      simp [ofRoot, hpositive, hnegative, text_of_zero hparts, rootContent]
    refine ⟨'+', ['0'], ht, Or.inl rfl, hcontent, alike_ofContent (s := -Scalar.ofNat 0) ht
      (Or.inl rfl) hcontent ?_ ?_⟩
    · rw [if_pos rfl, ht.read?_minus]
      rfl
    · rw [add_zero_of_isZero hparts]
      exact alike_zeros .positive .negative
  · cases s with
    | positive =>
      obtain ⟨hpositive, hnegative⟩ := isPositive_of_parts hparts
      obtain ⟨t, ht, htext⟩ := exists_magnitude hparts
      have hcontent : (ofRoot r multiplicity).content.toList = rootContent '-' t := by
        simp [ofRoot, hpositive, htext, rootContent, signChars]
      have hread := read?_text_of_parts hparts
      rw [htext] at hread
      refine ⟨'-', t, ht, Or.inr rfl, hcontent, alike_ofContent (s := r) ht
        (Or.inr rfl) hcontent ?_ ?_⟩
      · exact ht.read?_plus.trans hread
      · exact Or.inl (add_zero_of_parts hparts)
    | negative =>
      obtain ⟨hpositive, hnegative⟩ := isPositive_of_parts_negative hparts
      have hparts' := parts_neg hparts
      obtain ⟨t, ht, htext⟩ := exists_magnitude hparts'
      have hcontent : (ofRoot r multiplicity).content.toList = rootContent '+' t := by
        simp [ofRoot, hpositive, hnegative, htext, rootContent, signChars]
      have hread := read?_text_of_parts hparts'
      rw [htext] at hread
      refine ⟨'+', t, ht, Or.inl rfl, hcontent, alike_ofContent (s := r) ht
        (Or.inl rfl) hcontent ?_ ?_⟩
      · have hread : (Scalar.read? t : Option Float) = some (-r) := hread
        rw [if_pos rfl, ht.read?_minus, hread, Option.map_some, neg_neg_eq]
      · exact Or.inl (add_zero_of_parts hparts)

/-- The bracket in which the factor is listed, with no number in front of it. -/
structure ListedAs (f : Factor Float) (b : ListedBracket WrittenGap) : Prop where
  gap : b.gap = .empty
  listing : ∃ exponent, f.listing.toList = '(' :: (b.content ++ ')' :: exponent) ∧
    ∀ rest, ExponentText b.exponent exponent rest
  alike : f.Alike b.factor
  root : ∃ v w, Solution.root f = .ok v ∧ Solution.root (b.factor : Factor Float) = .ok w ∧
    Scalar.same v w = true

theorem exists_exponent {n : ℕ} (hn : n = 1 ∨ n = 2) :
    ∃ exponent : Option WrittenExponent, (exponent.map WrittenExponent.value).getD 1 = n ∧
      ∀ rest, ExponentText exponent (multiplicityText n).toList rest := by
  rcases hn with rfl | rfl
  · exact ⟨none, rfl, fun _ => .none⟩
  · let two : WrittenExponent := .ofNat 2 true (by decide)
    have hblanks : ∀ c ∈ ([] : List Char), isBlank c = true := by simp
    exact ⟨some two, rfl, fun _ => .some hblanks (by simp [two, WrittenExponent.ofNat])⟩

/-- A root of a trinomial is listed as a bracket with its text in it. -/
theorem exists_listedAs {r : Float} (hfinite : r.isFinite = true) {n : ℕ} (hn : n = 1 ∨ n = 2) :
    ∃ b, (ofRoot r n).ListedAs b := by
  obtain ⟨sign, t, ht, hsign, hcontent, halike⟩ := exists_rootContent hfinite n
  obtain ⟨exponent, hmultiplicity, hexponent⟩ := exists_exponent hn
  have hclosed : ')' ∉ rootContent sign t := notMem_rootContent ht hsign (by decide) (by decide)
  let b : ListedBracket WrittenGap := ⟨.empty, rootContent sign t, exponent, hclosed⟩
  have hfactor : (b.factor : Factor Float) = ofContent (rootContent sign t) n := by
    rw [ListedBracket.factor, ListedBracket.multiplicity, trim_rootContent ht, hmultiplicity]
  refine ⟨b, rfl, ⟨_, ?_, hexponent⟩, ?_, ?_⟩
  · have hn : (ofRoot r n).multiplicity = n := rfl
    rw [listing, hn]
    simp [hcontent, b]
  · rwa [hfactor]
  · rw [hfactor]
    exact same_root_of_alike hfinite halike

end Factor

theorem WrittenGap.gapTokens : GapTokens WrittenGap.tokens where
  isToken := isToken_of_mem
  paren_notMem := paren_notMem
  head_notMem g t ht := ⟨g.head_notMem (by decide) (by decide) t ht,
    g.head_notMem (by decide) (by decide) t ht⟩

theorem exists_brackets {factors : List (Factor Float)} (h : ∀ f ∈ factors, ∃ b, f.ListedAs b) :
    ∃ brackets, List.Forall₂ Factor.ListedAs factors brackets := by
  induction factors with
  | nil => exact ⟨[], .nil⟩
  | cons f factors ih =>
    obtain ⟨⟨b, hb⟩, h⟩ := List.forall_mem_cons.mp h
    obtain ⟨brackets, hbrackets⟩ := ih h
    exact ⟨b :: brackets, .cons hb hbrackets⟩

theorem gap_of_listedAs {factors : List (Factor Float)} {brackets : List (ListedBracket WrittenGap)}
    (h : List.Forall₂ Factor.ListedAs factors brackets) : ∀ b ∈ brackets, b.gap = .empty := by
  induction h with
  | nil => simp
  | cons hb h ih => exact List.forall_mem_cons.mpr ⟨hb.gap, ih⟩

theorem listedText_of_listedAs {factors : List (Factor Float)}
    {brackets : List (ListedBracket WrittenGap)}
    (h : List.Forall₂ Factor.ListedAs factors brackets) :
    ListedText WrittenGap.tokens brackets .empty
      (factors.flatMap fun f => f.listing.toList) := by
  induction h with
  | nil => exact .last .done
  | @cons f b factors brackets hb h ih =>
    obtain ⟨exponent, hlisting, hexponent⟩ := hb.listing
    have hgap : Spaced b.gap.tokens [] := by
      rw [hb.gap]
      exact .done
    have htext := ListedText.bracket hgap (hexponent _) ih
    rw [List.flatMap_cons, hlisting]
    simpa using htext

/-- An empty gap is the number 1. -/
theorem Gap.read_empty {K : Type} [Neg K] [Scalar K] {s : List Char}
    (h : Spaced WrittenGap.empty.tokens s) (leading : Bool) :
    read leading s = (.ok (Scalar.ofNat 1, []) : Except Failure (K × List (Factor K))) :=
  read_of_leadingNumber (dropProducts_of_spaced h) (by simp [WrittenGap.empty]) rfl

/-- The gap with the numeral of the scale, if that shows no exponent. -/
theorem exists_scaleGap {v : Float} (hfinite : v.isFinite = true) (hzero : Scalar.isZero v = false)
    (hexponent : 'e' ∉ (Scalar.text v).toList) :
    ∃ g : WrittenGap, Spaced g.tokens (Scalar.text v).toList ∧
      ∀ s, Spaced g.tokens s → Gap.read true s = .ok (v, []) := by
  obtain ⟨s, m, e, hm, hparts⟩ := ((isFinite_iff v).mp hfinite).resolve_left fun h => by
    simp [(isZero_iff v).mpr h] at hzero
  obtain ⟨t, ht, htext⟩ := exists_magnitude hparts
  obtain ⟨n, rfl⟩ := ht.numeral fun h => hexponent (by simp [htext, h])
  have hread := read?_text_of_parts hparts
  have hsign (negative : Bool) : (WrittenGap.mk negative (some (.constant n))).tokens.flatten =
      (if negative then ['-'] else []) ++ n.chars := by
    cases negative <;> simp [WrittenGap.tokens, Summand.tokens]
  refine ⟨⟨s == .negative, some (.constant n)⟩, ?_, fun u hu => ?_⟩
  · rw [htext, signChars, ← hsign]
    exact .flatten _
  · refine Gap.read_of_leadingNumber (Gap.dropProducts_of_spaced hu) (fun _ => rfl) ?_
    rw [htext] at hread
    exact Gap.leadingNumber_of_read? hread _

namespace Factorization

/-- Brackets without a number in front of them do not change the scale. -/
theorem bracketFactors_of_empty {brackets : List (ListedBracket WrittenGap)} {cut : List Bracket}
    (h : List.Forall₂ (ListedBracket.Cut WrittenGap.tokens) brackets cut)
    (hempty : ∀ b ∈ brackets, b.gap = .empty) (v : Float) :
    bracketFactors false v cut = .ok (v, brackets.map ListedBracket.factor) := by
  induction h with
  | nil => rfl
  | @cons b c brackets cut hb h ih =>
    obtain ⟨hgap, hempty⟩ := List.forall_mem_cons.mp hempty
    have hread : Gap.read false c.gap = .ok ((Scalar.ofNat 1 : Float), []) :=
      Gap.read_empty (hgap ▸ hb.gap) false
    rw [bracketFactors, hread, hb.bracketFactor_eq]
    simp only [bind, Except.bind, Except.mapError, Number.mul_ofNat_one, ih hempty]
    rfl

/-- The listing of computed factors is read back as brackets, with the scale in the first gap. -/
theorem ofDenominator_of_listedAs {F : Factorization Float} (hzero : Scalar.isZero F.scale = false)
    {g : WrittenGap} (hg : Spaced g.tokens (Scalar.text F.scale).toList)
    (hread : ∀ s, Spaced g.tokens s → Gap.read true s = .ok (F.scale, []))
    {brackets : List (ListedBracket WrittenGap)} (hne : brackets ≠ [])
    (h : List.Forall₂ Factor.ListedAs F.factors brackets) :
    ofDenominator F.listing = .ok ⟨.listed, F.scale, brackets.map ListedBracket.factor⟩ := by
  obtain ⟨form, scale, factors⟩ := F
  cases h with
  | nil => exact absurd rfl hne
  | @cons f b factors brackets hb h =>
    obtain ⟨exponent, hlisting, hexponent⟩ := hb.listing
    let first : ListedBracket WrittenGap := { b with gap := g }
    have htext : ListedText WrittenGap.tokens (first :: brackets) .empty
        (listing ⟨form, scale, f :: factors⟩).toList := by
      have hlisted := ListedText.bracket (b := first) hg (hexponent _) (listedText_of_listedAs h)
      simpa [listing, hlisting, String.toList_join, List.flatMap_map, first] using hlisted
    obtain ⟨hcut, hlast⟩ := htext.all_cut WrittenGap.gapTokens
    obtain ⟨c, cut, hfirst, hcut, hall⟩ := List.forall₂_cons_left_iff.mp hcut
    have hfirstGap : Gap.read true c.gap = .ok (scale, []) := hread c.gap hfirst.gap
    have hothers : bracketFactors false (Scalar.ofNat 1 * scale) cut =
        .ok (scale, brackets.map ListedBracket.factor) := by
      rw [Number.ofNat_one_mul]
      exact bracketFactors_of_empty hcut (gap_of_listedAs h) scale
    have hbrackets : bracketFactors true (Scalar.ofNat 1) (c :: cut) =
        .ok (scale, (b :: brackets).map ListedBracket.factor) := by
      rw [bracketFactors, hfirstGap, hfirst.bracketFactor_eq]
      simp only [bind, Except.bind, Except.mapError, hothers]
      rfl
    have hlisted := listed_of_cut (Prod.ext hall rfl) (List.cons_ne_nil c cut) hbrackets
      (Gap.read_empty hlast false)
    rw [Number.mul_ofNat_one, List.append_nil] at hlisted
    exact ofDenominator_of_open (htext.open_mem (by simp)) hlisted hzero

/-- The kind of the factors is told by the kinds of each of them. -/
theorem kind_eq_of_alike {F G : Factorization Float}
    (h : List.Forall₂ Factor.Alike F.factors G.factors) : G.kind = F.kind := by
  have hany {fs gs : List (Factor Float)} (h : List.Forall₂ Factor.Alike fs gs) (k : FactorKind) :
      gs.any (·.kind == k) = fs.any (·.kind == k) := by
    induction h with
    | nil => rfl
    | cons hf h ih => rw [List.any_cons, List.any_cons, ih, hf.kind]
  simp only [kind, hasLinear, hasQuadratic, hany h]

/-- A trinomial with linear factors may be written as the list of these factors. The list is read as
the same scale and the same factors, and so every numerator has the same constants over both, or
fails over both in the same way. A scale with an exponent could not be read in front of brackets. -/
theorem ofDenominator_listing (denominator : String) {F : Factorization Float}
    (hopen : '(' ∉ denominator.toList) (hread : ofDenominator denominator = .ok F)
    (hlinear : ∀ f ∈ F.factors, f.kind = .linear) (hscale : F.scale.isFinite = true)
    (hroots : ∀ f ∈ F.factors, ∀ r, f.root = some (.computed r) → r.isFinite = true)
    (hexponent : 'e' ∉ (Scalar.text F.scale).toList) :
    ∃ G, ofDenominator F.listing = .ok G ∧ G.scale = F.scale ∧
      List.Forall₂ (fun f g => g.kind = f.kind ∧ g.content = f.content ∧
        g.multiplicity = f.multiplicity ∧ ∃ v w, Solution.root f = .ok v ∧
          Solution.root g = .ok w ∧ Scalar.same v w = true) F.factors G.factors ∧
      ∀ terms, SameOutcome Constants.Alike
        (Solution.constants terms F.factors F.kind F.scale)
        (Solution.constants terms G.factors G.kind G.scale) := by
  obtain ⟨hplain, hzero⟩ := read_of_ofDenominator hread
  obtain ⟨t, -, hfactors⟩ := exists_trinomial hopen hplain
  rcases ofTrinomial_cases denominator t with ⟨rs, hne, hpowers, hroot⟩ | hwhole
  · rw [hroot] at hfactors
    have hlisted : ∀ f ∈ F.factors, ∃ b, f.ListedAs b := by
      intro f hf
      have hmem := hf
      rw [hfactors] at hmem
      obtain ⟨r, hr, rfl⟩ := List.mem_map.mp hmem
      exact Factor.exists_listedAs (hroots _ hf r.1 rfl) (hpowers r hr)
    obtain ⟨brackets, hbrackets⟩ := exists_brackets hlisted
    obtain ⟨g, hg, hgap⟩ := exists_scaleGap hscale hzero hexponent
    have hsame : List.Forall₂ Factor.Alike F.factors (brackets.map ListedBracket.factor) :=
      List.forall₂_map_right_iff.mpr (hbrackets.imp fun _ _ h => h.alike)
    have hnonempty : brackets ≠ [] := by
      rintro rfl
      rw [hfactors] at hbrackets
      exact hne (List.map_eq_nil_iff.mp (List.forall₂_nil_right_iff.mp hbrackets))
    refine ⟨_, ofDenominator_of_listedAs hzero hg hgap hnonempty hbrackets, rfl, ?_,
      fun terms => ?_⟩
    · refine List.forall₂_map_right_iff.mpr (hbrackets.imp fun _ _ h => ?_)
      exact ⟨h.alike.kind, h.alike.content, h.alike.multiplicity, h.root⟩
    · have hkind := kind_eq_of_alike (G := ⟨.listed, F.scale, _⟩) hsame
      rw [hkind]
      exact Solution.constants_alike terms hsame F.kind F.scale
  · rw [hfactors, hwhole] at hlinear
    simp at hlinear

theorem ofDenominator_listing_zero : ∃ F G : Factorization Float,
    ofDenominator "-2.5x^2 + x" = .ok F ∧ ofDenominator "-2.5(x + 0)(x - 0.4)" = .ok G ∧
      G.scale = F.scale ∧ ∀ terms, SameOutcome Constants.Alike
        (Solution.constants terms F.factors F.kind F.scale)
        (Solution.constants terms G.factors G.kind G.scale) := by
  let t : Trinomial Float := ⟨-2.5, 1, 0⟩
  let F : Factorization Float := ⟨.trinomial t, -2.5, [.ofRoot (-0) 1, .ofRoot 0.4 1]⟩
  have hopen : '(' ∉ "-2.5x^2 + x".toList := by decide +kernel
  have ht : Trinomial.read "-2.5x^2 + x".toList = .ok t := by decide +kernel
  have hzero : Scalar.isZero t.a = false := by decide +kernel
  have hpositive : Scalar.isPositive (discriminant t) = true := by decide +kernel
  have hfirst : (-t.b + Scalar.sqrt (discriminant t)) / (Scalar.ofNat 2 * t.a) = -0 := by
    decide +kernel
  have hsecond : (-t.b - Scalar.sqrt (discriminant t)) / (Scalar.ofNat 2 * t.a) = 0.4 := by
    decide +kernel
  have hread : ofDenominator "-2.5x^2 + x" = .ok F := by
    rw [ofDenominator, read, if_neg hopen, ht]
    have hsplit : ofTrinomial "-2.5x^2 + x" t = (t.a, [.ofRoot (-0) 1, .ofRoot 0.4 1]) := by
      simp [ofTrinomial, hzero, hpositive, hfirst, hsecond]
    simp only [bind, Except.bind, hsplit, pure, Except.pure, hzero]
    rfl
  have hnumbers : ∀ f ∈ F.factors, ∀ r, f.root = some (.computed r) → r = -0 ∨ r = 0.4 := by
    intro f hf r hr
    simp only [F, List.mem_cons, List.not_mem_nil, or_false] at hf
    rcases hf with rfl | rfl
    · exact Or.inl (Root.computed.inj (Option.some.inj hr)).symm
    · exact Or.inr (Root.computed.inj (Option.some.inj hr)).symm
  have hlinear : ∀ f ∈ F.factors, f.kind = .linear := by
    simp [F, Factor.ofRoot]
  have hroots : ∀ f ∈ F.factors, ∀ r, f.root = some (.computed r) → r.isFinite = true := by
    intro f hf r hr
    rcases hnumbers f hf r hr with rfl | rfl <;> decide +kernel
  have hscale : F.scale.isFinite = true := by decide +kernel
  have hexponent : 'e' ∉ (Scalar.text F.scale).toList := by decide +kernel
  have hlisting : F.listing = "-2.5(x + 0)(x - 0.4)" := by decide +kernel
  obtain ⟨G, hG, hsame, -, hconstants⟩ := ofDenominator_listing "-2.5x^2 + x" hopen hread hlinear
    hscale hroots hexponent
  exact ⟨F, G, hread, hlisting ▸ hG, hsame, hconstants⟩

end Factorization

end PartialFractions
