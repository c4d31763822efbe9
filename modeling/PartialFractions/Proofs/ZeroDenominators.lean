import PartialFractions.Proofs.ListedGroups
import PartialFractions.Proofs.RequestOutcomes
import PartialFractions.Proofs.WrittenProducts

/-!
Denominators that are zero. A written product is read with its multipliers, of which each gap has
one, so it is not accepted if their product is zero. A trinomial whose coefficients are all zero is
a number like any other, and a number is kept as one quadratic factor: it can be expanded, but one
factor is never solved.
-/
namespace PartialFractions

open Text Number

namespace Gap

variable {K : Type} [Neg K] [Scalar K]

theorem Multiplier.value_congr {m m' : Multiplier} (h : m.chars = m'.chars) :
    (m.value : K) = m'.value := by
  have hread := m.leadingNumber_chars (K := K) []
  rw [h, m'.leadingNumber_chars] at hread
  exact (Except.ok.inj hread).symm

theorem Multiplier.chars_ne_plus (m : Multiplier) : m.chars ≠ ['+'] := by
  intro h
  cases m with
  | omitted => cases h
  | minus => cases h
  | unsigned n =>
    have hchars : n.chars = ['+'] := h
    exact n.notMem_chars (c := '+') (by decide) (by decide) (by simp [hchars])
  | signed negative n => exact n.chars_ne_nil (List.cons.inj h).2

end Gap

section Limits

variable {groups : List Group} {last s : List Char} {leading : Bool} {K : Type}

theorem Number.length_le_of_readDigits {digits : List Char} {n : ℕ}
    (h : readDigits digits = .ok n) : digits.length ≤ maxIntegerDigits := by
  unfold readDigits at h
  split at h
  · cases h
  · rename_i hle
    exact Nat.not_lt.mp hle

/-- A gap that is read has no exponent that is too long. -/
theorem Gap.withinLimit_of_read [Neg K] [Scalar K] {gap : List Char} {v : K} {fs : List (Factor K)}
    (h : read leading gap = .ok (v, fs)) : WithinLimit gap := by
  obtain ⟨number, x, hparts, -, hfactors⟩ := exists_parts h
  intro other digits hpower
  obtain ⟨-, rfl⟩ := (parts?_eq_some_iff.mp hparts).2.unique hpower
  obtain ⟨i, hi, -⟩ := map_eq_ok.mp hfactors
  obtain ⟨n, hn, -⟩ := bind_eq_ok.mp hi
  exact length_le_of_readDigits hn

theorem Group.length_le_of_bracketFactor {g : Group} {f : Factor K}
    (h : Factorization.bracketFactor g.bracket = .ok f) :
    ∀ e ∈ g.exponent, e.digits.length ≤ maxIntegerDigits := by
  intro e he
  have hexponent : g.bracket.exponent = some e.digits := by
    rw [bracket, Option.mem_def.mp he, Option.map_some]
  rw [Factorization.bracketFactor, hexponent] at h
  obtain ⟨n, hn, -⟩ := bind_eq_ok.mp h
  exact length_le_of_readDigits hn

variable [Mul K] [Neg K] [Scalar K]

/-- Every exponent of a bracket is read before the factors are returned. -/
theorem Group.withinLimit_of_bracketFactors {v w : K} {fs : List (Factor K)}
    (h : Factorization.bracketFactors leading v (groups.map bracket) = .ok (w, fs)) :
    ∀ g ∈ groups, g.WithinLimit := by
  induction groups generalizing leading v w fs with
  | nil => exact List.forall_mem_nil _
  | cons g groups ih =>
    rw [List.map_cons, Factorization.bracketFactors] at h
    obtain ⟨⟨m, bare⟩, hgap, h⟩ := bind_eq_ok.mp h
    obtain ⟨f, hf, h⟩ := bind_eq_ok.mp h
    obtain ⟨⟨u, others⟩, hothers, -⟩ := bind_eq_ok.mp h
    have hexponent := length_le_of_bracketFactor (mapError_eq_ok.mp hf)
    exact List.forall_mem_cons.mpr ⟨⟨hexponent, Gap.withinLimit_of_read hgap⟩, ih hothers⟩

/-- A text that is read with its groups has no exponent that is too long. -/
theorem Group.Cut.withinLimit_of_listed {v : K} {fs : List (Factor K)} (hcut : Cut s groups last)
    (hne : groups ≠ []) (h : Factorization.listed s = .ok (v, fs)) :
    (∀ g ∈ groups, g.WithinLimit) ∧ Gap.WithinLimit last := by
  have hsome : (groups.map bracket).isEmpty = false := by simpa using hne
  simp only [Factorization.listed, hcut.all_eq, hsome] at h
  obtain ⟨⟨w, gs⟩, hbrackets, h⟩ := bind_eq_ok.mp h
  obtain ⟨⟨m, bare⟩, hgap, -⟩ := bind_eq_ok.mp h
  exact ⟨withinLimit_of_bracketFactors hbrackets, Gap.withinLimit_of_read hgap⟩

end Limits

namespace GapRow

variable {r : GapRow} {s : List Char} {product : Option Summand} {m : Gap.Multiplier}

/-- The numbers of the row, of which the first one has the sign. If there are none, the sign stands
for a number. -/
def multipliers (r : GapRow) : List Gap.Multiplier :=
  match r.negative, r.factors.filterMap Summand.number? with
  | some true, [] => [.minus]
  | _, [] => [.omitted]
  | none, n :: rest => .unsigned n :: rest.map .unsigned
  | some minus, n :: rest => .signed minus n :: rest.map .unsigned

/-- A number that is read with its sign is the only one that is written. -/
theorem exists_multipliers_eq
    (hnumbers : r.factors.filterMap Summand.number? = (product.bind Summand.number?).toList)
    (hm : m.chars = signText r.negative ++ (⟨false, product⟩ : WrittenGap).numberText) :
    ∃ m' : Gap.Multiplier, r.multipliers = [m'] ∧ m'.chars = m.chars := by
  have htext : (⟨false, product⟩ : WrittenGap).numberText =
      ((product.bind Summand.number?).map DecimalNumeral.chars).getD [] := by
    obtain _ | _ | _ := product <;> rfl
  rw [htext] at hm
  rw [multipliers, hnumbers]
  generalize r.negative = negative at hm ⊢
  generalize product.bind Summand.number? = number at hm ⊢
  rw [hm]
  obtain _ | n := number
  · obtain _ | _ | _ := negative
    · exact ⟨.omitted, rfl, rfl⟩
    · exact absurd hm m.chars_ne_plus
    · exact ⟨.minus, rfl, rfl⟩
  · obtain _ | _ | _ := negative
    · exact ⟨.unsigned n, rfl, rfl⟩
    · exact ⟨.signed false n, rfl, rfl⟩
    · exact ⟨.signed true n, rfl, rfl⟩

variable {K : Type} [Neg K] [Scalar K]

/-- An unfused row is refused, or it has one multiplier and is read with that. -/
theorem read_cases (h : Spaced r.tokens s) (hr : r.Unfused) (leading : Bool) :
    (∃ term, (Gap.read leading s : Except Failure (K × List (Factor K))) =
      .error (.refused (.badPolynomial term))) ∨
    ∃ (m : Gap.Multiplier) (fs : List (Factor K)), r.multipliers = [m] ∧
      Gap.read leading s = .ok (m.value, fs) := by
  obtain ⟨c, hc⟩ | hunreadable := Gap.holds_or_unreadable leading s
  · have hparts := Gap.parts?_eq_some_iff.mpr ⟨hc.unsigned, hc.shaped⟩
    rw [Gap.shown, dropProducts_of_spaced h] at hparts
    obtain ⟨hnumber, hx⟩ := Gap.parts?_eq_some hparts
    obtain ⟨product, hchars, hshown, hnumbers, -⟩ := Gap.exists_product hr hnumber hx
    obtain ⟨m, hm, heq⟩ := exists_multipliers_eq hnumbers hchars
    have hlimit : ∀ digits, c.x = .power digits → digits.length ≤ maxIntegerDigits := by
      intro digits hpower
      rw [hshown] at hpower
      obtain _ | _ | ⟨_, _ | e⟩ := product
      · cases hpower
      · cases hpower
      · cases hpower
      · obtain rfl := Gap.Variable.power.inj hpower
        exact e.length_le
    exact Or.inr ⟨m, c.factors, hm, by rw [hc.read_eq hlimit, Gap.Multiplier.value_congr heq]⟩
  · exact Or.inl ⟨_, hunreadable.read_eq⟩

end GapRow

namespace Factorization

variable {brackets : List (ListedBracket GapRow)} {last : GapRow} {s : List Char}

def multipliers (brackets : List (ListedBracket GapRow)) (last : GapRow) : List Gap.Multiplier :=
  (brackets.map ListedBracket.gap ++ [last]).flatMap GapRow.multipliers

section Products

variable (K : Type) [Mul K] [Neg K] [Scalar K]

/-- The product is computed from the first multiplier to the last one. -/
def product (ms : List Gap.Multiplier) : K := ms.foldl (fun v m => v * m.value) (Scalar.ofNat 1)

/-- The denominator is written as a product of unfused gaps and brackets, and its multipliers have
the product zero. -/
structure ZeroProduct (denominator : String) (brackets : List (ListedBracket GapRow))
    (last : GapRow) : Prop where
  text : ListedText GapRow.tokens brackets last denominator.toList
  ne_nil : brackets ≠ []
  unfused : ∀ b ∈ brackets, b.gap.Unfused
  unfused_last : last.Unfused
  isZero_product : Scalar.isZero (product K (multipliers brackets last)) = true

/-- A denominator without a parenthesis has the coefficients zero. -/
def IsZeroTrinomial (denominator : String) : Prop :=
  '(' ∉ denominator.toList ∧ ∃ t : Trinomial K, Trinomial.read denominator.toList = .ok t ∧
    Scalar.isZero t.a = true ∧ Scalar.isZero t.b = true ∧ Scalar.isZero t.c = true

end Products

section Reading

variable {K : Type} [Mul K] [Neg K] [Scalar K]

/-- Each bracket that is read multiplies the scale by its multiplier. -/
theorem bracketFactors_cases {cut : List Bracket}
    (h : List.Forall₂ (ListedBracket.Cut GapRow.tokens) brackets cut)
    (hunfused : ∀ b ∈ brackets, b.gap.Unfused) (leading : Bool) (v : K) :
    (∃ term, bracketFactors leading v cut = .error (.refused (.badPolynomial term))) ∨
    ∃ fs, bracketFactors leading v cut =
      .ok ((brackets.flatMap (·.gap.multipliers)).foldl (fun v m => v * m.value) v, fs) := by
  induction h generalizing leading v with
  | nil => exact Or.inr ⟨[], rfl⟩
  | @cons b c rest cut hb hrest ih =>
    obtain ⟨hfirst, hlater⟩ := List.forall_mem_cons.mp hunfused
    obtain ⟨term, hgap⟩ | ⟨m, bare, hm, hgap⟩ := GapRow.read_cases (K := K) hb.gap hfirst leading
    · exact Or.inl ⟨term, by simp only [bracketFactors, hgap, bind, Except.bind]⟩
    · have hfactor : (bracketFactor c : Except Fault (Factor K)) = .ok b.factor :=
        hb.bracketFactor_eq
      simp only [bracketFactors, hgap, hfactor, Except.mapError, bind, Except.bind,
        List.flatMap_cons, hm, List.foldl_append, List.foldl_cons, List.foldl_nil]
      obtain ⟨term, hothers⟩ | ⟨fs, hothers⟩ := ih hlater false (v * m.value)
      · exact Or.inl ⟨term, by rw [hothers]⟩
      · exact Or.inr ⟨_, by rw [hothers]; rfl⟩

/-- A written product is refused, or its scale is the product of all its multipliers. -/
theorem listed_cases (h : ListedText GapRow.tokens brackets last s) (hne : brackets ≠ [])
    (hunfused : ∀ b ∈ brackets, b.gap.Unfused) (hlast : last.Unfused) :
    (∃ term, (listed s : Except Failure (K × List (Factor K))) =
      .error (.refused (.badPolynomial term))) ∨
    ∃ fs, listed s = .ok (product K (multipliers brackets last), fs) := by
  obtain ⟨hcut, hgap⟩ := h.all_cut GapRow.gapTokens
  have hsome : (Bracket.all s).1.isEmpty = false := by
    rw [List.isEmpty_eq_false_iff]
    intro hempty
    rw [hempty] at hcut
    exact hne (List.forall₂_nil_right_iff.mp hcut)
  simp only [listed, hsome]
  obtain ⟨term, hbrackets⟩ | ⟨fs, hbrackets⟩ :=
    bracketFactors_cases hcut hunfused true (Scalar.ofNat 1 : K)
  · exact Or.inl ⟨term, by rw [hbrackets]; rfl⟩
  · obtain ⟨term, hread⟩ | ⟨m, bare, hm, hread⟩ := GapRow.read_cases (K := K) hgap hlast false
    · exact Or.inl ⟨term, by rw [hbrackets, hread]; rfl⟩
    · have hproduct : product K (multipliers brackets last) =
          (brackets.flatMap (·.gap.multipliers)).foldl (fun v m => v * m.value) (Scalar.ofNat 1) *
            m.value := by
        simp [product, multipliers, hm, List.flatMap_append, List.flatMap_map]
      exact Or.inr ⟨_, by rw [hbrackets, hread, hproduct]; rfl⟩

end Reading

variable {K : Type} {denominator : String} {F : Factorization K}
variable [Add K] [Sub K] [Mul K] [Div K] [Neg K] [Scalar K]

/-- What has groups and is accepted has no exponent that is too long. -/
theorem withinLimit_of_ofDenominator {groups : List Group} {gap : List Char}
    (hcut : Group.Cut denominator.toList groups gap) (hne : groups ≠ [])
    (h : ofDenominator denominator = .ok F) :
    (∀ g ∈ groups, g.WithinLimit) ∧ Gap.WithinLimit gap := by
  obtain ⟨hread, -⟩ := read_of_ofDenominator h
  rw [read, if_pos (hcut.hasGroup hne).open_mem] at hread
  obtain ⟨⟨v, fs⟩, hlisted, -⟩ := bind_eq_ok.mp hread
  exact hcut.withinLimit_of_listed hne hlisted

/-- A product that is zero is refused, for a gap or as a whole. -/
theorem ZeroProduct.exists_error (h : ZeroProduct K denominator brackets last) :
    ∃ term, (ofDenominator denominator : Except Failure (Factorization K)) =
      .error (.refused (.badPolynomial term)) := by
  have hopen := h.text.open_mem h.ne_nil
  obtain ⟨term, hlisted⟩ | ⟨fs, hlisted⟩ :=
    listed_cases (K := K) h.text h.ne_nil h.unfused h.unfused_last
  · exact ⟨term, ofDenominator_of_error hopen hlisted⟩
  · exact ⟨denominator, ofDenominator_of_zero hopen hlisted h.isZero_product⟩

theorem ZeroProduct.ofDenominator_ne (h : ZeroProduct K denominator brackets last) :
    ofDenominator denominator ≠ .ok F := by
  obtain ⟨term, herror⟩ := h.exists_error
  intro hok
  rw [hok] at herror
  cases herror

/-- A number is one quadratic factor. -/
theorem ofTrinomial_constant {t : Trinomial K} (ha : Scalar.isZero t.a = true)
    (hb : Scalar.isZero t.b = true) (denominator : String) :
    ofTrinomial denominator t = (Scalar.ofNat 1, [⟨.quadratic, denominator, 1, none⟩]) := by
  simp [ofTrinomial, ha, hb]

theorem ofDenominator_constant {t : Trinomial K} (hone : Scalar.isZero (Scalar.ofNat 1 : K) = false)
    (hopen : '(' ∉ denominator.toList) (hread : Trinomial.read denominator.toList = .ok t)
    (ha : Scalar.isZero t.a = true) (hb : Scalar.isZero t.b = true) :
    ofDenominator denominator =
      .ok ⟨.trinomial t, Scalar.ofNat 1, [⟨.quadratic, denominator, 1, none⟩]⟩ := by
  simp only [ofDenominator, read, if_neg hopen, hread, ofTrinomial_constant ha hb, bind,
    Except.bind, pure, Except.pure, hone]
  rfl

end Factorization

namespace Decomposition

open Factorization

variable {limit : ℤ} {text : Option String} {fraction : Fraction}

/-- The text has the fraction, and nothing in front of its denominator is refused. -/
def ReachesDenominator (limit : ℤ) (text : Option String) (fraction : Fraction) : Prop :=
  ∃ s terms, checkInput limit text = .ok s ∧ Fraction.ofText s = .ok fraction ∧
    Term.readAll fraction.numerator.toList = .ok terms

theorem ReachesDenominator.ofText_eq (h : ReachesDenominator limit text fraction) :
    ∃ terms, (ofText limit text : Except Failure (Decomposition Float)) =
      (ofDenominator fraction.denominator).map fun F => ⟨fraction, terms, F⟩ := by
  obtain ⟨s, terms, hcheck, hfraction, hterms⟩ := h
  refine ⟨terms, ?_⟩
  simp only [ofText, hcheck, hfraction, hterms, Except.mapError, bind, Except.bind, pure,
    Except.pure]
  cases (ofDenominator fraction.denominator : Except Failure (Factorization Float)) <;> rfl

/-- A single quadratic factor is no shape that is solved. -/
theorem constants_of_single {d : Decomposition Float} {content : String}
    (h : d.factorization.factors = [⟨.quadratic, content, 1, none⟩]) :
    d.constants = .error (.refused .unsupportedShape) := by
  have hkind : d.kind = .quadratic := by
    rw [kind, Factorization.kind, Factorization.hasLinear, Factorization.hasQuadratic, h]
    rfl
  rw [constants, h, hkind]
  rfl

theorem solve_of_constants {d : Decomposition Float} {e : Failure} (h : d.constants = .error e)
    (precision : ℤ) : d.solve precision = .error e := by
  simp only [solve, lines, h, bind, Except.bind]

theorem isZero_one : Scalar.isZero (Scalar.ofNat 1 : Float) = false := by decide +kernel

/-- Whatever is taken apart has a scale other than zero and no exponent that is too long, and it is
no written product whose multipliers have the product zero, which is refused. A trinomial that is
zero is kept as one quadratic factor with the scale 1, which is expanded but never solved. -/
theorem zero_denominators (limit : ℤ) (text : Option String) :
    (∀ d : Decomposition Float, ofText limit text = .ok d →
      Scalar.isZero d.factorization.scale = false ∧
      (∀ groups gap, Group.Cut d.fraction.denominator.toList groups gap → groups ≠ [] →
        (∀ g ∈ groups, g.WithinLimit) ∧ Gap.WithinLimit gap) ∧
      (∀ brackets last, ¬ ZeroProduct Float d.fraction.denominator brackets last) ∧
      (IsZeroTrinomial Float d.fraction.denominator →
        d.factorization.factors = [⟨.quadratic, d.fraction.denominator, 1, none⟩] ∧
        d.factorization.scale = Scalar.ofNat 1 ∧
        d.constants = .error (.refused .unsupportedShape) ∧
        ∀ precision, d.solve precision = .error (.refused .unsupportedShape) ∧
          ((∃ count, significantCount precision = .ok count) →
            ∃ latex, d.expand precision = .ok latex))) ∧
    ∀ fraction, ReachesDenominator limit text fraction →
      (IsZeroTrinomial Float fraction.denominator →
        ∃ d : Decomposition Float, ofText limit text = .ok d ∧ d.fraction = fraction) ∧
      ∀ brackets last, ZeroProduct Float fraction.denominator brackets last →
        ∃ term, (ofText limit text : Except Failure (Decomposition Float)) =
          .error (.refused (.badPolynomial term)) := by
  constructor
  · intro d hd
    obtain ⟨-, hF⟩ := parts_of_ofText hd
    refine ⟨(read_of_ofDenominator hF).2,
      fun _ _ hcut hne => withinLimit_of_ofDenominator hcut hne hF,
      fun _ _ hzero => hzero.ofDenominator_ne hF, ?_⟩
    rintro ⟨hopen, t, hread, ha, hb, -⟩
    have hconstant := ofDenominator_constant isZero_one hopen hread ha hb
    rw [hF] at hconstant
    have heq := Except.ok.inj hconstant
    have hfactors : d.factorization.factors = [⟨.quadratic, d.fraction.denominator, 1, none⟩] := by
      rw [heq]
    have hconstants := constants_of_single hfactors
    refine ⟨hfactors, by rw [heq], hconstants, fun precision => ?_⟩
    refine ⟨solve_of_constants hconstants precision, fun hprecision => ?_⟩
    obtain ⟨opening, hexpand, -⟩ := expand_solve_cases hd hprecision
    exact ⟨_, hexpand⟩
  · intro fraction hreaches
    obtain ⟨terms, htext⟩ := hreaches.ofText_eq
    constructor
    · rintro ⟨hopen, t, hread, ha, hb, -⟩
      rw [htext, ofDenominator_constant isZero_one hopen hread ha hb]
      exact ⟨_, rfl, rfl⟩
    · intro brackets last hzero
      obtain ⟨term, herror⟩ := hzero.exists_error
      rw [htext, herror]
      exact ⟨term, rfl⟩

section Samples

theorem isZeroTrinomial_zero : IsZeroTrinomial Float "0" := by
  refine ⟨by decide, ⟨Scalar.ofNat 0, Scalar.ofNat 0,
    Scalar.ofNumeral (.decimal false 0 0)⟩, rfl, ?_, ?_, ?_⟩ <;> decide +kernel

theorem reachesDenominator_zero :
    ReachesDenominator 10000 (some "\\frac\x7b1\x7d\x7b0\x7d") ⟨"1", "0"⟩ :=
  ⟨_, [⟨0, "+1"⟩], rfl, by decide, by decide +kernel⟩

theorem reachesDenominator_product :
    ReachesDenominator 10000 (some "\\frac\x7b1\x7d\x7b0(x + 3)\x7d") ⟨"1", "0(x + 3)"⟩ :=
  ⟨_, [⟨0, "+1"⟩], rfl, by decide, by decide +kernel⟩

def zeroBracket : ListedBracket GapRow where
  gap := ⟨[], none, [.factor (.constant .zero)]⟩
  content := "x + 3".toList
  exponent := none
  closed := close_notMem_sample

theorem listedText_sample :
    ListedText GapRow.tokens [zeroBracket] ⟨[], none, []⟩ "0(x + 3)".toList := by
  have hgap : Spaced zeroBracket.gap.tokens ['0'] := .token (t := ['0']) .done
  have htext : ListedText GapRow.tokens [zeroBracket] ⟨[], none, []⟩ _ :=
    .bracket hgap .none (.last .done)
  exact htext

theorem zeroProduct_sample : ZeroProduct Float "0(x + 3)" [zeroBracket] ⟨[], none, []⟩ where
  text := listedText_sample
  ne_nil := List.cons_ne_nil _ _
  unfused := List.forall_mem_singleton.mpr (.singleton _)
  unfused_last := .nil
  isZero_product := by decide +kernel

/-- The two zeros: `0` alone, which is constructed, and `0` before a bracket, which is refused. -/
theorem zero_denominators_sample :
    (∃ d : Decomposition Float, ofText 10000 (some "\\frac\x7b1\x7d\x7b0\x7d") = .ok d ∧
      d.fraction.denominator = "0" ∧ d.solve 10 = .error (.refused .unsupportedShape)) ∧
    ∃ term, (ofText 10000 (some "\\frac\x7b1\x7d\x7b0(x + 3)\x7d") :
        Except Failure (Decomposition Float)) = .error (.refused (.badPolynomial term)) := by
  constructor
  · obtain ⟨hconstructed, hreached⟩ :=
      zero_denominators 10000 (some "\\frac\x7b1\x7d\x7b0\x7d")
    obtain ⟨d, hd, hfraction⟩ := (hreached _ reachesDenominator_zero).1 isZeroTrinomial_zero
    have hdenominator : d.fraction.denominator = "0" := by rw [hfraction]
    obtain ⟨-, -, -, htrinomial⟩ := hconstructed d hd
    obtain ⟨-, -, -, hsolve⟩ := htrinomial (hdenominator ▸ isZeroTrinomial_zero)
    exact ⟨d, hd, hdenominator, (hsolve 10).1⟩
  · exact ((zero_denominators 10000 _).2 _ reachesDenominator_product).2 _ _ zeroProduct_sample

/-- A fraction over zero is taken apart and expanded. -/
theorem exists_zero_denominator : ∃ d : Decomposition Float,
    ofText 10000 (some "\\frac\x7b1\x7d\x7b0\x7d") = .ok d ∧
      IsZeroTrinomial Float d.fraction.denominator ∧ ∃ latex, d.expand 10 = .ok latex := by
  obtain ⟨terms, htext⟩ := reachesDenominator_zero.ofText_eq
  obtain ⟨hopen, t, hread, ha, hb, -⟩ := isZeroTrinomial_zero
  rw [ofDenominator_constant isZero_one hopen hread ha hb] at htext
  have hprecision : ∃ count, significantCount 10 = .ok count :=
    exists_significantCount (by decide) (by decide)
  obtain ⟨opening, hexpand, -⟩ := expand_solve_cases htext hprecision
  exact ⟨_, htext, isZeroTrinomial_zero, _, hexpand⟩

end Samples

end Decomposition

end PartialFractions
