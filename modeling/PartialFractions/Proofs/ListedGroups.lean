import PartialFractions.Proofs.GapGrammar

/-!
How a denominator with a closed parenthesis is read. Its groups and the gaps around them make up the
whole text. It is refused if a gap is, or if the product of the multipliers is zero; otherwise its
factors are its groups and the powers of x in its gaps, in the order of the text.
-/
namespace PartialFractions

open Text Number

/-- A power of x in the gap can be read. -/
def Gap.WithinLimit (gap : List Char) : Prop :=
  ∀ number digits, Shaped (shown gap) number (.power digits) → digits.length ≤ maxIntegerDigits

/-- A gap without an exponent has none that is too long. -/
theorem Gap.withinLimit_of_holds {leading : Bool} {gap : List Char} {c : Content}
    (h : Holds leading gap c) (hx : ∀ digits, c.x ≠ .power digits) : WithinLimit gap :=
  fun _ digits hpower => absurd (h.shaped.unique hpower).2 (hx digits)

namespace Group

structure WithinLimit (g : Group) : Prop where
  exponent : ∀ e ∈ g.exponent, e.digits.length ≤ maxIntegerDigits
  gap : Gap.WithinLimit g.gap

def gaps : Bool → List Group → List (Bool × List Char)
  | _, [] => []
  | leading, g :: rest => (leading, g.gap) :: gaps false rest

/-- The gaps in front of the groups say `cs`, and the last gap says `c`. -/
structure Filled (groups : List Group) (last : List Char) (cs : List Gap.Content)
    (c : Gap.Content) : Prop where
  gaps : List.Forall₂ (fun g c => Gap.Holds g.1 g.2 c) (gaps true groups) cs
  last : Gap.Holds false last c

def Unreadable (groups : List Group) (last : List Char) : Prop :=
  (∃ g ∈ gaps true groups, Gap.Unreadable g.1 g.2) ∨ Gap.Unreadable false last

def factors {K : Type} (groups : List Group) (cs : List Gap.Content) (c : Gap.Content) :
    List (Factor K) :=
  (List.zipWith (fun g c => c.factors ++ [g.factor]) groups cs).flatten ++ c.factors

section Scale

variable (K : Type) [Mul K] [Neg K] [Scalar K]

/-- The product of the multipliers, which is computed from the first one to the last one. -/
def scale (cs : List Gap.Content) (c : Gap.Content) : K :=
  (cs.foldl (fun v c => v * c.multiplier.value) (Scalar.ofNat 1)) * c.multiplier.value

/-- Why a denominator is refused: for a gap, or for a product of zero. -/
def Refused (groups : List Group) (last : List Char) : Prop :=
  Unreadable groups last ∨ ∃ cs c, Filled groups last cs c ∧ Scalar.isZero (scale K cs c) = true

end Scale

variable {groups : List Group} {last : List Char} {cs : List Gap.Content} {c : Gap.Content}
variable {leading : Bool} {K : Type}

theorem bracketFactor_eq {g : Group} (h : g.WithinLimit) :
    Factorization.bracketFactor g.bracket = (.ok g.factor : Except Fault (Factor K)) := by
  cases hexponent : g.exponent with
  | none => simp [Factorization.bracketFactor, bracket, factor, multiplicity, hexponent, bind,
      Except.bind, pure, Except.pure]
  | some e =>
    have hle : ¬ maxIntegerDigits < e.digits.length := Nat.not_lt.mpr (h.exponent e hexponent)
    simp [Factorization.bracketFactor, bracket, factor, multiplicity, hexponent, readDigits,
      if_neg hle, SpelledExponent.value, bind, Except.bind, pure, Except.pure]

theorem length_contentFactors (c : Gap.Content) :
    (c.factors : List (Factor K)).length = if c.x = .absent then 0 else 1 := by
  unfold Gap.Content.factors
  cases c.x <;> rfl

/-- There is a factor for every group, and one for every gap with a power of x. -/
theorem length_factors (h : List.Forall₂ (fun g c => Gap.Holds g.1 g.2 c) (gaps leading groups) cs)
    (c : Gap.Content) : (factors groups cs c : List (Factor K)).length =
      groups.length + (cs ++ [c]).countP (·.x ≠ .absent) := by
  induction groups generalizing leading cs with
  | nil =>
    cases h
    simp [factors, length_contentFactors, List.countP_singleton]
  | cons g groups ih =>
    cases h with
    | @cons _ d _ cs hd h =>
      have hrest := ih h
      simp only [factors, List.zipWith_cons_cons, List.flatten_cons, List.length_append,
        List.length_cons, List.length_nil, length_contentFactors, List.cons_append,
        List.countP_cons] at hrest ⊢
      by_cases hx : d.x = .absent
      · simp [hx] at hrest ⊢
        omega
      · simp [hx] at hrest ⊢
        omega

/-- Gaps that are not refused say something, one after the other. -/
theorem exists_contents {gs : List (Bool × List Char)}
    (h : ¬ ∃ g ∈ gs, Gap.Unreadable g.1 g.2) :
    ∃ cs, List.Forall₂ (fun g c => Gap.Holds g.1 g.2 c) gs cs := by
  induction gs with
  | nil => exact ⟨[], .nil⟩
  | cons g gs ih =>
    have hg : ¬ Gap.Unreadable g.1 g.2 := fun hg => h ⟨g, List.mem_cons_self .., hg⟩
    obtain ⟨c, hc⟩ := (Gap.holds_or_unreadable g.1 g.2).resolve_right hg
    obtain ⟨cs, hcs⟩ := ih fun ⟨w, hw, hunreadable⟩ => h ⟨w, List.mem_cons_of_mem _ hw, hunreadable⟩
    exact ⟨c :: cs, .cons hc hcs⟩

section Reading

variable [Mul K] [Neg K] [Scalar K]

/-- Gaps that say something are read as what they say, and the groups in order. -/
theorem bracketFactors_of_holds (hlimit : ∀ g ∈ groups, g.WithinLimit) (v : K)
    (h : List.Forall₂ (fun g c => Gap.Holds g.1 g.2 c) (gaps leading groups) cs) :
    Factorization.bracketFactors leading v (groups.map bracket) =
      .ok (cs.foldl (fun v c => v * c.multiplier.value) v,
        (List.zipWith (fun g c => c.factors ++ [g.factor]) groups cs).flatten) := by
  induction groups generalizing leading v cs with
  | nil =>
    cases h
    rfl
  | cons g groups ih =>
    obtain ⟨hg, hlimit⟩ := List.forall_mem_cons.mp hlimit
    cases h with
    | @cons _ c _ cs hc h =>
      have hgap : Gap.read leading g.bracket.gap =
          (.ok (c.multiplier.value, c.factors) : Except Failure (K × _)) :=
        hc.read_eq fun digits hx => hg.gap _ digits (hx ▸ hc.shaped)
      have hothers := ih hlimit (v * c.multiplier.value) h
      simp only [List.map_cons, Factorization.bracketFactors, hgap, bracketFactor_eq hg, hothers,
        Except.mapError, bind, Except.bind, pure, Except.pure]
      simp

/-- A gap that says nothing is found, after those that say something. -/
theorem bracketFactors_of_unreadable (hlimit : ∀ g ∈ groups, g.WithinLimit) (v : K)
    (h : ∃ g ∈ gaps leading groups, Gap.Unreadable g.1 g.2) :
    ∃ term, Factorization.bracketFactors leading v (groups.map bracket) =
      .error (.refused (.badPolynomial term)) := by
  induction groups generalizing leading v with
  | nil => simp [gaps] at h
  | cons g groups ih =>
    obtain ⟨hg, hlimit⟩ := List.forall_mem_cons.mp hlimit
    by_cases hgap : Gap.Unreadable leading g.gap
    · have hread : Gap.read leading g.bracket.gap = (.error (.refused (.badPolynomial
          (String.ofList (trim g.gap)))) : Except Failure (K × List (Factor K))) := hgap.read_eq
      refine ⟨String.ofList (trim g.gap), ?_⟩
      simp only [List.map_cons, Factorization.bracketFactors, hread, bind, Except.bind]
    · obtain ⟨c, hc⟩ := (Gap.holds_or_unreadable leading g.gap).resolve_right hgap
      have hread : Gap.read leading g.bracket.gap =
          (.ok (c.multiplier.value, c.factors) : Except Failure (K × _)) :=
        hc.read_eq fun digits hx => hg.gap _ digits (hx ▸ hc.shaped)
      have hlater : ∃ g ∈ gaps false groups, Gap.Unreadable g.1 g.2 := by
        obtain ⟨w, hw, hunreadable⟩ := h
        rcases List.mem_cons.mp hw with rfl | hw
        · exact absurd hunreadable hgap
        · exact ⟨w, hw, hunreadable⟩
      obtain ⟨term, hothers⟩ := ih hlimit (v * c.multiplier.value) hlater
      refine ⟨term, ?_⟩
      simp only [List.map_cons, Factorization.bracketFactors, hread, bracketFactor_eq hg, hothers,
        Except.mapError, bind, Except.bind]

theorem exists_filled (h : ¬ Unreadable groups last) : ∃ cs c, Filled groups last cs c := by
  obtain ⟨hgaps, hlast⟩ := not_or.mp h
  obtain ⟨cs, hcs⟩ := exists_contents hgaps
  obtain ⟨c, hc⟩ := (Gap.holds_or_unreadable false last).resolve_right hlast
  exact ⟨cs, c, hcs, hc⟩

variable {s : List Char}

theorem Cut.listed_of_filled (hcut : Cut s groups last) (hne : groups ≠ [])
    (hlimit : ∀ g ∈ groups, g.WithinLimit) (hlast : Gap.WithinLimit last)
    (h : Filled groups last cs c) :
    Factorization.listed s = .ok (scale K cs c, factors groups cs c) := by
  have hbrackets := bracketFactors_of_holds (K := K) hlimit (Scalar.ofNat 1) h.gaps
  have hread : Gap.read false last =
      (.ok (c.multiplier.value, c.factors) : Except Failure (K × _)) :=
    h.last.read_eq fun digits hx => hlast _ digits (hx ▸ h.last.shaped)
  exact Factorization.listed_of_cut hcut.all_eq (by simpa using hne) hbrackets hread

/-- One gap that cannot be read is enough for the whole denominator to be refused. -/
theorem Cut.listed_of_unreadable (hcut : Cut s groups last) (hne : groups ≠ [])
    (hlimit : ∀ g ∈ groups, g.WithinLimit) (h : Unreadable groups last) :
    ∃ term, (Factorization.listed s : Except Failure (K × List (Factor K))) =
      .error (.refused (.badPolynomial term)) := by
  have hsome : (groups.map bracket).isEmpty = false := by simpa using hne
  by_cases hgaps : ∃ g ∈ gaps true groups, Gap.Unreadable g.1 g.2
  · obtain ⟨term, hbrackets⟩ := bracketFactors_of_unreadable (K := K) hlimit (Scalar.ofNat 1) hgaps
    refine ⟨term, ?_⟩
    simp only [Factorization.listed, hcut.all_eq, hsome, hbrackets, bind, Except.bind]
    rfl
  · have hread : Gap.read false last = (.error (.refused (.badPolynomial
        (String.ofList (trim last)))) : Except Failure (K × List (Factor K))) :=
      (h.resolve_left hgaps).read_eq
    obtain ⟨cs, hcs⟩ := exists_contents hgaps
    have hbrackets := bracketFactors_of_holds (K := K) hlimit (Scalar.ofNat 1) hcs
    refine ⟨String.ofList (trim last), ?_⟩
    simp only [Factorization.listed, hcut.all_eq, hsome, hbrackets, hread, bind, Except.bind]
    rfl

end Reading

end Group

namespace Factorization

variable {K : Type} [Add K] [Sub K] [Mul K] [Div K] [Neg K] [Scalar K]
variable {denominator : String} {v : K} {fs : List (Factor K)}

theorem ofDenominator_of_zero (hopen : '(' ∈ denominator.toList)
    (hlisted : listed denominator.toList = .ok (v, fs)) (hv : Scalar.isZero v = true) :
    (ofDenominator denominator : Except Failure (Factorization K)) =
      .error (.refused (.badPolynomial denominator)) := by
  simp only [ofDenominator, read, if_pos hopen, hlisted, bind, Except.bind, pure, Except.pure, hv]
  rfl

theorem ofDenominator_of_error {e : Failure} (hopen : '(' ∈ denominator.toList)
    (hlisted : (listed denominator.toList : Except Failure (K × List (Factor K))) = .error e) :
    (ofDenominator denominator : Except Failure (Factorization K)) = .error e := by
  simp only [ofDenominator, read, if_pos hopen, hlisted, bind, Except.bind]

/-- A denominator with a group is cut into groups and gaps, of which it consists. If no exponent is
too long, it is refused for a gap that says nothing or for a product that is zero. Otherwise it is
read as that product, and its groups and the powers of x in its gaps are its factors. -/
theorem ofDenominator_groups (denominator : String) (hgroup : HasGroup denominator.toList) :
    (∃ groups last, Group.Cut denominator.toList groups last) ∧
    ∀ groups last, Group.Cut denominator.toList groups last →
      groups ≠ [] ∧ (groups.map Group.text).flatten ++ last = denominator.toList ∧
      ((∀ g ∈ groups, g.WithinLimit) → Gap.WithinLimit last →
        ((∃ term, (ofDenominator denominator : Except Failure (Factorization K)) =
          .error (.refused (.badPolynomial term))) ↔ Group.Refused K groups last) ∧
        (¬ Group.Refused K groups last → ∃ cs c, Group.Filled groups last cs c ∧
          (Group.factors groups cs c : List (Factor K)).length =
            groups.length + (cs ++ [c]).countP (·.x ≠ .absent) ∧
          ofDenominator denominator =
            .ok ⟨.listed, Group.scale K cs c, Group.factors groups cs c⟩)) := by
  have hopen := hgroup.open_mem
  refine ⟨Group.exists_cut _, fun groups last hcut => ?_⟩
  have hne := hcut.ne_nil hgroup
  refine ⟨hne, hcut.flatten_eq, fun hlimit hlast => ?_⟩
  have herror : Group.Refused K groups last → ∃ term,
      (ofDenominator denominator : Except Failure (Factorization K)) =
        .error (.refused (.badPolynomial term)) := by
    rintro (hunreadable | ⟨cs, c, hfilled, hzero⟩)
    · obtain ⟨term, hlisted⟩ := hcut.listed_of_unreadable (K := K) hne hlimit hunreadable
      exact ⟨term, ofDenominator_of_error hopen hlisted⟩
    · exact ⟨denominator, ofDenominator_of_zero hopen
        (hcut.listed_of_filled hne hlimit hlast hfilled) hzero⟩
  have hread : ¬ Group.Refused K groups last → ∃ cs c, Group.Filled groups last cs c ∧
      (Group.factors groups cs c : List (Factor K)).length =
        groups.length + (cs ++ [c]).countP (·.x ≠ .absent) ∧
      ofDenominator denominator =
        .ok ⟨.listed, Group.scale K cs c, Group.factors groups cs c⟩ := by
    intro h
    obtain ⟨hreadable, hnonzero⟩ := not_or.mp h
    obtain ⟨cs, c, hfilled⟩ := Group.exists_filled hreadable
    have hscale : Scalar.isZero (Group.scale K cs c) = false :=
      Bool.eq_false_iff.mpr fun hzero => hnonzero ⟨cs, c, hfilled, hzero⟩
    exact ⟨cs, c, hfilled, Group.length_factors hfilled.gaps c,
      ofDenominator_of_open hopen (hcut.listed_of_filled hne hlimit hlast hfilled) hscale⟩
  refine ⟨⟨fun ⟨term, hfail⟩ => ?_, herror⟩, hread⟩
  by_contra h
  obtain ⟨cs, c, -, -, hok⟩ := hread h
  rw [hok] at hfail
  cases hfail

section Sample

theorem isDigits_two : IsDigits ['2'] where
  isDigit_of_mem := isDigit_of_mem_singleton isDigit_two
  ne_nil := List.cons_ne_nil _ _

theorem open_notMem_sample : '(' ∉ "-2x\\cdot".toList := by decide

theorem close_notMem_sample : ')' ∉ "x + 3".toList := by decide

/-- The content x + 3 with the exponent 2, behind -2x. -/
def sampleGroup : Group where
  gap := "-2x\\cdot".toList
  content := "x + 3".toList
  exponent := some ⟨[], true, ['2'], true, List.forall_mem_nil _, isDigits_two⟩
  open_notMem := open_notMem_sample
  close_notMem := close_notMem_sample

theorem withinLimit_sample : sampleGroup.WithinLimit where
  exponent := by
    rintro e ⟨⟩
    decide
  gap := by
    have htwo : Gap.NumberText ['-', '2'] := .signed (by decide) (Gap.isRow_singleton isDigit_two)
    have hholds : Gap.Holds true sampleGroup.gap
        ⟨.signed true (.ofDigit '2' isDigit_two), .plain⟩ := ⟨.mk htwo .plain, by simp⟩
    exact Gap.withinLimit_of_holds hholds (by simp)

theorem ofDenominator_groups_sample :
    HasGroup "-2x\\cdot(x + 3)^\x7b2\x7d".toList ∧ ∃ cs c,
      Group.Filled [sampleGroup] [] cs c ∧
      (ofDenominator "-2x\\cdot(x + 3)^\x7b2\x7d" : Except Failure (Factorization Float)) =
        .ok ⟨.listed, Group.scale Float cs c, Group.factors [sampleGroup] cs c⟩ := by
  have hgroup : HasGroup "-2x\\cdot(x + 3)^\x7b2\x7d".toList := sampleGroup.hasGroup_text []
  refine ⟨hgroup, ?_⟩
  obtain ⟨-, -, hread⟩ :=
    (ofDenominator_groups (K := Float) _ hgroup).2 [sampleGroup] [] sampleGroup.cut_text
  obtain ⟨hrefused, hok⟩ := hread (List.forall_mem_singleton.mpr withinLimit_sample)
    (Gap.withinLimit_of_holds (Gap.holds_nil false) (by simp))
  have hsome : (ofDenominator "-2x\\cdot(x + 3)^\x7b2\x7d" :
      Except Failure (Factorization Float)).toBool = true := by decide +kernel
  obtain ⟨cs, c, hfilled, -, hfactors⟩ := hok fun h => by
    obtain ⟨term, herror⟩ := hrefused.mpr h
    rw [herror] at hsome
    cases hsome
  exact ⟨cs, c, hfilled, hfactors⟩

end Sample

end Factorization

end PartialFractions
