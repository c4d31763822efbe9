import PartialFractions.Proofs.SolvedShapes
import PartialFractions.Proofs.UnreadableTexts

/-!
Formulas that are rendered. A formula without a bare node fails only where a number has no text, and
so do the lines of a template and of a derivation. The text of some lines begins that of
the same lines with others behind them.
-/
namespace PartialFractions

open Number

variable {K : Type}

namespace Formula

/-- No node of the formula is a bare one. -/
inductive Drawn : Formula K → Prop
  | latex (text : String) : Drawn (.latex text)
  | number (v : K) : Drawn (.number v)
  | group {f : Formula K} (h : Drawn f) : Drawn (.group f)
  | power {f : Formula K} {n : ℤ} (h : Drawn f) : Drawn (.power f n)
  | product {fs : List (Formula K)} {separator : String} (h : ∀ f ∈ fs, Drawn f) :
      Drawn (.product fs separator)
  | sum {fs : List (Formula K)} (h : ∀ f ∈ fs, Drawn f) : Drawn (.sum fs)
  | fraction {f g : Formula K} {display : Bool} (hf : Drawn f) (hg : Drawn g) :
      Drawn (.fraction f g display)
  | absolute {f : Formula K} (h : Drawn f) : Drawn (.absolute f)
  | integral {f : Formula K} {var : String} (h : Drawn f) : Drawn (.integral f var)
  | relation {f g : Formula K} {op : String} (hf : Drawn f) (hg : Drawn g) :
      Drawn (.relation f g op)

section Nodes

variable {f g : Formula K} {fs : List (Formula K)}

@[simp] theorem drawn_latex (text : String) : Drawn (K := K) (.latex text) := .latex text

@[simp] theorem drawn_number (v : K) : Drawn (.number v) := .number v

@[simp] theorem drawn_group : Drawn (.group f) ↔ Drawn f :=
  ⟨fun h => by cases h; assumption, .group⟩

@[simp] theorem drawn_power {n : ℤ} : Drawn (.power f n) ↔ Drawn f :=
  ⟨fun h => by cases h; assumption, .power⟩

@[simp] theorem drawn_product {separator : String} :
    Drawn (.product fs separator) ↔ ∀ f ∈ fs, Drawn f :=
  ⟨fun h => by cases h; assumption, .product⟩

@[simp] theorem drawn_sum : Drawn (.sum fs) ↔ ∀ f ∈ fs, Drawn f :=
  ⟨fun h => by cases h; assumption, .sum⟩

@[simp] theorem drawn_fraction {display : Bool} :
    Drawn (.fraction f g display) ↔ Drawn f ∧ Drawn g :=
  ⟨fun h => by cases h; exact ⟨by assumption, by assumption⟩, fun h => .fraction h.1 h.2⟩

@[simp] theorem drawn_absolute : Drawn (.absolute f) ↔ Drawn f :=
  ⟨fun h => by cases h; assumption, .absolute⟩

@[simp] theorem drawn_integral {var : String} : Drawn (.integral f var) ↔ Drawn f :=
  ⟨fun h => by cases h; assumption, .integral⟩

@[simp] theorem drawn_relation {op : String} : Drawn (.relation f g op) ↔ Drawn f ∧ Drawn g :=
  ⟨fun h => by cases h; exact ⟨by assumption, by assumption⟩, fun h => .relation h.1 h.2⟩

end Nodes

section Texts

variable [Neg K] [Scalar K] {precision : ℤ} {fs lines steps : List (Formula K)} {P : Fault → Prop}

theorem failsWithin_renderFactors
    (h : ∀ f ∈ fs, ∀ unsigned, FailsWithin P (renderWith precision unsigned f)) (unsigned : Bool) :
    FailsWithin P (renderFactors precision unsigned fs) := by
  induction fs generalizing unsigned with
  | nil => exact .value _
  | cons f fs ih =>
    obtain ⟨hf, hfs⟩ := List.forall_mem_cons.mp h
    rw [renderFactors]
    exact (hf unsigned).bind fun _ _ => (ih hfs false).bind fun _ _ => .value _

theorem failsWithin_renderTerms
    (h : ∀ f ∈ fs, ∀ unsigned, FailsWithin P (renderWith precision unsigned f)) :
    FailsWithin P (renderTerms precision fs) := by
  induction fs with
  | nil => exact .value _
  | cons f fs ih =>
    obtain ⟨hf, hfs⟩ := List.forall_mem_cons.mp h
    rw [renderTerms]
    exact (hf _).bind fun _ _ => (ih hfs).bind fun _ _ => .value _

/-- A formula without a bare node fails only where one of its numbers does. -/
theorem Drawn.failsWithin_renderWith {f : Formula K} (h : Drawn f)
    (hnumber : ∀ v : K, FailsWithin (fun e => P (.precision e)) (Scalar.roundedText precision v))
    (unsigned : Bool) : FailsWithin P (renderWith precision unsigned f) := by
  induction h generalizing unsigned with
  | latex text => exact .value text
  | number v => exact .mapError (hnumber _)
  | group _ ih | absolute _ ih | integral _ ih => exact (ih false).bind fun _ _ => .value _
  | power _ ih =>
    rw [renderWith]
    split
    · exact ih false
    · exact (ih false).bind fun _ _ => .value _
  | product _ ih => exact (failsWithin_renderFactors ih unsigned).bind fun _ _ => .value _
  | @sum fs _ ih =>
    cases fs with
    | nil => exact .value "0"
    | cons f fs =>
      obtain ⟨hf, hfs⟩ := List.forall_mem_cons.mp ih
      rw [renderWith]
      exact (hf false).bind fun _ _ => (failsWithin_renderTerms hfs).bind fun _ _ => .value _
  | fraction _ _ ihf ihg =>
    exact (ihf unsigned).bind fun _ _ => (ihg false).bind fun _ _ => .value _
  | relation _ _ ihf ihg =>
    exact (ihf false).bind fun _ _ => (ihg false).bind fun _ _ => .value _

theorem failsWithin_renderArray (h : ∀ f ∈ lines, Drawn f)
    (hnumber : ∀ v : K, FailsWithin (fun e => P (.precision e)) (Scalar.roundedText precision v)) :
    FailsWithin P (renderArray precision lines) := by
  have hrows : FailsWithin P (lines.mapM (render precision)) := by
    induction lines with
    | nil => exact .value _
    | cons f lines ih =>
      obtain ⟨hf, hlines⟩ := List.forall_mem_cons.mp h
      rw [List.mapM_cons]
      exact (hf.failsWithin_renderWith hnumber false).bind fun _ _ =>
        (ih hlines).bind fun _ _ => .value _
  exact hrows.bind fun _ _ => .value _

/-- Where every number has a text, every formula without a bare node has one. -/
theorem Drawn.exists_renderWith {f : Formula K} (h : Drawn f)
    (hnumber : ∀ v : K, ∃ s, Scalar.roundedText precision v = .ok s) (unsigned : Bool) :
    ∃ s, renderWith precision unsigned f = .ok s := by
  refine (h.failsWithin_renderWith (P := fun _ => False) ?_ unsigned).exists_value fun _ => id
  intro v e he
  obtain ⟨s, hs⟩ := hnumber v
  cases hs.symm.trans he

/-- The texts of lines, one for each of them. -/
theorem exists_rows (h : ∀ f ∈ lines, Drawn f)
    (hnumber : ∀ v : K, ∃ s, Scalar.roundedText precision v = .ok s) :
    ∃ rows, lines.mapM (render precision) = .ok rows ∧ rows.length = lines.length := by
  induction lines with
  | nil => exact ⟨[], rfl, rfl⟩
  | cons f lines ih =>
    obtain ⟨hf, hlines⟩ := List.forall_mem_cons.mp h
    obtain ⟨s, hs⟩ := hf.exists_renderWith hnumber false
    obtain ⟨rows, hrows, hlength⟩ := ih hlines
    refine ⟨s :: rows, ?_, by simp [hlength]⟩
    rw [List.mapM_cons, render, hs, hrows]
    rfl

/-- Behind the first rows of an array a line ends. -/
theorem exists_intercalate_append {rows : List String} (hne : rows ≠ []) (others : List String) :
    ∃ rest, "\n\\\\ \\\\ \\displaystyle\n".intercalate (rows ++ others) ++ "\n\\end\x7barray\x7d" =
      "\n\\\\ \\\\ \\displaystyle\n".intercalate rows ++ "\n" ++ rest := by
  by_cases hothers : others = []
  · refine ⟨"\\end\x7barray\x7d", ?_⟩
    rw [hothers, List.append_nil, String.append_assoc]
    rfl
  · refine ⟨"\\\\ \\\\ \\displaystyle\n" ++
      "\n\\\\ \\\\ \\displaystyle\n".intercalate others ++ "\n\\end\x7barray\x7d", ?_⟩
    have hbreak : "\n\\\\ \\\\ \\displaystyle\n" = "\n" ++ "\\\\ \\\\ \\displaystyle\n" := rfl
    rw [String.intercalate_append_of_ne_nil hne hothers]
    generalize "\n\\\\ \\\\ \\displaystyle\n".intercalate rows = above
    generalize "\n\\\\ \\\\ \\displaystyle\n".intercalate others = below
    rw [hbreak]
    simp only [String.append_assoc]

/-- What some lines are rendered as begins what they are rendered as with other lines behind them,
except for the line that closes the array. -/
theorem exists_renderArray_append (hne : lines ≠ []) (hlines : ∀ f ∈ lines, Drawn f)
    (hsteps : ∀ f ∈ steps, Drawn f)
    (hnumber : ∀ v : K, ∃ s, Scalar.roundedText precision v = .ok s) :
    ∃ opening rest, renderArray precision lines = .ok (opening ++ "\n\\end\x7barray\x7d") ∧
      renderArray precision (lines ++ steps) = .ok (opening ++ "\n" ++ rest) := by
  obtain ⟨rows, hrows, hlength⟩ := exists_rows hlines hnumber
  obtain ⟨others, hothers, -⟩ := exists_rows hsteps hnumber
  have hall : (lines ++ steps).mapM (render precision) = .ok (rows ++ others) := by
    rw [List.mapM_append, hrows, hothers]
    rfl
  have hrowsne : rows ≠ [] := by
    rintro rfl
    exact hne (List.length_eq_zero_iff.mp hlength.symm)
  obtain ⟨rest, hrest⟩ := exists_intercalate_append hrowsne others
  refine ⟨"\\begin\x7barray\x7d\x7bl\x7d \\displaystyle\n" ++
    "\n\\\\ \\\\ \\displaystyle\n".intercalate rows, rest, ?_, ?_⟩
  · rw [renderArray, hrows]
    rfl
  · rw [renderArray, hall]
    simp only [bind, Except.bind, pure, Except.pure, String.append_assoc] at hrest ⊢
    rw [hrest]

end Texts

end Formula

open Formula

namespace Template

@[simp] theorem drawn_raised (f : Factor K) (n : ℤ) : (f.raised n).Drawn := by
  simp [Factor.raised]

@[simp] theorem drawn_numerator (s : Slot K) : s.numerator.Drawn := by
  unfold Slot.numerator
  split <;> simp [beside]

@[simp] theorem drawn_leadingFactor (s : Slot K) : s.leadingFactor.Drawn := by
  unfold Slot.leadingFactor
  split <;> simp

theorem drawn_formula (factors : List (Factor K)) : (formula factors).Drawn := by
  simp only [formula, drawn_sum, List.forall_mem_map]
  intro s _
  unfold term
  split <;> simp [quotient]

theorem drawn_expanded (factors : List (Factor K)) : (expanded factors).Drawn := by
  simp only [expanded, drawn_sum, List.forall_mem_map]
  intro s _
  simp only [expandedTerm, beside, drawn_product, List.forall_mem_append, List.forall_mem_cons,
    List.forall_mem_map]
  refine ⟨⟨drawn_leadingFactor s, ?_⟩, fun f _ => drawn_raised f _⟩
  split <;> simp

variable [Neg K] [Scalar K]

theorem drawn_scaled {f : Formula K} (h : f.Drawn) (scale : K) : (scaled f scale).Drawn := by
  unfold scaled
  split
  · exact h
  · split <;> simp [beside, h]

theorem drawn_identityLines (numerator denominator : String) (factors : List (Factor K))
    (scale : K) : ∀ f ∈ identityLines numerator denominator factors scale, f.Drawn := by
  have hcleared := drawn_scaled (drawn_expanded factors) scale
  simp [identityLines, equation, quotient, drawn_formula, hcleared]

end Template

namespace Derivation

theorem drawn_constantsLine (constants : Constants K) : (constantsLine constants).Drawn := by
  simp only [constantsLine, spaced, drawn_product, List.forall_mem_map]
  rintro ⟨label, v⟩ _
  simp [equation]

/-- Over two constants and two factors there are lines. -/
theorem exists_linearLines (A B : String) (a b : K) (f g : Factor K) :
    ∃ steps, linearLines [(A, a), (B, b)] [f, g] = .ok steps ∧ ∀ l ∈ steps, l.Drawn := by
  refine ⟨_, rfl, ?_⟩
  simp [drawn_constantsLine, quotient, dotted, logarithm, beside]

theorem eq_of_contents {factors : List (Factor K)} {f g : Factor K}
    (h : contents factors = .ok (f, g)) : ∃ others, factors = f :: g :: others := by
  unfold contents at h
  split at h
  · obtain ⟨rfl, rfl⟩ := Prod.mk.inj (Except.ok.inj h)
    exact ⟨_, rfl⟩
  · cases h

/-- Lines for linear factors are those of two constants and of the first two factors. -/
theorem linearLines_cases {constants : Constants K} {factors : List (Factor K)}
    {steps : List (Formula K)} (h : linearLines constants factors = .ok steps) :
    ∃ A a B b f g others, constants = [(A, a), (B, b)] ∧ factors = f :: g :: others ∧
      linearLines [(A, a), (B, b)] [f, g] = .ok steps := by
  unfold linearLines at h
  split at h
  · rename_i A a B b
    obtain ⟨⟨f, g⟩, hcontents, hsteps⟩ := bind_eq_ok.mp h
    obtain ⟨others, rfl⟩ := eq_of_contents hcontents
    exact ⟨A, a, B, b, f, g, others, rfl, rfl, hsteps⟩
  · cases h

variable [Add K] [Sub K] [Mul K] [Div K] [Neg K] [Scalar K]

omit [Add K] [Sub K] [Mul K] [Div K] in
@[simp] theorem drawn_reciprocalAntiderivative (rate : K) :
    (reciprocalAntiderivative rate).Drawn := by
  unfold reciprocalAntiderivative
  split <;> simp [beside, displayQuotient, squareRoot]

omit [Add K] [Sub K] [Mul K] in
theorem drawn_quadraticSteps (constants : Constants K) (a b c d : K) (f g : String) (r s : K) :
    ∀ l ∈ quadraticSteps constants a b c d f g r s, l.Drawn := by
  simp [quadraticSteps, drawn_constantsLine, quotient, displayQuotient, dotted, spaced, equation,
    logarithm, beside, affine, cancelledIntegral]

omit [Add K] [Sub K] [Mul K] in
/-- Over four constants and two factors with rates there are lines. -/
theorem quadraticLines_eq_ok (A B C D : String) (a b c d : K) {f g : Factor K} {r s : K}
    (hr : Solution.rate f = .ok r) (hs : Solution.rate g = .ok s) :
    quadraticLines [(A, a), (B, b), (C, c), (D, d)] [f, g] =
      .ok (quadraticSteps [(A, a), (B, b), (C, c), (D, d)] a b c d f.content g.content r s) := by
  simp only [quadraticLines, contents, Except.mapError, bind, Except.bind, hr, hs]
  rfl

omit [Add K] [Sub K] [Mul K] in
/-- Lines for quadratic factors are those of four constants and of the rates of two factors. -/
theorem quadraticLines_cases {constants : Constants K} {factors : List (Factor K)}
    {steps : List (Formula K)} (h : quadraticLines constants factors = .ok steps) :
    ∃ A a B b C c D d f g others r s,
      constants = [(A, a), (B, b), (C, c), (D, d)] ∧ factors = f :: g :: others ∧
      steps = quadraticSteps constants a b c d f.content g.content r s := by
  unfold quadraticLines at h
  split at h
  · rename_i A a B b C c D d
    obtain ⟨⟨f, g⟩, hcontents, hrates⟩ := bind_eq_ok.mp h
    obtain ⟨r, -, hrates⟩ := bind_eq_ok.mp hrates
    obtain ⟨s, -, hsteps⟩ := bind_eq_ok.mp hrates
    obtain ⟨others, rfl⟩ := eq_of_contents (mapError_eq_ok.mp hcontents)
    exact ⟨A, a, B, b, C, c, D, d, f, g, others, r, s, rfl, rfl, (Except.ok.inj hsteps).symm⟩
  · cases h

/-- Whenever constants are solved, there are lines behind them. -/
theorem exists_lines {terms : List Term} {factors : List (Factor K)} {scale : K}
    {kind : ExpressionKind} {cs : Constants K} (h : Solution.Solved terms factors scale kind cs) :
    ∃ steps, lines kind cs factors = .ok steps ∧ ∀ l ∈ steps, l.Drawn := by
  cases h with
  | @linear f g c₁ c₂ r s hfactors =>
    obtain ⟨steps, hsteps, hdrawn⟩ := exists_linearLines (Label.ofNat 0) (Label.ofNat 1)
      ((c₁ / scale * r + c₂ / scale) / (r - s)) ((c₁ / scale * s + c₂ / scale) / (s - r)) f g
    refine ⟨steps, ?_, hdrawn⟩
    rw [lines, hfactors, Solution.overLinear, hsteps]
    rfl
  | @quadratic f g c₁ c₂ r s hfactors _ _ _ _ hr hs =>
    have hlines (cs : Constants K) : lines .quadratic cs factors = quadraticLines cs [f, g] := by
      rw [hfactors]
      rfl
    rw [hlines]
    exact ⟨_, quadraticLines_eq_ok _ _ _ _ _ _ _ _ hr hs, drawn_quadraticSteps _ _ _ _ _ _ _ _ _⟩

end Derivation

end PartialFractions
