import Mathlib
import PartialFractions.Proofs.Labels
import PartialFractions.Template

/-!
The labels of the template are the first ones, in order and without gaps: as many as the factors
have levels, counted twice over quadratic factors. Both sides of the identity show the same labels.
-/
namespace PartialFractions

variable {K : Type}

namespace Formula

mutual

/-- The texts of a formula that are labels: neither x, nor a minus sign, nor the content of a factor
in parentheses or below a fraction bar. -/
def labels : Formula K → List String
  | .latex s => if s = "x" ∨ s = "-" then [] else [s]
  | .number _ => []
  | .group (.latex _) => []
  | .group inner => labels inner
  | .power base _ => labels base
  | .product factors _ => labelsOfAll factors
  | .sum terms => labelsOfAll terms
  | .fraction numerator (.latex _) _ => labels numerator
  | .fraction numerator denominator _ => labels numerator ++ labels denominator
  | .absolute inner => labels inner
  | .integral body _ => labels body
  | .relation lhs rhs _ => labels lhs ++ labels rhs
  | .bare => []

def labelsOfAll : List (Formula K) → List String
  | [] => []
  | first :: rest => labels first ++ labelsOfAll rest

end

theorem labelsOfAll_eq (formulas : List (Formula K)) :
    labelsOfAll formulas = formulas.flatMap labels := by
  induction formulas with
  | nil => rfl
  | cons first rest ih => rw [List.flatMap_cons, ← ih, labelsOfAll]

@[simp] theorem labels_label (index : Nat) :
    labels (.latex (Label.ofNat index) : Formula K) = [Label.ofNat index] :=
  if_neg (not_or_intro (Label.ofNat_ne_x index) (Label.ofNat_ne_minus index))

@[simp] theorem labels_x : labels (.latex "x" : Formula K) = [] := rfl

@[simp] theorem labels_sum (terms : List (Formula K)) :
    labels (.sum terms) = terms.flatMap labels :=
  labelsOfAll_eq terms

@[simp] theorem labels_beside (factors : List (Formula K)) :
    labels (beside factors) = factors.flatMap labels :=
  labelsOfAll_eq factors

end Formula

@[simp] theorem Factor.labels_raised (f : Factor K) (exponent : Int) :
    (f.raised exponent).labels = [] := rfl

namespace Slot

def labels (s : Slot K) : List String :=
  (List.range s.factor.kind.places).map fun i => Label.ofNat (s.index + i)

theorem labels_numerator (s : Slot K) : s.numerator.labels = s.labels := by
  unfold numerator labels
  cases s.factor.kind <;> simp [FactorKind.places, List.range_succ]

theorem labels_leadingFactor (s : Slot K) : s.leadingFactor.labels = s.labels := by
  rw [← s.labels_numerator]
  unfold leadingFactor numerator
  cases s.factor.kind <;> simp [Formula.labels]

end Slot

theorem FactorKind.places_pos (kind : FactorKind) : 0 < kind.places := by
  cases kind <;> simp [places]

namespace Template

def size (factors : List (Factor K)) : Nat :=
  (factors.map fun f => f.multiplicity.toNat * f.kind.places).sum

theorem size_cons (f : Factor K) (rest : List (Factor K)) :
    size (f :: rest) = f.multiplicity.toNat * f.kind.places + size rest := by
  simp [size]

def labels (factors : List (Factor K)) : List String := (slots factors).flatMap Slot.labels

theorem labels_term (s : Slot K) : (term s).labels = s.labels := by
  unfold term Formula.quotient
  split <;> simp [Formula.labels, Factor.raised, s.labels_numerator]

theorem labels_expandedTerm (s : Slot K) : (expandedTerm s).labels = s.labels := by
  have hothers : (s.others.map fun f => f.raised f.multiplicity).flatMap Formula.labels = [] := by
    simp
  unfold expandedTerm
  dsimp only
  split <;> simp [s.labels_leadingFactor]

theorem labels_formula (factors : List (Factor K)) : (formula factors).labels = labels factors := by
  simp [formula, labels, List.flatMap_map, labels_term]

theorem labels_expanded (factors : List (Factor K)) :
    (expanded factors).labels = labels factors := by
  simp [expanded, labels, List.flatMap_map, labels_expandedTerm]

/-- A row of blocks of `width` labels. -/
private theorem flatMap_blocks (index width count : Nat) :
    ((List.range count).flatMap fun j =>
      (List.range width).map fun i => Label.ofNat (index + j * width + i)) =
      (List.range (count * width)).map fun i => Label.ofNat (index + i) := by
  induction count with
  | zero => simp
  | succ count ih =>
    rw [List.range_succ, List.flatMap_append, ih, Nat.succ_mul, List.range_add, List.map_append]
    simp [Nat.add_assoc]

/-- The labels of all slots are numbered without a gap from the first index on. -/
theorem labels_slotsFrom (before rest : List (Factor K)) (index : Nat) :
    (slotsFrom before index rest).flatMap Slot.labels =
      (List.range (size rest)).map fun i => Label.ofNat (index + i) := by
  induction rest generalizing before index with
  | nil => simp [slotsFrom, size]
  | cons f rest ih =>
    have hown := flatMap_blocks index f.kind.places f.multiplicity.toNat
    rw [slotsFrom, List.flatMap_append, List.flatMap_map, ih, size_cons, List.range_add,
      List.map_append]
    simp only [Slot.labels, hown, List.map_map]
    simp [Function.comp_def, Nat.add_assoc]

/-- The labels of the template are those with the numbers below its size. -/
theorem labels_eq (factors : List (Factor K)) :
    labels factors = (List.range (size factors)).map Label.ofNat := by
  rw [labels, slots, labels_slotsFrom]
  simp

theorem ofNat_mem_labels_iff {factors : List (Factor K)} {index : Nat} :
    Label.ofNat index ∈ labels factors ↔ index < size factors := by
  rw [labels_eq, List.mem_map]
  constructor
  · rintro ⟨i, hi, heq⟩
    rw [← Label.ofNat_injective heq]
    exact List.mem_range.mp hi
  · intro h
    exact ⟨index, List.mem_range.mpr h, rfl⟩

/-- With labels for all levels of two factors that are not repeated, both have one level. -/
theorem multiplicity_of_labels_eq {f g : Factor K} {kind : FactorKind} (hf : f.kind = kind)
    (hg : g.kind = kind) (hfirst : f.multiplicity ≤ 1) (hsecond : g.multiplicity ≤ 1)
    {names : List String} (hnames : names.length = 2 * kind.places)
    (h : (expanded [f, g]).labels = names) : f.multiplicity = 1 ∧ g.multiplicity = 1 := by
  have hlength := congrArg List.length h
  rw [labels_expanded, labels_eq, List.length_map, List.length_range, hnames] at hlength
  have hlevels : f.multiplicity.toNat + g.multiplicity.toNat = 2 := by
    simp only [size, List.map_cons, List.map_nil, List.sum_cons, List.sum_nil, hf, hg, add_zero,
      ← Nat.add_mul] at hlength
    exact Nat.eq_of_mul_eq_mul_right kind.places_pos hlength
  omega

theorem labels_expanded_pair {f g : Factor K} {kind : FactorKind} (hf : f.kind = kind)
    (hg : g.kind = kind) (hfirst : f.multiplicity = 1) (hsecond : g.multiplicity = 1) :
    (expanded [f, g]).labels = (List.range (2 * kind.places)).map Label.ofNat := by
  rw [labels_expanded, labels_eq]
  simp [size, hf, hg, hfirst, hsecond, Nat.two_mul]

end Template

end PartialFractions
