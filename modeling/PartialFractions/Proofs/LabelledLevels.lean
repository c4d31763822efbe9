import Mathlib
import PartialFractions.Proofs.TemplateLabels

/-!
Where the labels of a template stand. The levels of all factors are numbered in order, and every
level takes the labels that follow those of the levels before it: one over a linear factor, two over
another one. A level has the same labels in the template and in the expanded identity.
-/
namespace PartialFractions

variable {K : Type}

theorem FactorKind.places_eq (kind : FactorKind) :
    kind.places = if kind = .linear then 1 else 2 := by
  cases kind <;> rfl

namespace Template

def levels (factors : List (Factor K)) : ℕ := (factors.map fun f => f.multiplicity.toNat).sum

theorem levels_cons (f : Factor K) (rest : List (Factor K)) :
    levels (f :: rest) = f.multiplicity.toNat + levels rest := by
  simp [levels]

/-- The number of the first label at level `j`, counted from zero, of factor number `i`, which is of
this kind. -/
def firstLabel (factors : List (Factor K)) (i j : ℕ) (kind : FactorKind) : ℕ :=
  size (factors.take i) + j * kind.places

def unknown (kind : FactorKind) (n : ℕ) : Formula K :=
  if kind = .linear then .latex (Label.ofNat n)
  else .sum [.beside [.latex (Label.ofNat n), "x"], .latex (Label.ofNat (n + 1))]

theorem numerator_eq_unknown (s : Slot K) : s.numerator = unknown s.factor.kind s.index := by
  unfold Slot.numerator unknown
  cases s.factor.kind <;> simp

theorem leadingFactor_eq_unknown (s : Slot K) : s.leadingFactor =
    if s.factor.kind = .linear then unknown s.factor.kind s.index
    else .group (unknown s.factor.kind s.index) := by
  rw [← numerator_eq_unknown]
  unfold Slot.leadingFactor
  cases s.factor.kind <;> simp

theorem length_slotsFrom (before rest : List (Factor K)) (index : ℕ) :
    (slotsFrom before index rest).length = levels rest := by
  induction rest generalizing before index with
  | nil => rfl
  | cons f rest ih =>
    rw [slotsFrom, List.length_append, ih, levels_cons]
    simp

/-- The slot of a level, by the factors in front of its own one. -/
theorem getElem?_slotsFrom (before rest : List (Factor K)) (index : ℕ) {i : ℕ} {f : Factor K}
    (hf : rest[i]? = some f) {j : ℕ} (hj : j < f.multiplicity.toNat) :
    (slotsFrom before index rest)[levels (rest.take i) + j]? = some
      ⟨f, before ++ rest.eraseIdx i, j + 1, index + firstLabel rest i j f.kind⟩ := by
  induction rest generalizing before index i with
  | nil => simp at hf
  | cons g rest ih =>
    rw [slotsFrom]
    cases i with
    | zero =>
      obtain rfl : g = f := by simpa using hf
      have hlevel : levels ((g :: rest).take 0) + j = j := Nat.zero_add j
      have hindex : firstLabel (g :: rest) 0 j g.kind = j * g.kind.places := Nat.zero_add _
      rw [hlevel, hindex, List.getElem?_append_left (by simpa using hj), List.getElem?_map,
        List.getElem?_range hj]
      rfl
    | succ i =>
      have hrest : rest[i]? = some f := by simpa using hf
      have hown : ((List.range g.multiplicity.toNat).map fun k : ℕ =>
          (⟨g, before ++ rest, k + 1, index + k * g.kind.places⟩ : Slot K)).length =
            g.multiplicity.toNat := by simp
      have hbehind : g.multiplicity.toNat ≤ levels ((g :: rest).take (i + 1)) + j := by
        rw [List.take_succ_cons, levels_cons]
        omega
      have hlevel : levels ((g :: rest).take (i + 1)) + j - g.multiplicity.toNat =
          levels (rest.take i) + j := by
        rw [List.take_succ_cons, levels_cons]
        omega
      have hindex : index + g.multiplicity.toNat * g.kind.places + firstLabel rest i j f.kind =
          index + firstLabel (g :: rest) (i + 1) j f.kind := by
        rw [firstLabel, firstLabel, List.take_succ_cons, size_cons]
        omega
      rw [List.getElem?_append_right (hown.symm ▸ hbehind), hown, hlevel, ih _ _ hrest, hindex,
        List.eraseIdx_cons_succ, List.append_assoc]
      rfl

theorem nodup_labels (factors : List (Factor K)) : (labels factors).Nodup := by
  rw [labels_eq]
  exact List.nodup_range.map Label.ofNat_injective

/-- Where no multiplicity is negative, there are as many labels as the multiplicities make, counted
twice over factors that are not linear. -/
theorem size_eq_sum {factors : List (Factor K)} (h : ∀ f ∈ factors, 0 ≤ f.multiplicity) :
    (size factors : ℤ) =
      (factors.map fun f => f.multiplicity * if f.kind = .linear then 1 else 2).sum := by
  induction factors with
  | nil => rfl
  | cons f rest ih =>
    obtain ⟨hf, hrest⟩ := List.forall_mem_cons.mp h
    have hlevels : (f.multiplicity.toNat : ℤ) = f.multiplicity := Int.toNat_of_nonneg hf
    rw [size_cons, List.map_cons, List.sum_cons, ← ih hrest, FactorKind.places_eq]
    push_cast [hlevels]
    rfl

/-- The labels of the template are the first ones in order, all different. The expanded identity has
the same ones, and the summands of both for a level of a factor have the same unknown numerator. -/
theorem levels_labelled (factors : List (Factor K)) :
    (formula factors).labels = (List.range (size factors)).map Label.ofNat ∧
    (expanded factors).labels = (formula factors).labels ∧
    Function.Injective Label.ofNat ∧ (formula factors).labels.Nodup ∧
    ((∀ f ∈ factors, 0 ≤ f.multiplicity) → (size factors : ℤ) =
      (factors.map fun f => f.multiplicity * if f.kind = .linear then 1 else 2).sum) ∧
    ∃ terms cleared : List (Formula K),
      formula factors = .sum terms ∧ expanded factors = .sum cleared ∧
      terms.length = levels factors ∧ cleared.length = levels factors ∧
      ∀ (i : ℕ) (f : Factor K), factors[i]? = some f → ∀ j < f.multiplicity.toNat,
        terms[levels (factors.take i) + j]? = some
          (.quotient (unknown f.kind (firstLabel factors i j f.kind))
            (if j = 0 then .latex f.content else f.raised (j + 1))) ∧
        cleared[levels (factors.take i) + j]? = some (.beside
          ((if f.kind = .linear then unknown f.kind (firstLabel factors i j f.kind)
            else .group (unknown f.kind (firstLabel factors i j f.kind))) ::
          (if 0 < f.multiplicity - (j + 1) then [f.raised (f.multiplicity - (j + 1))] else []) ++
          (factors.eraseIdx i).map fun g => g.raised g.multiplicity)) := by
  have hlength : (slots factors).length = levels factors := length_slotsFrom [] factors 0
  refine ⟨?_, ?_, Label.ofNat_injective, ?_, size_eq_sum, ?_⟩
  · rw [labels_formula, labels_eq]
  · rw [labels_expanded, labels_formula]
  · rw [labels_formula]
    exact nodup_labels factors
  · refine ⟨(slots factors).map term, (slots factors).map expandedTerm, rfl, rfl, ?_, ?_, ?_⟩
    · rw [List.length_map, hlength]
    · rw [List.length_map, hlength]
    · intro i f hf j hj
      have hslot : (slots factors)[levels (factors.take i) + j]? =
          some ⟨f, factors.eraseIdx i, j + 1, firstLabel factors i j f.kind⟩ := by
        rw [slots, getElem?_slotsFrom [] factors 0 hf hj, List.nil_append, Nat.zero_add]
      constructor
      · rw [List.getElem?_map, hslot, Option.map_some, term, numerator_eq_unknown]
        simp
      · rw [List.getElem?_map, hslot, Option.map_some, expandedTerm, leadingFactor_eq_unknown]
        simp

/-- The factors of (x^2 + 1)^14 (x - 1), which need more labels than there are letters. -/
def longFactors : List (Factor Float) :=
  [⟨.quadratic, "x^2 + 1", 14, none⟩, ⟨.linear, "x - 1", 1, some (.written "1")⟩]

theorem levels_labelled_long :
    (∀ f ∈ longFactors, 0 ≤ f.multiplicity) ∧ (size longFactors : ℤ) = 14 * 2 + 1 ∧
    (formula longFactors).labels[25]? = some "Z" ∧
    (formula longFactors).labels[28]? = some "C1" ∧
    (expanded longFactors).labels = (formula longFactors).labels := by
  have hnonneg : ∀ f ∈ longFactors, 0 ≤ f.multiplicity := by decide
  obtain ⟨hlabels, hexpanded, -, -, hsum, -⟩ := levels_labelled longFactors
  refine ⟨hnonneg, hsum hnonneg, ?_, ?_, hexpanded⟩
  · rw [hlabels]
    rfl
  · rw [hlabels]
    rfl

end Template

end PartialFractions
