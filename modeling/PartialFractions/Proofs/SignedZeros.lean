import PartialFractions.Proofs.BinaryNumbers
import PartialFractions.Proofs.ComputationOutcomes
import PartialFractions.Solution

/-!
Zeros of either sign. The sign of a root that is zero does not change the constants of a
decomposition, except for the sign of a constant that is zero.
-/
namespace PartialFractions

namespace Number

open Float.Model
open Float.Model.UnpackedFloat (Sign)

/-- The numbers are the same, except that zeros may differ in their sign. -/
def Alike (v w : Float) : Prop := v = w ∨ (Scalar.isZero v = true ∧ Scalar.isZero w = true)

variable {v w : Float}

theorem isZero_ofParts (s : Sign) : Scalar.isZero (ofParts (.zero s)) = true :=
  (isZero_iff _).mpr ⟨s, parts_ofParts_zero s⟩

/-- An operation that gives for both zeros the same number or zeros. -/
theorem Alike.map {f : Float → Float}
    (hf : ∀ s t : Sign, Alike (f (ofParts (.zero s))) (f (ofParts (.zero t)))) (h : Alike v w) :
    Alike (f v) (f w) := by
  rcases h with rfl | ⟨hv, hw⟩
  · exact Or.inl rfl
  · obtain ⟨s, hs⟩ := (isZero_iff v).mp hv
    obtain ⟨t, ht⟩ := (isZero_iff w).mp hw
    have hzeros := hf s t
    rwa [← hs, ← ht, ofParts_parts, ofParts_parts] at hzeros

theorem alike_zeros (s t : Sign) : Alike (ofParts (.zero s)) (ofParts (.zero t)) :=
  Or.inr ⟨isZero_ofParts s, isZero_ofParts t⟩

theorem Alike.mul_left (c : Float) (h : Alike v w) : Alike (c * v) (c * w) := by
  refine h.map fun s t => ?_
  simp only [mul_eq, parts_ofParts_zero]
  cases parts c with
  | infinity u => exact Or.inl rfl
  | notANumber => exact Or.inl rfl
  | zero u => exact alike_zeros _ _
  | finite u m e hm => exact alike_zeros _ _

theorem Alike.add_right (h : Alike v w) (c : Float) : Alike (v + c) (w + c) := by
  refine h.map (f := (· + c)) fun s t => ?_
  simp only [add_eq, parts_ofParts_zero]
  cases parts c with
  | infinity u => exact Or.inl rfl
  | notANumber => exact Or.inl rfl
  | zero u => cases s <;> cases t <;> cases u <;> exact alike_zeros _ _
  | finite u m e hm => exact Or.inl rfl

theorem Alike.div_right (h : Alike v w) (c : Float) : Alike (v / c) (w / c) := by
  refine h.map (f := (· / c)) fun s t => ?_
  simp only [div_eq, parts_ofParts_zero]
  cases parts c with
  | infinity u => exact alike_zeros _ _
  | notANumber => exact Or.inl rfl
  | zero u => exact Or.inl rfl
  | finite u m e hm => exact alike_zeros _ _

theorem same_of_isZero (hv : Scalar.isZero v = true) (hw : Scalar.isZero w = true) :
    Scalar.same v w = true := by
  obtain ⟨s, hs⟩ := (isZero_iff v).mp hv
  obtain ⟨t, ht⟩ := (isZero_iff w).mp hw
  rw [same_eq, hs, ht]
  rfl

/-- Numbers that are alike compare as the same, unless they are undefined. -/
theorem Alike.same (h : Alike v w) (hv : v.isFinite = true) : Scalar.same v w = true := by
  rcases h with rfl | ⟨hv, hw⟩
  · rcases (isFinite_iff v).mp hv with ⟨s, h⟩ | ⟨s, m, e, hm, h⟩
    · rw [Number.same_eq, h]
      rfl
    · rw [Number.same_eq, h]
      cases s <;> simp [Float.Model.UnpackedFloat.beq, Float.Model.UnpackedFloat.compare]
  · exact same_of_isZero hv hw

/-- In a comparison the sign of a zero does not count. -/
theorem Alike.same_eq (h : Alike v w) (c : Float) :
    Scalar.same v c = Scalar.same w c ∧ Scalar.same c v = Scalar.same c w := by
  rcases h with rfl | ⟨hv, hw⟩
  · exact ⟨rfl, rfl⟩
  · obtain ⟨s, hs⟩ := (isZero_iff v).mp hv
    obtain ⟨t, ht⟩ := (isZero_iff w).mp hw
    simp only [Number.same_eq, hs, ht]
    cases parts c with
    | infinity u => cases u <;> exact ⟨rfl, rfl⟩
    | notANumber => exact ⟨rfl, rfl⟩
    | zero u => exact ⟨rfl, rfl⟩
    | finite u m e hm => cases u <;> exact ⟨rfl, rfl⟩

/-- The sign of a zero is lost in a difference to a number that is not zero. -/
theorem Alike.sub_eq (h : Alike v w) {c : Float} (hc : Scalar.isZero c = false) :
    v - c = w - c ∧ c - v = c - w := by
  rcases h with rfl | ⟨hv, hw⟩
  · exact ⟨rfl, rfl⟩
  · obtain ⟨s, hs⟩ := (isZero_iff v).mp hv
    obtain ⟨t, ht⟩ := (isZero_iff w).mp hw
    simp only [Number.sub_eq, hs, ht]
    cases hparts : parts c with
    | infinity u => exact ⟨rfl, rfl⟩
    | notANumber => exact ⟨rfl, rfl⟩
    | zero u => simp [(isZero_iff c).mpr ⟨u, hparts⟩] at hc
    | finite u m e hm => exact ⟨rfl, rfl⟩

theorem Alike.refl (v : Float) : Alike v v := Or.inl rfl

/-- The sign of one of two different numbers is lost in their differences, if it is zero. -/
theorem Alike.sub_eq_sub {r r' s s' : Float} (hr : Alike r r') (hs : Alike s s')
    (hdistinct : Scalar.same r s = false) : r - s = r' - s' ∧ s - r = s' - r' := by
  cases hzero : Scalar.isZero s with
  | false =>
    obtain rfl : s = s' := hs.resolve_right fun h => by simp [h.1] at hzero
    exact hr.sub_eq hzero
  | true =>
    have hr0 : Scalar.isZero r = false := by
      by_contra h
      simp [same_of_isZero (by simpa using h) hzero] at hdistinct
    obtain rfl : r = r' := hr.resolve_right fun h => by simp [h.1] at hr0
    exact (hs.sub_eq hr0).symm

end Number

open Number (Alike)

structure Factor.Alike (f g : Factor Float) : Prop where
  kind : g.kind = f.kind
  content : g.content = f.content
  multiplicity : g.multiplicity = f.multiplicity
  root : Option.Rel Number.Alike (f.root.bind Root.value?) (g.root.bind Root.value?)

def Constants.Alike : Constants Float → Constants Float → Prop :=
  List.Forall₂ fun v w => v.1 = w.1 ∧ Number.Alike v.2 w.2

theorem Constants.Alike.refl (c : Constants Float) : Constants.Alike c c :=
  List.forall₂_same.mpr fun _ _ => ⟨rfl, .refl _⟩

namespace SolvableShape

inductive Alike : SolvableShape Float → SolvableShape Float → Prop
  | linear {f f' g g' : Factor Float} (hf : f.Alike f') (hg : g.Alike g') :
      Alike (.linear f g) (.linear f' g')
  | quadratic {f f' g g' : Factor Float} (hf : f.Alike f') (hg : g.Alike g') :
      Alike (.quadratic f g) (.quadratic f' g')

/-- The shape depends on kinds and multiplicities, which factors that are alike share. -/
theorem ofFactors_alike {factors factors' : List (Factor Float)}
    (h : List.Forall₂ Factor.Alike factors factors') (kind : ExpressionKind) :
    SameOutcome Alike (ofFactors factors kind) (ofFactors factors' kind) := by
  unfold ofFactors
  by_cases hkind : kind = .unknown
  · simp only [if_pos hkind]
    exact .error _
  · simp only [if_neg hkind]
    cases h with
    | nil => exact .error _
    | cons hf h =>
      cases h with
      | nil => exact .error _
      | cons hg h =>
        cases h with
        | cons _ _ => exact .error _
        | nil =>
          simp only [hf.multiplicity, hg.multiplicity]
          split
          · exact .error _
          · cases kind with
            | linear => exact .ok (.linear hf hg)
            | quadratic => exact .ok (.quadratic hf hg)
            | mixed => exact .error _
            | unknown => exact .error _

end SolvableShape

namespace Solution

theorem root_alike {f g : Factor Float} (h : f.Alike g) :
    SameOutcome Alike (root f) (root g) := by
  have hroot := h.root
  unfold root
  rw [h.content]
  generalize f.root.bind Root.value? = r at hroot ⊢
  generalize g.root.bind Root.value? = s at hroot ⊢
  cases hroot with
  | some h => exact .ok h
  | none => exact .error _

theorem rate_eq {f g : Factor Float} (h : f.Alike g) :
    (rate f : Except Failure Float) = rate g := by
  unfold rate
  rw [h.content]

theorem distinct_eq {r r' s s' : Float} (hr : Alike r r') (hs : Alike s s') :
    distinct r s = distinct r' s' := by
  unfold distinct
  rw [(hr.same_eq s).1, (hs.same_eq r').2]

theorem overLinear_alike (c₁ c₂ : Float) {r r' s s' : Float} (hr : Alike r r') (hs : Alike s s')
    (hdistinct : Scalar.same r s = false) :
    Constants.Alike (overLinear c₁ c₂ r s) (overLinear c₁ c₂ r' s') := by
  obtain ⟨hfirst, hsecond⟩ := hr.sub_eq_sub hs hdistinct
  refine .cons ⟨rfl, ?_⟩ (.cons ⟨rfl, ?_⟩ .nil)
  · rw [hfirst]
    exact ((hr.mul_left c₁).add_right c₂).div_right _
  · rw [hsecond]
    exact ((hs.mul_left c₁).add_right c₂).div_right _

/-- Roots that differ in the sign of a zero only give constants that do too. -/
theorem ofShape_alike (terms : List Term) (scale : Float) {p q : SolvableShape Float}
    (h : p.Alike q) :
    SameOutcome Constants.Alike (ofShape terms scale p) (ofShape terms scale q) := by
  cases h with
  | linear hf hg =>
    refine .bind (.refl Eq.refl _) ?_
    rintro ⟨c₁, c₂⟩ _ rfl
    refine .bind (root_alike hf) fun r r' hr => ?_
    refine .bind (root_alike hg) fun s s' hs => ?_
    rw [← distinct_eq hr hs]
    unfold distinct
    split
    · exact .error _
    · rename_i hdistinct
      exact .ok (overLinear_alike c₁ c₂ hr hs (by simpa using hdistinct))
  | quadratic hf hg =>
    simp only [ofShape, rate_eq hf, rate_eq hg]
    exact .refl Constants.Alike.refl _

/-- Over factors that are alike both decompositions fail in the same way, or both have constants
that are alike. -/
theorem constants_alike (terms : List Term) {factors factors' : List (Factor Float)}
    (h : List.Forall₂ Factor.Alike factors factors') (kind : ExpressionKind) (scale : Float) :
    SameOutcome Constants.Alike (constants terms factors kind scale)
      (constants terms factors' kind scale) :=
  .bind ((SolvableShape.ofFactors_alike h kind).mapError _) fun _ _ => ofShape_alike terms scale

end Solution

end PartialFractions
