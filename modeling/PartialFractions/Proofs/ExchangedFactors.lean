import PartialFractions.Proofs.OppositeNumbers
import PartialFractions.Proofs.SolutionOutcomes

/-!
The order of two factors. A fraction over two brackets and the one with the brackets exchanged are
solved alike: the constants have their labels exchanged, or both are refused for one reason. The one
exception is an exponent with too many digits in a quadratic factor, at which solving fails only if
it comes to read that factor.
-/
namespace PartialFractions

open Text Number

/-- Whether two factors have a shape does not depend on their order. -/
theorem SolvableShape.ofFactors_pair {K : Type} (f g : Factor K) (kind : ExpressionKind) :
    (∃ r, ofFactors [f, g] kind = .error r ∧ ofFactors [g, f] kind = .error r) ∨
      (kind = .linear ∧ ofFactors [f, g] kind = .ok (.linear f g) ∧
        ofFactors [g, f] kind = .ok (.linear g f)) ∨
      (kind = .quadratic ∧ ofFactors [f, g] kind = .ok (.quadratic f g) ∧
        ofFactors [g, f] kind = .ok (.quadratic g f)) := by
  by_cases hf : f.multiplicity > 1
  · cases kind <;> simp [ofFactors, hf]
  · by_cases hg : g.multiplicity > 1
    · cases kind <;> simp [ofFactors, hg]
    · cases kind <;> simp [ofFactors, hf, hg]

namespace Solution

/-- How solving ends for two orders of the factors, where the order does not matter: the labels of
the constants are exchanged, both are refused for one reason, or both fail at an exponent that is
too long. -/
inductive Exchanged : ExpressionKind → Except Failure (Constants Float) →
    Except Failure (Constants Float) → Prop
  | linear (a b : Float) : Exchanged .linear (.ok [("A", a), ("B", b)]) (.ok [("A", b), ("B", a)])
  | quadratic (a b c d : Float) :
      Exchanged .quadratic (.ok [("A", a), ("B", b), ("C", c), ("D", d)])
        (.ok [("A", c), ("B", d), ("C", a), ("D", b)])
  | refused {kind : ExpressionKind} {r t : Refusal} (hkind : r.kind = t.kind)
      (hcode : r.code = t.code) : Exchanged kind (.error (.refused r)) (.error (.refused t))
  | tooLong {kind : ExpressionKind} (m n : ℕ) :
      Exchanged kind (.error (.fault (.integerTooLong m))) (.error (.fault (.integerTooLong n)))

/-- Solving fails at an exponent of `f` with too many digits. With `g` in front it does not come to
`f`, since `g` is refused. -/
def HidesLongExponent (f g : Factor Float) (x y : Except Failure (Constants Float)) : Prop :=
  ∃ n, HasLongExponent (Term.signed f.content.toList) n ∧
    x = .error (.fault (.integerTooLong n)) ∧
    y = .error (.refused (.unsupportedQuadratic g.content))

section Results

variable {c₁ c₂ r s : Float}

theorem exchanged_overLinear :
    Exchanged .linear (.ok (overLinear c₁ c₂ r s)) (.ok (overLinear c₁ c₂ s r)) :=
  .linear _ _

/-- The constants over x² - s are computed as the opposites of those over x² - r. -/
theorem exchanged_overQuadratic (hrs : Scalar.same r s = false) :
    Exchanged .quadratic (.ok (overQuadratic c₁ c₂ r s)) (.ok (overQuadratic c₁ c₂ s r)) := by
  have hsub : s - r = -(r - s) := sub_eq_neg_sub hrs
  have hc : c₁ / (s - r) = -(c₁ / (r - s)) := by rw [hsub, div_neg_eq]
  have hd : -c₂ / (r - s) = -(-c₂ / (s - r)) := by rw [hsub, div_neg_eq, neg_neg_eq]
  have ha : -(c₁ / (s - r)) = c₁ / (r - s) := by rw [hc, neg_neg_eq]
  have hb : -(-c₂ / (r - s)) = -c₂ / (s - r) := by rw [hd, neg_neg_eq]
  simp only [overQuadratic]
  rw [ha, hb, hc, hd]
  exact .quadratic _ _ _ _

/-- Equal roots are refused in either order, so the exchange only matters where they differ. -/
theorem exchanged_distinct {kind : ExpressionKind} {result : Float → Float → Constants Float}
    (h : Scalar.same r s = false → Exchanged kind (.ok (result r s)) (.ok (result s r))) :
    Exchanged kind (distinct r s >>= fun _ => .ok (result r s))
      (distinct s r >>= fun _ => .ok (result s r)) := by
  cases hrs : Scalar.same r s with
  | false =>
    have hsr := same_comm hrs
    simp only [distinct, hrs, hsr]
    exact h hrs
  | true =>
    have hsr : Scalar.same s r = true := by
      by_contra hne
      rw [same_comm (Bool.not_eq_true _ ▸ hne)] at hrs
      cases hrs
    simp only [distinct, hrs, hsr]
    exact .refused rfl rfl

end Results

section Steps

variable (terms : List Term) {scale : Float}

/-- Past the scale the numerator can only be refused, never end in a fault. -/
theorem numerator_cases (hscale : Scalar.isZero scale = false) :
    (∃ c₁ c₂, numerator terms scale = .ok (c₁, c₂)) ∨
      ∃ r, numerator terms scale = .error (.refused r) := by
  have hends : Ends _ (fun _ => False) (numerator terms scale) := ends_numerator hscale
  cases hnumerator : numerator terms scale with
  | ok c => exact Or.inl ⟨c.1, c.2, rfl⟩
  | error failure =>
    rw [hnumerator] at hends
    cases hends with
    | refused => exact Or.inr ⟨_, rfl⟩
    | tooLong h => exact h.elim

/-- Exchanged linear factors exchange the constants, refusals included. -/
theorem exchanged_linear (hscale : Scalar.isZero scale = false) (f g : Factor Float) :
    Exchanged .linear (ofShape terms scale (.linear f g)) (ofShape terms scale (.linear g f)) := by
  simp only [ofShape]
  rcases numerator_cases terms hscale with ⟨c₁, c₂, hc⟩ | ⟨r, hr⟩
  · rw [hc]
    rcases root_cases f with ⟨r, hr⟩ | hr
    · rcases root_cases g with ⟨s, hs⟩ | hs
      · rw [hr, hs]
        exact exchanged_distinct fun _ => exchanged_overLinear
      · rw [hr, hs]
        exact .refused rfl rfl
    · rcases root_cases g with ⟨s, hs⟩ | hs
      · rw [hr, hs]
        exact .refused rfl rfl
      · rw [hr, hs]
        exact .refused rfl rfl
  · rw [hr]
    exact .refused rfl rfl

/-- For quadratic factors the refusal of one may hide an exponent of the other that is too long. -/
theorem exchanged_quadratic (hscale : Scalar.isZero scale = false) (f g : Factor Float) :
    Exchanged .quadratic (ofShape terms scale (.quadratic f g))
        (ofShape terms scale (.quadratic g f)) ∨
      HidesLongExponent f g (ofShape terms scale (.quadratic f g))
        (ofShape terms scale (.quadratic g f)) ∨
      HidesLongExponent g f (ofShape terms scale (.quadratic g f))
        (ofShape terms scale (.quadratic f g)) := by
  simp only [ofShape]
  rcases numerator_cases terms hscale with ⟨c₁, c₂, hc⟩ | ⟨r, hr⟩
  · rw [hc]
    rcases rate_cases f with ⟨r, hr⟩ | hr | ⟨m, hm, hr⟩
    · rcases rate_cases g with ⟨s, hs⟩ | hs | ⟨n, hn, hs⟩
      · rw [hr, hs]
        exact Or.inl (exchanged_distinct exchanged_overQuadratic)
      · rw [hr, hs]
        exact Or.inl (.refused rfl rfl)
      · rw [hr, hs]
        exact Or.inl (.tooLong n n)
    · rcases rate_cases g with ⟨s, hs⟩ | hs | ⟨n, hn, hs⟩
      · rw [hr, hs]
        exact Or.inl (.refused rfl rfl)
      · rw [hr, hs]
        exact Or.inl (.refused rfl rfl)
      · rw [hr, hs]
        exact Or.inr (Or.inr ⟨n, hn, rfl, rfl⟩)
    · rcases rate_cases g with ⟨s, hs⟩ | hs | ⟨n, hn, hs⟩
      · rw [hr, hs]
        exact Or.inl (.tooLong m m)
      · rw [hr, hs]
        exact Or.inr (Or.inl ⟨m, hm, rfl, rfl⟩)
      · rw [hr, hs]
        exact Or.inl (.tooLong m n)
  · rw [hr]
    exact Or.inl (.refused rfl rfl)

/-- Two factors are solved alike in either order, unless a long exponent in one of them is hidden by
the other one. -/
theorem exchanged_constants (hscale : Scalar.isZero scale = false) (f g : Factor Float)
    (kind : ExpressionKind) :
    Exchanged kind (constants terms [f, g] kind scale) (constants terms [g, f] kind scale) ∨
      kind = .quadratic ∧
        (HidesLongExponent f g (constants terms [f, g] kind scale)
            (constants terms [g, f] kind scale) ∨
          HidesLongExponent g f (constants terms [g, f] kind scale)
            (constants terms [f, g] kind scale)) := by
  unfold constants
  rcases SolvableShape.ofFactors_pair f g kind with
    ⟨r, hfg, hgf⟩ | ⟨rfl, hfg, hgf⟩ | ⟨rfl, hfg, hgf⟩
  · rw [hfg, hgf]
    exact Or.inl (.refused rfl rfl)
  · rw [hfg, hgf]
    exact Or.inl (exchanged_linear terms hscale f g)
  · rw [hfg, hgf]
    rcases exchanged_quadratic terms hscale f g with h | h
    · exact Or.inl h
    · exact Or.inr ⟨rfl, h⟩

end Steps

end Solution

namespace Decomposition

open OverBrackets Solution

/-- A fraction over two brackets and the one with the brackets exchanged fail alike, or they are
solved alike: the constants have their labels exchanged, or both are refused for one reason. The one
exception is a quadratic factor that holds an exponent with too many digits beside one that is
refused. -/
theorem constants_exchanged {numerator g h : List Char} (hnumerator : '\x7d' ∉ numerator)
    (hg : ')' ∉ g ∧ '\x7d' ∉ g) (hh : ')' ∉ h ∧ '\x7d' ∉ h) (limit : ℤ) :
    (∃ failure,
        ofText (K := Float) limit (some (String.ofList (text numerator g h))) = .error failure ∧
        ofText (K := Float) limit (some (String.ofList (text numerator h g))) = .error failure) ∨
      ∃ p q : Decomposition Float,
        ofText limit (some (String.ofList (text numerator g h))) = .ok p ∧
        ofText limit (some (String.ofList (text numerator h g))) = .ok q ∧ p.kind = q.kind ∧
        (Exchanged p.kind p.constants q.constants ∨
          p.kind = .quadratic ∧
            (HidesLongExponent (.ofContent (trim g) 1) (.ofContent (trim h) 1)
                p.constants q.constants ∨
              HidesLongExponent (.ofContent (trim h) 1) (.ofContent (trim g) 1)
                q.constants p.constants)) := by
  rw [ofText_eq hnumerator hg hh, ofText_eq hnumerator hh hg, length_text_comm numerator h g]
  by_cases hlimit : (text numerator g h).length ≤ limit
  · rw [if_pos hlimit, if_pos hlimit]
    cases Term.readAll (trim numerator) with
    | error fault => exact Or.inl ⟨_, rfl, rfl⟩
    | ok terms =>
      have hkind := kind_comm numerator g h terms
      have hscale : Scalar.isZero (Scalar.ofNat 1 : Float) = false := by decide +kernel
      have hexchanged := exchanged_constants terms hscale (.ofContent (trim g) 1)
        (.ofContent (trim h) 1) (decomposition numerator g h terms).kind
      refine Or.inr ⟨_, _, rfl, rfl, hkind, ?_⟩
      rw [Decomposition.constants, Decomposition.constants, ← hkind]
      exact hexchanged
  · rw [if_neg hlimit, if_neg hlimit]
    exact Or.inl ⟨_, rfl, rfl⟩

theorem constants_exchanged_quadratic :
    ∃ (p q : Decomposition Float) (a b c d : Float),
      ofText 1000 (some "\\frac\x7b2x + 3\x7d\x7b(x^2 + 1)(x^2 - 4)\x7d") = .ok p ∧
      ofText 1000 (some "\\frac\x7b2x + 3\x7d\x7b(x^2 - 4)(x^2 + 1)\x7d") = .ok q ∧
      p.constants = .ok [("A", a), ("B", b), ("C", c), ("D", d)] ∧
      q.constants = .ok [("A", c), ("B", d), ("C", a), ("D", b)] := by
  have hrun : (ofText (K := Float) 1000
      (some "\\frac\x7b2x + 3\x7d\x7b(x^2 + 1)(x^2 - 4)\x7d") >>=
      fun d => d.constants.map fun cs => (d.kind, cs.map Prod.fst)) =
      .ok (.quadratic, ["A", "B", "C", "D"]) := by decide +kernel
  obtain ⟨p, hp, hmap⟩ := bind_eq_ok.mp hrun
  obtain ⟨cs, hcs, heq⟩ := map_eq_ok.mp hmap
  have hkind : p.kind = .quadratic := (Prod.mk.inj heq).1
  have hnumerator : '\x7d' ∉ "2x + 3".toList := by decide
  rcases constants_exchanged hnumerator (g := "x^2 + 1".toList) (h := "x^2 - 4".toList)
      (by decide) (by decide) 1000 with
    ⟨failure, hfailure, -⟩ | ⟨p', q, hp', hq, -, hresults⟩
  · cases hp.symm.trans hfailure
  · obtain rfl := Except.ok.inj (hp.symm.trans hp')
    rw [hcs, hkind] at hresults
    rcases hresults with hresults | ⟨-, ⟨n, -, hfault, -⟩ | ⟨n, -, -, hrefused⟩⟩
    · generalize hconstants : q.constants = result at hresults
      cases hresults with
      | quadratic a b c d => exact ⟨p, q, a, b, c, d, hp, hq, hcs, hconstants⟩
    · cases hfault
    · cases hrefused

end Decomposition

/-- In front of x³ an exponent with one digit more than can be read is no refusal. Behind it the
cube is refused first. -/
theorem Decomposition.exists_unexchanged :
    ∃ (power : List Char) (p q : Decomposition Float),
      power = OverPower.content (List.replicate 4301 '1') ∧
      ofText 10000 (some (String.ofList (OverBrackets.text ['1'] power "x^3".toList))) = .ok p ∧
      ofText 10000 (some (String.ofList (OverBrackets.text ['1'] "x^3".toList power))) = .ok q ∧
      p.constants = .error (.fault (.integerTooLong 4301)) ∧
      q.constants = .error (.refused (.unsupportedQuadratic "x^3")) ∧
      ¬ Solution.Exchanged p.kind p.constants q.constants := by
  have hdigits : IsDigits (List.replicate 4301 '1') := OverPower.isDigits_ones (by decide)
  have hlength : (List.replicate 4301 '1').length = 4301 := List.length_replicate
  generalize List.replicate 4301 '1' = digits at hdigits hlength ⊢
  have hclosed := OverPower.closed_content hdigits
  have hlimit : (OverBrackets.text ['1'] (OverPower.content digits) "x^3".toList).length ≤
      (10000 : ℤ) := by
    simp [OverBrackets.text, OverBrackets.denominator, Fraction.command, OverPower.content, hlength]
  have hp := OverBrackets.ofText_one hclosed (by decide) hlimit
  have hq := OverBrackets.ofText_one (by decide) hclosed
    (OverBrackets.length_text_comm _ _ "x^3".toList ▸ hlimit)
  have hkind : (OverBrackets.decomposition ['1'] (OverPower.content digits) "x^3".toList
      [⟨0, "+1"⟩]).kind = .quadratic := by
    simp only [Decomposition.kind, Factorization.kind, Factorization.hasLinear,
      Factorization.hasQuadratic, OverBrackets.decomposition, OverPower.ofContent_content hdigits]
    rfl
  -- each order fails at its first factor
  have hpower := OverPower.rate_content hdigits (by rw [hlength]; decide)
  have hfault := OverBrackets.constants_of_rate_error hkind hpower
  have hcube : Solution.rate (K := Float) (.ofContent (trim "x^3".toList) 1) =
      .error (.refused (.unsupportedQuadratic "x^3")) := by decide +kernel
  have hrefused := OverBrackets.constants_of_rate_error
    ((OverBrackets.kind_comm ['1'] _ _ _).trans hkind) hcube
  rw [hlength] at hfault
  refine ⟨_, _, _, rfl, hp, hq, hfault, hrefused, ?_⟩
  rw [hfault, hrefused, hkind]
  intro hexchanged
  cases hexchanged

end PartialFractions
