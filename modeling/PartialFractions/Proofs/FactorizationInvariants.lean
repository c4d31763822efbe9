import PartialFractions.Proofs.ComputationOutcomes
import PartialFractions.Proofs.DecimalNumerals
import PartialFractions.Solution

/-!
What holds of every factorization that is read. Factors are linear or quadratic and no multiplicity
is negative. The numbers of a listed denominator are digits with a sign and points, so its scale is
finite. A trinomial with two factors has finite coefficients if its roots are finite and distinct.
-/
namespace PartialFractions

open Text Number

section Letters

theorem Text.mem_of_mem_trimOf {p : Char → Bool} {s : List Char} {c : Char} (h : c ∈ trimOf p s) :
    c ∈ s := by
  have h₁ := List.mem_reverse.mp h
  have h₂ := List.mem_reverse.mp ((List.dropWhile_suffix p).subset h₁)
  exact (List.dropWhile_suffix p).subset h₂

theorem Number.mem_of_mem_splitSign {s : List Char} {c : Char} (h : c ∈ (splitSign s).2) :
    c ∈ s := by
  unfold splitSign at h
  split at h
  · exact List.mem_cons_of_mem _ h
  · exact List.mem_cons_of_mem _ h
  · exact h

theorem Numeral.exists_decimal_of_ofDecimal? {negative : Bool} {s : List Char} {n : Numeral}
    (h : ofDecimal? negative s = some n) : ∃ digits e, n = .decimal negative digits e := by
  simp only [ofDecimal?] at h
  split at h
  all_goals
    obtain ⟨-, h⟩ := Option.ite_none_left_eq_some.mp h
    obtain ⟨e, -, rfl⟩ := Option.map_eq_some_iff.mp h
    exact ⟨_, _, rfl⟩

def Text.isN (c : Char) : Bool := c.toLower = 'n'

theorem Text.isN_of_isAlpha {c : Char} (h : c.isAlpha = false) : isN c = false := by
  have halpha : c.toLower.isAlpha = false := by rwa [Char.isAlpha_toLower_eq_isAlpha]
  refine decide_eq_false ?_
  intro hn
  rw [hn] at halpha
  cases halpha

/-- The words for numbers that are not finite are written with an n. -/
theorem Numeral.ofWord?_of_isN {negative : Bool} {s : List Char} (hs : ∀ c ∈ s, isN c = false) :
    ofWord? negative s = none := by
  have hlower : 'n' ∉ s.map Char.toLower := by
    intro hmem
    obtain ⟨c, hc, hn⟩ := List.mem_map.mp hmem
    exact of_decide_eq_false (hs c hc) hn
  have hne (word : List Char) (hword : 'n' ∈ word) : s.map Char.toLower ≠ word :=
    fun heq => hlower (heq ▸ hword)
  simp [ofWord?, hne ['i', 'n', 'f'] (by decide), hne ['n', 'a', 'n'] (by decide),
    hne ['i', 'n', 'f', 'i', 'n', 'i', 't', 'y'] (by decide)]

/-- A text without an n is read as a decimal fraction, if as anything. -/
theorem Numeral.exists_decimal_of_read? {s : List Char} {n : Numeral} (h : read? s = some n)
    (hs : ∀ c ∈ s, isN c = false) : ∃ negative digits e, n = .decimal negative digits e := by
  have hword : ofWord? (splitSign (trimOf isSpace s)).1 (splitSign (trimOf isSpace s)).2 =
      none :=
    ofWord?_of_isN fun c hc => hs c (mem_of_mem_trimOf (mem_of_mem_splitSign hc))
  simp only [read?, hword, Option.orElse_none] at h
  obtain ⟨digits, e, hn⟩ := exists_decimal_of_ofDecimal? h
  exact ⟨_, digits, e, hn⟩

variable {K : Type} [Field K] [LinearOrder K] [Notated K]

theorem Exact.exists_finite_of_read? {s : List Char} {v : Exact K} (h : Scalar.read? s = some v)
    (hs : ∀ c ∈ s, isN c = false) : ∃ q, v = .finite q := by
  obtain ⟨n, hn, rfl⟩ := Option.map_eq_some_iff.mp h
  obtain ⟨negative, digits, e, rfl⟩ := Numeral.exists_decimal_of_read? hn hs
  exact ⟨_, rfl⟩

/-- Without letters the number is no `inf` and no `nan`. -/
theorem exists_finite_of_leadingNumber {s summand : List Char} {v : Exact K}
    (h : leadingNumber s summand = .ok v) (hs : ∀ c ∈ s, c.isAlpha = false) :
    ∃ q, v = .finite q := by
  unfold leadingNumber at h
  split at h
  · obtain rfl := Except.ok.inj h
    exact ⟨_, rfl⟩
  · obtain rfl := Except.ok.inj h
    exact ⟨_, rfl⟩
  · split at h
    · rename_i w hread
      obtain rfl := Except.ok.inj h
      exact Exact.exists_finite_of_read? hread fun c hc => isN_of_isAlpha (hs c hc)
    · cases h

end Letters

structure Factor.Plain {K : Type} (f : Factor K) : Prop where
  kind : f.kind = .linear ∨ f.kind = .quadratic
  multiplicity_nonneg : 0 ≤ f.multiplicity

theorem Factor.plain_ofContent {K : Type} (content : List Char) (n : ℕ) :
    (ofContent content n : Factor K).Plain where
  kind := by
    unfold ofContent
    dsimp only
    split
    · exact Or.inr rfl
    · exact Or.inl rfl
  multiplicity_nonneg := Int.natCast_nonneg n

theorem Factor.plain_bare {K : Type} (n : ℕ) : (bare n : Factor K).Plain where
  kind := Or.inl rfl
  multiplicity_nonneg := Int.natCast_nonneg n

/-- The ways in which a factor is made: as a power of x, of a content, of a root that was computed,
or of a denominator as a whole. -/
inductive Factor.Made {K : Type} [Neg K] [Scalar K] : Factor K → Prop
  | bare (n : ℕ) : Made (.bare n)
  | content (s : List Char) (n : ℕ) : Made (.ofContent s n)
  | root (v : K) (n : ℕ) : Made (.ofRoot v n)
  | whole (denominator : String) : Made ⟨.quadratic, denominator, 1, none⟩

theorem Factor.Made.plain {K : Type} [Neg K] [Scalar K] {f : Factor K} (h : f.Made) : f.Plain := by
  cases h with
  | bare n => exact plain_bare n
  | content s n => exact plain_ofContent s n
  | root v n => exact ⟨Or.inl rfl, Int.natCast_nonneg n⟩
  | whole denominator => exact ⟨Or.inr rfl, zero_le_one⟩

namespace Gap

theorem isAlpha_of_mem_splitNumber {s : List Char} {c : Char} (h : c ∈ (splitNumber s).1) :
    c.isAlpha = false := by
  have hnumber (h : isNumberChar c = true) : c.isAlpha = false := by
    rcases Bool.or_eq_true_iff.mp h with h | h
    · exact isAlpha_of_isDigit h
    · rw [of_decide_eq_true h]
      rfl
  unfold splitNumber at h
  split at h
  · rcases List.mem_cons.mp h with rfl | h
    · rfl
    · exact hnumber (List.mem_takeWhile_imp h)
  · rcases List.mem_cons.mp h with rfl | h
    · rfl
    · exact hnumber (List.mem_takeWhile_imp h)
  · exact hnumber (List.mem_takeWhile_imp h)

/-- The factors of a gap are powers of a bare `x`. -/
theorem made_of_factors {K : Type} [Neg K] [Scalar K] {x : Variable} {fs : List (Factor K)}
    (h : factors x = .ok fs) : ∀ f ∈ fs, f.Made := by
  cases x with
  | absent =>
    obtain rfl := Except.ok.inj h
    simp
  | plain =>
    obtain rfl := Except.ok.inj h
    exact List.forall_mem_singleton.mpr (.bare 1)
  | power digits =>
    obtain ⟨i, hi, rfl⟩ := map_eq_ok.mp h
    obtain ⟨n, -, hn⟩ := bind_eq_ok.mp hi
    obtain rfl := Except.ok.inj hn
    exact List.forall_mem_singleton.mpr (.bare n)

variable {K : Type} [Field K] [LinearOrder K] [Notated K]

/-- A gap that is read has parts, and they can be read. -/
theorem exists_parts {E : Type} [Neg E] [Scalar E] {leading : Bool} {gap : List Char} {v : E}
    {fs : List (Factor E)} (h : read leading gap = .ok (v, fs)) :
    ∃ number x, parts? leading (dropProducts (squeeze gap)) = some (number, x) ∧
      leadingNumber number (trim gap) = .ok v ∧ factors x = .ok fs := by
  unfold read at h
  split at h
  · cases h
  · rename_i number x hparts
    obtain ⟨w, hw, h⟩ := bind_eq_ok.mp h
    obtain ⟨gs, hgs, h⟩ := bind_eq_ok.mp h
    obtain ⟨rfl, rfl⟩ := Prod.mk.inj (Except.ok.inj h)
    exact ⟨number, x, hparts, mapError_eq_ok.mp hw, mapError_eq_ok.mp hgs⟩

/-- The parts are cut behind the number. -/
theorem parts?_eq_some {leading : Bool} {s number : List Char} {x : Variable}
    (h : parts? leading s = some (number, x)) :
    number = (splitNumber s).1 ∧ Variable.read? (splitNumber s).2 = some x := by
  unfold parts? at h
  split at h
  · cases h
  · obtain ⟨y, hread, hy⟩ := Option.map_eq_some_iff.mp h
    obtain ⟨rfl, rfl⟩ := Prod.mk.inj hy
    exact ⟨rfl, hread⟩

theorem read_eq_ok {leading : Bool} {gap : List Char} {v : Exact K} {fs : List (Factor (Exact K))}
    (h : read leading gap = .ok (v, fs)) : (∃ q, v = .finite q) ∧ ∀ f ∈ fs, f.Made := by
  obtain ⟨number, x, hparts, hnumber, hfactors⟩ := exists_parts h
  obtain ⟨rfl, -⟩ := parts?_eq_some hparts
  exact ⟨exists_finite_of_leadingNumber hnumber fun c => isAlpha_of_mem_splitNumber,
    made_of_factors hfactors⟩

end Gap

namespace Factorization

/-- The factor of a bracket is made of its content without the blanks around it. -/
theorem exists_ofContent {K : Type} {b : Bracket} {f : Factor K} (h : bracketFactor b = .ok f) :
    ∃ n : ℕ, f = .ofContent (trim b.content) n := by
  unfold bracketFactor at h
  split at h
  · obtain ⟨n, -, hn⟩ := bind_eq_ok.mp h
    exact ⟨n, (Except.ok.inj hn).symm⟩
  · obtain ⟨n, -, hn⟩ := bind_eq_ok.mp h
    exact ⟨n, (Except.ok.inj hn).symm⟩

theorem made_of_bracketFactor {K : Type} [Neg K] [Scalar K] {b : Bracket} {f : Factor K}
    (h : bracketFactor b = .ok f) : f.Made := by
  obtain ⟨n, rfl⟩ := exists_ofContent h
  exact .content _ n

variable {K : Type} [Field K] [LinearOrder K] [Notated K]

theorem bracketFactors_eq_ok {brackets : List Bracket} {leading : Bool} {q : K} {v : Exact K}
    {fs : List (Factor (Exact K))}
    (h : bracketFactors leading (.finite q) brackets = .ok (v, fs)) :
    (∃ r, v = .finite r) ∧ ∀ f ∈ fs, f.Made := by
  induction brackets generalizing leading q v fs with
  | nil =>
    obtain ⟨rfl, rfl⟩ := Prod.mk.inj (Except.ok.inj h)
    exact ⟨⟨q, rfl⟩, by simp⟩
  | cons b rest ih =>
    rw [bracketFactors] at h
    obtain ⟨⟨multiplier, bare⟩, hgap, h⟩ := bind_eq_ok.mp h
    obtain ⟨f, hf, h⟩ := bind_eq_ok.mp h
    obtain ⟨⟨w, others⟩, hothers, h⟩ := bind_eq_ok.mp h
    obtain ⟨rfl, rfl⟩ := Prod.mk.inj (Except.ok.inj h)
    obtain ⟨⟨m, rfl⟩, hbare⟩ := Gap.read_eq_ok hgap
    obtain ⟨hw, hlater⟩ := ih hothers
    exact ⟨hw, List.forall_mem_append.mpr ⟨hbare, List.forall_mem_cons.mpr
      ⟨made_of_bracketFactor (mapError_eq_ok.mp hf), hlater⟩⟩⟩

theorem listed_eq_ok {s : List Char} {v : Exact K} {fs : List (Factor (Exact K))}
    (h : listed s = .ok (v, fs)) : (∃ q, v = .finite q) ∧ ∀ f ∈ fs, f.Made := by
  unfold listed at h
  dsimp only at h
  split at h
  · obtain ⟨rfl, rfl⟩ := Prod.mk.inj (Except.ok.inj h)
    exact ⟨⟨_, rfl⟩, by simp⟩
  · obtain ⟨⟨w, gs⟩, hbrackets, h⟩ := bind_eq_ok.mp h
    obtain ⟨⟨m, bare⟩, hgap, h⟩ := bind_eq_ok.mp h
    obtain ⟨rfl, rfl⟩ := Prod.mk.inj (Except.ok.inj h)
    obtain ⟨⟨q, rfl⟩, hgs⟩ := bracketFactors_eq_ok hbrackets
    obtain ⟨⟨r, rfl⟩, hbare⟩ := Gap.read_eq_ok hgap
    exact ⟨⟨q * r, rfl⟩, List.forall_mem_append.mpr ⟨hgs, hbare⟩⟩

/-- A trinomial has one or two computed roots for its factors, or it is a quadratic factor as a
whole. -/
theorem ofTrinomial_cases {K : Type} [Add K] [Sub K] [Mul K] [Div K] [Neg K] [Scalar K]
    (denominator : String) (t : Trinomial K) :
    (∃ rs : List (K × ℕ), rs ≠ [] ∧ (∀ r ∈ rs, r.2 = 1 ∨ r.2 = 2) ∧
      (ofTrinomial denominator t).2 = rs.map fun r => .ofRoot r.1 r.2) ∨
    (ofTrinomial denominator t).2 = [⟨.quadratic, denominator, 1, none⟩] := by
  unfold ofTrinomial
  dsimp only
  split
  · split
    · exact Or.inl ⟨[(_, 1), (_, 1)], by simp, by simp, rfl⟩
    · split
      · exact Or.inl ⟨[(_, 2)], by simp, by simp, rfl⟩
      · exact Or.inr rfl
  · split
    · exact Or.inl ⟨[(_, 1)], by simp, by simp, rfl⟩
    · exact Or.inr rfl

theorem made_of_ofTrinomial {denominator : String} {t : Trinomial (Exact K)} :
    ∀ f ∈ (ofTrinomial denominator t).2, f.Made := by
  rcases ofTrinomial_cases denominator t with ⟨rs, -, -, hfactors⟩ | hfactors
  · rw [hfactors]
    exact List.forall_mem_map.mpr fun r _ => .root r.1 r.2
  · rw [hfactors]
    exact List.forall_mem_singleton.mpr (.whole denominator)

/-- A trinomial with two factors has its roots for them. -/
theorem ofTrinomial_pair {denominator : String} {t : Trinomial (Exact K)} {f g : Factor (Exact K)}
    (h : (ofTrinomial denominator t).2 = [f, g]) :
    (ofTrinomial denominator t).1 = t.a ∧
      ∃ m n : Exact K, f = .ofRoot (m / (Scalar.ofNat 2 * t.a)) 1 ∧
        g = .ofRoot (n / (Scalar.ofNat 2 * t.a)) 1 := by
  unfold ofTrinomial at h ⊢
  dsimp only at h ⊢
  split at h
  · rename_i ha
    split at h
    · rename_i hdelta
      simp only [List.cons.injEq, and_true] at h
      obtain ⟨rfl, rfl⟩ := h
      simp only [if_pos ha, if_pos hdelta, true_and]
      exact ⟨_, _, rfl, rfl⟩
    · split at h <;> simp at h
  · split at h <;> simp at h

theorem root_ofRoot {v : Exact K} {n : ℤ} {r : K}
    (h : Solution.root (.ofRoot v n) = .ok (.finite r)) : v = .finite r := by
  have hsum : v + Scalar.ofNat 0 = .finite r := Except.ok.inj h
  obtain ⟨a, b, hv, hzero, hab⟩ := Exact.add_eq_finite hsum
  have hb : b = 0 := by
    have heq : Exact.finite ((0 : ℕ) : K) = .finite b := hzero
    rw [← Exact.finite.inj heq, Nat.cast_zero]
  rw [hv, ← hab, hb, add_zero]

/-- Quotients by an infinite number are zero, so one divisor of two distinct ones is finite. -/
theorem scale_of_roots {denominator : String} {t : Trinomial (Exact K)} {f g : Factor (Exact K)}
    (h : (ofTrinomial denominator t).2 = [f, g]) {r s : K}
    (hf : Solution.root f = .ok (.finite r)) (hg : Solution.root g = .ok (.finite s))
    (hrs : r ≠ s) : ∃ q, (ofTrinomial denominator t).1 = .finite q := by
  obtain ⟨hscale, m, n, rfl, rfl⟩ := ofTrinomial_pair h
  obtain ⟨_, -, hr⟩ := Exact.div_eq_finite (root_ofRoot hf)
  obtain ⟨_, -, hs⟩ := Exact.div_eq_finite (root_ofRoot hg)
  rw [hscale]
  -- with an infinite divisor both roots would be zero
  rcases hr with ⟨b, hb, -, -⟩ | ⟨-, -, hr⟩
  · obtain ⟨_, a, -, ha, -⟩ := Exact.mul_eq_finite hb
    exact ⟨a, ha⟩
  · rcases hs with ⟨b, hb, -, -⟩ | ⟨-, -, hs⟩
    · obtain ⟨_, a, -, ha, -⟩ := Exact.mul_eq_finite hb
      exact ⟨a, ha⟩
    · exact absurd (hr.trans hs.symm) hrs

section Reading

variable {K : Type} [Add K] [Sub K] [Mul K] [Div K] [Neg K] [Scalar K] {denominator : String}
  {F : Factorization K}

theorem read_of_ofDenominator (h : ofDenominator denominator = .ok F) :
    read denominator = .ok F ∧ Scalar.isZero F.scale = false := by
  unfold ofDenominator at h
  obtain ⟨G, hread, h⟩ := bind_eq_ok.mp h
  split at h
  · cases h
  · rename_i hzero
    obtain rfl := Except.ok.inj h
    exact ⟨hread, by simpa using hzero⟩

/-- A denominator without a parenthesis is a trinomial. -/
theorem exists_trinomial (hopen : '(' ∉ denominator.toList) (h : read denominator = .ok F) :
    ∃ t, F.scale = (ofTrinomial denominator t).1 ∧ F.factors = (ofTrinomial denominator t).2 := by
  rw [read, if_neg hopen] at h
  obtain ⟨t, -, h⟩ := bind_eq_ok.mp h
  obtain rfl := Except.ok.inj h
  exact ⟨t, rfl, rfl⟩

end Reading

/-- The factors are made in one of the ways, and the scale is finite or that of a trinomial. -/
theorem ofDenominator_eq_ok {denominator : String} {F : Factorization (Exact K)}
    (h : ofDenominator denominator = .ok F) :
    (∀ f ∈ F.factors, f.Made) ∧ Scalar.isZero F.scale = false ∧
      ((∃ q, F.scale = .finite q) ∨ ∃ t, F.scale = (ofTrinomial denominator t).1 ∧
        F.factors = (ofTrinomial denominator t).2) := by
  obtain ⟨hread, hscale⟩ := read_of_ofDenominator h
  by_cases hopen : '(' ∈ denominator.toList
  · rw [read, if_pos hopen] at hread
    obtain ⟨⟨v, fs⟩, hlisted, hread⟩ := bind_eq_ok.mp hread
    obtain rfl := Except.ok.inj hread
    obtain ⟨hv, hfs⟩ := listed_eq_ok hlisted
    exact ⟨hfs, hscale, Or.inl hv⟩
  · obtain ⟨t, hv, hfs⟩ := exists_trinomial hopen hread
    exact ⟨hfs ▸ made_of_ofTrinomial, hscale, Or.inr ⟨t, hv, hfs⟩⟩

/-- The scale of two factors is a finite number other than zero, where the roots of linear ones are
finite and distinct. -/
theorem exists_scale {denominator : String} {F : Factorization (Exact K)} {f g : Factor (Exact K)}
    (h : ofDenominator denominator = .ok F) (hfactors : F.factors = [f, g])
    (hpair : f.kind = .quadratic ∨ ∃ r s : K, Solution.root f = .ok (.finite r) ∧
      Solution.root g = .ok (.finite s) ∧ r ≠ s) :
    ∃ q, q ≠ 0 ∧ F.scale = .finite q := by
  obtain ⟨-, hnonzero, hform⟩ := ofDenominator_eq_ok h
  obtain ⟨q, hscale⟩ : ∃ q, F.scale = .finite q := by
    rcases hform with hfinite | ⟨t, hscale, htrinomial⟩
    · exact hfinite
    · have htwo := htrinomial.symm.trans hfactors
      rcases hpair with hkind | ⟨r, s, hr, hs, hrs⟩
      · obtain ⟨-, m, n, rfl, -⟩ := ofTrinomial_pair htwo
        cases hkind
      · rw [hscale]
        exact scale_of_roots htwo hr hs hrs
  refine ⟨q, ?_, hscale⟩
  simpa [hscale] using hnonzero

end Factorization

end PartialFractions
