import PartialFractions.Proofs.ScannedLetters
import PartialFractions.Proofs.SolvedShapes
import PartialFractions.Proofs.TermFronts
import PartialFractions.Proofs.TrinomialFronts

/-!
What the solver reads of texts that write polynomials. Their coefficients are finite numbers, for
the words of other numbers would be symbols, and so are the roots and the rates of factors. A factor
that has a root writes the polynomial x - r.
-/
namespace PartialFractions

open Polynomial Text Number Verification

theorem Verification.Writes.isN {s : String} {p : ℚ[X]} (h : Writes s p) :
    ∀ c ∈ s.toList, isN c = false := by
  obtain ⟨e, hwritten, -⟩ := h
  exact hwritten.isN

namespace Term

variable {s : List Char} {ts : List Term} {t : Term}

theorem isN_of_isSign {c : Char} (h : isSign c = true) : isN c = false := by
  rcases isSign_iff.mp h with rfl | rfl <;> rfl

theorem Front.isN_coefficient {sign : Char} {front rest : List Char} (h : Front sign front rest t)
    (hsign : isSign sign = true) (hfront : ∀ c ∈ front, isN c = false) :
    ∀ c ∈ t.coefficient.toList, isN c = false := by
  have hhead := isN_of_isSign hsign
  cases h with
  | constant hword =>
    rw [String.toList_ofList]
    exact List.forall_mem_cons.mpr ⟨hhead, hfront⟩
  | @multiple word front text _ power hword hx hpower =>
    rw [String.toList_ofList]
    refine List.forall_mem_cons.mpr ⟨hhead, ?_⟩
    have hcoefficient : ∀ c ∈ word, isN c = false := by
      intro c hc
      refine hfront c (List.mem_append_left _ ?_)
      cases hx with
      | last => exact List.mem_append_left _ hc
      | product => exact List.mem_append_left _ hc
    split
    · exact List.forall_mem_singleton.mpr rfl
    · exact hcoefficient

theorem FrontTerms.isN_coefficient (h : FrontTerms s ts) (hs : ∀ c ∈ s, isN c = false) :
    ∀ t ∈ ts, ∀ c ∈ t.coefficient.toList, isN c = false := by
  induction h with
  | nil => simp
  | term hsign hbody hlater hfront hts ih =>
    obtain ⟨hhere, hthere⟩ := List.forall_mem_append.mp (List.forall_mem_cons.mp hs).2
    refine List.forall_mem_cons.mpr ⟨?_, ih hthere⟩
    exact hfront.isN_coefficient hsign (List.forall_mem_append.mp hhere).1
  | skipped hsign hbody hlater hhead hx hts ih =>
    exact ih (List.forall_mem_append.mp (List.forall_mem_cons.mp hs).2).2

theorem isN_signed (hs : ∀ c ∈ s, isN c = false) : ∀ c ∈ signed s, isN c = false := by
  have hsqueeze : ∀ c ∈ squeeze s, isN c = false := fun c hc => hs c (List.mem_filter.mp hc).1
  unfold signed
  split
  · exact List.forall_mem_singleton.mpr rfl
  · rename_i heq
    rw [heq] at hsqueeze
    split
    · exact hsqueeze
    · exact List.forall_mem_cons.mpr ⟨rfl, hsqueeze⟩

/-- Without an n all coefficients that are numbers are finite. -/
theorem exists_finite_of_valueAt {K : Type} [Field K] [LinearOrder K] [Notated K] {power : ℤ}
    {v : Exact K} (hread : readAll s = .ok ts) (hs : ∀ c ∈ s, isN c = false)
    (h : valueAt ts power = .ok v) : ∃ q, v = .finite q := by
  obtain ⟨ts', hfronts, hts'⟩ | ⟨n, -, hfail⟩ := readAll_cases s
  · obtain rfl := Except.ok.inj (hread.symm.trans hts')
    unfold valueAt at h
    split at h
    · rename_i t ht
      have ht := hfronts.isN_coefficient (isN_signed hs) t (List.mem_of_find?_eq_some ht)
      unfold value at h
      split at h
      · rename_i w hw
        obtain rfl := Except.ok.inj h
        exact Exact.exists_finite_of_read? hw ht
      · cases h
    · exact ⟨_, (Except.ok.inj h).symm⟩
  · cases hread.symm.trans hfail

end Term

namespace Factor

variable {F : Factor (Exact ℚ)} {f : ℚ[X]} {r : Exact ℚ}

/-- A content that writes a polynomial has no `inf` and no `nan` in it. -/
theorem exists_finite_rate (hwrites : Writes F.content f) (h : Solution.rate F = .ok r) :
    ∃ q, r = .finite q := by
  unfold Solution.rate at h
  obtain ⟨ts, hts, h⟩ := bind_eq_ok.mp h
  dsimp only at h
  split at h
  · split at h
    · rename_i leading constant hleading hconstant
      split at h
      · have hread := mapError_eq_ok.mp hts
        obtain ⟨q, rfl⟩ := Term.exists_finite_of_valueAt hread hwrites.isN hconstant
        exact ⟨-q, (Except.ok.inj h).symm⟩
      · cases h
    · cases h
  · cases h

/-- A text that is x, or x with a sign and something behind it without another x. -/
def IsLinearText (s : List Char) : Prop :=
  ∃ t, squeeze s = 'x' :: t ∧ (∀ c ∈ t.head?, Term.isSign c = true) ∧ 'x' ∉ t

/-- A root that is shown is read of a linear text, and without an n it is finite. -/
theorem isLinearText_of_shownRoot? {s k : List Char} {q : Exact ℚ} (hk : shownRoot? s = some k)
    (hread : Scalar.read? k = some q) (hs : ∀ c ∈ s, isN c = false) :
    IsLinearText s ∧ ∃ v, q = .finite v := by
  have hsqueeze : ∀ c ∈ squeeze s, isN c = false := fun c hc => hs c (List.mem_filter.mp hc).1
  obtain ⟨n, hn, -⟩ := Option.map_eq_some_iff.mp hread
  have hx := Numeral.x_notMem_of_read? hn
  have hsigned {sign turned : Char} {t : List Char} (hsign : Term.isSign sign = true)
      (hturned : isN turned = false) (heq : squeeze s = 'x' :: sign :: t) (hk : k = turned :: t) :
      IsLinearText s ∧ ∃ v, q = .finite v := by
    rw [heq] at hsqueeze
    obtain ⟨-, -, hplain⟩ := by simpa only [List.forall_mem_cons] using hsqueeze
    rw [hk] at hx hread
    refine ⟨⟨_, heq, by rintro c ⟨⟩; exact hsign, ?_⟩, ?_⟩
    · refine List.not_mem_cons_of_ne_of_not_mem ?_ fun hmem => hx (List.mem_cons_of_mem _ hmem)
      rintro rfl
      cases hsign
    · exact Exact.exists_finite_of_read? hread (List.forall_mem_cons.mpr ⟨hturned, hplain⟩)
  unfold shownRoot? at hk
  split at hk
  · rename_i heq
    obtain rfl := Option.some.inj hk
    exact ⟨⟨[], heq, by simp, by simp⟩,
      Exact.exists_finite_of_read? hread (List.forall_mem_singleton.mpr rfl)⟩
  · rename_i heq
    exact hsigned rfl rfl heq (Option.some.inj hk).symm
  · rename_i heq
    exact hsigned rfl rfl heq (Option.some.inj hk).symm
  · cases hk

theorem x_notMem_toString (q : ℚ) : 'x' ∉ (toString q).toList := by
  have hdigits (n : ℕ) : 'x' ∉ (toString n).toList := by
    have htext : (toString n).toList = Nat.toDigits 10 n := String.toList_ofList
    rw [htext]
    exact fun hmem => absurd (isDigit_toDigits n 'x' hmem) (by decide)
  have hwhole (n : ℤ) : 'x' ∉ (toString n).toList := by
    cases n with
    | ofNat n => exact hdigits n
    | negSucc n =>
      have htext : toString (Int.negSucc n) = "-" ++ toString (n + 1) := rfl
      rw [htext, String.toList_append]
      exact List.mem_append.not.mpr (not_or.mpr ⟨by decide, hdigits (n + 1)⟩)
  have htext : toString q = if q.den = 1 then toString q.num
      else toString q.num ++ "/" ++ toString q.den := rfl
  rw [htext]
  split
  · exact hwhole q.num
  · rw [String.toList_append, String.toList_append, List.mem_append, List.mem_append]
    exact not_or.mpr ⟨not_or.mpr ⟨hwhole q.num, by decide⟩, hdigits q.den⟩

theorem isLinearText_append (sign : Char) (hsign : Term.isSign sign = true) {s : String}
    (hs : 'x' ∉ s.toList) : IsLinearText (['x', ' ', sign, ' '] ++ s.toList) := by
  have hblank := Term.isBlank_of_isSign hsign
  have hx : isBlank 'x' = false := by decide
  refine ⟨sign :: squeeze s.toList, ?_, by rintro c ⟨⟩; exact hsign, ?_⟩
  · simp [squeeze, hx, isBlank_space, hblank]
  · refine List.not_mem_cons_of_ne_of_not_mem ?_ fun hmem => hs (List.mem_filter.mp hmem).1
    rintro rfl
    cases hsign

/-- A content that is made of a root is a linear text. -/
theorem isLinearText_ofRoot (q : ℚ) (n : ℤ) :
    IsLinearText (ofRoot (Exact.finite q) n).content.toList := by
  have htext (v : ℚ) : Scalar.text (Exact.finite v) = toString v := rfl
  unfold ofRoot
  dsimp only
  split
  · rw [String.toList_append, htext]
    exact isLinearText_append '-' rfl (x_notMem_toString q)
  · rw [String.toList_append]
    split
    · rw [Exact.neg_finite, htext]
      exact isLinearText_append '+' rfl (x_notMem_toString (-q))
    · rw [htext]
      exact isLinearText_append '+' rfl (x_notMem_toString q)

/-- The texts of numbers that are not finite hold an n. -/
theorem exists_isN_ofRoot (v : Exact ℚ) (hv : ∀ q, v ≠ .finite q) (n : ℤ) :
    'n' ∈ (ofRoot v n).content.toList := by
  cases v with
  | finite q => exact absurd rfl (hv q)
  | infinite negative =>
    cases negative with
    | false =>
      have hcontent : (ofRoot (Exact.infinite false : Exact ℚ) n).content = "x - " ++ "inf" := rfl
      rw [hcontent]
      decide
    | true =>
      have hcontent : (ofRoot (Exact.infinite true : Exact ℚ) n).content = "x + " ++ "inf" := rfl
      rw [hcontent]
      decide
  | undefined =>
    have hcontent : (ofRoot (Exact.undefined : Exact ℚ) n).content = "x + " ++ "nan" := rfl
    rw [hcontent]
    decide

/-- A linear factor with a root and no letter `n` is `x` with a finite number behind it. -/
theorem isLinearText_of_made (hmade : F.Made) (h : Solution.root F = .ok r)
    (hn : ∀ c ∈ F.content.toList, isN c = false) :
    IsLinearText F.content.toList ∧ ∃ v, r = .finite v := by
  have hvalue : F.root.bind Root.value? = some r := by
    unfold Solution.root at h
    split at h
    · rename_i v hv
      rw [hv, Except.ok.inj h]
    · cases h
  cases hmade with
  | bare n =>
    have hread : Scalar.read? ['0'] = some r := hvalue
    have hcontent : (bare n : Factor (Exact ℚ)).content.toList = ['x'] := by
      have htext : (bare n : Factor (Exact ℚ)).content = "x" := rfl
      rw [htext]
      decide
    rw [hcontent] at hn ⊢
    exact isLinearText_of_shownRoot? rfl hread hn
  | content s n =>
    have hcontent : (ofContent s n : Factor (Exact ℚ)).content.toList = s := String.toList_ofList
    rw [hcontent] at hn ⊢
    obtain ⟨root, hroot, hread⟩ := Option.bind_eq_some_iff.mp hvalue
    unfold ofContent at hroot
    dsimp only at hroot
    split at hroot
    · cases hroot
    · obtain ⟨k, hk, rfl⟩ := Option.map_eq_some_iff.mp hroot
      rw [Root.value?, String.toList_ofList] at hread
      exact isLinearText_of_shownRoot? hk hread hn
  | root v n =>
    by_cases hv : ∀ q, v ≠ .finite q
    · exact absurd (hn 'n' (exists_isN_ofRoot v hv n)) (by decide)
    · obtain ⟨q, hq⟩ := not_forall.mp hv
      obtain rfl := not_not.mp hq
      exact ⟨isLinearText_ofRoot q n, _, (Option.some.inj hvalue).symm⟩
  | whole denominator => cases hvalue

/-- A factor that has a root writes x - r for some r. -/
theorem eq_X_sub_C (hmade : F.Made) (hwrites : Writes F.content f)
    (h : Solution.root F = .ok r) : (∃ q, f = X - C q) ∧ ∃ v, r = .finite v := by
  obtain ⟨⟨t, ht, hsign, hx⟩, hfinite⟩ := isLinearText_of_made hmade h hwrites.isN
  obtain ⟨e, hwritten, he⟩ := hwrites
  exact ⟨he.eq_X_sub_C_of_squeeze hwritten ht hsign hx, hfinite⟩

end Factor

end PartialFractions
