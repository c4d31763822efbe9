import PartialFractions.Proofs.FactorizationInvariants
import PartialFractions.Proofs.FormulaTexts
import PartialFractions.Proofs.ReadAtoms
import PartialFractions.Proofs.TermReading
import PartialFractions.Proofs.TokenScanning

/-!
Letters of formulas. Nothing in the notation is written with an n, so the words for numbers that are
not finite are no formulas; and without a letter x no token is x.
-/
namespace PartialFractions

open Polynomial Text Number

theorem Text.eq_of_isN {c : Char} (h : isN c = true) : c = 'n' ∨ c = 'N' := by
  have hlower : c.toLower = 'n' := of_decide_eq_true h
  unfold Char.toLower at hlower
  split at hlower
  · have hval : c.val + 32 = 78 + 32 := congrArg Char.val hlower
    exact Or.inr (Char.ext (add_right_cancel hval))
  · exact Or.inl hlower

theorem Text.isN_of_isDigit {c : Char} (h : c.isDigit = true) : isN c = false := by
  by_contra hn
  rcases eq_of_isN (by simpa using hn) with rfl | rfl <;> exact absurd h (by decide)

/-- The first character that is not blank stands behind blanks only. -/
theorem Text.exists_of_squeeze {s t : List Char} {c : Char} (h : squeeze s = c :: t) :
    ∃ blanks rest, s = blanks ++ c :: rest ∧ (∀ b ∈ blanks, isBlank b = true) ∧
      squeeze rest = t := by
  have hspaced := Spaced.squeezed s
  rw [h, List.map_cons] at hspaced
  obtain ⟨blanks, rest, rfl, hblanks, -⟩ := hspaced.exists_cons
  refine ⟨blanks, rest, rfl, hblanks, ?_⟩
  have hempty : squeeze blanks = [] := List.filter_eq_nil_iff.mpr (by simpa using hblanks)
  have hc : isBlank c = false := not_isBlank_of_mem_squeeze (h ▸ List.mem_cons_self ..)
  have hkeep : squeeze (c :: rest) = c :: squeeze rest := by simp [squeeze, hc]
  rw [squeeze_append, hempty, List.nil_append, List.singleton_append, hkeep] at h
  exact (List.cons.inj h).2

namespace Verification

section Formulas

variable {c : Char} {s : List Char}

theorem mem_withStars (hc : c ∉ ['\\', 'c', 'd', 'o', 't']) (h : c ∈ s) : c ∈ withStars s := by
  fun_induction withStars s with
  | case1 rest ih =>
    simp only [List.mem_cons, List.not_mem_nil, or_false, not_or] at hc
    exact List.mem_cons_of_mem _ (ih (by simpa [hc] using h))
  | case2 d rest _ ih =>
    rcases List.mem_cons.mp h with rfl | h
    · exact List.mem_cons_self ..
    · exact List.mem_cons_of_mem _ (ih h)
  | case3 => cases h

/-- A letter n of the text is one of the formula. -/
theorem mem_formulaText_of_isN (hc : isN c = true) (h : c ∈ s) : c ∈ formulaText s := by
  have hother : c ∉ ['\\', 'c', 'd', 'o', 't'] ∧ asParenthesis c = c := by
    rcases eq_of_isN hc with rfl | rfl <;> exact ⟨by decide, rfl⟩
  rw [formulaText_eq]
  exact List.mem_map.mpr ⟨c, mem_withStars hother.1 h, hother.2⟩

theorem x_mem_of_mem_withStars (h : 'x' ∈ withStars s) : 'x' ∈ s := by
  fun_induction withStars s with
  | case1 rest ih =>
    have hlater := ih (by simpa using h)
    simp [hlater]
  | case2 c rest _ ih =>
    rcases List.mem_cons.mp h with rfl | h
    · exact List.mem_cons_self ..
    · exact List.mem_cons_of_mem _ (ih h)
  | case3 => cases h

theorem x_mem_of_mem_formulaText (h : 'x' ∈ formulaText s) : 'x' ∈ s := by
  rw [formulaText_eq] at h
  obtain ⟨d, hd, hx⟩ := List.mem_map.mp h
  unfold asParenthesis at hx
  split at hx
  · exact absurd hx (by decide)
  · split at hx
    · exact absurd hx (by decide)
    · exact x_mem_of_mem_withStars (hx ▸ hd)

theorem isKept_of_isBlank (h : isBlank c = true) : IsKept c := by
  simp only [IsKept, List.mem_cons, List.not_mem_nil, or_false]
  rintro (rfl | rfl | rfl) <;> exact absurd h (by decide)

end Formulas

namespace Literal

variable {s ds : List Char}

theorem Row.isN (h : Row s ds) : ∀ c ∈ s, isN c = false := by
  induction h with
  | nil => simp
  | digit hc h ih => exact List.forall_mem_cons.mpr ⟨isN_of_isDigit hc, ih⟩
  | low hc hds h ih =>
    exact List.forall_mem_cons.mpr ⟨isN_of_isDigit hc, List.forall_mem_cons.mpr ⟨rfl, ih⟩⟩

/-- An exponent of a number holds digits, a sign and the letter `e`. -/
theorem ExponentSpelled.isN {e : ℤ} (h : ExponentSpelled s e) : ∀ c ∈ s, isN c = false := by
  cases h with
  | absent => simp
  | @written letter sign s ds negative hletter hsign hs hds =>
    have hfirst : Text.isN letter = false := by
      rcases List.mem_pair.mp hletter with rfl | rfl <;> rfl
    have hsigns : ∀ c ∈ sign, Text.isN c = false := by
      simp only [exponentSigns, List.mem_cons, List.not_mem_nil, or_false, Prod.mk.injEq] at hsign
      rcases hsign with ⟨rfl, -⟩ | ⟨rfl, -⟩ | ⟨rfl, -⟩
      · simp
      · exact List.forall_mem_singleton.mpr rfl
      · exact List.forall_mem_singleton.mpr rfl
    exact List.forall_mem_cons.mpr ⟨hfirst, List.forall_mem_append.mpr ⟨hsigns, hs.isN⟩⟩

theorem Spelled.isN {l : Literal} (h : l.Spelled s) : ∀ c ∈ s, isN c = false := by
  cases h with
  | whole hs hds => exact hs.isN
  | pointed hs ht hne he =>
    exact List.forall_mem_append.mpr ⟨hs.isN, List.forall_mem_cons.mpr ⟨rfl,
      List.forall_mem_append.mpr ⟨ht.isN, he.isN⟩⟩⟩
  | scientific hs hds he hexponent hlength =>
    exact List.forall_mem_append.mpr ⟨hs.isN, he.isN⟩

end Literal

namespace Token.Scanned

variable {c : Char} {s blanks : List Char} {ts : List Token}

/-- Nothing in the notation is written with an n. -/
theorem isN (h : Scanned s ts) : ∀ c ∈ s, isN c = false := by
  have hbreaks : ∀ c ∈ breaks, Text.isN c = false := by
    intro c hc
    unfold breaks spaces marks at hc
    fin_cases hc <;> rfl
  induction h with
  | done => simp
  | space hc h ih =>
    exact List.forall_mem_cons.mpr ⟨hbreaks _ (mem_breaks_of_mem_spaces _ hc), ih⟩
  | mark hc h ih => exact List.forall_mem_cons.mpr ⟨hbreaks _ (mem_breaks_of_mem_marks _ hc), ih⟩
  | x hs h ih => exact List.forall_mem_cons.mpr ⟨rfl, ih⟩
  | literal hds hs h ih => exact List.forall_mem_append.mpr ⟨hds.isN, ih⟩

theorem x_notMem (h : Scanned s ts) (hx : 'x' ∉ s) : .x ∉ ts := by
  induction h with
  | done => simp
  | space hc h ih => exact ih fun hmem => hx (List.mem_cons_of_mem _ hmem)
  | mark hc h ih =>
    have hall : ∀ m ∈ marks, m.2 ≠ .x := by decide
    exact List.not_mem_cons_of_ne_of_not_mem (hall _ hc).symm
      (ih fun hmem => hx (List.mem_cons_of_mem _ hmem))
  | x hs h ih => exact absurd (List.mem_cons_self ..) hx
  | literal hds hs h ih =>
    exact List.not_mem_cons_of_ne_of_not_mem (by simp)
      (ih fun hmem => hx (List.mem_append_right _ hmem))

/-- Blanks are no tokens. -/
theorem of_blanks (hblanks : ∀ c ∈ blanks, isBlank c = true) (h : Scanned (blanks ++ s) ts) :
    Scanned s ts := by
  have hmarks : ∀ m ∈ marks, isBlank m.1 = false := by decide
  induction blanks with
  | nil => exact h
  | cons c blanks ih =>
    obtain ⟨hc, hrest⟩ := List.forall_mem_cons.mp hblanks
    rcases h.of_cons with ⟨-, h⟩ | ⟨t, us, hmark, -⟩ | ⟨rfl, -⟩ | hdigit | rfl
    · exact ih hrest h
    · rw [hmarks _ hmark] at hc
      cases hc
    · exact absurd hc (by decide)
    · rw [isBlank_of_isDigit (isDigit_of_ascii hdigit)] at hc
      cases hc
    · exact absurd hc (by decide)

theorem exists_of_isSign (hc : Term.isSign c = true) (h : Scanned (c :: s) ts) :
    ∃ t us, ts = t :: us ∧ (t = .plus ∨ t = .minus) := by
  have hmarks : ∀ m ∈ marks, Term.isSign m.1 = true → m.2 = .plus ∨ m.2 = .minus := by decide
  rcases h.of_cons with ⟨hspace, -⟩ | ⟨t, us, hmark, rfl, -⟩ | ⟨rfl, -⟩ | hdigit | rfl
  · rcases Term.isSign_iff.mp hc with rfl | rfl <;> exact absurd hspace (by decide)
  · exact ⟨t, us, rfl, hmarks _ hmark hc⟩
  · cases hc
  · rcases Term.isSign_iff.mp hc with rfl | rfl <;> exact absurd hdigit (by decide)
  · cases hc

/-- The tokens begin with a sign if the formula does. -/
theorem beginsWithSign (h : Scanned (formulaText s) ts)
    (hs : ∀ c ∈ (squeeze s).head?, Term.isSign c = true) : Arithmetic.BeginsWithSign ts := by
  cases hsqueeze : squeeze s with
  | nil =>
    have hblanks : ∀ c ∈ s, isBlank c = true := by
      simpa using List.filter_eq_nil_iff.mp hsqueeze
    have htext := formulaText_append (fun c hc => isKept_of_isBlank (hblanks c hc)) []
    rw [List.append_nil, formulaText_nil] at htext
    rw [htext] at h
    rw [(h.of_blanks hblanks).of_nil]
    simp [Arithmetic.BeginsWithSign]
  | cons c t =>
    obtain ⟨blanks, rest, rfl, hblanks, -⟩ := exists_of_squeeze hsqueeze
    have hsign := hs c (by rw [hsqueeze]; rfl)
    have hkept : IsKept c := by
      rcases Term.isSign_iff.mp hsign with rfl | rfl <;> decide
    rw [formulaText_append fun c hc => isKept_of_isBlank (hblanks c hc),
      formulaText_cons_of_isKept hkept] at h
    obtain ⟨t, us, rfl, ht⟩ := (h.of_blanks hblanks).exists_of_isSign hsign
    rintro u ⟨⟩
    exact ht

end Token.Scanned

namespace Arithmetic

variable {s : List Char} {e : Arithmetic (Exact ℚ)} {p : ℚ[X]}

/-- A formula is written without an n. -/
theorem Written.isN (h : e.Written (formulaText s)) : ∀ c ∈ s, isN c = false := by
  obtain ⟨ts, hscanned, -⟩ := h
  intro c hc
  by_contra hn
  exact hn (hscanned.isN c (mem_formulaText_of_isN (by simpa using hn) hc))

/-- A formula that begins with x, which a sign follows if anything does, and that does not hold
another x writes no polynomial but x - r. -/
theorem Represents.eq_X_sub_C_of_squeeze (he : e.Represents p) (h : e.Written (formulaText s))
    {t : List Char} (hs : squeeze s = 'x' :: t) (hsign : ∀ c ∈ t.head?, Term.isSign c = true)
    (hx : 'x' ∉ t) : ∃ r, p = X - C r := by
  obtain ⟨ts, hscanned, hderives⟩ := h
  obtain ⟨blanks, rest, rfl, hblanks, rfl⟩ := exists_of_squeeze hs
  rw [formulaText_append fun c hc => isKept_of_isBlank (hblanks c hc),
    formulaText_cons_of_isKept (by decide)] at hscanned
  obtain ⟨us, rfl, -, hrest⟩ := (hscanned.of_blanks hblanks).of_x
  refine he.eq_X_sub_C hderives (hrest.beginsWithSign hsign) (hrest.x_notMem fun hmem => ?_)
  exact hx (List.mem_filter.mpr ⟨x_mem_of_mem_formulaText hmem, by decide⟩)

end Arithmetic

end Verification

end PartialFractions
