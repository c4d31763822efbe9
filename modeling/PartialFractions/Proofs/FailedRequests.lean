import PartialFractions.Proofs.RequestOutcomes

/-!
Why a request fails. It is refused, or a row of digits behind a caret of the text is longer than can
be read, or the precision is not accepted; there is no fourth way, and none of the faults is one
that an outcome does not contain.
-/
namespace PartialFractions

open Text Number

inductive Failure.OfRequest (precision : ℤ) (s : List Char) : Failure → Prop
  | refused (r : Refusal) : OfRequest precision s (.refused r)
  | tooLong {n : ℕ} (h : HasLongRow s n) : OfRequest precision s (.fault (.integerTooLong n))
  | precision {fault : PrecisionFault} (h : significantCount precision = .error fault) :
      OfRequest precision s (.fault (.precision fault))

namespace Failure

variable {precision : ℤ} {s : List Char}

theorem OfText.ofRequest {e : Failure} (h : OfText s e) : OfRequest precision s e := by
  cases h with
  | refused hkind => exact .refused _
  | tooLong hlong => exact .tooLong hlong

theorem OfRequest.isContained {f : Fault} (h : OfRequest precision s (.fault f)) :
    f.kind.isContained = true := by
  cases h with
  | tooLong => rfl
  | precision => rfl

end Failure

section Contents

variable {s : List Char} {K : Type}

/-- The factor is linear, or its content stands in the text. -/
def Factor.Within (s : List Char) (f : Factor K) : Prop :=
  f.kind = .linear ∨ f.content.toList.Sublist s

namespace Factorization

theorem within_of_bracketFactor {b : Bracket} (hb : b.Within s) {f : Factor K}
    (h : bracketFactor b = .ok f) : f.Within s := by
  obtain ⟨n, rfl⟩ := exists_ofContent h
  refine .inr ?_
  rw [Factor.ofContent, String.toList_ofList]
  exact (trim_sublist _).trans hb.content

/-- Only brackets bring quadratic factors. -/
theorem kind_of_gapFactors {x : Gap.Variable} {fs : List (Factor K)} (h : Gap.factors x = .ok fs) :
    ∀ f ∈ fs, f.kind = .linear := by
  cases x with
  | absent =>
    obtain rfl := Except.ok.inj h
    simp
  | plain =>
    obtain rfl := Except.ok.inj h
    simp [Factor.bare]
  | power digits =>
    obtain ⟨n, -, rfl⟩ := map_eq_ok.mp h
    simp [Factor.bare]

variable [Neg K] [Scalar K]

theorem within_of_gap {leading : Bool} {gap : List Char} {scale : K} {fs : List (Factor K)}
    (h : Gap.read leading gap = .ok (scale, fs)) : ∀ f ∈ fs, f.Within s := by
  unfold Gap.read at h
  split at h
  · cases h
  · obtain ⟨_, -, h⟩ := bind_eq_ok.mp h
    obtain ⟨gs, hgs, h⟩ := bind_eq_ok.mp h
    obtain ⟨-, rfl⟩ := Prod.mk.inj (Except.ok.inj h)
    exact fun f hf => .inl (kind_of_gapFactors (mapError_eq_ok.mp hgs) f hf)

variable [Mul K]

/-- A quadratic factor of the brackets has its content from the text. -/
theorem within_of_bracketFactors {brackets : List Bracket} (hbrackets : ∀ b ∈ brackets, b.Within s)
    {leading : Bool} {scale scale' : K} {fs : List (Factor K)}
    (h : bracketFactors leading scale brackets = .ok (scale', fs)) : ∀ f ∈ fs, f.Within s := by
  induction brackets generalizing leading scale scale' fs with
  | nil =>
    obtain ⟨-, rfl⟩ := Prod.mk.inj (Except.ok.inj h)
    simp
  | cons b rest ih =>
    obtain ⟨hb, hrest⟩ := List.forall_mem_cons.mp hbrackets
    rw [bracketFactors] at h
    obtain ⟨⟨_, bare⟩, hgap, h⟩ := bind_eq_ok.mp h
    obtain ⟨f, hf, h⟩ := bind_eq_ok.mp h
    obtain ⟨⟨_, others⟩, hothers, h⟩ := bind_eq_ok.mp h
    obtain ⟨-, rfl⟩ := Prod.mk.inj (Except.ok.inj h)
    exact List.forall_mem_append.mpr ⟨within_of_gap hgap, List.forall_mem_cons.mpr
      ⟨within_of_bracketFactor hb (mapError_eq_ok.mp hf), ih hrest hothers⟩⟩

theorem within_of_listed {scale : K} {fs : List (Factor K)} (h : listed s = .ok (scale, fs)) :
    ∀ f ∈ fs, f.Within s := by
  unfold listed at h
  dsimp only at h
  split at h
  · obtain ⟨-, rfl⟩ := Prod.mk.inj (Except.ok.inj h)
    simp
  · obtain ⟨⟨_, gs⟩, hbrackets, h⟩ := bind_eq_ok.mp h
    obtain ⟨⟨_, bare⟩, hgap, h⟩ := bind_eq_ok.mp h
    obtain ⟨-, rfl⟩ := Prod.mk.inj (Except.ok.inj h)
    have hwithin := (Bracket.within_of_all s).1
    exact List.forall_mem_append.mpr
      ⟨within_of_bracketFactors hwithin hbrackets, within_of_gap hgap⟩

variable [Add K] [Sub K] [Div K] {denominator : String} {F : Factorization K}

/-- The factors of a denominator are linear, or their contents stand in it. -/
theorem within_of_read (h : read denominator = .ok F) :
    ∀ f ∈ F.factors, f.Within denominator.toList := by
  by_cases hopen : '(' ∈ denominator.toList
  · rw [read, if_pos hopen] at h
    obtain ⟨⟨_, fs⟩, hlisted, h⟩ := bind_eq_ok.mp h
    obtain rfl := Except.ok.inj h
    exact within_of_listed hlisted
  · obtain ⟨t, -, hfactors⟩ := exists_trinomial hopen h
    rw [hfactors]
    rcases ofTrinomial_cases denominator t with ⟨rs, -, -, hroots⟩ | hwhole
    · rw [hroots]
      exact List.forall_mem_map.mpr fun r _ => .inl rfl
    · rw [hwhole]
      exact List.forall_mem_singleton.mpr (.inr (.refl _))

end Factorization

namespace Decomposition

variable [Add K] [Sub K] [Mul K] [Div K] [Neg K] [Scalar K] {limit precision : ℤ}
  {text : Option String}

/-- The contents of quadratic factors stand in the text. -/
theorem content_sublist {d : Decomposition K} (h : ofText limit text = .ok d)
    (hkind : d.kind = .quadratic) :
    ∀ f ∈ d.factorization.factors, f.content.toList.Sublist (text.elim [] String.toList) := by
  obtain ⟨s, hs, h⟩ := bind_eq_ok.mp h
  obtain ⟨fraction, hfraction, h⟩ := bind_eq_ok.mp h
  obtain ⟨_, -, h⟩ := bind_eq_ok.mp h
  obtain ⟨F, hF, h⟩ := bind_eq_ok.mp h
  obtain rfl := Except.ok.inj h
  obtain rfl := checkInput_eq_ok (mapError_eq_ok.mp hs)
  obtain ⟨-, hdenominator⟩ := Fraction.sublist_of_ofText (mapError_eq_ok.mp hfraction)
  intro f hf
  have hwithin := Factorization.within_of_read (Factorization.read_of_ofDenominator hF).1 f hf
  have hsub := hwithin.resolve_left (Factorization.ne_linear_of_kind hkind f hf)
  exact hsub.trans hdenominator

end Decomposition

end Contents

section Requests

variable {settings : Settings} {text : Option String} {d : Decomposition Float}

theorem failsWithin_rendering {precision : ℤ} {s : List Char} {lines : List (Formula Float)}
    (h : ∀ f ∈ lines, f.Drawn) :
    FailsWithin (fun e => Failure.OfRequest precision s (.fault e))
      (Formula.renderArray precision lines) :=
  Formula.failsWithin_renderArray h fun v e he =>
    .precision (failsWithin_roundedText precision v e he)

/-- Solving has lines to write, or is refused, or fails at a long exponent. -/
theorem failsWithin_solve {limit precision : ℤ} (h : Decomposition.ofText limit text = .ok d) :
    FailsWithin (Failure.OfRequest precision (text.elim [] String.toList)) (d.solve precision) := by
  rw [Decomposition.solve]
  rcases Decomposition.lines_cases h with ⟨steps, hlines, hdrawn, -⟩ | ⟨r, hlines, -⟩ |
    ⟨n, hlines, hkind, f, hf, hlong⟩
  · rw [hlines]
    refine .mapError (failsWithin_rendering ?_)
    exact List.forall_mem_append.mpr ⟨d.drawn_identityLines, hdrawn⟩
  · rw [hlines]
    exact .failure (.refused r)
  · have hcontent := Decomposition.content_sublist h hkind f hf
    rw [hlines]
    exact .failure (.tooLong (hlong.hasLongRow.of_signed.mono hcontent))

theorem failsWithin_answer (request : Request) (h : decompose settings text = .ok d) :
    FailsWithin (Failure.OfRequest settings.precision (text.elim [] String.toList))
      (request.answer settings d) := by
  cases request with
  | expand => exact .mapError (failsWithin_rendering d.drawn_identityLines)
  | solve => exact failsWithin_solve h

/-- A request of a text is refused, or a row of digits in the text is too long for it, or the
precision is not accepted. -/
theorem failsWithin_request (settings : Settings) (request : Request) (text : Option String) :
    FailsWithin (Failure.OfRequest settings.precision (text.elim [] String.toList))
      (decompose settings text >>= request.answer settings) := by
  refine FailsWithin.bind ?_ fun d hd => failsWithin_answer request hd
  exact fun e he => (Decomposition.failsWithin_ofText _ text e he).ofRequest

end Requests

end PartialFractions
