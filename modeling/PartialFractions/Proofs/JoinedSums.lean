import PartialFractions.Proofs.TermFronts

/-!
Sums that are cut in front of a sign. A body ends at the next sign, so nothing on one side of a cut
has to do with what is read on the other side: the terms of the whole text are those of its parts,
one part after the other, and reading it fails where the first part fails that cannot be read.
-/
namespace PartialFractions.Term

open Text

variable {s rest : List Char} {sign : Char}

/-- The body in front of a cut does not go on behind it. -/
theorem takeWhile_cut (hsign : isSign sign = true) (s rest : List Char) :
    (s ++ sign :: rest).takeWhile (! isSign ·) = s.takeWhile (! isSign ·) := by
  induction s with
  | nil => simp [hsign]
  | cons c s ih => by_cases hc : isSign c = true <;> simp [hc, ih]

/-- A sum may be cut before any of its signs. -/
theorem signedBodies_cut (hsign : isSign sign = true) (s rest : List Char) :
    signedBodies (s ++ sign :: rest) = signedBodies s ++ signedBodies (sign :: rest) := by
  induction s with
  | nil => rfl
  | cons c s ih =>
    rw [List.cons_append, signedBodies, signedBodies.eq_2 c s, takeWhile_cut hsign, ih]
    by_cases hc : isSign c = true
    · -- a sign without a body gives nothing, as it does in front of the cut
      rw [if_pos hc, if_pos hc]
      cases s.takeWhile (! isSign ·) with
      | nil => rfl
      | cons d body => rfl
    · rw [if_neg hc, if_neg hc]

theorem readSigned_cut (hsign : isSign sign = true) (s rest : List Char) :
    readSigned (s ++ sign :: rest) = (do
      let ts ← readSigned s
      let us ← readSigned (sign :: rest)
      return ts ++ us) := by
  unfold readSigned
  rw [signedBodies_cut hsign, List.filterMap_append, List.mapM_append]

theorem squeeze_cut (hsign : isSign sign = true) (s rest : List Char) :
    squeeze (s ++ sign :: rest) = squeeze s ++ sign :: squeeze rest := by
  simp [squeeze, isBlank_of_isSign hsign]

theorem signed_of_isSign (hsign : isSign sign = true) (rest : List Char) :
    signed (sign :: rest) = sign :: squeeze rest := by
  have hsqueeze := squeeze_cut hsign [] rest
  rw [List.nil_append] at hsqueeze
  rw [signed, hsqueeze]
  exact if_pos hsign

/-- The plus sign in front of a text does not depend on what is behind a cut. In front of a cut
where nothing but blanks stands it has no body. -/
theorem readSigned_signed_cut (hsign : isSign sign = true) (s rest : List Char) :
    readSigned (signed (s ++ sign :: rest)) =
      readSigned (signed s ++ sign :: squeeze rest) := by
  unfold signed
  rw [squeeze_cut hsign]
  cases squeeze s with
  | nil =>
    have hplus : readSigned ['+'] = .ok [] := rfl
    rw [readSigned_cut hsign, hplus]
    simp only [List.nil_append, if_pos hsign, bind, Except.bind]
    cases readSigned (sign :: squeeze rest) with
    | ok us => rfl
    | error e => rfl
  | cons c front =>
    by_cases hc : isSign c = true
    · simp [hc]
    · simp [hc]

theorem readAll_cut (hsign : isSign sign = true) (s rest : List Char) :
    readAll (s ++ sign :: rest) = (do
      let ts ← readAll s
      let us ← readAll (sign :: rest)
      return ts ++ us) := by
  rw [readAll_eq_readSigned, readAll_eq_readSigned, readAll_eq_readSigned,
    readSigned_signed_cut hsign, readSigned_cut hsign, signed_of_isSign hsign]

/-- A sum is read part by part, at whichever of its signs it is cut. -/
theorem readAll_joined (s : List Char) :
    (∀ (sign : Char) (rest : List Char), isSign sign = true →
      readAll (s ++ sign :: rest) = (do
        let ts ← readAll s
        let us ← readAll (sign :: rest)
        return ts ++ us)) ∧
    ∀ parts : List (Char × List Char), (∀ part ∈ parts, isSign part.1 = true) →
      readAll (s ++ parts.flatMap fun part => part.1 :: part.2) = (do
        let ts ← readAll s
        let uss ← parts.mapM fun part => readAll (part.1 :: part.2)
        return ts ++ uss.flatten) := by
  refine ⟨fun sign rest hsign => readAll_cut hsign s rest, ?_⟩
  intro parts
  induction parts generalizing s with
  | nil =>
    intro _
    simp
  | cons part parts ih =>
    intro hsigns
    obtain ⟨hsign, hsigns⟩ := List.forall_mem_cons.mp hsigns
    have hrest := ih (s ++ part.1 :: part.2) hsigns
    rw [readAll_cut hsign] at hrest
    rw [List.flatMap_cons, ← List.append_assoc, hrest]
    simp only [List.mapM_cons, bind_assoc, pure_bind, List.flatten_cons, List.append_assoc]

/-- A cut behind a sign that dangles, one in front of a body that is no term, and one in a row of
signs. -/
theorem readAll_joined_dangling :
    (∀ part ∈ [('-', " /2".toList), ('+', " + 3 -".toList)], isSign part.1 = true) ∧
      readAll "2x +- /2+ + 3 -".toList = .ok [⟨1, "+2"⟩, ⟨0, "+3"⟩] := by
  have hsigns : ∀ part ∈ [('-', " /2".toList), ('+', " + 3 -".toList)], isSign part.1 = true := by
    decide
  have hjoined := (readAll_joined "2x +".toList).2 _ hsigns
  have hfirst : readAll "2x +".toList = .ok [⟨1, "+2"⟩] := by decide +kernel
  have hskipped : readAll ('-' :: " /2".toList) = .ok [] := by decide +kernel
  have hlast : readAll ('+' :: " + 3 -".toList) = .ok [⟨0, "+3"⟩] := by decide +kernel
  simp only [List.mapM_cons, List.mapM_nil, hfirst, hskipped, hlast] at hjoined
  exact ⟨hsigns, hjoined⟩

end PartialFractions.Term
