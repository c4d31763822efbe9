import PartialFractions.Proofs.TermFronts
import PartialFractions.Proofs.TrinomialReading

/-!
What any text is read as when it is read as a trinomial. Of every summand the front counts that is a
number and a power of x, the last summand of a power gives its coefficient, and a text with any
other summand is refused. The number in front of a power is a whole numeral, in which no x can be.
-/
namespace PartialFractions

open Text Number

section NumeralChars

variable {s : List Char} {c : Char}

theorem mem_digitGroup (hdigit : digit? c = none) (hline : c ≠ '_') (hc : c ∈ s) :
    c ∈ (digitGroup s).2 := by
  have hfrom (inside : Bool) : c ∈ (digitsFrom digit? inside s).2 := by
    induction s generalizing inside with
    | nil => simp at hc
    | cons d s ih =>
      have htail (hne : c ≠ d) (inside : Bool) : c ∈ (digitsFrom digit? inside s).2 :=
        ih ((List.mem_cons.mp hc).resolve_left hne) inside
      rw [digitsFrom]
      split
      · rename_i hskip
        have hne : c ≠ d := by
          rintro rfl
          simp [hline] at hskip
        split
        · exact hc
        · exact htail hne false
      · split
        · exact hc
        · rename_i value hvalue
          have hne : c ≠ d := by
            rintro rfl
            rw [hdigit] at hvalue
            cases hvalue
          exact htail hne true
  exact hfrom false

theorem mem_splitSign (hplus : c ≠ '+') (hminus : c ≠ '-') (hc : c ∈ s) :
    c ∈ (splitSign s).2 := by
  unfold splitSign
  split
  · simpa [hminus] using hc
  · simpa [hplus] using hc
  · exact hc

theorem mem_trimOf {p : Char → Bool} (hp : p c = false) (hc : c ∈ s) : c ∈ trimOf p s := by
  have hdrop {s : List Char} (hc : c ∈ s) : c ∈ s.dropWhile p := by
    rw [← List.takeWhile_append_dropWhile (p := p) (l := s), List.mem_append] at hc
    rcases hc with hc | hc
    · rw [List.mem_takeWhile_imp hc] at hp
      cases hp
    · exact hc
  simpa [trimOf] using hdrop (List.mem_reverse.mpr (hdrop hc))

namespace Numeral

theorem exponent?_of_mem_x (hx : 'x' ∈ s) : exponent? s = none := by
  cases s with
  | nil => simp at hx
  | cons c rest =>
    rw [exponent?]
    split
    · rename_i hc
      have hne : 'x' ≠ c := by
        rintro rfl
        simp at hc
      have hrest := (List.mem_cons.mp hx).resolve_left hne
      have hbody := mem_digitGroup (by decide) (by decide)
        (mem_splitSign (by decide) (by decide) hrest)
      dsimp only
      split
      · rfl
      · rename_i hgroup
        rw [hgroup] at hbody
        simp at hbody
      · rfl
    · rfl

theorem ofWord?_of_mem_x (hx : 'x' ∈ s) (negative : Bool) : ofWord? negative s = none := by
  have hlower : 'x' ∈ s.map Char.toLower := List.mem_map.mpr ⟨'x', hx, rfl⟩
  have hne (word : List Char) (hword : 'x' ∉ word) : s.map Char.toLower ≠ word := by
    intro h
    exact hword (h ▸ hlower)
  simp [ofWord?, hne ['i', 'n', 'f'] (by decide), hne ['n', 'a', 'n'] (by decide),
    hne ['i', 'n', 'f', 'i', 'n', 'i', 't', 'y'] (by decide)]

theorem ofDecimal?_of_mem_x (hx : 'x' ∈ s) (negative : Bool) : ofDecimal? negative s = none := by
  have hwhole := mem_digitGroup (by decide) (by decide) hx
  unfold ofDecimal?
  generalize digitGroup s = group at hwhole ⊢
  obtain ⟨whole, rest⟩ := group
  dsimp only at hwhole ⊢
  split
  · rename_i after
    have hafter : 'x' ∈ after := (List.mem_cons.mp hwhole).resolve_left (by decide)
    rw [exponent?_of_mem_x (mem_digitGroup (by decide) (by decide) hafter)]
    simp
  · rw [exponent?_of_mem_x hwhole]
    simp

/-- No letter x is in a numeral. -/
theorem x_notMem_of_read? {n : Numeral} (h : read? s = some n) : 'x' ∉ s := by
  intro hx
  have hbody := mem_splitSign (by decide) (by decide) (mem_trimOf (p := isSpace) (by decide) hx)
  simp only [read?, ofWord?_of_mem_x hbody, ofDecimal?_of_mem_x hbody] at h
  cases h

end Numeral

end NumeralChars

namespace Trinomial

variable {s number digits before after body front rest later : List Char}
variable {K : Type} [Neg K] [Scalar K] {p : ℕ} {v : K}

inductive Leads : List Char → K → Prop
  | omitted : Leads [] (Scalar.ofNat 1)
  | minus : Leads ['-'] (-Scalar.ofNat 1)
  | numeral {number : List Char} {v : K} (h : Scalar.read? number = some v) : Leads number v

def NoPower (s : List Char) : Prop :=
  ∀ before after, s = before ++ 'x' :: after → NoExponent after

/-- `front` is a number and a power of x in front of `rest`. Behind an x that has no exponent no
other x has one. -/
inductive SummandFront : List Char → List Char → ℕ → K → Prop
  | constant {number : List Char} {v : K} (hv : Leads number v) : SummandFront number [] 0 v
  | single {number rest : List Char} {v : K} (hv : Leads number v) (hrest : NoPower ('x' :: rest)) :
      SummandFront (number ++ ['x']) rest 1 v
  | power {number digits text rest : List Char} {v : K} (hv : Leads number v)
      (hdigits : IsDigits digits) (hlength : digits.length ≤ maxIntegerDigits)
      (hexponent : ExponentFront digits text rest)
      (hle : ofDigits (digits.filterMap digit?) ≤ 2) :
      SummandFront (number ++ 'x' :: text) rest (ofDigits (digits.filterMap digit?)) v

/-- A summand has no sign but a minus sign at its front. -/
structure IsSummand (body : List Char) : Prop where
  ne_nil : body ≠ []
  plus_notMem_head : '+' ∉ body.head?
  isSign_of_mem_tail : ∀ c ∈ body.tail, Term.isSign c = false

inductive FrontSummands : List Char → List (ℕ × K) → Prop
  | nil : FrontSummands [] []
  | plus {s : List Char} {rs : List (ℕ × K)} (h : FrontSummands s rs) : FrontSummands ('+' :: s) rs
  | summand {front rest later : List Char} {p : ℕ} {v : K} {rs : List (ℕ × K)}
      (hbody : IsSummand (front ++ rest)) (hlater : ∀ c ∈ later.head?, Term.isSign c = true)
      (h : SummandFront front rest p v) (hs : FrontSummands later rs) :
      FrontSummands (front ++ rest ++ later) ((p, v) :: rs)

def valuesAt (rs : List (ℕ × K)) (p : ℕ) : List K := (rs.filter (·.1 = p)).map Prod.snd

theorem Leads.x_notMem (h : Leads number v) : 'x' ∉ number := by
  cases h with
  | omitted => exact List.not_mem_nil
  | minus => decide
  | numeral h =>
    obtain ⟨n, hn, -⟩ := Option.map_eq_some_iff.mp h
    exact Numeral.x_notMem_of_read? hn

/-- A number that leads is read as its value. -/
theorem Leads.leadingNumber_eq (h : Leads number v) (summand : List Char) :
    leadingNumber number summand = .ok v := by
  cases h with
  | omitted => rfl
  | minus => rfl
  | numeral h =>
    unfold leadingNumber
    split
    · cases h
    · cases h
    · rw [h]

/-- A leading number is read, or the summand is refused. -/
theorem leadingNumber_cases (number summand : List Char) :
    (∃ v : K, Leads number v) ∨
      leadingNumber (K := K) number summand = .error (.badPolynomial (String.ofList summand)) := by
  unfold leadingNumber
  split
  · exact Or.inl ⟨_, .omitted⟩
  · exact Or.inl ⟨_, .minus⟩
  · split
    · rename_i v hv
      exact Or.inl ⟨v, .numeral hv⟩
    · exact Or.inr rfl

/-- Where no `x` is followed by a power, the reader finds none. -/
theorem power?_of_noPower (hblank : ∀ c ∈ s, isBlank c = false) (h : NoPower s) :
    power? s = none := by
  induction s with
  | nil => rfl
  | cons c s ih =>
    obtain ⟨hc, hs⟩ := List.forall_mem_cons.mp hblank
    have hrest : NoPower s := fun before after heq => h (c :: before) after (by rw [heq]; rfl)
    have hfirst : (if c = 'x' then exponent? s else none) = none := by
      split
      · rename_i hx
        exact exponent?_of_noExponent hs (h [] s (by rw [hx]; rfl))
      · rfl
    rw [power?, hfirst, ih hs hrest]
    rfl

/-- Conversely, where the reader finds no power none is written. -/
theorem noPower_of_power? (h : power? s = none) : NoPower s := by
  induction s with
  | nil =>
    intro before after heq
    cases before <;> cases heq
  | cons c s ih =>
    rw [power?] at h
    split at h
    · cases h
    · rename_i hfirst
      intro before after heq
      cases before with
      | nil =>
        obtain ⟨rfl, rfl⟩ := List.cons.inj heq
        exact noExponent_of_exponent? hfirst
      | cons d before =>
        obtain ⟨-, rfl⟩ := List.cons.inj heq
        exact ih (Option.map_eq_none_iff.mp h) before after rfl

/-- The power that is found is an x with an exponent. -/
theorem exists_of_power? (h : power? s = some (before, digits)) :
    ∃ after behind, s = before ++ 'x' :: after ∧ exponent? after = some (digits, behind) := by
  induction s generalizing before with
  | nil => cases h
  | cons c s ih =>
    rw [power?] at h
    split at h
    · rename_i found behind hfirst
      obtain ⟨rfl, rfl⟩ := Prod.mk.inj (Option.some.inj h)
      split at hfirst
      · rename_i hx
        exact ⟨s, behind, by rw [hx]; rfl, hfirst⟩
      · cases hfirst
    · obtain ⟨⟨front, found⟩, hrest, heq⟩ := Option.map_eq_some_iff.mp h
      obtain ⟨rfl, rfl⟩ := Prod.mk.inj heq
      obtain ⟨after, behind, rfl, hexponent⟩ := ih hrest
      exact ⟨after, behind, rfl, hexponent⟩

/-- Every text without blanks is cut into what stands in front of a power, and the power, unless the
exponent is too long. -/
theorem splitPower_cases (hblank : ∀ c ∈ body, isBlank c = false) :
    (splitPower body = .ok (body, 0)) ∨
      (∃ before rest, body = before ++ ['x'] ++ rest ∧ NoPower ('x' :: rest) ∧
        splitPower body = .ok (before, 1)) ∨
      (∃ before digits text rest, body = before ++ 'x' :: text ++ rest ∧ IsDigits digits ∧
        digits.length ≤ maxIntegerDigits ∧ ExponentFront digits text rest ∧
        splitPower body = .ok (before, ofDigits (digits.filterMap digit?))) ∨
      ∃ n, HasLongExponent body n ∧ splitPower body = .error (.integerTooLong n) := by
  unfold splitPower
  cases hpower : power? body with
  | none =>
    cases hcut : cut? 'x' body with
    | none => exact Or.inl rfl
    | some cut =>
      obtain ⟨before, rest⟩ := cut
      obtain ⟨rfl, hbefore⟩ := cut?_eq_some hcut
      refine Or.inr (Or.inl ⟨before, rest, by simp, ?_, rfl⟩)
      intro front after heq
      exact noPower_of_power? hpower (before ++ front) after (by rw [heq, List.append_assoc])
  | some found =>
    obtain ⟨before, digits⟩ := found
    obtain ⟨after, behind, rfl, hexponent⟩ := exists_of_power? hpower
    have hafter : ∀ c ∈ after, isBlank c = false := fun c hc => hblank c (by simp [hc])
    obtain ⟨hdigits, text, rest, rfl, hfront⟩ := exists_exponentFront hafter hexponent
    right
    right
    by_cases hlength : digits.length ≤ maxIntegerDigits
    · refine Or.inl ⟨before, digits, text, rest, by simp, hdigits, hlength, hfront, ?_⟩
      dsimp only
      rw [readDigits, if_neg (by omega)]
      rfl
    · refine Or.inr ⟨digits.length, ⟨by omega, before, digits, text, rest, rfl, hdigits, rfl,
        hfront⟩, ?_⟩
      dsimp only
      rw [readDigits, if_pos (by omega)]
      rfl

theorem power?_behind (h : 'x' ∉ number) (hrest : power? rest = none) :
    power? (number ++ rest) = none := by
  induction number with
  | nil => exact hrest
  | cons c number ih =>
    obtain ⟨hc, hnumber⟩ := not_or.mp (List.mem_cons.not.mp h)
    simp [power?, Ne.symm hc, ih hnumber]

/-- At the front of a summand its power is found, and the number stands in front of that. -/
theorem SummandFront.splitPower_eq (hblank : ∀ c ∈ front ++ rest, isBlank c = false)
    (h : SummandFront front rest p v) :
    p ≤ 2 ∧ ∃ number, Leads number v ∧ splitPower (front ++ rest) = .ok (number, p) := by
  cases h with
  | constant hv =>
    refine ⟨by omega, front, hv, ?_⟩
    rw [List.append_nil, splitPower, power?_eq_none hv.x_notMem, cut?_eq_none hv.x_notMem]
  | @single number rest v hv hrest =>
    refine ⟨by omega, number, hv, ?_⟩
    rw [List.append_assoc, List.singleton_append] at hblank ⊢
    have hnone := power?_of_noPower (List.forall_mem_append.mp hblank).2 hrest
    rw [splitPower, power?_behind hv.x_notMem hnone, cut?_append hv.x_notMem]
  | @power number digits text rest v hv hdigits hlength hexponent hle =>
    refine ⟨hle, number, hv, ?_⟩
    obtain ⟨after, hread⟩ := hexponent.exponent?_eq hdigits
    rw [List.append_assoc, List.cons_append, splitPower, power?_append hv.x_notMem hread]
    dsimp only
    rw [readDigits, if_neg (by omega)]
    rfl

/-- The coefficient at the front of a summand is put in the place of its power. -/
theorem SummandFront.put_eq (hblank : ∀ c ∈ front ++ rest, isBlank c = false)
    (h : SummandFront front rest p v) (t : Trinomial K) : ∃ updated,
      t.put (front ++ rest) = .ok updated ∧ updated.coefficient p = v ∧
      ∀ q ≤ 2, q ≠ p → updated.coefficient q = t.coefficient q := by
  obtain ⟨hle, number, hv, hsplit⟩ := h.splitPower_eq hblank
  obtain ⟨updated, hset, hhere, hkept⟩ := t.exists_set? v hle
  refine ⟨updated, ?_, hhere, hkept⟩
  rw [put, hsplit]
  simp only [Except.mapError, bind, Except.bind, hv.leadingNumber_eq, hset]
  rfl

omit [Neg K] [Scalar K] in
theorem set?_eq_none (t : Trinomial K) (v : K) (h : 2 < p) : t.set? v p = none := by
  unfold set?
  split
  · omega
  · omega
  · omega
  · rfl

/-- A text without blanks has a number and a power of x at its front, or is refused, or has an
exponent that is too long. -/
theorem put_cases (hblank : ∀ c ∈ body, isBlank c = false) :
    (∃ front rest p, ∃ v : K, body = front ++ rest ∧ SummandFront front rest p v) ∨
      (∀ t : Trinomial K,
        t.put body = .error (.refused (.badPolynomial (String.ofList body)))) ∨
      ∃ n, HasLongExponent body n ∧
        ∀ t : Trinomial K, t.put body = .error (.fault (.integerTooLong n)) := by
  have hrefused {number : List Char} {power : ℕ} (hsplit : splitPower body = .ok (number, power))
      (hnumber : leadingNumber (K := K) number body =
        .error (.badPolynomial (String.ofList body))) (t : Trinomial K) :
      t.put body = .error (.refused (.badPolynomial (String.ofList body))) := by
    rw [put, hsplit]
    simp only [Except.mapError, bind, Except.bind, hnumber]
  rcases splitPower_cases hblank with hsplit | ⟨before, rest, hs, hrest, hsplit⟩ |
    ⟨before, digits, text, rest, hs, hdigits, hlength, hfront, hsplit⟩ | ⟨n, hlong, hsplit⟩
  · rcases leadingNumber_cases (K := K) body body with ⟨v, hv⟩ | hnumber
    · exact Or.inl ⟨body, [], 0, v, (List.append_nil _).symm, .constant hv⟩
    · exact Or.inr (Or.inl (hrefused hsplit hnumber))
  · rcases leadingNumber_cases (K := K) before body with ⟨v, hv⟩ | hnumber
    · exact Or.inl ⟨_, rest, 1, v, hs, .single hv hrest⟩
    · exact Or.inr (Or.inl (hrefused hsplit hnumber))
  · rcases leadingNumber_cases (K := K) before body with ⟨v, hv⟩ | hnumber
    · by_cases hle : ofDigits (digits.filterMap digit?) ≤ 2
      · exact Or.inl ⟨_, rest, _, v, hs, .power hv hdigits hlength hfront hle⟩
      · refine Or.inr (Or.inl ?_)
        intro t
        rw [put, hsplit]
        simp only [Except.mapError, bind, Except.bind, hv.leadingNumber_eq,
          set?_eq_none t v (by omega : 2 < ofDigits (digits.filterMap digit?))]
        rfl
    · exact Or.inr (Or.inl (hrefused hsplit hnumber))
  · refine Or.inr (Or.inr ⟨n, hlong, ?_⟩)
    intro t
    rw [put, hsplit]
    rfl

def summandsFrom (s : List Char) : List (List Char) :=
  (pieces '+' (marked s)).filter (! ·.isEmpty)

theorem summandsFrom_plus (s : List Char) : summandsFrom ('+' :: s) = summandsFrom s := by
  have hmarked : marked ('+' :: s) = '+' :: marked s := rfl
  rw [summandsFrom, hmarked, pieces, if_pos rfl, List.filter_cons_of_neg (by simp)]
  rfl

/-- Behind a summand the text ends or a piece does. -/
theorem exists_pieces_marked (hlater : ∀ c ∈ later.head?, Term.isSign c = true) :
    ∃ others, pieces '+' (marked later) = [] :: others := by
  cases later with
  | nil => exact ⟨[], rfl⟩
  | cons c later =>
    rcases Term.isSign_iff.mp (hlater c rfl) with rfl | rfl
    · exact ⟨_, rfl⟩
    · exact ⟨_, rfl⟩

theorem IsSummand.plus_notMem (h : IsSummand body) : '+' ∉ body := by
  intro hplus
  obtain ⟨c, tail, rfl⟩ := List.exists_cons_of_ne_nil h.ne_nil
  rcases List.mem_cons.mp hplus with rfl | htail
  · exact h.plus_notMem_head rfl
  · exact absurd (h.isSign_of_mem_tail _ htail) (by decide)

theorem summandsFrom_append (h : IsSummand body)
    (hlater : ∀ c ∈ later.head?, Term.isSign c = true) :
    summandsFrom (body ++ later) = body :: summandsFrom later := by
  obtain ⟨others, hothers⟩ := exists_pieces_marked hlater
  have hpiece : pieces '+' (body ++ marked later) = body :: others := by
    rw [pieces_append h.plus_notMem hothers, List.append_nil]
  have hkept : (body :: others).filter (! ·.isEmpty) = body :: others.filter (! ·.isEmpty) :=
    List.filter_cons_of_pos (by simp [h.ne_nil])
  have hothers : summandsFrom later = others.filter (! ·.isEmpty) := by
    rw [summandsFrom, hothers, List.filter_cons_of_neg (by simp)]
  rw [hothers, ← hkept, ← hpiece, summandsFrom, marked_append]
  -- only a minus sign at the front puts a piece in front of the summand, an empty one
  obtain ⟨c, tail, rfl⟩ := List.exists_cons_of_ne_nil h.ne_nil
  have htail : marked tail = tail := marked_of_isSign h.isSign_of_mem_tail
  by_cases hc : c = '-'
  · have hmarked : marked (c :: tail) = '+' :: c :: tail := by
      rw [hc, ← List.singleton_append, marked_append, htail]
      rfl
    rw [hmarked, List.cons_append, pieces, if_pos rfl, List.filter_cons_of_neg (by simp)]
  · have hmarked : marked (c :: tail) = c :: tail := by
      rw [← List.singleton_append, marked_append, htail, marked, List.flatMap_singleton, if_neg hc]
    rw [hmarked]

/-- A text is empty, or begins with a plus sign or a summand. -/
theorem summand_cases (s : List Char) : s = [] ∨ (∃ t, s = '+' :: t) ∨
    ∃ body later, IsSummand body ∧ (∀ c ∈ later.head?, Term.isSign c = true) ∧
      s = body ++ later := by
  cases s with
  | nil => exact Or.inl rfl
  | cons c s =>
    right
    by_cases hc : c = '+'
    · exact Or.inl ⟨s, by rw [hc]⟩
    · right
      refine ⟨c :: s.takeWhile (! Term.isSign ·), s.dropWhile (! Term.isSign ·), ?_, ?_, ?_⟩
      · refine ⟨List.cons_ne_nil _ _, by simpa using hc, ?_⟩
        intro d hd
        simpa using List.mem_takeWhile_imp hd
      · intro d hd
        simpa using head?_dropWhile _ s d hd
      · rw [List.cons_append, List.takeWhile_append_dropWhile]

/-- The coefficients at the fronts are put in their places one after the other, so that the last one
of a power stays. -/
theorem FrontSummands.foldlM_eq {rs : List (ℕ × K)} (hblank : ∀ c ∈ s, isBlank c = false)
    (h : FrontSummands s rs) (init : Trinomial K) :
    ∃ t, (summandsFrom s).foldlM put init = .ok t ∧
      ∀ q ≤ 2, t.coefficient q = (valuesAt rs q).getLastD (init.coefficient q) := by
  induction h generalizing init with
  | nil => exact ⟨init, rfl, fun q hq => rfl⟩
  | plus h ih =>
    rw [summandsFrom_plus]
    exact ih (List.forall_mem_cons.mp hblank).2 init
  | @summand front rest later p v rs hbody hlater hfront hs ih =>
    obtain ⟨hhere, hthere⟩ := List.forall_mem_append.mp hblank
    obtain ⟨updated, hput, hcoefficient, hkept⟩ := hfront.put_eq hhere init
    obtain ⟨t, hfold, hlast⟩ := ih hthere updated
    refine ⟨t, ?_, ?_⟩
    · rw [summandsFrom_append hbody hlater, List.foldlM_cons, hput]
      exact hfold
    · intro q hq
      rw [hlast q hq]
      by_cases hpower : p = q
      · subst hpower
        have hvalues : valuesAt ((p, v) :: rs) p = v :: valuesAt rs p := by simp [valuesAt]
        rw [hvalues, hcoefficient, List.getLastD_cons]
      · have hvalues : valuesAt ((p, v) :: rs) q = valuesAt rs q := by simp [valuesAt, hpower]
        rw [hvalues, hkept q hq (Ne.symm hpower)]

/-- If one of the summands fails whatever stands in its place, they all fail so. -/
theorem foldlM_put_of_ok {bodies : List (List Char)} {e : Failure}
    (hput : ∀ t : Trinomial K, ∃ updated, t.put body = .ok updated)
    (hfail : ∀ t : Trinomial K, bodies.foldlM put t = .error e) (t : Trinomial K) :
    (body :: bodies).foldlM put t = .error e := by
  obtain ⟨updated, hupdated⟩ := hput t
  rw [List.foldlM_cons, hupdated]
  exact hfail updated

theorem foldlM_put_of_error {e : Failure} (hput : ∀ t : Trinomial K, t.put body = .error e)
    (bodies : List (List Char)) (t : Trinomial K) :
    (body :: bodies).foldlM put t = .error e := by
  rw [List.foldlM_cons, hput]
  rfl

/-- A text without blanks is a sum of fronts, or has a summand that is refused, or has an exponent
that is too long. -/
theorem frontSummands_cases (hblank : ∀ c ∈ s, isBlank c = false) :
    (∃ rs : List (ℕ × K), FrontSummands s rs) ∨
      (∃ body ∈ summandsFrom s, ∀ init : Trinomial K, (summandsFrom s).foldlM put init =
        .error (.refused (.badPolynomial (String.ofList body)))) ∨
      ∃ n, HasLongExponent s n ∧ ∀ init : Trinomial K,
        (summandsFrom s).foldlM put init = .error (.fault (.integerTooLong n)) := by
  induction hlength : s.length using Nat.strong_induction_on generalizing s with
  | _ length ih =>
    rcases summand_cases s with rfl | ⟨t, rfl⟩ | ⟨body, later, hbody, hlater, rfl⟩
    · exact Or.inl ⟨[], .nil⟩
    · rw [List.length_cons] at hlength
      rw [summandsFrom_plus]
      rcases ih t.length (by omega) (List.forall_mem_cons.mp hblank).2 rfl with
        ⟨rs, hrs⟩ | hrefused | ⟨n, hlong, hfail⟩
      · exact Or.inl ⟨rs, .plus hrs⟩
      · exact Or.inr (Or.inl hrefused)
      · exact Or.inr (Or.inr ⟨n, Term.hasLongExponent_behind ['+'] hlong, hfail⟩)
    · obtain ⟨hhere, hthere⟩ := List.forall_mem_append.mp hblank
      have hpositive := List.length_pos_of_ne_nil hbody.ne_nil
      rw [List.length_append] at hlength
      rw [summandsFrom_append hbody hlater]
      rcases put_cases (K := K) hhere with
        ⟨front, rest, p, v, rfl, hfront⟩ | hput | ⟨n, hlong, hput⟩
      · -- what follows decides, whatever the summand puts in its place
        have hput (t : Trinomial K) : ∃ updated, t.put (front ++ rest) = .ok updated := by
          obtain ⟨updated, hupdated, -⟩ := hfront.put_eq hhere t
          exact ⟨updated, hupdated⟩
        rcases ih later.length (by omega) hthere rfl with
          ⟨rs, hrs⟩ | ⟨other, hother, hrefused⟩ | ⟨n, hlong, hfail⟩
        · exact Or.inl ⟨(p, v) :: rs, .summand hbody hlater hfront hrs⟩
        · have hmem := List.mem_cons_of_mem (front ++ rest) hother
          exact Or.inr (Or.inl ⟨other, hmem, foldlM_put_of_ok hput hrefused⟩)
        · have hlong' := Term.hasLongExponent_behind (front ++ rest) hlong
          exact Or.inr (Or.inr ⟨n, hlong', foldlM_put_of_ok hput hfail⟩)
      · exact Or.inr (Or.inl ⟨body, List.mem_cons_self .., foldlM_put_of_error hput _⟩)
      · have hlong' := Term.hasLongExponent_append hlater hlong
        exact Or.inr (Or.inr ⟨n, hlong', foldlM_put_of_error hput _⟩)

omit [Neg K] [Scalar K] in
theorem eq_of_coefficient {t u : Trinomial K}
    (h : ∀ q ≤ 2, t.coefficient q = u.coefficient q) : t = u := by
  have ha : t.a = u.a := h 2 (by omega)
  have hb : t.b = u.b := h 1 (by omega)
  have hc : t.c = u.c := h 0 (by omega)
  cases t
  cases u
  simp_all

/-- A text is read exactly if each of its summands has a number and a power of x at its front, and
each coefficient is then the last one of its power. What is refused is a summand without such a
front; reading fails for nothing else but an exponent with too many digits. -/
theorem read_fronts (s : List Char) :
    (∀ t : Trinomial K, read s = .ok t ↔ ∃ rs, FrontSummands (squeeze s) rs ∧
      ∀ q ≤ 2, t.coefficient q = (valuesAt rs q).getLastD (Scalar.ofNat 0)) ∧
    ((∃ t : Trinomial K, read s = .ok t) ∨
      (∃ body ∈ summands s,
        read (K := K) s = .error (.refused (.badPolynomial (String.ofList body)))) ∨
      ∃ n, HasLongExponent (squeeze s) n ∧
        read (K := K) s = .error (.fault (.integerTooLong n))) := by
  let zero : Trinomial K := ⟨Scalar.ofNat 0, Scalar.ofNat 0, Scalar.ofNat 0⟩
  have hzero : ∀ q ≤ 2, zero.coefficient q = Scalar.ofNat 0 := by
    rintro (_ | _ | q) hq <;> rfl
  have hblank : ∀ c ∈ squeeze s, isBlank c = false := fun c hc => not_isBlank_of_mem_squeeze hc
  have hread : read (K := K) s = (summandsFrom (squeeze s)).foldlM put zero := rfl
  have hok {rs : List (ℕ × K)} (hrs : FrontSummands (squeeze s) rs) : ∃ t : Trinomial K,
      read s = .ok t ∧ ∀ q ≤ 2, t.coefficient q = (valuesAt rs q).getLastD (Scalar.ofNat 0) := by
    obtain ⟨t, hfold, hlast⟩ := hrs.foldlM_eq hblank zero
    refine ⟨t, hfold, ?_⟩
    intro q hq
    rw [hlast q hq, hzero q hq]
  constructor
  · intro t
    constructor
    · intro ht
      rcases frontSummands_cases (K := K) hblank with ⟨rs, hrs⟩ | ⟨body, -, hfail⟩ | ⟨n, -, hfail⟩
      · obtain ⟨u, hu, hlast⟩ := hok hrs
        obtain rfl := Except.ok.inj (ht.symm.trans hu)
        exact ⟨rs, hrs, hlast⟩
      · rw [hread, hfail zero] at ht
        cases ht
      · rw [hread, hfail zero] at ht
        cases ht
    · rintro ⟨rs, hrs, hvalues⟩
      obtain ⟨u, hu, hlast⟩ := hok hrs
      rw [hu, eq_of_coefficient fun q hq => (hlast q hq).trans (hvalues q hq).symm]
  · rcases frontSummands_cases (K := K) hblank with ⟨rs, hrs⟩ | ⟨body, hbody, hfail⟩ |
      ⟨n, hlong, hfail⟩
    · obtain ⟨t, ht, -⟩ := hok hrs
      exact Or.inl ⟨t, ht⟩
    · exact Or.inr (Or.inl ⟨body, hbody, hfail zero⟩)
    · exact Or.inr (Or.inr ⟨n, hlong, hfail zero⟩)

/-- A coefficient is read of a summand that is no number and power of x as a whole. -/
theorem exists_quotient_read :
    ∃ body : List Char, IsSummand body ∧ squeeze body = body ∧
      read (K := Float) body = .ok ⟨Scalar.ofNat 0, Scalar.ofNat 1, Scalar.ofNat 0⟩ ∧
      ∀ (p : ℕ) (v : Float), ¬ SummandFront body [] p v := by
  refine ⟨['x', '/', '2'], ⟨by simp, by simp, by simp [Term.isSign]⟩, by decide +kernel, rfl, ?_⟩
  intro p v h
  generalize hbody : ['x', '/', '2'] = body at h
  generalize hrest : ([] : List Char) = rest at h
  cases h with
  | constant hv => exact hv.x_notMem (by simp [← hbody])
  | @single number =>
    have hlast := congrArg List.getLast? hbody
    simp at hlast
  | @power number digits text rest v hv hdigits hlength hexponent =>
    cases number with
    | nil =>
      obtain ⟨-, rfl⟩ := List.cons.inj hbody
      cases hexponent
    | cons c number =>
      obtain ⟨rfl, -⟩ := List.cons.inj hbody
      exact hv.x_notMem (List.mem_cons_self ..)

end Trinomial

end PartialFractions
