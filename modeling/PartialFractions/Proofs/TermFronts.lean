import PartialFractions.Proofs.TermReading

/-!
What any text is read as. Between two signs the front counts that is a term, and the text behind it
is passed over; a body without such a front gives no term. Reading fails for nothing but an exponent
with too many digits.
-/
namespace PartialFractions

open Text Number

structure IsDigits (digits : List Char) : Prop where
  isDigit_of_mem : ∀ c ∈ digits, isDigit c = true
  ne_nil : digits ≠ []

/-- The texts of an exponent in front of `rest`: all the digits that stand behind a caret, in braces
or not. Of two braces the closing one may be missing. -/
inductive ExponentFront (digits : List Char) : List Char → List Char → Prop
  | plain {rest : List Char} (hrest : ∀ c ∈ rest.head?, isDigit c = false) :
      ExponentFront digits ('^' :: digits) rest
  | unclosed {rest : List Char} (hrest : ∀ c ∈ rest.head?, isDigit c = false ∧ c ≠ '\x7d') :
      ExponentFront digits ('^' :: '\x7b' :: digits) rest
  | braced {rest : List Char} :
      ExponentFront digits ('^' :: '\x7b' :: (digits ++ ['\x7d'])) rest

def NoExponent (s : List Char) : Prop :=
  ∀ digits text rest, IsDigits digits → ExponentFront digits text rest → s ≠ text ++ rest

/-- An x of the text has an exponent of `n` digits, which are more than can be read. -/
def HasLongExponent (s : List Char) (n : ℕ) : Prop :=
  maxIntegerDigits < n ∧ ∃ before digits text rest, s = before ++ 'x' :: (text ++ rest) ∧
    IsDigits digits ∧ digits.length = n ∧ ExponentFront digits text rest

inductive PowerFront : ℕ → List Char → List Char → Prop
  | plain {rest : List Char} (hrest : NoExponent rest) : PowerFront 1 [] rest
  | exponent {digits text rest : List Char} (hdigits : IsDigits digits)
      (hlength : digits.length ≤ maxIntegerDigits) (h : ExponentFront digits text rest) :
      PowerFront (ofDigits (digits.filterMap digit?)) text rest

theorem head?_dropWhile (p : Char → Bool) (s : List Char) :
    ∀ c ∈ (s.dropWhile p).head?, p c = false := by
  intro c hc
  have hhead := List.head?_dropWhile_not p s
  rw [hc] at hhead
  simpa using hhead

section Exponents

variable {digits text rest s after : List Char}

theorem ExponentFront.exponent?_eq (hdigits : IsDigits digits)
    (h : ExponentFront digits text rest) :
    ∃ after, exponent? (text ++ rest) = some (digits, after) := by
  have hblanks : ∀ c ∈ ([] : List Char), isBlank c = true := by simp
  cases h with
  | plain hrest =>
    have hread := exponent?_digits false hblanks hdigits.isDigit_of_mem hdigits.ne_nil hrest
    exact ⟨_, by simpa using hread⟩
  | unclosed hrest =>
    have hread := exponent?_digits true hblanks hdigits.isDigit_of_mem hdigits.ne_nil
      fun c hc => (hrest c hc).1
    exact ⟨_, by simpa using hread⟩
  | braced =>
    have hclosed : ∀ c ∈ ('\x7d' :: rest).head?, isDigit c = false := by
      rintro c ⟨⟩
      decide
    have hread := exponent?_digits true hblanks hdigits.isDigit_of_mem hdigits.ne_nil hclosed
    exact ⟨_, by simpa using hread⟩

/-- The digits that are read stand behind a caret, or behind a caret and a brace. -/
theorem exists_digits_of_exponent? (h : exponent? s = some (digits, after)) :
    ∃ rest inner, s = '^' :: rest ∧ inner.takeWhile isDigit = digits ∧ digits ≠ [] ∧
      (rest.dropWhile isBlank = '\x7b' :: inner ∨ rest.dropWhile isBlank = inner) := by
  unfold exponent? at h
  split at h
  · rename_i rest
    dsimp only at h
    generalize hbody : rest.dropWhile isBlank = body at h
    cases body with
    | nil => cases h
    | cons c inner =>
      by_cases hopen : c = '\x7b'
      · subst hopen
        split at h
        · cases h
        all_goals
          obtain ⟨rfl, rfl⟩ := Prod.mk.inj (Option.some.inj h)
          exact ⟨rest, inner, rfl, rfl, by assumption, Or.inl hbody⟩
      · have hplain : ∀ t, c :: inner = '\x7b' :: t → False :=
          fun t heq => hopen (List.cons.inj heq).1
        simp only at h
        split at h
        · cases h
        all_goals
          obtain ⟨rfl, rfl⟩ := Prod.mk.inj (Option.some.inj h)
          exact ⟨rest, c :: inner, rfl, rfl, by assumption, Or.inr hbody⟩
  · cases h

/-- In a text without blanks, what is read as an exponent is written as one. -/
theorem exists_exponentFront (hblank : ∀ c ∈ s, isBlank c = false)
    (h : exponent? s = some (digits, after)) :
    IsDigits digits ∧ ∃ text rest, s = text ++ rest ∧ ExponentFront digits text rest := by
  obtain ⟨body, inner, rfl, hdigits, hne, hs⟩ := exists_digits_of_exponent? h
  have hbody : body.dropWhile isBlank = body := by
    rw [List.dropWhile_eq_self_iff]
    intro hlength
    simp [hblank]
  rw [hbody] at hs
  have hrest := head?_dropWhile isDigit inner
  have hsplit : digits ++ inner.dropWhile isDigit = inner := by
    rw [← hdigits, List.takeWhile_append_dropWhile]
  refine ⟨⟨fun c hc => List.mem_takeWhile_imp (hdigits ▸ hc), hne⟩, ?_⟩
  rcases hs with rfl | hs
  · by_cases hclosed : ∃ t, inner.dropWhile isDigit = '\x7d' :: t
    · obtain ⟨t, ht⟩ := hclosed
      refine ⟨_, t, ?_, .braced⟩
      rw [← hsplit, ht]
      simp
    · refine ⟨_, inner.dropWhile isDigit, ?_, .unclosed ?_⟩
      · rw [List.cons_append, List.cons_append, hsplit]
      · intro c hc
        refine ⟨hrest c hc, ?_⟩
        rintro rfl
        exact hclosed (List.head?_eq_some_iff.mp hc)
  · refine ⟨_, inner.dropWhile isDigit, ?_, .plain hrest⟩
    rw [hs, List.cons_append, hsplit]

theorem exponent?_of_noExponent (hblank : ∀ c ∈ s, isBlank c = false) (h : NoExponent s) :
    exponent? s = none := by
  refine Option.eq_none_iff_forall_ne_some.mpr ?_
  rintro ⟨digits, after⟩ hread
  obtain ⟨hdigits, text, rest, hs, hfront⟩ := exists_exponentFront hblank hread
  exact h digits text rest hdigits hfront hs

theorem noExponent_of_exponent? (h : exponent? s = none) : NoExponent s := by
  rintro digits text rest hdigits hfront rfl
  obtain ⟨after, hread⟩ := hfront.exponent?_eq hdigits
  rw [h] at hread
  cases hread

/-- Every text begins with a power that can be read, or with an exponent that is too long. -/
theorem powerFront_cases (hblank : ∀ c ∈ s, isBlank c = false) :
    (∃ power text rest, s = text ++ rest ∧ PowerFront power text rest) ∨
      ∃ digits text rest, s = text ++ rest ∧ IsDigits digits ∧ ExponentFront digits text rest ∧
        maxIntegerDigits < digits.length := by
  cases hread : exponent? s with
  | none => exact Or.inl ⟨1, [], s, rfl, .plain (noExponent_of_exponent? hread)⟩
  | some read =>
    obtain ⟨digits, after⟩ := read
    obtain ⟨hdigits, text, rest, hs, hfront⟩ := exists_exponentFront hblank hread
    by_cases hlength : digits.length ≤ maxIntegerDigits
    · exact Or.inl ⟨_, text, rest, hs, .exponent hdigits hlength hfront⟩
    · exact Or.inr ⟨digits, text, rest, hs, hdigits, hfront, by omega⟩

end Exponents

namespace Term

variable {s word front after rest text body later : List Char} {sign : Char} {t : Term}

/-- `front` ends in the variable, with `word` as the coefficient: the last x of the word at the
front, or an x behind the word and a multiplication sign. -/
inductive VariableFront (word : List Char) : List Char → List Char → Prop
  | last {after : List Char} (hafter : NoVariable after) : VariableFront word (word ++ ['x']) after
  | product {after : List Char} : VariableFront word (word ++ ['*', 'x']) after

/-- `front` is a term in front of `rest`, and no longer text is. -/
inductive Front (sign : Char) : List Char → List Char → Term → Prop
  | constant {word rest : List Char} (hword : IsWord word) (hne : word ≠ [])
      (hrest : ∀ c ∈ rest.head?, isCoefficientChar c = false) (hx : NoVariable (word ++ rest)) :
      Front sign word rest ⟨0, String.ofList (sign :: word)⟩
  | multiple {word front text rest : List Char} {power : ℕ} (hword : IsWord word)
      (hx : VariableFront word front (text ++ rest)) (hpower : PowerFront power text rest) :
      Front sign (front ++ text) rest
        ⟨power, String.ofList (sign :: if word.isEmpty then ['1'] else word)⟩

/-- The terms at the fronts of the bodies; a body that begins with no coefficient and no variable
gives none. -/
inductive FrontTerms : List Char → List Term → Prop
  | nil : FrontTerms [] []
  | term {sign : Char} {front rest later : List Char} {t : Term} {ts : List Term}
      (hsign : isSign sign = true) (hbody : ∀ c ∈ front ++ rest, isSign c = false)
      (hlater : ∀ c ∈ later.head?, isSign c = true) (h : Front sign front rest t)
      (hts : FrontTerms later ts) : FrontTerms (sign :: (front ++ rest ++ later)) (t :: ts)
  | skipped {sign : Char} {body later : List Char} {ts : List Term}
      (hsign : isSign sign = true) (hbody : ∀ c ∈ body, isSign c = false)
      (hlater : ∀ c ∈ later.head?, isSign c = true)
      (hhead : ∀ c ∈ body.head?, isCoefficientChar c = false) (hx : NoVariable body)
      (hts : FrontTerms later ts) : FrontTerms (sign :: (body ++ later)) ts

/-- Every text begins with a variable and its coefficient, or has no variable. -/
theorem variable_cases (s : List Char) :
    (∃ word front after, IsWord word ∧ VariableFront word front after ∧ s = front ++ after) ∨
      NoVariable s := by
  have hword : IsWord (s.takeWhile isCoefficientChar) := fun c hc => List.mem_takeWhile_imp hc
  have hrest := head?_dropWhile isCoefficientChar s
  have hs := (List.takeWhile_append_dropWhile (p := isCoefficientChar) (l := s)).symm
  by_cases hproduct : ∃ after, s.dropWhile isCoefficientChar = '*' :: 'x' :: after
  · left
    obtain ⟨after, hafter⟩ := hproduct
    rw [hafter] at hs
    exact ⟨_, _, after, hword, .product, by simpa using hs⟩
  · have hproduct := not_exists.mp hproduct
    by_cases hx : 'x' ∈ s.takeWhile isCoefficientChar
    · left
      -- the last x of the word is the first one from behind
      obtain ⟨behind, front, hcut, hlast⟩ := List.eq_append_cons_of_mem (List.mem_reverse.mpr hx)
      have hcut : s.takeWhile isCoefficientChar = front.reverse ++ 'x' :: behind.reverse := by
        rw [← List.reverse_reverse (s.takeWhile isCoefficientChar), hcut]
        simp
      rw [hcut] at hword hs
      obtain ⟨hfront, hbehind⟩ := List.forall_mem_append.mp hword
      refine ⟨_, _, behind.reverse ++ s.dropWhile isCoefficientChar, hfront, .last ?_, ?_⟩
      · refine noVariable_append (List.forall_mem_cons.mp hbehind).2 ?_ hrest hproduct
        simpa using hlast
      · simpa using hs
    · right
      rw [hs]
      exact noVariable_append hword hx hrest hproduct

theorem VariableFront.shape?_eq (hword : IsWord word) (h : VariableFront word front after) :
    shape? (front ++ after) = some (.multiple word after) := by
  cases h with
  | last hafter => rw [List.append_assoc, List.singleton_append, shape?_last hword hafter]
  | product =>
    rw [List.append_assoc]
    exact shape?_product hword

theorem shape?_of_noVariable (h : NoVariable s) :
    shape? s = if (s.takeWhile isCoefficientChar).isEmpty then none
      else some (.constant (s.takeWhile isCoefficientChar)) := by
  rw [shape?, cutLast?_eq_none h.notMem_takeWhile]
  split
  · rename_i after hdrop
    exact absurd hdrop h.dropWhile_ne
  · rfl

/-- A term with a front that writes a power has that power; without a word its coefficient is one.
-/
theorem ofShape_power (hblank : ∀ c ∈ text ++ rest, isBlank c = false) {power : ℕ}
    (h : PowerFront power text rest) :
    ofShape sign (.multiple word (text ++ rest)) =
      .ok ⟨power, String.ofList (sign :: if word.isEmpty then ['1'] else word)⟩ := by
  cases h with
  | plain hrest =>
    rw [ofShape, exponent?_of_noExponent hblank hrest]
    rfl
  | exponent hdigits hlength hfront =>
    obtain ⟨after, hread⟩ := hfront.exponent?_eq hdigits
    rw [ofShape, hread]
    dsimp only
    rw [readDigits, if_neg (by omega)]
    rfl

theorem ofShape_long {digits : List Char} (hdigits : IsDigits digits)
    (hfront : ExponentFront digits text rest) (hlength : maxIntegerDigits < digits.length) :
    ofShape sign (.multiple word (text ++ rest)) = .error (.integerTooLong digits.length) := by
  obtain ⟨after, hread⟩ := hfront.exponent?_eq hdigits
  rw [ofShape, hread]
  dsimp only
  rw [readDigits, if_pos hlength]
  rfl

/-- The front of a body is what is read of it. -/
theorem Front.read (hblank : ∀ c ∈ front ++ rest, isBlank c = false) (h : Front sign front rest t) :
    ∃ shape, shape? (front ++ rest) = some shape ∧ ofShape sign shape = .ok t := by
  cases h with
  | constant hword hne hrest hx =>
    refine ⟨.constant front, ?_, rfl⟩
    rw [shape?_of_noVariable hx, takeWhile_append_of_head hword hrest]
    simp [hne]
  | @multiple word front text _ power hword hx hpower =>
    rw [List.append_assoc] at hblank ⊢
    have hafter := (List.forall_mem_append.mp hblank).2
    exact ⟨.multiple word (text ++ rest), hx.shape?_eq hword, ofShape_power hafter hpower⟩

/-- A body has a term at its front, or gives no term, or has an exponent that is too long. -/
theorem body_cases (sign : Char) (hblank : ∀ c ∈ body, isBlank c = false) :
    (∃ front rest t, body = front ++ rest ∧ Front sign front rest t) ∨
      ((∀ c ∈ body.head?, isCoefficientChar c = false) ∧ NoVariable body) ∨
      ∃ n shape, HasLongExponent body n ∧ shape? body = some shape ∧
        ofShape sign shape = .error (.integerTooLong n) := by
  rcases variable_cases body with ⟨word, front, after, hword, hx, rfl⟩ | hx
  · have hafter := (List.forall_mem_append.mp hblank).2
    rcases powerFront_cases hafter with
      ⟨power, text, rest, rfl, hpower⟩ | ⟨digits, text, rest, rfl, hdigits, hfront, hlength⟩
    · exact Or.inl ⟨_, rest, _, (List.append_assoc ..).symm, .multiple hword hx hpower⟩
    · refine Or.inr (Or.inr ⟨digits.length, _, ⟨hlength, ?_⟩, hx.shape?_eq hword,
        ofShape_long hdigits hfront hlength⟩)
      cases hx with
      | last => exact ⟨word, digits, text, rest, by simp, hdigits, rfl, hfront⟩
      | product => exact ⟨word ++ ['*'], digits, text, rest, by simp, hdigits, rfl, hfront⟩
  · have hs := List.takeWhile_append_dropWhile (p := isCoefficientChar) (l := body)
    have hrest := head?_dropWhile isCoefficientChar body
    by_cases hne : body.takeWhile isCoefficientChar = []
    · rw [hne, List.nil_append] at hs
      rw [hs] at hrest
      exact Or.inr (Or.inl ⟨hrest, hx⟩)
    · refine Or.inl ⟨_, _, _, hs.symm, .constant ?_ hne hrest (hs.symm ▸ hx)⟩
      exact fun c hc => List.mem_takeWhile_imp hc

theorem shape?_eq_none (hhead : ∀ c ∈ body.head?, isCoefficientChar c = false)
    (hx : NoVariable body) : shape? body = none := by
  have htake : body.takeWhile isCoefficientChar = [] := by
    cases body with
    | nil => rfl
    | cons c body => simp [hhead c rfl]
  rw [shape?_of_noVariable hx, htake]
  rfl

def readSigned (s : List Char) : Except Fault (List Term) :=
  ((signedBodies s).filterMap fun (sign, body) => (shape? body).map (sign, ·)).mapM
    fun (sign, shape) => ofShape sign shape

/-- A body that is no term is left out, and reading goes on behind it. -/
theorem readSigned_skipped (hsign : isSign sign = true) (hbody : ∀ c ∈ body, isSign c = false)
    (hlater : ∀ c ∈ later.head?, isSign c = true) (hshape : shape? body = none) :
    readSigned (sign :: (body ++ later)) = readSigned later := by
  unfold readSigned
  by_cases hne : body = []
  · have htake : later.takeWhile (! isSign ·) = [] := by
      cases later with
      | nil => rfl
      | cons c later => simp [hlater c rfl]
    rw [hne, List.nil_append, signedBodies, if_pos hsign, htake]
  · rw [signedBodies_cons hsign hbody hne hlater, List.filterMap_cons_none (by simp [hshape])]

/-- A body that is a term is read first, and its failure is that of the whole. -/
theorem readSigned_cons {shape : Shape} (hsign : isSign sign = true)
    (hbody : ∀ c ∈ body, isSign c = false) (hlater : ∀ c ∈ later.head?, isSign c = true)
    (hshape : shape? body = some shape) :
    readSigned (sign :: (body ++ later)) = (do
      let t ← ofShape sign shape
      let ts ← readSigned later
      return t :: ts) := by
  have hne : body ≠ [] := by
    rintro rfl
    cases hshape
  unfold readSigned
  rw [signedBodies_cons hsign hbody hne hlater, List.filterMap_cons_some (by simp [hshape]; rfl),
    List.mapM_cons]

theorem head?_signed (s : List Char) : ∀ c ∈ (signed s).head?, isSign c = true := by
  intro c hc
  unfold signed at hc
  split at hc
  · cases hc
    rfl
  · split at hc
    · cases hc
      assumption
    · cases hc
      rfl

theorem isBlank_of_mem_signed (s : List Char) : ∀ c ∈ signed s, isBlank c = false := by
  have hplus : isBlank '+' = false := by decide
  have hsqueeze := @not_isBlank_of_mem_squeeze s
  unfold signed
  split
  · simpa using hplus
  · rename_i c rest heq
    rw [heq] at hsqueeze
    split
    · exact fun d hd => hsqueeze hd
    · exact List.forall_mem_cons.mpr ⟨hplus, fun d hd => hsqueeze hd⟩

theorem readAll_eq_readSigned (s : List Char) : readAll s = readSigned (signed s) := rfl

/-- The terms at the fronts are read, one after the other. -/
theorem FrontTerms.readSigned_eq {ts : List Term} (hblank : ∀ c ∈ s, isBlank c = false)
    (h : FrontTerms s ts) : readSigned s = .ok ts := by
  induction h with
  | nil => rfl
  | @term sign front rest later t ts hsign hbody hlater hfront hts ih =>
    obtain ⟨hhere, hthere⟩ := List.forall_mem_append.mp (List.forall_mem_cons.mp hblank).2
    obtain ⟨shape, hshape, hterm⟩ := hfront.read hhere
    rw [readSigned_cons hsign hbody hlater hshape, hterm, ih hthere]
    rfl
  | skipped hsign hbody hlater hhead hx hts ih =>
    obtain ⟨-, hthere⟩ := List.forall_mem_append.mp (List.forall_mem_cons.mp hblank).2
    rw [readSigned_skipped hsign hbody hlater (shape?_eq_none hhead hx), ih hthere]

/-- A body ends at a sign, which continues no exponent. -/
theorem hasLongExponent_append {n : ℕ} (hlater : ∀ c ∈ later.head?, isSign c = true)
    (h : HasLongExponent body n) : HasLongExponent (body ++ later) n := by
  have hsign {c : Char} (hc : isSign c = true) : isDigit c = false ∧ c ≠ '\x7d' := by
    rcases isSign_iff.mp hc with rfl | rfl <;> decide
  obtain ⟨hlength, before, digits, text, rest, rfl, hdigits, hn, hfront⟩ := h
  refine ⟨hlength, before, digits, text, rest ++ later, by simp, hdigits, hn, ?_⟩
  have hhead (p : Char → Prop) (hrest : ∀ c ∈ rest.head?, p c) (hp : ∀ c, isSign c = true → p c) :
      ∀ c ∈ (rest ++ later).head?, p c := by
    cases rest with
    | nil => exact fun c hc => hp c (hlater c hc)
    | cons d rest => exact hrest
  cases hfront with
  | plain hrest => exact .plain (hhead _ hrest fun c hc => (hsign hc).1)
  | unclosed hrest => exact .unclosed (hhead _ hrest fun c hc => hsign hc)
  | braced => exact .braced

theorem hasLongExponent_behind {n : ℕ} (front : List Char) (h : HasLongExponent later n) :
    HasLongExponent (front ++ later) n := by
  obtain ⟨hlength, before, digits, text, rest, rfl, hdigits, hn, hfront⟩ := h
  exact ⟨hlength, front ++ before, digits, text, rest, by simp, hdigits, hn, hfront⟩

/-- Of a text that begins with a sign the fronts are terms, unless an exponent is too long. -/
theorem frontTerms_cases (hhead : ∀ c ∈ s.head?, isSign c = true)
    (hblank : ∀ c ∈ s, isBlank c = false) : (∃ ts, FrontTerms s ts) ∨
      ∃ n, HasLongExponent s n ∧ readSigned s = .error (.integerTooLong n) := by
  induction hlength : s.length using Nat.strong_induction_on generalizing s with
  | _ length ih =>
    cases s with
    | nil => exact Or.inl ⟨[], .nil⟩
    | cons sign s =>
      have hsign : isSign sign = true := hhead sign rfl
      have hbody : ∀ c ∈ s.takeWhile (! isSign ·), isSign c = false := by
        intro c hc
        simpa using List.mem_takeWhile_imp hc
      have hlater : ∀ c ∈ (s.dropWhile (! isSign ·)).head?, isSign c = true := by
        intro c hc
        simpa using head?_dropWhile _ s c hc
      have hshorter : (s.dropWhile (! isSign ·)).length < length := by
        have hle := (List.dropWhile_suffix (! isSign ·) (l := s)).length_le
        rw [List.length_cons] at hlength
        omega
      have hs := List.takeWhile_append_dropWhile (p := (! isSign ·)) (l := s)
      generalize s.takeWhile (! isSign ·) = body at hbody hs
      generalize s.dropWhile (! isSign ·) = later at hlater hs hshorter
      subst hs
      obtain ⟨hhere, hthere⟩ := List.forall_mem_append.mp (List.forall_mem_cons.mp hblank).2
      have hrest := ih _ hshorter hlater hthere rfl
      rcases body_cases sign hhere with
        ⟨front, rest, t, rfl, hfront⟩ | ⟨hopen, hx⟩ | ⟨n, shape, hlong, hshape, hfail⟩
      · rcases hrest with ⟨ts, hts⟩ | ⟨n, hlong, hfail⟩
        · exact Or.inl ⟨t :: ts, .term hsign hbody hlater hfront hts⟩
        · obtain ⟨shape, hshape, hterm⟩ := hfront.read hhere
          refine Or.inr ⟨n, hasLongExponent_behind (sign :: _) hlong, ?_⟩
          rw [readSigned_cons hsign hbody hlater hshape, hterm, hfail]
          rfl
      · rcases hrest with ⟨ts, hts⟩ | ⟨n, hlong, hfail⟩
        · exact Or.inl ⟨ts, .skipped hsign hbody hlater hopen hx hts⟩
        · refine Or.inr ⟨n, hasLongExponent_behind (sign :: _) hlong, ?_⟩
          rw [readSigned_skipped hsign hbody hlater (shape?_eq_none hopen hx), hfail]
      · refine Or.inr ⟨n, hasLongExponent_behind [sign] (hasLongExponent_append hlater hlong), ?_⟩
        rw [readSigned_cons hsign hbody hlater hshape, hfail]
        rfl

theorem readAll_cases (s : List Char) :
    (∃ ts, FrontTerms (signed s) ts ∧ readAll s = .ok ts) ∨
      ∃ n, HasLongExponent (signed s) n ∧ readAll s = .error (.integerTooLong n) := by
  have hblank := isBlank_of_mem_signed s
  rw [readAll_eq_readSigned]
  rcases frontTerms_cases (head?_signed s) hblank with ⟨ts, hts⟩ | hlong
  · exact Or.inl ⟨ts, hts, hts.readSigned_eq hblank⟩
  · exact Or.inr hlong

/-- The terms that are read are the ones at the fronts of the bodies, in order. Reading fails for
nothing but an exponent with too many digits. -/
theorem readAll_fronts (s : List Char) :
    (∀ ts, readAll s = .ok ts ↔ FrontTerms (signed s) ts) ∧
      ((∃ ts, readAll s = .ok ts) ∨
        ∃ n, HasLongExponent (signed s) n ∧ readAll s = .error (.integerTooLong n)) := by
  have hread {ts : List Term} (h : FrontTerms (signed s) ts) : readAll s = .ok ts :=
    h.readSigned_eq (isBlank_of_mem_signed s)
  rcases readAll_cases s with ⟨ts, hts, hok⟩ | hlong
  · refine ⟨?_, Or.inl ⟨ts, hok⟩⟩
    intro others
    constructor
    · intro h
      obtain rfl := Except.ok.inj (hok.symm.trans h)
      exact hts
    · exact hread
  · refine ⟨?_, Or.inr hlong⟩
    obtain ⟨n, -, hfail⟩ := hlong
    intro others
    constructor
    · intro h
      rw [hfail] at h
      cases h
    · intro h
      rw [hread h] at hfail
      cases hfail

theorem mem_exponentFront {digits : List Char} (hdigits : IsDigits digits)
    (h : ExponentFront digits text rest) {c : Char} (hc : c ∈ text) :
    isCoefficientChar c = true ∨ c ∈ ['*', '^', '\x7b', '\x7d'] := by
  have hdigit (hc : c ∈ digits) : isCoefficientChar c = true := by
    simp [isCoefficientChar, isWordChar_of_isDigit (hdigits.isDigit_of_mem c hc)]
  cases h with
  | plain => simp at hc; grind
  | unclosed => simp at hc; grind
  | braced => simp at hc; grind

/-- A term consists of the characters of coefficients, multiplication signs, carets and braces. -/
theorem Front.mem_front (h : Front sign front rest t) {c : Char} (hc : c ∈ front) :
    isCoefficientChar c = true ∨ c ∈ ['*', '^', '\x7b', '\x7d'] := by
  have hvariable : isCoefficientChar 'x' = true := by decide
  cases h with
  | constant hword => exact Or.inl (hword c hc)
  | @multiple word front text _ power hword hx hpower =>
    rcases List.mem_append.mp hc with hc | hc
    · cases hx with
      | last =>
        rcases List.mem_append.mp hc with hc | hc
        · exact Or.inl (hword c hc)
        · rw [List.mem_singleton.mp hc]
          exact Or.inl hvariable
      | product =>
        rcases List.mem_append.mp hc with hc | hc
        · exact Or.inl (hword c hc)
        · rcases List.mem_pair.mp hc with rfl | rfl
          · exact Or.inr (by simp)
          · exact Or.inl hvariable
    · cases hpower with
      | plain => simp at hc
      | exponent hdigits hlength hfront => exact mem_exponentFront hdigits hfront hc

/-- A coefficient is read of a body that is no term as a whole: of a quotient, its numerator's. -/
theorem exists_read_in_part :
    ∃ (body : List Char) (t : Term), signed body = '+' :: body ∧
      (∀ c ∈ body, isSign c = false) ∧ readAll body = .ok [t] ∧
      ∀ u, ¬ Front '+' body [] u := by
  refine ⟨['x', '/', '2'], ⟨1, "+1"⟩, by decide +kernel, by simp [isSign], by decide +kernel, ?_⟩
  intro u h
  have hslash : '/' ∈ ['x', '/', '2'] := by simp
  rcases h.mem_front hslash with hc | hc
  · exact absurd hc (by decide)
  · exact absurd hc (by decide)

end Term

end PartialFractions
