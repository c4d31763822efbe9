import PartialFractions.Proofs.Summands

/-!
The terms of a written sum. Each summand gives one term, in order: no body of a summand holds a
sign, so every sign begins a body, and the last letter x of a body is its variable.
-/
namespace PartialFractions

open Text Number

section TakeWhile

variable {p : Char → Bool} {s rest : List Char}

theorem takeWhile_append_of_head (hs : ∀ c ∈ s, p c = true)
    (hrest : ∀ c ∈ rest.head?, p c = false) : (s ++ rest).takeWhile p = s := by
  rw [List.takeWhile_append_of_pos hs]
  cases rest with
  | nil => simp
  | cons c rest => simp [hrest c rfl]

theorem dropWhile_append_of_head (hs : ∀ c ∈ s, p c = true)
    (hrest : ∀ c ∈ rest.head?, p c = false) : (s ++ rest).dropWhile p = rest := by
  rw [List.dropWhile_append_of_pos hs]
  cases rest with
  | nil => rfl
  | cons c rest => simp [hrest c rfl]

end TakeWhile

namespace Term

variable {s word after rest : List Char}

def IsWord (word : List Char) : Prop := ∀ c ∈ word, isCoefficientChar c = true

/-- No x at the front is a variable: none is in the word there, and none stands behind the word and
a multiplication sign. -/
def NoVariable (s : List Char) : Prop :=
  ∀ word after, IsWord word → s ≠ word ++ 'x' :: after ∧ s ≠ word ++ '*' :: 'x' :: after

@[simp] theorem isWord_nil : IsWord [] := by simp [IsWord]

theorem IsWord.append_x (h : IsWord word) : IsWord (word ++ ['x']) :=
  List.forall_mem_append.mpr ⟨h, by simpa using by decide⟩

theorem head?_star (s : List Char) : ∀ c ∈ ('*' :: s).head?, isCoefficientChar c = false := by
  rintro c ⟨⟩
  decide

/-- A word without the letter x is a constant. -/
theorem shape?_word (hword : IsWord word) (hx : 'x' ∉ word) (hne : word ≠ []) :
    shape? word = some (.constant word) := by
  have htake := List.takeWhile_eq_self_iff.mpr hword
  have hdrop := List.dropWhile_eq_nil_iff.mpr hword
  simp [shape?, htake, hdrop, cutLast?_eq_none hx, hne]

theorem NoVariable.notMem_takeWhile (h : NoVariable s) : 'x' ∉ s.takeWhile isCoefficientChar := by
  intro hx
  obtain ⟨word, others, hword⟩ := List.append_of_mem hx
  have hchars : IsWord (s.takeWhile isCoefficientChar) := fun c hc => List.mem_takeWhile_imp hc
  rw [hword] at hchars
  refine (h word (others ++ s.dropWhile isCoefficientChar) fun c hc =>
    hchars c (List.mem_append_left _ hc)).1 ?_
  rw [← List.cons_append, ← List.append_assoc, ← hword, List.takeWhile_append_dropWhile]

theorem NoVariable.dropWhile_ne (h : NoVariable s) :
    s.dropWhile isCoefficientChar ≠ '*' :: 'x' :: after := by
  intro hdrop
  refine (h (s.takeWhile isCoefficientChar) after fun c hc => List.mem_takeWhile_imp hc).2 ?_
  rw [← hdrop, List.takeWhile_append_dropWhile]

/-- What follows a word without `x` brings no variable, unless it is `*x`. -/
theorem noVariable_append (hword : IsWord word) (hx : 'x' ∉ word)
    (hrest : ∀ c ∈ rest.head?, isCoefficientChar c = false)
    (hproduct : ∀ after, rest ≠ '*' :: 'x' :: after) : NoVariable (word ++ rest) := by
  have htake := takeWhile_append_of_head hword hrest
  have hdrop := dropWhile_append_of_head hword hrest
  intro word' after hword'
  constructor
  · intro heq
    rw [heq, List.append_cons, List.takeWhile_append_of_pos hword'.append_x] at htake
    exact hx (htake ▸ by simp)
  · intro heq
    rw [heq, dropWhile_append_of_head hword' (head?_star _)] at hdrop
    exact hproduct after hdrop.symm

/-- The last x of the word at the front is the variable. -/
theorem shape?_last (hword : IsWord word) (hafter : NoVariable after) :
    shape? (word ++ 'x' :: after) = some (.multiple word after) := by
  have htake : (word ++ 'x' :: after).takeWhile isCoefficientChar =
      word ++ 'x' :: after.takeWhile isCoefficientChar := by
    rw [List.append_cons, List.takeWhile_append_of_pos hword.append_x, ← List.append_cons]
  have hdrop : (word ++ 'x' :: after).dropWhile isCoefficientChar =
      after.dropWhile isCoefficientChar := by
    rw [List.append_cons, List.dropWhile_append_of_pos hword.append_x]
  rw [shape?, htake, hdrop, cutLast?_append hafter.notMem_takeWhile]
  split
  · rename_i t hproduct
    exact absurd hproduct hafter.dropWhile_ne
  · simp only [List.takeWhile_append_dropWhile]

/-- A caret behind an x ends the word, so that x is the variable. -/
theorem shape?_multiple (hword : IsWord word) (hafter : ∀ c ∈ after.head?, c = '^') :
    shape? (word ++ 'x' :: after) = some (.multiple word after) := by
  have hnone : ∀ c ∈ after.head?, isCoefficientChar c = false := by
    intro c hc
    rw [hafter c hc]
    decide
  have hproduct : ∀ t, after ≠ '*' :: 'x' :: t := by
    rintro t rfl
    exact absurd (hafter _ rfl) (by decide)
  exact shape?_last hword (noVariable_append isWord_nil List.not_mem_nil hnone hproduct)

/-- The x behind a multiplication sign is the variable. -/
theorem shape?_product (hword : IsWord word) :
    shape? (word ++ '*' :: 'x' :: after) = some (.multiple word after) := by
  rw [shape?, takeWhile_append_of_head hword (head?_star _),
    dropWhile_append_of_head hword (head?_star _)]
  rfl

end Term

theorem DecimalNumeral.isCoefficientChar_of_mem (n : DecimalNumeral) :
    ∀ c ∈ n.chars, Term.isCoefficientChar c = true := by
  intro c hc
  rcases n.mem_chars hc with h | rfl
  · simp [Term.isCoefficientChar, isWordChar_of_isDigit h]
  · decide

/-- Digits behind a caret are read up to the end of the digits; a brace in front of them and a brace
behind them are passed over, each for itself. -/
theorem exponent?_digits {blanks digits rest : List Char} (braced : Bool)
    (hblanks : ∀ c ∈ blanks, isBlank c = true) (hdigits : ∀ c ∈ digits, isDigit c = true)
    (hne : digits ≠ []) (hrest : ∀ c ∈ rest.head?, isDigit c = false) :
    exponent? ('^' :: (blanks ++ ((if braced then ['\x7b'] else []) ++ (digits ++ rest)))) =
      some (digits, if rest.head? = some '\x7d' then rest.tail else rest) := by
  have htake := takeWhile_append_of_head hdigits hrest
  have hdrop := dropWhile_append_of_head hdigits hrest
  obtain ⟨d, ds, rfl⟩ := List.exists_cons_of_ne_nil hne
  have hd := hdigits d (List.mem_cons_self ..)
  have hopen : d ≠ '\x7b' := by
    rintro rfl
    exact absurd hd (by decide)
  have hskip : (blanks ++ ((if braced then ['\x7b'] else []) ++ (d :: ds ++ rest))).dropWhile
      isBlank = (if braced then ['\x7b'] else []) ++ (d :: ds ++ rest) := by
    refine dropWhile_append_of_head hblanks ?_
    cases braced with
    | true => rintro c ⟨⟩; decide
    | false => rintro c ⟨⟩; exact isBlank_of_isDigit hd
  -- either brace is passed over where it stands
  have hbody : exponent? ('^' :: (blanks ++ ((if braced then ['\x7b'] else []) ++
      (d :: ds ++ rest)))) = if rest.head? = some '\x7d' then some (d :: ds, rest.tail)
        else some (d :: ds, rest) := by
    simp only [exponent?, hskip]
    simp only [List.cons_append] at htake hdrop ⊢
    cases braced
    case' true => simp only [if_true, List.singleton_append, htake, hdrop]
    case' false =>
      have hplain : ∀ inner, d :: (ds ++ rest) = '\x7b' :: inner → False :=
        fun inner heq => hopen (List.cons.inj heq).1
      simp only [Bool.false_eq_true, if_false, List.nil_append, htake, hdrop]
    all_goals
      cases rest with
      | nil => rfl
      | cons c rest => by_cases hc : c = '\x7d' <;> simp [hc]
  rw [hbody]
  split <;> rfl

namespace WrittenExponent

variable (e : WrittenExponent) {rest : List Char}

def shown : List Char := if e.braced then '\x7b' :: (e.digits ++ ['\x7d']) else e.digits

theorem flatten_tokens : e.tokens.flatten = '^' :: e.shown := by
  unfold tokens shown
  split <;> simp

/-- Digits without braces are read up to the end of the digits, and a closing brace behind them
would be taken for theirs. -/
theorem exponent?_shown {blanks : List Char} (hblanks : ∀ c ∈ blanks, isBlank c = true)
    (hrest : e.braced = false → ∀ c ∈ rest.head?, isDigit c = false ∧ c ≠ '\x7d') :
    exponent? ('^' :: (blanks ++ (e.shown ++ rest))) = some (e.digits, rest) := by
  cases hbraced : e.braced with
  | true =>
    have hclose : ∀ c ∈ ('\x7d' :: rest).head?, isDigit c = false := by
      rintro c ⟨⟩
      decide
    have hread := exponent?_digits true hblanks e.isDigit_digits e.ne_nil hclose
    simpa [shown, hbraced] using hread
  | false =>
    have hdigit : ∀ c ∈ rest.head?, isDigit c = false := fun c hc => (hrest hbraced c hc).1
    have hclose : rest.head? ≠ some '\x7d' := fun h => (hrest hbraced _ h).2 rfl
    have hread := exponent?_digits false hblanks e.isDigit_digits e.ne_nil hdigit
    simpa [shown, hbraced, hclose] using hread

theorem exponent?_tokens (hdigit : ∀ c ∈ rest.head?, isDigit c = false)
    (hbrace : '\x7d' ∉ rest.head?) :
    exponent? (e.tokens.flatten ++ rest) = some (e.digits, rest) := by
  have hblanks : ∀ c ∈ ([] : List Char), isBlank c = true := by simp
  have hread := e.exponent?_shown hblanks
    fun _ c hc => ⟨hdigit c hc, fun h => hbrace (h ▸ hc)⟩
  rwa [flatten_tokens]

theorem exponent?_flatten : exponent? e.tokens.flatten = some (e.digits, []) := by
  have hread := @e.exponent?_tokens [] (by simp) (by simp)
  rwa [List.append_nil] at hread

theorem head?_tokens : e.tokens.flatten.head? = some '^' := by
  rw [flatten_tokens, List.head?_cons]

theorem mem_tokens {c : Char} (h : c ∈ e.tokens.flatten) :
    isDigit c = true ∨ c ∈ ['^', '\x7b', '\x7d'] := by
  have hdigits := e.isDigit_digits c
  unfold tokens at h
  split at h <;> simp at h <;> grind

theorem readDigits_digits : readDigits e.digits = .ok e.value := by
  rw [readDigits, if_neg (Nat.not_lt.mpr e.length_le)]
  rfl

end WrittenExponent

namespace Summand

def body (m : Summand) : List Char := m.tokens.flatten

def shape : Summand → Term.Shape
  | constant n => .constant n.chars
  | multiple coefficient exponent =>
    .multiple ((coefficient.map DecimalNumeral.chars).getD [])
      ((exponent.map WrittenExponent.tokens).getD []).flatten

theorem body_constant (n : DecimalNumeral) : (constant n).body = n.chars := by
  simp [body, tokens]

theorem body_multiple (coefficient : Option DecimalNumeral) (exponent : Option WrittenExponent) :
    (multiple coefficient exponent).body = (coefficient.map DecimalNumeral.chars).getD [] ++
      'x' :: ((exponent.map WrittenExponent.tokens).getD []).flatten := by
  cases coefficient <;> simp [body, tokens]

theorem body_ne_nil (m : Summand) : m.body ≠ [] := by
  cases m with
  | constant n => simpa [body_constant] using n.chars_ne_nil
  | multiple coefficient exponent => simp [body_multiple]

/-- A character of a summand is a digit, a point or x, or belongs to an exponent. -/
theorem mem_body (m : Summand) {c : Char} (h : c ∈ m.body) :
    isDigit c = true ∨ c ∈ ['.', 'x', '^', '\x7b', '\x7d'] := by
  have hnumeral {n : DecimalNumeral} (h : c ∈ n.chars) :
      isDigit c = true ∨ c ∈ ['.', 'x', '^', '\x7b', '\x7d'] := by
    rcases n.mem_chars h with h | rfl
    · exact Or.inl h
    · simp
  cases m with
  | constant n =>
    rw [body_constant] at h
    exact hnumeral h
  | multiple coefficient exponent =>
    rw [body_multiple] at h
    rcases List.mem_append.mp h with h | h
    · cases coefficient with
      | none => simp at h
      | some n => exact hnumeral h
    · rcases List.mem_cons.mp h with rfl | h
      · simp
      · cases exponent with
        | none => simp at h
        | some e =>
          rcases e.mem_tokens h with h | h
          · exact Or.inl h
          · exact Or.inr (List.mem_cons_of_mem _ (List.mem_cons_of_mem _ h))

theorem notMem_of_mem_tokens (m : Summand) {c : Char} (hdigit : isDigit c = false)
    (hc : c ∉ ['.', 'x', '^', '\x7b', '\x7d']) : ∀ t ∈ m.tokens, c ∉ t := by
  intro t ht hmem
  rcases m.mem_body (List.mem_flatten.mpr ⟨t, ht, hmem⟩) with h | h
  · rw [hdigit] at h
    cases h
  · exact hc h

theorem isSign_of_mem_body (m : Summand) {c : Char} (h : c ∈ m.body) : Term.isSign c = false := by
  rcases m.mem_body h with h | h
  · have hplus : c ≠ '+' := by
      rintro rfl
      exact absurd h (by decide)
    have hminus : c ≠ '-' := by
      rintro rfl
      exact absurd h (by decide)
    simp [Term.isSign, hplus, hminus]
  · have hlist : ∀ d ∈ ['.', 'x', '^', '\x7b', '\x7d'], Term.isSign d = false := by
      simp [Term.isSign]
    exact hlist c h

/-- The body of a written summand has the summand's own shape. -/
theorem shape?_body (m : Summand) : Term.shape? m.body = some m.shape := by
  cases m with
  | constant n =>
    have hx : 'x' ∉ n.chars := n.notMem_chars (by decide) (by decide)
    rw [body_constant]
    exact Term.shape?_word n.isCoefficientChar_of_mem hx n.chars_ne_nil
  | multiple coefficient exponent =>
    rw [body_multiple]
    refine Term.shape?_multiple ?_ ?_
    · cases coefficient with
      | none => simp
      | some n => exact n.isCoefficientChar_of_mem
    · cases exponent with
      | none => simp
      | some e => simp [e.head?_tokens]

/-- That shape is read as the summand's power and its coefficient with the sign in front. -/
theorem ofShape_shape (m : Summand) (sign : Char) :
    Term.ofShape sign m.shape = .ok ⟨m.power, String.ofList (sign :: m.coefficient.chars)⟩ := by
  cases m with
  | constant n => rfl
  | multiple coefficient exponent =>
    have hnumeral : (if ((coefficient.map DecimalNumeral.chars).getD []).isEmpty then ['1']
        else (coefficient.map DecimalNumeral.chars).getD []) =
        (coefficient.getD DecimalNumeral.one).chars := by
      cases coefficient with
      | none => rfl
      | some n => simp [n.chars_ne_nil]
    cases exponent with
    | none =>
      simp only [Term.ofShape, shape, hnumeral]
      rfl
    | some e =>
      have hread := e.exponent?_flatten
      simp only [Term.ofShape, shape, hnumeral, Option.map_some, Option.getD_some, hread,
        e.readDigits_digits]
      rfl

end Summand

namespace SignedSummand

variable {terms : List SignedSummand}

theorem isSign_sign (t : SignedSummand) : Term.isSign t.sign = true := by
  unfold sign
  split <;> rfl

def signedText : List SignedSummand → List Char
  | [] => []
  | t :: rest => t.sign :: (t.summand.body ++ signedText rest)

theorem isSign_head_signedText (terms : List SignedSummand) :
    ∀ c ∈ (signedText terms).head?, Term.isSign c = true := by
  cases terms with
  | nil => simp [signedText]
  | cons t rest => simpa [signedText] using t.isSign_sign

theorem flatten_sumTokens_true (terms : List SignedSummand) :
    (sumTokens true terms).flatten = signedText terms := by
  induction terms with
  | nil => rfl
  | cons t rest ih =>
    have hsign : (if t.negative then [['-']] else if true then [['+']] else []).flatten =
        [t.sign] := by
      unfold sign
      split <;> rfl
    rw [sumTokens, List.flatten_append, List.flatten_append, ih, hsign, List.append_assoc]
    rfl

/-- A leading plus may be left out: the reader adds it. -/
theorem signed_of_squeeze {plusShown : Bool} {t : SignedSummand} {rest : List SignedSummand}
    {s : List Char} (h : squeeze s = (sumTokens plusShown (t :: rest)).flatten) :
    Term.signed s = signedText (t :: rest) := by
  rw [sumTokens, List.flatten_append, List.flatten_append, flatten_sumTokens_true] at h
  have hbody : t.summand.tokens.flatten = t.summand.body := rfl
  rw [hbody] at h
  obtain ⟨c, body, hc⟩ := List.exists_cons_of_ne_nil t.summand.body_ne_nil
  have hplain : Term.isSign c = false := t.summand.isSign_of_mem_body (hc ▸ List.mem_cons_self ..)
  unfold Term.signed
  rw [h, signedText, sign]
  cases t.negative with
  | true => rfl
  | false =>
    cases plusShown with
    | true => rfl
    | false => simp [hc, hplain]

end SignedSummand

namespace Term

theorem signedBodies_append {body rest : List Char} (hbody : ∀ c ∈ body, isSign c = false) :
    signedBodies (body ++ rest) = signedBodies rest := by
  induction body with
  | nil => rfl
  | cons c body ih =>
    obtain ⟨hc, hbody⟩ := List.forall_mem_cons.mp hbody
    simp [signedBodies, hc, ih hbody]

theorem signedBodies_cons {sign : Char} {body rest : List Char} (hsign : isSign sign = true)
    (hbody : ∀ c ∈ body, isSign c = false) (hne : body ≠ [])
    (hrest : ∀ c ∈ rest.head?, isSign c = true) :
    signedBodies (sign :: (body ++ rest)) = (sign, body) :: signedBodies rest := by
  have htake : (body ++ rest).takeWhile (! isSign ·) = body :=
    takeWhile_append_of_head (by simpa using hbody) (by simpa using hrest)
  obtain ⟨c, body', rfl⟩ := List.exists_cons_of_ne_nil hne
  rw [signedBodies, if_pos hsign, htake, signedBodies_append hbody]

theorem signedBodies_signedText (terms : List SignedSummand) :
    signedBodies (SignedSummand.signedText terms) =
      terms.map fun t => (t.sign, t.summand.body) := by
  induction terms with
  | nil => rfl
  | cons t rest ih =>
    rw [SignedSummand.signedText, signedBodies_cons t.isSign_sign
      (fun c => t.summand.isSign_of_mem_body) t.summand.body_ne_nil
      (SignedSummand.isSign_head_signedText rest), ih, List.map_cons]

/-- The scan of a written sum finds the summands, each with its sign, and nothing else. -/
theorem shapes_of_squeeze {plusShown : Bool} {terms : List SignedSummand} {s : List Char}
    (h : squeeze s = (SignedSummand.sumTokens plusShown terms).flatten) :
    shapes s = terms.map fun t => (t.sign, t.summand.shape) := by
  have hbodies : signedBodies (signed s) = terms.map fun t => (t.sign, t.summand.body) := by
    cases terms with
    | nil =>
      rw [signed, h]
      rfl
    | cons t rest => rw [SignedSummand.signed_of_squeeze h, signedBodies_signedText]
  rw [shapes, hbodies, List.filterMap_map]
  simp [Summand.shape?_body, List.filterMap_eq_map']

/-- The terms of a sum are its summands in order. -/
theorem readAll_of_squeeze {plusShown : Bool} {terms : List SignedSummand} {s : List Char}
    (h : squeeze s = (SignedSummand.sumTokens plusShown terms).flatten) :
    readAll s = .ok (terms.map SignedSummand.term) := by
  have hterm (t : SignedSummand) : ofShape t.sign t.summand.shape = .ok t.term :=
    t.summand.ofShape_shape t.sign
  rw [readAll, shapes_of_squeeze h]
  clear h
  induction terms with
  | nil => rfl
  | cons t rest ih =>
    rw [List.map_cons, List.mapM_cons, ih]
    dsimp only
    rw [hterm]
    rfl

theorem readAll_of_spaced {plusShown : Bool} {terms : List SignedSummand} {s : List Char}
    (h : Spaced (SignedSummand.sumTokens plusShown terms) s) :
    readAll s = .ok (terms.map SignedSummand.term) :=
  readAll_of_squeeze (h.squeeze_eq (SignedSummand.isToken_of_mem plusShown terms))

variable {K : Type} [Field K] [LinearOrder K] [Notated K]

theorem value_term (t : SignedSummand) :
    (t.term.value : Except Fault (Exact K)) = .ok (.finite t.value) := by
  have hread := Scalar.read?_sign_chars (K := K) t.summand.coefficient t.negative
  simp only [value, SignedSummand.term, String.toList_ofList, SignedSummand.sign, hread]
  rfl

end Term

end PartialFractions
