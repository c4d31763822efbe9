import PartialFractions.Proofs.TermReading

/-!
Sums that are printed from terms and read back. Coefficients are words without the letter x, which
may stand for symbols; the terms may have any powers, in any order and more than once.
-/
namespace PartialFractions

open Text Number

/-- A coefficient of word characters and points, none of them the letter x. -/
structure SymbolicCoefficient where
  chars : List Char
  isCoefficientChar_of_mem : ∀ c ∈ chars, Term.isCoefficientChar c = true
  notMem_x : 'x' ∉ chars
  ne_nil : chars ≠ []

structure SymbolicTerm where
  power : ℕ
  negative : Bool
  coefficient : SymbolicCoefficient

namespace SymbolicTerm

def sign (t : SymbolicTerm) : Char := if t.negative then '-' else '+'

def term (t : SymbolicTerm) : Term :=
  ⟨t.power, String.ofList (t.sign :: t.coefficient.chars)⟩

theorem isSign_sign (t : SymbolicTerm) : Term.isSign t.sign = true := by
  unfold sign
  split <;> rfl

end SymbolicTerm

/-- The texts of a coefficient in front of x: one that is 1 may be left out. -/
inductive PrintedCoefficient (k : SymbolicCoefficient) : List Char → Prop
  | shown : PrintedCoefficient k k.chars
  | omitted (h : k.chars = ['1']) : PrintedCoefficient k []

inductive PrintedPower : ℕ → List Char → Prop
  | plain : PrintedPower 1 []
  | exponent (e : WrittenExponent) : PrintedPower e.value e.tokens.flatten

inductive PrintedBody (t : SymbolicTerm) : List Char → Prop
  | constant (h : t.power = 0) : PrintedBody t t.coefficient.chars
  | multiple {front behind : List Char} (hfront : PrintedCoefficient t.coefficient front)
      (hbehind : PrintedPower t.power behind) : PrintedBody t (front ++ 'x' :: behind)
  | product {front behind : List Char} (hfront : PrintedCoefficient t.coefficient front)
      (hbehind : PrintedPower t.power behind) : PrintedBody t (front ++ '*' :: 'x' :: behind)

inductive SignedSum : List SymbolicTerm → List Char → Prop
  | nil : SignedSum [] []
  | cons {t : SymbolicTerm} {rest : List SymbolicTerm} {body text : List Char}
      (hbody : PrintedBody t body) (hrest : SignedSum rest text) :
      SignedSum (t :: rest) (t.sign :: (body ++ text))

/-- The texts of a sum, in which a plus sign in front of the first term may be left out. -/
def PrintedSum (terms : List SymbolicTerm) (text : List Char) : Prop :=
  SignedSum terms text ∨ SignedSum terms ('+' :: text)

section Texts

/-- Terms with exponents that are short enough to be read have a text. -/
theorem exists_signedSum {terms : List SymbolicTerm}
    (h : ∀ t ∈ terms, (Nat.toDigits 10 t.power).length ≤ maxIntegerDigits) :
    ∃ text, SignedSum terms text := by
  induction terms with
  | nil => exact ⟨[], .nil⟩
  | cons t rest ih =>
    obtain ⟨ht, hrest⟩ := List.forall_mem_cons.mp h
    obtain ⟨text, htext⟩ := ih hrest
    have hpower := PrintedPower.exponent (.ofNat t.power true ht)
    rw [WrittenExponent.value_ofNat] at hpower
    exact ⟨_, .cons (.multiple .shown hpower) htext⟩

end Texts

section Reading

variable {t : SymbolicTerm} {terms : List SymbolicTerm} {front behind body text s : List Char}

theorem PrintedCoefficient.isCoefficientChar_of_mem {k : SymbolicCoefficient}
    (h : PrintedCoefficient k front) : ∀ c ∈ front, Term.isCoefficientChar c = true := by
  cases h with
  | shown => exact k.isCoefficientChar_of_mem
  | omitted => simp

/-- A coefficient that is left out is read as 1. -/
theorem PrintedCoefficient.read {k : SymbolicCoefficient} (h : PrintedCoefficient k front) :
    (if front.isEmpty then ['1'] else front) = k.chars := by
  cases h with
  | shown => simp [k.ne_nil]
  | omitted hone => simp [hone]

namespace PrintedPower

variable {n : ℕ}

theorem head? (h : PrintedPower n behind) : ∀ c ∈ behind.head?, c = '^' := by
  cases h with
  | plain => simp
  | exponent e => simp [e.head?_tokens]

theorem mem (h : PrintedPower n behind) {c : Char} (hc : c ∈ behind) :
    isDigit c = true ∨ c ∈ ['^', '\x7b', '\x7d'] := by
  cases h with
  | plain => simp at hc
  | exponent e => exact e.mem_tokens hc

theorem ofShape (h : PrintedPower n behind) (sign : Char) (front : List Char) :
    Term.ofShape sign (.multiple front behind) =
      .ok ⟨n, String.ofList (sign :: if front.isEmpty then ['1'] else front)⟩ := by
  cases h with
  | plain => rfl
  | exponent e =>
    simp only [Term.ofShape, e.exponent?_flatten, e.readDigits_digits]
    rfl

end PrintedPower

namespace PrintedBody

/-- The body is cut into the parts that it was printed from. -/
theorem shape (h : PrintedBody t body) :
    ∃ shape, Term.shape? body = some shape ∧ Term.ofShape t.sign shape = .ok t.term := by
  have hterm {front behind : List Char} (hfront : PrintedCoefficient t.coefficient front)
      (hbehind : PrintedPower t.power behind) :
      Term.ofShape t.sign (.multiple front behind) = .ok t.term := by
    rw [hbehind.ofShape, hfront.read, SymbolicTerm.term]
  cases h with
  | constant hpower =>
    refine ⟨.constant t.coefficient.chars, ?_, ?_⟩
    · exact Term.shape?_word t.coefficient.isCoefficientChar_of_mem t.coefficient.notMem_x
        t.coefficient.ne_nil
    · rw [SymbolicTerm.term, hpower]
      rfl
  | multiple hfront hbehind =>
    exact ⟨_, Term.shape?_multiple hfront.isCoefficientChar_of_mem hbehind.head?,
      hterm hfront hbehind⟩
  | product hfront hbehind =>
    exact ⟨_, Term.shape?_product hfront.isCoefficientChar_of_mem, hterm hfront hbehind⟩

theorem ne_nil (h : PrintedBody t body) : body ≠ [] := by
  cases h with
  | constant => exact t.coefficient.ne_nil
  | multiple => simp
  | product => simp

/-- A character of a body belongs to a coefficient, an x behind it or an exponent. -/
theorem mem (h : PrintedBody t body) {c : Char} (hc : c ∈ body) :
    Term.isCoefficientChar c = true ∨ c ∈ ['*', '^', '\x7b', '\x7d'] := by
  have hx : Term.isCoefficientChar 'x' = true := by decide
  have hexponent {behind : List Char} (hbehind : PrintedPower t.power behind) (hc : c ∈ behind) :
      Term.isCoefficientChar c = true ∨ c ∈ ['*', '^', '\x7b', '\x7d'] := by
    rcases hbehind.mem hc with hdigit | hc
    · exact Or.inl (by simp [Term.isCoefficientChar, isWordChar_of_isDigit hdigit])
    · exact Or.inr (List.mem_cons_of_mem _ hc)
  cases h with
  | constant => exact Or.inl (t.coefficient.isCoefficientChar_of_mem c hc)
  | multiple hfront hbehind =>
    rcases List.mem_append.mp hc with hc | hc
    · exact Or.inl (hfront.isCoefficientChar_of_mem c hc)
    · rcases List.mem_cons.mp hc with rfl | hc
      · exact Or.inl hx
      · exact hexponent hbehind hc
  | product hfront hbehind =>
    rcases List.mem_append.mp hc with hc | hc
    · exact Or.inl (hfront.isCoefficientChar_of_mem c hc)
    · rcases List.mem_cons.mp hc with rfl | hc
      · exact Or.inr (List.mem_cons_self ..)
      · rcases List.mem_cons.mp hc with rfl | hc
        · exact Or.inl hx
        · exact hexponent hbehind hc

/-- A printed body holds no sign, so the text is cut between the terms and nowhere else. -/
theorem isSign_of_mem (h : PrintedBody t body) : ∀ c ∈ body, Term.isSign c = false := by
  intro c hc
  have hsign : ∀ d, Term.isSign d = true → Term.isCoefficientChar d = false := by
    intro d hd
    simp only [Term.isSign, Bool.or_eq_true, decide_eq_true_eq] at hd
    rcases hd with rfl | rfl <;> decide
  rcases h.mem hc with hword | hmark
  · by_contra hplain
    rw [hsign c (Bool.not_eq_false _ ▸ hplain)] at hword
    cases hword
  · simp only [List.mem_cons, List.not_mem_nil, or_false] at hmark
    rcases hmark with rfl | rfl | rfl | rfl <;> rfl

theorem isBlank_of_mem (h : PrintedBody t body) : ∀ c ∈ body, isBlank c = false := by
  intro c hc
  rcases h.mem hc with hword | hmark
  · rcases Bool.or_eq_true_iff.mp hword with hword | hpoint
    · exact isBlank_of_isWordChar hword
    · rw [decide_eq_true_eq.mp hpoint]
      decide
  · simp only [List.mem_cons, List.not_mem_nil, or_false] at hmark
    rcases hmark with rfl | rfl | rfl | rfl <;> decide

end PrintedBody

namespace SignedSum

theorem head? (h : SignedSum terms text) : ∀ c ∈ text.head?, Term.isSign c = true := by
  cases h with
  | nil => simp
  | @cons t => simpa using t.isSign_sign

theorem isBlank_of_mem (h : SignedSum terms text) : ∀ c ∈ text, isBlank c = false := by
  induction h with
  | nil => simp
  | @cons t rest body text hbody hrest ih =>
    have hsign : isBlank t.sign = false := by
      unfold SymbolicTerm.sign
      split <;> decide
    exact List.forall_mem_cons.mpr
      ⟨hsign, List.forall_mem_append.mpr ⟨hbody.isBlank_of_mem, ih⟩⟩

/-- One sign begins one body, and the body gives back its term. -/
theorem read (h : SignedSum terms text) :
    ((Term.signedBodies text).filterMap fun (sign, body) => (Term.shape? body).map (sign, ·)).mapM
      (fun (sign, shape) => Term.ofShape sign shape) = .ok (terms.map SymbolicTerm.term) := by
  induction h with
  | nil => rfl
  | @cons t rest body text hbody hrest ih =>
    obtain ⟨shape, hshape, hterm⟩ := hbody.shape
    rw [Term.signedBodies_cons t.isSign_sign hbody.isSign_of_mem hbody.ne_nil hrest.head?]
    simp only [List.filterMap_cons, hshape, Option.map_some, List.mapM_cons, hterm, ih]
    rfl

end SignedSum

namespace PrintedSum

theorem isBlank_of_mem (h : PrintedSum terms text) : ∀ c ∈ text, isBlank c = false := by
  rcases h with h | h
  · exact h.isBlank_of_mem
  · exact (List.forall_mem_cons.mp h.isBlank_of_mem).2

/-- A plus sign that is left out is put back. -/
theorem signed (h : PrintedSum terms text) (hs : squeeze s = text) :
    SignedSum terms (Term.signed s) ∨ terms = [] ∧ Term.signed s = ['+'] := by
  rcases h with h | h
  · cases h with
    | nil => exact Or.inr ⟨rfl, by rw [Term.signed, hs]⟩
    | @cons t rest body text hbody hrest =>
      have hsigned : Term.signed s = t.sign :: (body ++ text) := by
        simp [Term.signed, hs, t.isSign_sign]
      exact Or.inl (hsigned ▸ .cons hbody hrest)
  · generalize hall : '+' :: text = all at h
    cases h with
    | nil => cases hall
    | @cons t rest body behind hbody hrest =>
      obtain ⟨-, htext⟩ := List.cons.inj hall
      obtain ⟨c, body', hcons⟩ := List.exists_cons_of_ne_nil hbody.ne_nil
      have hplain := hbody.isSign_of_mem c (hcons ▸ List.mem_cons_self ..)
      have hsigned : Term.signed s = '+' :: text := by
        simp [Term.signed, hs, htext, hcons, hplain]
      rw [hsigned, hall]
      exact Or.inl (.cons hbody hrest)

end PrintedSum

/-- The terms of a printed sum are read back in order, wherever blanks are put into it. -/
theorem Term.readAll_of_printed (h : PrintedSum terms text)
    (hs : Spaced (text.map fun c => [c]) s) :
    Term.readAll s = .ok (terms.map SymbolicTerm.term) := by
  have hsqueeze := hs.squeeze_eq_of_chars h.isBlank_of_mem
  unfold Term.readAll Term.shapes
  rcases h.signed hsqueeze with hsigned | ⟨rfl, hplus⟩
  · exact hsigned.read
  · rw [hplus]
    rfl

theorem Term.readAll_of_printed_symbols :
    Term.readAll " - a.1x ^\x7b10\x7d + *x + k _2 x^10 - 0.5 + x^0".toList =
      .ok [⟨10, "-a.1"⟩, ⟨1, "+1"⟩, ⟨10, "+k_2"⟩, ⟨0, "-0.5"⟩, ⟨0, "+1"⟩] := by
  have hword (s : List Char) (h : (s.all Term.isCoefficientChar) = true) :
      ∀ c ∈ s, Term.isCoefficientChar c = true := List.all_eq_true.mp h
  let one : SymbolicCoefficient := ⟨['1'], hword _ (by decide +kernel), by decide, by decide⟩
  let terms : List SymbolicTerm := [
    ⟨10, true, ⟨['a', '.', '1'], hword _ (by decide +kernel), by decide, by decide⟩⟩,
    ⟨1, false, one⟩,
    ⟨10, false, ⟨['k', '_', '2'], hword _ (by decide +kernel), by decide, by decide⟩⟩,
    ⟨0, true, ⟨['0', '.', '5'], hword _ (by decide +kernel), by decide, by decide⟩⟩,
    ⟨0, false, one⟩]
  have hterms : SignedSum terms _ :=
    .cons (.multiple .shown (.exponent (.ofNat 10 true (by decide)))) <|
    .cons (.product (.omitted rfl) .plain) <|
    .cons (.multiple .shown (.exponent (.ofNat 10 false (by decide)))) <|
    .cons (.constant rfl) <|
    .cons (.multiple (.omitted rfl) (.exponent (.ofNat 0 false (by decide)))) .nil
  refine Term.readAll_of_printed (.inl hterms) ?_
  have hsqueeze : squeeze " - a.1x ^\x7b10\x7d + *x + k _2 x^10 - 0.5 + x^0".toList =
      ['-', 'a', '.', '1', 'x', '^', '\x7b', '1', '0', '\x7d', '+', '*', 'x', '+', 'k', '_', '2',
        'x', '^', '1', '0', '-', '0', '.', '5', '+', 'x', '^', '0'] := by
    decide +kernel
  have hspaced := Spaced.squeezed " - a.1x ^\x7b10\x7d + *x + k _2 x^10 - 0.5 + x^0".toList
  rw [hsqueeze] at hspaced
  exact hspaced

end Reading

end PartialFractions
