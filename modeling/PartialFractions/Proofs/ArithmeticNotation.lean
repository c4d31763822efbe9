import PartialFractions.Proofs.DecimalNumerals
import PartialFractions.Verification.Reader

/-!
The notation of arithmetic, apart from any parser of it: how numbers are spelled, which tokens a
text has, and which expression a row of tokens is. Powers bind closest and their exponents may have
signs, then come signs, then products and quotients from the left, then sums. A power that follows a
product without a sign is multiplied to it.
-/
namespace PartialFractions

open Text Number

namespace Number

/-- Digits from 0 to 9 without a zero in front, unless they write the number zero. -/
structure IsNumeral (ds : List Char) : Prop where
  isDigit : ∀ c ∈ ds, c.isDigit = true
  ne_nil : ds ≠ []
  head?_zero : ds.head? = some '0' → ds = ['0']

structure IsWholeNumeral (ds : List Char) : Prop extends IsNumeral ds where
  length_le : ds.length ≤ maxIntegerDigits

def ofNumeral (ds : List Char) : ℕ := ofDigits (ds.filterMap digit?)

theorem isNumeral_digit {c : Char} (h : c.isDigit = true) : IsNumeral [c] where
  isDigit := List.forall_mem_singleton.mpr h
  ne_nil := List.cons_ne_nil c []
  head?_zero h := by
    obtain rfl := Option.some.inj h
    rfl

theorem isWholeNumeral_digit {c : Char} (h : c.isDigit = true) : IsWholeNumeral [c] :=
  { isNumeral_digit h with length_le := by simp [maxIntegerDigits] }

/-- A numeral of more than one digit does not write zero. -/
theorem IsNumeral.ofNumeral_ne_zero {ds : List Char} (h : IsNumeral ds) (hlength : 1 < ds.length) :
    ofNumeral ds ≠ 0 := by
  have hfold (ns : List ℕ) (n : ℕ) (hn : 0 < n) : 0 < ns.foldl (fun n d => 10 * n + d) n := by
    induction ns generalizing n with
    | nil => exact hn
    | cons d ns ih =>
      have hnext : 0 < 10 * n + d := by omega
      exact ih _ hnext
  obtain ⟨c, rest, rfl⟩ := List.exists_cons_of_ne_nil h.ne_nil
  have hdigit := h.isDigit c (List.mem_cons_self ..)
  have hvalue := digit?_of_ascii hdigit
  have hzero : c ≠ '0' := by
    rintro rfl
    rw [h.head?_zero rfl] at hlength
    simp at hlength
  have hpos : 0 < c.toNat - '0'.toNat := by
    simp only [Char.isDigit, Bool.and_eq_true, decide_eq_true_eq, ge_iff_le] at hdigit
    have hlow : 48 ≤ c.toNat := hdigit.1
    have hne : c.toNat ≠ '0'.toNat := fun heq => hzero (Char.toNat_inj.mp heq)
    simp only [Char.reduceToNat] at hne ⊢
    omega
  have hrow : ofNumeral (c :: rest) =
      (rest.filterMap digit?).foldl (fun n d => 10 * n + d) (c.toNat - '0'.toNat) := by
    simp [ofNumeral, ofDigits, ofDigitsIn, hvalue]
  rw [hrow]
  exact (hfold _ _ hpos).ne'

end Number

namespace Verification

namespace Literal

/-- The text is a row of digits, maybe with single low lines between them. -/
inductive Row : List Char → List Char → Prop
  | nil : Row [] []
  | digit {c : Char} {s ds : List Char} (hc : c.isDigit = true) (h : Row s ds) :
    Row (c :: s) (c :: ds)
  | low {c : Char} {s ds : List Char} (hc : c.isDigit = true) (hds : ds ≠ []) (h : Row s ds) :
    Row (c :: '_' :: s) (c :: ds)

namespace Row

variable {s ds : List Char}

theorem isDigit (h : Row s ds) : ∀ c ∈ ds, c.isDigit = true := by
  induction h with
  | nil => simp
  | digit hc h ih | low hc hds h ih => exact List.forall_mem_cons.mpr ⟨hc, ih⟩

theorem of_isDigit (h : ∀ c ∈ ds, c.isDigit = true) : Row ds ds := by
  induction ds with
  | nil => exact .nil
  | cons c ds ih =>
    obtain ⟨hc, hds⟩ := List.forall_mem_cons.mp h
    exact .digit hc (ih hds)

end Row

def exponentSigns : List (List Char × Bool) := [([], false), (['+'], false), (['-'], true)]

inductive ExponentSpelled : List Char → ℤ → Prop
  | absent : ExponentSpelled [] 0
  | written {letter : Char} {sign s ds : List Char} {negative : Bool}
    (hletter : letter ∈ ['e', 'E']) (hsign : (sign, negative) ∈ exponentSigns) (hs : Row s ds)
    (hds : ds ≠ []) :
    ExponentSpelled (letter :: (sign ++ s)) (if negative then -(ofNumeral ds : ℤ) else ofNumeral ds)

inductive Spelled : Literal → List Char → Prop
  | whole {s ds : List Char} (hs : Row s ds) (hds : IsWholeNumeral ds) :
    Spelled (.whole (ofNumeral ds)) s
  | pointed {s ds t fs exponent : List Char} {e : ℤ} (hs : Row s ds) (ht : Row t fs)
    (hne : ds ++ fs ≠ []) (he : ExponentSpelled exponent e) :
    Spelled (.decimal (ofNumeral (ds ++ fs)) (e - fs.length)
      (widthOf (Nat.toDigits 10 (ofNumeral (ds ++ fs))).length)) (s ++ '.' :: (t ++ exponent))
  | scientific {s ds exponent : List Char} {e : ℤ} (hs : Row s ds) (hds : ds ≠ [])
    (he : ExponentSpelled exponent e) (hexponent : exponent ≠ [])
    (hlength : keptDigits (ofNumeral ds) e ≤ maxIntegerDigits) :
    Spelled (.decimal (ofNumeral ds) e (widthOf (keptDigits (ofNumeral ds) e))) (s ++ exponent)

end Literal

namespace Token

/-- The characters that neither a number nor a name goes over. -/
def breaks : List Char := spaces ++ marks.map Prod.fst

/-- The text has the tokens. A number ends at an x, at a space or at a mark, an x at one of the
last two. -/
inductive Scanned : List Char → List Token → Prop
  | done : Scanned [] []
  | space {c : Char} {s : List Char} {ts : List Token} (hc : c ∈ spaces) (h : Scanned s ts) :
    Scanned (c :: s) ts
  | mark {c : Char} {t : Token} {s : List Char} {ts : List Token} (hc : (c, t) ∈ marks)
    (h : Scanned s ts) : Scanned (c :: s) (t :: ts)
  | x {s : List Char} {ts : List Token} (hs : ∀ c ∈ s.head?, c ∈ breaks) (h : Scanned s ts) :
    Scanned ('x' :: s) (.x :: ts)
  | literal {ds s : List Char} {l : Literal} {ts : List Token} (hds : l.Spelled ds)
    (hs : ∀ c ∈ s.head?, c ∈ 'x' :: breaks) (h : Scanned s ts) :
    Scanned (ds ++ s) (.literal l :: ts)

end Token

namespace Arithmetic

inductive Level
  | atom
  | power
  | signed
  | product
  | sum
  deriving DecidableEq

variable {K : Type}

/-- The tokens are the expression, which stands where one of the level may stand. -/
inductive Derives : Level → List Token → Arithmetic K → Prop
  | literal (l : Literal) : Derives .atom [.literal l] (.literal l)
  | x : Derives .atom [.x] .x
  | group {ts : List Token} {e : Arithmetic K} (h : Derives .sum ts e) :
    Derives .atom (.opening :: (ts ++ [.closing])) e
  | base {ts : List Token} {e : Arithmetic K} (h : Derives .atom ts e) : Derives .power ts e
  | power {ts us : List Token} {a b : Arithmetic K} (ha : Derives .atom ts a)
    (hb : Derives .signed us b) : Derives .power (ts ++ .power :: us) (.power a b)
  | unsigned {ts : List Token} {e : Arithmetic K} (h : Derives .power ts e) : Derives .signed ts e
  | plus {ts : List Token} {e : Arithmetic K} (h : Derives .signed ts e) :
    Derives .signed (.plus :: ts) e
  | minus {ts : List Token} {e : Arithmetic K} (h : Derives .signed ts e) :
    Derives .signed (.minus :: ts) (.negate e)
  | factor {ts : List Token} {e : Arithmetic K} (h : Derives .signed ts e) : Derives .product ts e
  | times {ts us : List Token} {a b : Arithmetic K} (ha : Derives .product ts a)
    (hb : Derives .signed us b) : Derives .product (ts ++ .times :: us) (.multiply a b)
  | divide {ts us : List Token} {a b : Arithmetic K} (ha : Derives .product ts a)
    (hb : Derives .signed us b) : Derives .product (ts ++ .slash :: us) (.divide a b)
  | juxtapose {ts us : List Token} {a b : Arithmetic K} (ha : Derives .product ts a)
    (hb : Derives .power us b) : Derives .product (ts ++ us) (.multiply a b)
  | term {ts : List Token} {e : Arithmetic K} (h : Derives .product ts e) : Derives .sum ts e
  | add {ts us : List Token} {a b : Arithmetic K} (ha : Derives .sum ts a)
    (hb : Derives .product us b) : Derives .sum (ts ++ .plus :: us) (.add a b)
  | subtract {ts us : List Token} {a b : Arithmetic K} (ha : Derives .sum ts a)
    (hb : Derives .product us b) : Derives .sum (ts ++ .minus :: us) (.subtract a b)

section Ends

variable {ts us : List Token} {e : Arithmetic K} {level : Level}

def StartsFactor (ts : List Token) : Prop := ∃ t ∈ ts.head?, t.startsFactor = true

theorem StartsFactor.length_pos (h : StartsFactor ts) : 0 < ts.length := by
  obtain ⟨t, ht, -⟩ := h
  exact List.length_pos_of_mem (List.mem_of_mem_head? ht)

theorem StartsFactor.append (h : StartsFactor ts) (us : List Token) : StartsFactor (ts ++ us) := by
  obtain ⟨t, ht, hstart⟩ := h
  obtain ⟨ts, rfl⟩ := List.head?_eq_some_iff.mp ht
  exact ⟨t, rfl, hstart⟩

namespace Derives

theorem startsFactor_atom (h : Derives .atom ts e) : StartsFactor ts := by
  cases h with
  | literal | x | group => exact ⟨_, rfl, rfl⟩

theorem startsFactor (h : Derives .power ts e) : StartsFactor ts := by
  cases h with
  | base h => exact h.startsFactor_atom
  | power ha hb => exact ha.startsFactor_atom.append _

/-- No expression begins with a sign of multiplication. -/
theorem exists_head? (h : Derives level ts e) : ∃ t ∈ ts.head?, t ≠ .times := by
  have happend {ts : List Token} (h : ∃ t ∈ ts.head?, t ≠ .times) (us : List Token) :
      ∃ t ∈ (ts ++ us).head?, t ≠ .times := by
    obtain ⟨t, ht, hne⟩ := h
    obtain ⟨ts, rfl⟩ := List.head?_eq_some_iff.mp ht
    exact ⟨t, rfl, hne⟩
  induction h with
  | literal | x | group | plus | minus => exact ⟨_, rfl, by simp⟩
  | base h ih | unsigned h ih | factor h ih | term h ih => exact ih
  | power ha hb iha ihb | times ha hb iha ihb | divide ha hb iha ihb | juxtapose ha hb iha ihb
  | add ha hb iha ihb | subtract ha hb iha ihb => exact happend iha _

/-- No expression ends with a sign of multiplication. -/
theorem exists_getLast? (h : Derives level ts e) : ∃ t ∈ ts.getLast?, t ≠ .times := by
  have happend (ts : List Token) {us : List Token} (h : ∃ t ∈ us.getLast?, t ≠ .times) :
      ∃ t ∈ (ts ++ us).getLast?, t ≠ .times := by
    obtain ⟨t, ht, hne⟩ := h
    obtain ⟨us, rfl⟩ := List.getLast?_eq_some_iff.mp ht
    exact ⟨t, by simp, hne⟩
  induction h with
  | literal | x => exact ⟨_, rfl, by simp⟩
  | group h ih => exact happend (.opening :: _) ⟨.closing, rfl, by simp⟩
  | base h ih | unsigned h ih | factor h ih | term h ih => exact ih
  | plus h ih => exact happend [.plus] ih
  | minus h ih => exact happend [.minus] ih
  | power ha hb iha ihb => exact happend _ (happend [.power] ihb)
  | times ha hb iha ihb => exact happend _ (happend [.times] ihb)
  | divide ha hb iha ihb => exact happend _ (happend [.slash] ihb)
  | juxtapose ha hb iha ihb => exact happend _ ihb
  | add ha hb iha ihb => exact happend _ (happend [.plus] ihb)
  | subtract ha hb iha ihb => exact happend _ (happend [.minus] ihb)

theorem length_pos (h : Derives level ts e) : 0 < ts.length := by
  obtain ⟨t, ht, -⟩ := h.exists_head?
  exact List.length_pos_of_mem (List.mem_of_mem_head? ht)

end Derives

end Ends

def Written (e : Arithmetic K) (s : List Char) : Prop :=
  ∃ ts, Token.Scanned s ts ∧ Derives .sum ts e

end Arithmetic

/-- The parser reads every text that is written in the notation as the expression that it writes. -/
def FollowsNotation (K : Type) [Parsing K] : Prop :=
  ∀ (s : List Char) (e : Arithmetic K), e.Written s → Parsing.parse s = .ok e

end Verification

end PartialFractions
