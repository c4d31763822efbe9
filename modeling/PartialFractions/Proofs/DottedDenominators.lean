import PartialFractions.Proofs.DerivedPolynomials
import PartialFractions.Proofs.WrittenProducts

/-!
Denominators that list their factors, as the verification reads them. Sums in brackets, with
numbers, powers of x and multiplication signs around them, are written as one product, which is the
product of the scale and the factors that the denominator is taken apart into.
-/
namespace PartialFractions

open Polynomial Text Number

/-- The text writes the sum with whole numbers, with every power of x once and with no blanks but
spaces. -/
structure SumText (plusShown : Bool) (terms : List SignedSummand) (s : List Char) : Prop where
  ne_nil : terms ≠ []
  isWhole : ∀ t ∈ terms, t.summand.IsWhole
  nodup : (terms.map fun t => t.summand.power).Nodup
  spaced : Spaced (SignedSummand.sumTokens plusShown terms) s
  spaces : Verification.Token.SpacesOnly s

noncomputable def SignedSummand.sumPolynomial (terms : List SignedSummand) : ℚ[X] :=
  (terms.map SignedSummand.monomial).sum

theorem SignedSummand.monomial_eq (t : SignedSummand) :
    t.monomial = C t.value * X ^ t.summand.power := by
  unfold SignedSummand.monomial value Summand.monomial Scalar.signed
  split <;> simp

namespace Verification

variable [Parsing Empty] {s : List Char} {ts : List Token} {p : ℚ[X]}

/-- A formula whose tokens are an expression of a polynomial denotes it. -/
theorem denotes_of_typeset (hparse : FollowsNotation Empty) (h : Token.Typeset s ts)
    (hts : Arithmetic.DerivesPolynomial Empty .sum ts p) : Denotes s p := by
  obtain ⟨e, hderives, he⟩ := hts
  exact denotes_of_read (hparse _ e ⟨ts, h.scanned, hderives⟩) he

end Verification

namespace SumText

open Verification

variable {plusShown : Bool} {terms : List SignedSummand} {s : List Char}

/-- The formula has the tokens of its sum, in front of one that does not go on with a digit or with
x. -/
theorem typeset (h : SumText plusShown terms s) {rest : List Char} {ts : List Token}
    (hrest : Token.Typeset rest ts) (hhead : ∀ c ∈ rest.head?, c.isDigit = false ∧ c ≠ 'x') :
    Token.Typeset (s ++ rest) (Token.ofSum plusShown terms ++ ts) :=
  (Token.spelled_sum h.isWhole plusShown).typeset h.spaced h.spaces hrest hhead

theorem denotes [Parsing Empty] (hparse : FollowsNotation Empty) (h : SumText plusShown terms s) :
    Denotes s (SignedSummand.sumPolynomial terms) := by
  have htypeset := h.typeset .done (by simp)
  rw [List.append_nil, List.append_nil] at htypeset
  exact denotes_of_typeset hparse htypeset (Arithmetic.derives_ofSum h.ne_nil h.isWhole plusShown)

end SumText

/-- What is multiplied, behind a multiplication sign or not. -/
structure Dotted (α : Type) where
  dotted : Bool
  item : α

/-- A number and a power of x in front of a bracket, or one of them, or nothing; there may be a
multiplication sign in front of each of them and in front of the bracket. -/
structure DottedGap where
  negative : Bool
  number : Option (Dotted DecimalNumeral)
  /-- the power of x, with its exponent if there is one -/
  power : Option (Dotted (Option WrittenExponent))
  /-- whether there is a multiplication sign in front of what follows the gap -/
  dotted : Bool

namespace DottedGap

def signItems (dotted : Bool) : List GapItem := if dotted then [.sign .dot] else []

def numberItems (n : Dotted DecimalNumeral) : List GapItem :=
  signItems n.dotted ++ [.factor (.constant n.item)]

def powerItems (x : Dotted (Option WrittenExponent)) : List GapItem :=
  signItems x.dotted ++ [.factor (.multiple none x.item)]

def row (g : DottedGap) : GapRow where
  before := []
  negative := if g.negative then some true else none
  items := (g.number.map numberItems).getD [] ++
    ((g.power.map powerItems).getD [] ++ signItems g.dotted)

def tokens (g : DottedGap) : List (List Char) := g.row.tokens

def written (g : DottedGap) : WrittenGap where
  negative := g.negative
  product :=
    match g.number, g.power with
    | none, none => none
    | some n, none => some (.constant n.item)
    | n, some x => some (.multiple (n.map Dotted.item) x.item)

/-- Whether the first of the number, the power of x and what follows the gap stands behind a
multiplication sign. -/
def StartsDotted (g : DottedGap) : Prop :=
  ((g.number.map Dotted.dotted).or (g.power.map Dotted.dotted)).getD g.dotted = true

/-- The number is whole and not zero, and the exponent is whole. -/
structure IsWhole (g : DottedGap) : Prop where
  number : ∀ n ∈ g.number, n.item.IsWhole ∧ ofNumeral n.item.whole ≠ 0
  power : ∀ x ∈ g.power, ∀ e ∈ x.item, IsWholeNumeral e.digits

theorem factors_signItems (dotted : Bool) : (signItems dotted).filterMap GapItem.factor? = [] := by
  cases dotted <;> rfl

theorem readsGaps : ReadsGaps tokens written where
  isToken g := GapRow.gapTokens.isToken g.row
  paren_notMem g := GapRow.gapTokens.paren_notMem g.row
  head_notMem g := GapRow.gapTokens.head_notMem g.row
  dropProducts_eq {g s} h := by
    rw [GapRow.dropProducts_of_spaced h]
    have hsign : GapRow.signText g.row.negative = g.written.signText := by
      cases hnegative : g.negative <;> simp [row, GapRow.signText, written, WrittenGap.signText,
        hnegative]
    rw [hsign]
    obtain ⟨negative, _ | n, _ | x, dotted⟩ := g <;>
      simp [row, written, GapRow.factors, GapRow.factorsText, numberItems, powerItems,
        factors_signItems, WrittenGap.numberText, WrittenGap.variableText, Summand.body_constant,
        Summand.body_multiple, GapItem.factor?]

section Tokens

open Verification

def signTokens (g : DottedGap) : List Token := if g.negative then [.minus] else []

def numberTokens (g : DottedGap) : List Token :=
  (g.number.map fun n => Token.ofDot n.dotted ++ [Token.ofNumeral n.item]).getD []

def powerTokens (g : DottedGap) : List Token :=
  (g.power.map fun x => Token.ofDot x.dotted ++ .x :: Token.ofExponent x.item).getD []

/-- The number and the power of x as a polynomial, without the sign. -/
noncomputable def polynomial (g : DottedGap) : ℚ[X] :=
  (g.number.map fun n => C n.item.value).getD 1 *
    (g.power.map fun x => X ^ (x.item.map WrittenExponent.value).getD 1).getD 1

variable {g : DottedGap}

theorem plain_of_mem_dot : ∀ c ∈ ProductSign.dot.chars, c.isDigit = false ∧ c ≠ 'x' := by
  intro c hc
  unfold ProductSign.chars at hc
  fin_cases hc <;> decide

theorem spelled_signItems {us : List (List Char)} {ts : List Token} (h : Token.Spelled us ts)
    (dotted : Bool) : Token.Spelled ((signItems dotted).flatMap GapItem.tokens ++ us)
      (Token.ofDot dotted ++ ts) := by
  cases dotted with
  | true => exact .times h
  | false => exact h

theorem spelled_dot (dotted : Bool) :
    Token.Spelled ((signItems dotted).flatMap GapItem.tokens) (Token.ofDot dotted) := by
  simpa using spelled_signItems .nil dotted

/-- What follows the power of x does not go on with its exponent. -/
theorem head?_dot (dotted : Bool) :
    ∀ u ∈ ((signItems dotted).flatMap GapItem.tokens).head?, ∀ c ∈ u,
      c.isDigit = false ∧ c ≠ 'x' := by
  cases dotted with
  | true =>
    rintro u ⟨⟩
    exact plain_of_mem_dot
  | false => simp [signItems]

def afterNumber (g : DottedGap) : List (List Char) :=
  ((g.power.map powerItems).getD [] ++ signItems g.dotted).flatMap GapItem.tokens

theorem spelled_afterNumber (h : g.IsWhole) :
    Token.Spelled g.afterNumber (g.powerTokens ++ Token.ofDot g.dotted) := by
  cases hpower : g.power with
  | none => simpa [afterNumber, powerTokens, hpower] using spelled_dot g.dotted
  | some x =>
    have hx := (Token.spelled_power (h.power x hpower)).append (spelled_dot g.dotted)
      (head?_dot g.dotted)
    simpa [afterNumber, powerTokens, hpower, powerItems, GapItem.tokens, Summand.tokens]
      using spelled_signItems hx x.dotted

/-- What follows the number does not go on with its digits. -/
theorem head?_afterNumber (g : DottedGap) :
    ∀ u ∈ g.afterNumber.head?, ∀ c ∈ u, c.isDigit = false := by
  unfold afterNumber
  cases g.power with
  | none => exact fun u hu c hc => (head?_dot g.dotted u hu c hc).1
  | some x =>
    cases hdotted : x.dotted with
    | true =>
      have hhead : ((((some x).map powerItems).getD [] ++ signItems g.dotted).flatMap
          GapItem.tokens).head? = some ProductSign.dot.chars := by
        simp [powerItems, signItems, hdotted, GapItem.tokens]
      rw [hhead]
      rintro u ⟨⟩ c hc
      exact (plain_of_mem_dot c hc).1
    | false => simp [powerItems, signItems, hdotted, GapItem.tokens, Summand.tokens]

theorem spelled_items (h : g.IsWhole) : Token.Spelled (g.row.items.flatMap GapItem.tokens)
    (g.numberTokens ++ (g.powerTokens ++ Token.ofDot g.dotted)) := by
  have hafter := spelled_afterNumber h
  cases hnumber : g.number with
  | none => simpa [row, numberTokens, hnumber, afterNumber] using hafter
  | some n =>
    obtain ⟨hn, -⟩ := h.number n hnumber
    have hnumeral := Token.Spelled.numeral hn.whole g.head?_afterNumber hafter
    simpa [row, numberTokens, hnumber, afterNumber, numberItems, GapItem.tokens, Summand.tokens,
      hn.chars_eq, Token.ofNumeral] using spelled_signItems hnumeral n.dotted

/-- A gap spells its sign, its multiplier, its power and the dot behind them. -/
theorem spelled_tokens (h : g.IsWhole) : Token.Spelled g.tokens
    (g.signTokens ++ (g.numberTokens ++ (g.powerTokens ++ Token.ofDot g.dotted))) := by
  have hitems := spelled_items h
  have htokens : g.tokens = (if g.negative then [['-']] else []) ++
      g.row.items.flatMap GapItem.tokens := by
    cases hnegative : g.negative <;> simp [tokens, GapRow.tokens, row, GapRow.signText, hnegative]
  rw [htokens, signTokens]
  cases g.negative with
  | true => exact .mark (by decide) hitems
  | false => exact hitems

/-- Multiplier and power beside each other denote their product. -/
theorem isProduct_tokens (h : g.IsWhole) {K : Type} :
    Arithmetic.IsProduct K (g.numberTokens ++ g.powerTokens) g.polynomial := by
  refine .append ?_ ?_
  · cases hnumber : g.number with
    | none => simpa [numberTokens, hnumber] using .nil
    | some n =>
      obtain ⟨hn, -⟩ := h.number n hnumber
      simpa [numberTokens, hnumber] using (Arithmetic.isFactor_numeral hn).isProduct n.dotted
  · cases hpower : g.power with
    | none => simpa [powerTokens, hpower] using .nil
    | some x => simpa [powerTokens, hpower] using (Arithmetic.isFactor_x x.item).isProduct x.dotted

end Tokens

end DottedGap

section Brackets

open Verification

structure ListedBracket.IsWhole (b : ListedBracket DottedGap) : Prop where
  gap : b.gap.IsWhole
  content : ∃ plusShown terms, SumText plusShown terms b.content
  exponent : ∀ e ∈ b.exponent, IsWholeNumeral e.digits

theorem SumText.trim {plusShown : Bool} {terms : List SignedSummand} {s : List Char}
    (h : SumText plusShown terms s) : SumText plusShown terms (trim s) :=
  { h with
    spaced := h.spaced.trim (SignedSummand.isToken_of_mem plusShown terms)
    spaces := fun c hc => h.spaces c (mem_of_mem_trimOf hc) }

/-- An exponent has its tokens in front of what it is written in front of. -/
theorem ExponentText.typeset {e : Option WrittenExponent} {exponent s : List Char}
    {ts : List Token} (h : ExponentText e exponent s)
    (hwhole : ∀ w ∈ e, IsWholeNumeral w.digits) (hspaces : Token.SpacesOnly exponent)
    (hs : Token.Typeset s ts) : Token.Typeset (exponent ++ s) (Token.ofExponent e ++ ts) := by
  cases h with
  | none => exact hs
  | @some w blanks rest hblanks hdigit =>
    have hdigits := hwhole w rfl
    have hskip : ∀ c ∈ blanks, c = ' ' := fun c hc => hspaces c (by simp [hc]) (hblanks c hc)
    have hvalue : w.value = Number.ofNumeral w.digits := rfl
    rw [Token.ofExponent, List.cons_append, List.append_assoc, WrittenExponent.shown, hvalue]
    cases hbraced : w.braced with
    | true =>
      have hclose : Token.Typeset ('\x7d' :: s) (.closing :: ts) := .mark (by decide) hs
      have hnumeral := Token.Typeset.numeral hdigits (by rintro c ⟨⟩; decide) hclose
      have hopen := Token.Typeset.mark (c := '\x7b') (t := .opening) (by decide) hnumeral
      have hpower := Token.Typeset.mark (c := '^') (t := .power) (by decide) (hopen.spaces hskip)
      simpa using hpower
    | false =>
      have hends : ∀ c ∈ s.head?, c.isDigit = false := by
        intro c hc
        have hnone := hdigit hbraced c hc
        by_contra hsome
        rw [isDigit_of_ascii (Bool.not_eq_false _ ▸ hsome)] at hnone
        cases hnone
      have hnumeral := (Token.Typeset.numeral hdigits hends hs).spaces hskip
      have hpower := Token.Typeset.mark (c := '^') (t := .power) (by decide) hnumeral
      simpa using hpower

theorem DottedGap.IsWhole.value_ne_zero {g : DottedGap} (h : g.IsWhole) :
    (g.written.value : ℚ) ≠ 0 := by
  have hnumber {n : Dotted DecimalNumeral} (hn : n ∈ g.number) : (n.item.value : ℚ) ≠ 0 := by
    obtain ⟨hwhole, hne⟩ := h.number n hn
    rw [hwhole.value_eq]
    exact Nat.cast_ne_zero.mpr hne
  obtain ⟨_ | _, _ | n, _ | x, dotted⟩ := g <;>
    simp [written, WrittenGap.value, Scalar.signed, Summand.coefficient, DecimalNumeral.value_one,
      hnumber]

theorem DottedGap.typeset {g : DottedGap} (hg : g.IsWhole) {gap s : List Char} {ts : List Token}
    (h : Spaced g.tokens gap) (hspaces : Token.SpacesOnly gap)
    (hs : Token.Typeset s ts) (hhead : ∀ c ∈ s.head?, c.isDigit = false ∧ c ≠ 'x') :
    Token.Typeset (gap ++ s) (g.signTokens ++ (g.numberTokens ++ (g.powerTokens ++
      (Token.ofDot g.dotted ++ ts)))) := by
  simpa using (DottedGap.spelled_tokens hg).typeset h hspaces hs hhead

/-- A gap that does not start with a multiplication sign is not read as one. -/
theorem DottedGap.exists_head? {g : DottedGap} (hg : ¬ g.StartsDotted) {us : List Token}
    (hus : us.head? = some .opening) (ts : List Token) :
    ∃ t, (g.numberTokens ++ (g.powerTokens ++ (Token.ofDot g.dotted ++ (us ++ ts)))).head? =
      some t ∧ t ≠ .times := by
  obtain ⟨us, rfl⟩ := List.head?_eq_some_iff.mp hus
  obtain ⟨negative, _ | ⟨_ | _, n⟩, _ | ⟨_ | _, x⟩, _ | _⟩ := g <;>
    simp_all [StartsDotted, numberTokens, powerTokens, Token.ofNumeral]

theorem sumText_x : SumText false [⟨false, .multiple none none⟩] ['x'] where
  ne_nil := by simp
  isWhole := by simp [Summand.IsWhole]
  nodup := by simp
  spaced := .flatten [['x']]
  spaces := by
    intro c hc hblank
    rw [List.mem_singleton.mp hc] at hblank
    exact absurd hblank (by decide)

variable [Parsing Empty]

/-- A content in brackets is the polynomial of the content, to the power that its exponent tells. -/
theorem SumText.isFactor (hparse : FollowsNotation Empty) {plusShown : Bool}
    {terms : List SignedSummand} {s : List Char} (h : SumText plusShown terms s)
    (exponent : Option WrittenExponent) (K : Type) :
    Arithmetic.IsFactor K (.opening :: (Token.ofSum plusShown terms ++ [.closing]) ++
      Token.ofExponent exponent)
      (denoted (Text.trim s) ^ (exponent.map WrittenExponent.value).getD 1) := by
  obtain ⟨e, hderives, he⟩ := Arithmetic.derives_ofSum (K := K) h.ne_nil h.isWhole plusShown
  rw [(h.trim.denotes hparse).denoted_eq]
  exact Arithmetic.DerivesPolynomial.isFactor ⟨e, .group hderives, he⟩ exponent

/-- The polynomial of a bracket with the gap in front of it, without the sign. -/
noncomputable def ListedBracket.polynomial (b : ListedBracket DottedGap) : ℚ[X] :=
  b.gap.polynomial * denoted (trim b.content) ^ b.multiplicity

variable {b : ListedBracket DottedGap} {brackets : List (ListedBracket DottedGap)}
  {last : DottedGap} {s : List Char} {ts : List Token}

/-- A bracket has its tokens with its gap and its exponent, in front of what has tokens. -/
theorem ListedBracket.IsWhole.exists_typeset (hparse : FollowsNotation Empty) (hb : b.IsWhole)
    {gap exponent : List Char}
    (hgap : Spaced b.gap.tokens gap) (hexponent : ExponentText b.exponent exponent s)
    (hspaces : Token.SpacesOnly (gap ++ '(' :: (b.content ++ ')' :: (exponent ++ s))))
    (hs : Token.Typeset s ts) (K : Type) :
    ∃ us : List Token, us.head? = some .opening ∧
      Arithmetic.IsFactor K us (denoted (trim b.content) ^ b.multiplicity) ∧
      Token.Typeset (gap ++ '(' :: (b.content ++ ')' :: (exponent ++ s)))
        (b.gap.signTokens ++ (b.gap.numberTokens ++ (b.gap.powerTokens ++
          (Token.ofDot b.gap.dotted ++ (us ++ ts))))) := by
  obtain ⟨plusShown, terms, hcontent⟩ := hb.content
  have htail := hexponent.typeset hb.exponent (fun c hc => hspaces c (by simp [hc])) hs
  have hclose := Token.Typeset.mark (c := ')') (t := .closing) (by decide) htail
  have hinside := hcontent.typeset hclose (by rintro c ⟨⟩; decide)
  have hopen := Token.Typeset.mark (c := '(') (t := .opening) (by decide) hinside
  have hall := DottedGap.typeset hb.gap hgap (fun c hc => hspaces c (by simp [hc])) hopen
    (by rintro c ⟨⟩; decide)
  exact ⟨_, rfl, hcontent.isFactor hparse b.exponent K, by simpa using hall⟩

/-- Brackets in gaps without a sign are factors that follow another one. -/
theorem ListedText.exists_typeset (hparse : FollowsNotation Empty)
    (h : ListedText DottedGap.tokens brackets last s)
    (hspaces : Token.SpacesOnly s) (hbrackets : ∀ b ∈ brackets, b.IsWhole)
    (hsigns : ∀ b ∈ brackets, b.gap.negative = false) (hlast : last.IsWhole)
    (hsign : last.negative = false) (hdotted : last.dotted = false) (K : Type) :
    ∃ ts : List Token, Token.Typeset s ts ∧
      Arithmetic.IsProduct K ts ((brackets.map ListedBracket.polynomial).prod *
        last.polynomial) := by
  induction h with
  | @last g s h =>
    have htypeset := DottedGap.typeset hlast h hspaces .done (by simp)
    refine ⟨g.numberTokens ++ g.powerTokens, ?_, ?_⟩
    · simpa [DottedGap.signTokens, hsign, hdotted] using htypeset
    · simpa using DottedGap.isProduct_tokens hlast
  | @bracket b rest last gap exponent s hgap hexponent h ih =>
    obtain ⟨hb, hrest⟩ := List.forall_mem_cons.mp hbrackets
    obtain ⟨hbsign, hsigns⟩ := List.forall_mem_cons.mp hsigns
    obtain ⟨ts, hts, hproduct⟩ := ih (fun c hc => hspaces c (by simp [hc])) hrest hsigns hlast hsign
      hdotted
    obtain ⟨us, -, hus, htypeset⟩ := hb.exists_typeset hparse hgap hexponent hspaces hts K
    refine ⟨_, by simpa [DottedGap.signTokens, hbsign] using htypeset, ?_⟩
    have hall := (DottedGap.isProduct_tokens hb.gap).append
      (.cons b.gap.dotted hus hproduct)
    rw [List.map_cons, List.prod_cons, ListedBracket.polynomial, mul_assoc, mul_assoc]
    simpa using hall

/-- The text lists sums in brackets with whole numbers and exponents. There may be a minus sign at
its front, multiplication signs stand between what is multiplied, and spaces are the only blanks. -/
structure DottedText (brackets : List (ListedBracket DottedGap)) (last : DottedGap)
    (s : List Char) : Prop where
  text : ListedText DottedGap.tokens brackets last s
  ne_nil : brackets ≠ []
  spaces : Token.SpacesOnly s
  isWhole : ∀ b ∈ brackets, b.IsWhole
  isWhole_last : last.IsWhole
  negative : ∀ b ∈ brackets.tail, b.gap.negative = false
  negative_last : last.negative = false
  startsDotted : ∀ b ∈ brackets.head?, ¬ b.gap.StartsDotted
  dotted_last : last.dotted = false

noncomputable def DottedGap.signed (g : DottedGap) (p : ℚ[X]) : ℚ[X] := if g.negative then -p else p

/-- The polynomial of the text is the product of its brackets and gaps. -/
theorem DottedText.denotes (hparse : FollowsNotation Empty) (h : DottedText brackets last s) :
    Denotes s ((brackets.map fun b => b.gap.signed b.polynomial).prod * last.polynomial) := by
  obtain ⟨htext, hne, hspaces, hwhole, hlast, hsigns, hsign, hfirst, hdotted⟩ := h
  cases htext with
  | last h => exact absurd rfl hne
  | @bracket b rest last gap exponent s hgap hexponent h =>
    obtain ⟨hb, hrest⟩ := List.forall_mem_cons.mp hwhole
    obtain ⟨ts, hts, hproduct⟩ := h.exists_typeset hparse (fun c hc => hspaces c (by simp [hc]))
      hrest hsigns hlast hsign hdotted Empty
    obtain ⟨us, hhead, hus, htypeset⟩ := hb.exists_typeset hparse hgap hexponent hspaces hts Empty
    have hall := (DottedGap.isProduct_tokens hb.gap).append (.cons b.gap.dotted hus hproduct)
    rw [List.append_assoc] at hall
    obtain ⟨t, ht, htimes⟩ := DottedGap.exists_head? (hfirst b rfl) hhead ts
    generalize b.gap.numberTokens ++ (b.gap.powerTokens ++
      (Token.ofDot b.gap.dotted ++ (us ++ ts))) = row at htypeset hall ht
    obtain ⟨hplain, hminus⟩ := hall.isSigned (by rintro rfl; simp at ht) (by simp [ht, htimes])
    have hlater : (rest.map fun b => b.gap.signed b.polynomial) =
        rest.map ListedBracket.polynomial :=
      List.map_congr_left fun b' hb' => by simp [DottedGap.signed, hsigns b' hb']
    have hpolynomial : b.gap.polynomial * (denoted (trim b.content) ^ b.multiplicity *
        ((rest.map ListedBracket.polynomial).prod * last.polynomial)) =
        b.polynomial * (rest.map ListedBracket.polynomial).prod * last.polynomial := by
      rw [ListedBracket.polynomial]
      ring
    rw [hpolynomial] at hplain hminus
    rw [List.map_cons, List.prod_cons, hlater, DottedGap.signed]
    unfold DottedGap.signTokens at htypeset
    cases hnegative : b.gap.negative with
    | true =>
      rw [hnegative] at htypeset
      have hsum := hminus.sum .nil
      rw [List.append_nil, add_zero] at hsum
      simpa using denotes_of_typeset hparse htypeset hsum
    | false =>
      rw [hnegative] at htypeset
      have hsum := hplain.sum .nil
      rw [List.append_nil, add_zero] at hsum
      exact denotes_of_typeset hparse htypeset hsum

section Factors

variable {K : Type}

noncomputable def Factor.denotedProduct (fs : List (Factor K)) : ℚ[X] :=
  (fs.map fun f => denoted f.content.toList ^ f.multiplicity.toNat).prod

theorem Factor.denotedProduct_append (fs gs : List (Factor K)) :
    denotedProduct (fs ++ gs) = denotedProduct fs * denotedProduct gs := by
  simp [denotedProduct]

theorem denotes_bare (hparse : FollowsNotation Empty) : Denotes ['x'] X := by
  have hx := sumText_x.denotes hparse
  have hpolynomial : SignedSummand.sumPolynomial [⟨false, .multiple none none⟩] = X := by
    simp [SignedSummand.sumPolynomial, SignedSummand.monomial, Summand.monomial,
      Summand.coefficient, Summand.power, DecimalNumeral.value_one]
  rwa [hpolynomial] at hx

theorem DottedGap.written_eq (hparse : FollowsNotation Empty) (g : DottedGap) :
    C g.written.value * Factor.denotedProduct (g.written.bare : List (Factor K)) =
      g.signed g.polynomial := by
  have hx := (denotes_bare hparse).denoted_eq
  obtain ⟨_ | _, _ | n, _ | x, dotted⟩ := g <;>
    simp [written, signed, polynomial, WrittenGap.value, WrittenGap.bare, Factor.denotedProduct,
      Scalar.signed, Summand.coefficient, Summand.power, Factor.bare, hx,
      DecimalNumeral.value_one]

theorem ListedBracket.denotedProduct_factor (b : ListedBracket DottedGap) :
    Factor.denotedProduct [(b.factor : Factor K)] =
      denoted (trim b.content) ^ b.multiplicity := by
  simp [Factor.denotedProduct, factor, Factor.ofContent]

/-- The numbers and the factors of the gaps and brackets have the product of their polynomials. -/
theorem ListedBracket.denotedProduct_eq (hparse : FollowsNotation Empty)
    (brackets : List (ListedBracket DottedGap)) :
    C (brackets.map fun b => b.gap.written.value).prod *
        Factor.denotedProduct (brackets.flatMap fun b => b.gap.written.bare ++
          [(b.factor : Factor K)]) =
      (brackets.map fun b => b.gap.signed b.polynomial).prod := by
  induction brackets with
  | nil => simp [Factor.denotedProduct]
  | cons b rest ih =>
    have hgap := b.gap.written_eq (K := K) hparse
    have hsigned : b.gap.signed b.polynomial =
        b.gap.signed b.gap.polynomial * denoted (trim b.content) ^ b.multiplicity := by
      unfold DottedGap.signed
      split <;> simp [polynomial]
    rw [List.map_cons, List.prod_cons, List.flatMap_cons, List.map_cons, List.prod_cons, ← ih,
      Factor.denotedProduct_append, Factor.denotedProduct_append, denotedProduct_factor, hsigned,
      ← hgap, C_mul]
    ring

end Factors

/-- The denominator is taken apart into its scale and its factors, and all contents are read. -/
theorem DottedText.exists_factorization (hparse : FollowsNotation Empty)
    (h : DottedText brackets last s) :
    ∃ (F : Factorization (Exact ℚ)) (c : ℚ),
      Factorization.ofDenominator (String.ofList s) = .ok F ∧ F.scale = .finite c ∧
      (∀ f ∈ F.factors, 0 ≤ f.multiplicity ∧
        Denotes f.content.toList (denoted f.content.toList)) ∧
      Denotes s (C c * Factor.denotedProduct F.factors) := by
  have hread := Factorization.ofDenominator_of_text (K := ℚ) DottedGap.readsGaps h.text h.ne_nil
    h.negative h.negative_last (fun b hb => (h.isWhole b hb).gap.value_ne_zero)
    h.isWhole_last.value_ne_zero
  refine ⟨_, _, hread, rfl, ?_, ?_⟩
  · have hbare (g : WrittenGap) : ∀ f ∈ (g.bare : List (Factor (Exact ℚ))), 0 ≤ f.multiplicity ∧
        Denotes f.content.toList (denoted f.content.toList) := by
      obtain ⟨negative, _ | n | ⟨coefficient, exponent⟩⟩ := g
      · simp [WrittenGap.bare]
      · simp [WrittenGap.bare]
      · have hx := (denotes_bare hparse).denoted_eq
        simpa [WrittenGap.bare, Factor.bare, hx] using denotes_bare hparse
    intro f hf
    rcases List.mem_append.mp hf with hf | hf
    · obtain ⟨b, hb, hf⟩ := List.mem_flatMap.mp hf
      rcases List.mem_append.mp hf with hf | hf
      · exact hbare _ f hf
      · obtain ⟨plusShown, terms, hcontent⟩ := (h.isWhole b hb).content
        have hdenotes := hcontent.trim.denotes hparse
        rw [List.mem_singleton.mp hf]
        refine ⟨by simp [ListedBracket.factor, Factor.ofContent], ?_⟩
        simpa [ListedBracket.factor, Factor.ofContent, hdenotes.denoted_eq] using hdenotes
    · exact hbare _ f hf
  · have hlast : last.signed last.polynomial = last.polynomial := by
      simp [DottedGap.signed, h.negative_last]
    have hproduct := ListedBracket.denotedProduct_eq (K := Exact ℚ) hparse brackets
    have hgap := last.written_eq (K := Exact ℚ) hparse
    have hall := h.denotes hparse
    rw [← hproduct, ← hlast, ← hgap] at hall
    rw [Factor.denotedProduct_append, C_mul]
    convert hall using 1
    ring

end Brackets

end PartialFractions
