import PartialFractions.Proofs.ContentReading
import PartialFractions.Proofs.FactorizationInvariants
import PartialFractions.Proofs.PrintedFactors

/-!
Denominators that are written as products. Between the brackets there may be any numbers, powers of
x and multiplication signs. What is read of such a denominator has the value that is written, unless
the digits of one number run into those of another one. A parenthesis that is never closed leaves
nothing to be read.
-/
namespace PartialFractions

open Text Number

namespace Summand

def number? : Summand → Option DecimalNumeral
  | constant n => some n
  | multiple coefficient _ => coefficient

/-- The value of a number or a power of x, where x has the value `y`. -/
def valueAt {E : Type} [Field E] (y : E) (m : Summand) : E := m.coefficient.value * y ^ m.power

/-- Digits that come next are read as more digits of this. -/
def EndsWithDigits : Summand → Prop
  | constant _ => True
  | multiple _ none => False
  | multiple _ (some e) => e.braced = false

def StartsWithNumber : Summand → Prop
  | constant _ => True
  | multiple coefficient _ => coefficient ≠ none

/-- No character of a number or a power of x belongs to a multiplication sign. -/
theorem isFactorChar_of_mem (m : Summand) {c : Char} (h : c ∈ m.body) : c ≠ '\\' ∧ c ≠ '*' := by
  constructor
  · rintro rfl
    exact absurd (m.mem_body h) (by decide)
  · rintro rfl
    exact absurd (m.mem_body h) (by decide)

theorem head?_body_ne (m : Summand) : '^' ∉ m.body.head? ∧ '\x7d' ∉ m.body.head? := by
  have hnumeral (n : DecimalNumeral) {c : Char} (hdigit : isDigit c = false) (hpoint : c ≠ '.')
      (rest : List Char) : c ∉ (n.chars ++ rest).head? := by
    rw [List.head?_append_of_ne_nil _ n.chars_ne_nil]
    exact fun h => n.notMem_chars hdigit hpoint (List.mem_of_mem_head? h)
  cases m with
  | constant n =>
    rw [body_constant, ← List.append_nil n.chars]
    exact ⟨hnumeral n (by decide) (by decide) [], hnumeral n (by decide) (by decide) []⟩
  | multiple coefficient exponent =>
    rw [body_multiple]
    cases coefficient with
    | none => simp
    | some n => exact ⟨hnumeral n (by decide) (by decide) _, hnumeral n (by decide) (by decide) _⟩

/-- What does not begin with a number begins with x. -/
theorem head?_body_of_not_startsWithNumber {m : Summand} (h : ¬ m.StartsWithNumber) :
    m.body.head? = some 'x' := by
  cases m with
  | constant n => exact absurd trivial h
  | multiple coefficient exponent =>
    obtain rfl : coefficient = none := not_not.mp h
    simp [body_multiple]

end Summand

inductive GapItem
  | sign (p : ProductSign)
  | factor (m : Summand)

namespace GapItem

def tokens : GapItem → List (List Char)
  | sign p => [p.chars]
  | factor m => m.tokens

def factor? : GapItem → Option Summand
  | sign _ => none
  | factor m => some m

end GapItem

/-- Multiplication signs, a sign, and then numbers, powers of x and multiplication signs. -/
structure GapRow where
  before : List ProductSign
  /-- whether the sign, if there is one, is a minus sign -/
  negative : Option Bool
  items : List GapItem

namespace GapRow

def signText (negative : Option Bool) : List Char :=
  (negative.map fun minus => if minus then '-' else '+').toList

def tokens (r : GapRow) : List (List Char) :=
  r.before.map ProductSign.chars ++
    ((signText r.negative).map ([·]) ++ r.items.flatMap GapItem.tokens)

def factors (r : GapRow) : List Summand := r.items.filterMap GapItem.factor?

def factorsText (ms : List Summand) : List Char := ms.flatMap Summand.body

/-- No number comes next to a number, nor next to an exponent without braces. Multiplication signs
do not keep them apart. -/
def Unfused (r : GapRow) : Prop :=
  r.factors.IsChain fun m n => ¬ (m.EndsWithDigits ∧ n.StartsWithNumber)

/-- The product that is written, where x has the value `y`. -/
def value {E : Type} [Field E] (y : E) (r : GapRow) : E :=
  Scalar.signed (r.negative.getD false) (r.factors.map (Summand.valueAt y)).prod

theorem mem_signText {negative : Option Bool} {c : Char} (h : c ∈ signText negative) :
    c = '-' ∨ c = '+' := by
  obtain _ | _ | _ := negative <;> simp_all [signText]

theorem gapTokens : GapTokens tokens := by
  have hall {P : List Char → Prop} (hproduct : ∀ p : ProductSign, P p.chars)
      (hminus : P ['-']) (hplus : P ['+']) (hfactor : ∀ m : Summand, ∀ t ∈ m.tokens, P t)
      (r : GapRow) : ∀ t ∈ r.tokens, P t := by
    intro t ht
    simp only [tokens, List.mem_append, List.mem_map, List.mem_flatMap] at ht
    rcases ht with ⟨p, -, rfl⟩ | ⟨c, hc, rfl⟩ | ⟨_ | m, -, ht⟩
    · exact hproduct p
    · rcases mem_signText hc with rfl | rfl
      · exact hminus
      · exact hplus
    · rw [List.mem_singleton.mp ht]
      exact hproduct _
    · exact hfactor m t ht
  refine ⟨hall ProductSign.isToken_chars (isToken_singleton (by decide))
    (isToken_singleton (by decide)) Summand.isToken_of_mem,
    hall ProductSign.paren_notMem (by decide) (by decide)
      (fun m => m.notMem_of_mem_tokens (by decide) (by decide)), ?_⟩
  intro r
  refine forall_head?_append ?_ (forall_head?_append ?_ ?_)
  · cases r.before <;> simp [ProductSign.head_notMem]
  · obtain _ | _ | _ := r.negative <;> simp [signText]
  · induction r.items with
    | nil => simp
    | cons item rest ih =>
      rw [List.flatMap_cons]
      refine forall_head?_append ?_ ih
      cases item with
      | sign p => simp [GapItem.tokens, ProductSign.head_notMem]
      | factor m =>
        exact fun t ht => ⟨m.head_notMem (by decide) (by decide) t ht,
          m.head_notMem (by decide) (by decide) t ht⟩

/-- Without blanks and multiplication signs, a row is its sign and what is multiplied. -/
theorem dropProducts_of_spaced {r : GapRow} {s : List Char} (h : Spaced r.tokens s) :
    Gap.dropProducts (squeeze s) = signText r.negative ++ factorsText r.factors := by
  have hitems (items : List GapItem) :
      Gap.dropProducts (items.flatMap GapItem.tokens).flatten =
        factorsText (items.filterMap GapItem.factor?) := by
    induction items with
    | nil => rfl
    | cons item rest ih =>
      rw [List.flatMap_cons, List.flatten_append]
      cases item with
      | sign p =>
        have hsign : (GapItem.tokens (.sign p)).flatten = p.chars := by simp [GapItem.tokens]
        rw [hsign, Gap.dropProducts_sign, ih]
        rfl
      | factor m =>
        have hbody : (GapItem.tokens (.factor m)).flatten = m.body := rfl
        rw [hbody, Gap.dropProducts_append fun c hc => m.isFactorChar_of_mem hc, ih]
        rfl
  have hbefore (before : List ProductSign) (rest : List Char) :
      Gap.dropProducts ((before.map ProductSign.chars).flatten ++ rest) =
        Gap.dropProducts rest := by
    induction before with
    | nil => rfl
    | cons p before ih =>
      rw [List.map_cons, List.flatten_cons, List.append_assoc, Gap.dropProducts_sign, ih]
  have hsign : ((signText r.negative).map ([·])).flatten = signText r.negative := by
    obtain _ | _ | _ := r.negative <;> rfl
  have hplain : ∀ c ∈ signText r.negative, c ≠ '\\' ∧ c ≠ '*' := by
    intro c hc
    rcases mem_signText hc with rfl | rfl <;> decide
  rw [h.squeeze_eq (gapTokens.isToken r), tokens, List.flatten_append, hbefore,
    List.flatten_append, hsign, Gap.dropProducts_append hplain, hitems, factors]

end GapRow

namespace Gap

/-- The number is cut off behind its sign. -/
theorem splitNumber_append {negative : Option Bool} {number rest : List Char}
    (hnumber : ∀ c ∈ number, isNumberChar c = true)
    (hrest : ∀ c ∈ rest.head?, c = 'x') :
    splitNumber (GapRow.signText negative ++ (number ++ rest)) =
      (GapRow.signText negative ++ number, rest) := by
  have hhead : ∀ c ∈ rest.head?, isNumberChar c = false := by
    intro c hc
    rw [hrest c hc]
    decide
  have htake := takeWhile_append_of_head hnumber hhead
  have hdrop := dropWhile_append_of_head hnumber hhead
  have hunsigned : ∀ c ∈ (number ++ rest).head?, c ≠ '+' ∧ c ≠ '-' := by
    intro c hc
    cases number with
    | nil =>
      rw [hrest c hc]
      decide
    | cons d number =>
      obtain rfl : d = c := by simpa using hc
      have hd := hnumber d (List.mem_cons_self ..)
      constructor
      · rintro rfl
        exact absurd hd (by decide)
      · rintro rfl
        exact absurd hd (by decide)
  obtain _ | _ | _ := negative
  · simp only [GapRow.signText, Option.map_none, Option.toList_none, List.nil_append]
    unfold splitNumber
    split
    · rename_i t heq
      exact absurd rfl (hunsigned '+' (by simp [heq])).1
    · rename_i t heq
      exact absurd rfl (hunsigned '-' (by simp [heq])).2
    · rw [htake, hdrop]
  · simp [GapRow.signText, splitNumber, htake, hdrop]
  · simp [GapRow.signText, splitNumber, htake, hdrop]

/-- Behind a power of x nothing else is read, if its digits do not go on. -/
theorem eq_nil_of_read? {exponent : Option WrittenExponent} {ms : List Summand} {x : Variable}
    (hchain : ∀ m ∈ ms.head?,
      ¬ ((Summand.multiple none exponent).EndsWithDigits ∧ m.StartsWithNumber))
    (h : Variable.read? ((Summand.multiple none exponent).body ++ GapRow.factorsText ms) = some x) :
    ms = [] := by
  cases ms with
  | nil => rfl
  | cons m rest =>
    have hne := m.body_ne_nil
    have hhead := m.head?_body_ne
    have hfront := hchain m rfl
    obtain ⟨d, t, hd⟩ := List.exists_cons_of_ne_nil hne
    rw [hd] at hhead
    have htext : GapRow.factorsText (m :: rest) = d :: (t ++ GapRow.factorsText rest) := by
      simp [GapRow.factorsText, hd]
    rw [htext, Summand.body_multiple] at h
    exfalso
    cases exponent with
    | none =>
      have hread : exponent? (d :: (t ++ GapRow.factorsText rest)) = none :=
        exponent?_eq_none (by simpa using hhead.1)
      simp [Variable.read?, hread] at h
    | some e =>
      have hrest : e.braced = false → ∀ c ∈ (d :: (t ++ GapRow.factorsText rest)).head?,
          isDigit c = false ∧ c ≠ '\x7d' := by
        intro hbraced c hc
        obtain rfl : d = c := by simpa using hc
        have hx := Summand.head?_body_of_not_startsWithNumber fun hm => hfront ⟨hbraced, hm⟩
        obtain rfl : d = 'x' := by simpa [hd] using hx
        decide
      have hblanks : ∀ c ∈ ([] : List Char), isBlank c = true := by simp
      have hread := e.exponent?_shown hblanks hrest
      simp only [List.nil_append] at hread
      simp [WrittenExponent.flatten_tokens, Variable.read?, hread] at h

section Parts

variable {negative : Option Bool} {t number : List Char} {x : Variable}

/-- A product of at most one number and one power of x is read as it is written. -/
theorem parts_of_product (product : Option Summand)
    (htext : t = (product.map Summand.body).getD [])
    (hnumber : number = (splitNumber (GapRow.signText negative ++ t)).1)
    (hx : Variable.read? (splitNumber (GapRow.signText negative ++ t)).2 = some x) :
    number = GapRow.signText negative ++ (⟨false, product⟩ : WrittenGap).numberText ∧
      x = (⟨false, product⟩ : WrittenGap).shownVariable := by
  rw [htext, ← WrittenGap.numberText_append_variableText ⟨false, product⟩,
    splitNumber_append (WrittenGap.isNumberChar_of_mem _) (WrittenGap.head?_variableText _)]
    at hnumber hx
  rw [WrittenGap.read?_variableText] at hx
  exact ⟨hnumber, (Option.some.inj hx).symm⟩

/-- Behind an `x` with its exponent the reader accepts nothing further in a gap. -/
theorem eq_nil_of_parts (coefficient : Option DecimalNumeral) {exponent : Option WrittenExponent}
    {rest : List Summand}
    (htext : t = (coefficient.map DecimalNumeral.chars).getD [] ++
      ((Summand.multiple none exponent).body ++ GapRow.factorsText rest))
    (hrest : ∀ m ∈ rest.head?,
      ¬ ((Summand.multiple none exponent).EndsWithDigits ∧ m.StartsWithNumber))
    (hx : Variable.read? (splitNumber (GapRow.signText negative ++ t)).2 = some x) :
    rest = [] := by
  have hchars : ∀ c ∈ (coefficient.map DecimalNumeral.chars).getD [], isNumberChar c = true :=
    (⟨false, some (.multiple coefficient none)⟩ : WrittenGap).isNumberChar_of_mem
  have hhead : ∀ c ∈ ((Summand.multiple none exponent).body ++
      GapRow.factorsText rest).head?, c = 'x' := by
    simp [Summand.body_multiple]
  rw [htext, splitNumber_append hchars hhead] at hx
  exact eq_nil_of_read? hrest hx

/-- What is read of unfused factors is at most one number and then at most one power of x. -/
theorem exists_product {ms : List Summand}
    (hchain : ms.IsChain fun m n => ¬ (m.EndsWithDigits ∧ n.StartsWithNumber))
    (hnumber : number = (splitNumber (GapRow.signText negative ++ GapRow.factorsText ms)).1)
    (hx : Variable.read? (splitNumber (GapRow.signText negative ++ GapRow.factorsText ms)).2 =
      some x) :
    ∃ product : Option Summand,
      number = GapRow.signText negative ++ (⟨false, product⟩ : WrittenGap).numberText ∧
      x = (⟨false, product⟩ : WrittenGap).shownVariable ∧
      ms.filterMap Summand.number? = (product.bind Summand.number?).toList ∧
      ∀ {E : Type} [Field E] (y : E),
        (ms.map (Summand.valueAt y)).prod = (product.map (Summand.valueAt y)).getD 1 := by
  cases ms with
  | nil =>
    obtain ⟨hnumber, hx⟩ := parts_of_product none rfl hnumber hx
    exact ⟨none, hnumber, hx, rfl, by simp⟩
  | cons m rest =>
    obtain ⟨hfirst, hlater⟩ := List.isChain_cons.mp hchain
    cases m with
    | constant n =>
      cases rest with
      | nil =>
        obtain ⟨hnumber, hx⟩ := parts_of_product (some (.constant n))
          (by simp [GapRow.factorsText]) hnumber hx
        exact ⟨some (.constant n), hnumber, hx, rfl, by simp⟩
      | cons m' rest =>
        obtain ⟨hsecond, -⟩ := List.isChain_cons.mp hlater
        have hplain : ¬ m'.StartsWithNumber := fun h => hfirst m' rfl ⟨trivial, h⟩
        cases m' with
        | constant n' => exact absurd trivial hplain
        | multiple coefficient exponent =>
          obtain rfl : coefficient = none := not_not.mp hplain
          obtain rfl := eq_nil_of_parts (some n)
            (by simp [GapRow.factorsText, Summand.body_constant]) hsecond hx
          obtain ⟨hnumber, hx⟩ := parts_of_product (some (.multiple (some n) exponent))
            (by simp [GapRow.factorsText, Summand.body_constant, Summand.body_multiple]) hnumber hx
          refine ⟨some (.multiple (some n) exponent), hnumber, hx, rfl, ?_⟩
          intro E _ y
          simp [Summand.valueAt, Summand.coefficient, Summand.power, DecimalNumeral.value_one]
    | multiple coefficient exponent =>
      have hlast : (Summand.multiple coefficient exponent).EndsWithDigits =
          (Summand.multiple none exponent).EndsWithDigits := by cases exponent <;> rfl
      rw [hlast] at hfirst
      obtain rfl := eq_nil_of_parts coefficient
        (by simp [GapRow.factorsText, Summand.body_multiple]) hfirst hx
      obtain ⟨hnumber, hx⟩ := parts_of_product (some (.multiple coefficient exponent))
        (by simp [GapRow.factorsText]) hnumber hx
      exact ⟨some (.multiple coefficient exponent), hnumber, hx, by cases coefficient <;> rfl,
        by simp⟩

end Parts

/-- The number of a product that is read behind a sign; a plus sign needs a number. -/
theorem value_of_leadingNumber {K : Type} [Field K] [LinearOrder K] [Notated K]
    {negative : Option Bool} {product : Option Summand} {summand : List Char} {v : Exact K}
    (h : leadingNumber (GapRow.signText negative ++ (⟨false, product⟩ : WrittenGap).numberText)
      summand = .ok v) :
    v = .finite (⟨negative.getD false, product⟩ : WrittenGap).value := by
  have hplain (minus : Bool) (hsign : GapRow.signText negative =
      (⟨minus, product⟩ : WrittenGap).signText) :
      v = .finite (⟨minus, product⟩ : WrittenGap).value := by
    have hread := leadingNumber_text (K := K) ⟨minus, product⟩ summand
    have hnumber : (⟨minus, product⟩ : WrittenGap).numberText =
        (⟨false, product⟩ : WrittenGap).numberText := rfl
    rw [hnumber, ← hsign, h] at hread
    exact Except.ok.inj hread
  have hplus (n : DecimalNumeral) : (leadingNumber ('+' :: n.chars) summand : Except Refusal _) =
      .ok (Exact.finite (n.value : K)) :=
    leadingNumber_eq_read? (by simp) (by simp) (Scalar.read?_sign_chars n false) summand
  have hbare : (leadingNumber ['+'] summand : Except Refusal (Exact K)) ≠ .ok v := by
    have hnone : (Scalar.read? ['+'] : Option (Exact K)) = none := rfl
    simp [leadingNumber, hnone]
  obtain _ | _ | _ := negative
  · exact hplain false rfl
  · obtain _ | n | ⟨_ | n, exponent⟩ := product
    · exact absurd h hbare
    · exact Except.ok.inj (h.symm.trans (hplus n))
    · exact absurd h hbare
    · exact Except.ok.inj (h.symm.trans (hplus n))
  · exact hplain true rfl

end Gap

def Factor.productValue {K E : Type} [Field E] (σ : String → E) (fs : List (Factor K)) : E :=
  (fs.map fun f => σ f.content ^ f.multiplicity).prod

def ListedBracket.value {E : Type} [Field E] (σ : String → E) (b : ListedBracket GapRow) : E :=
  b.gap.value (σ "x") * σ (String.ofList (trim b.content)) ^ b.multiplicity

section Values

variable {K E F : Type} [Field E] (σ : String → E)

theorem Factor.productValue_append (fs gs : List (Factor F)) :
    productValue σ (fs ++ gs) = productValue σ fs * productValue σ gs := by
  simp [productValue]

theorem Factor.productValue_cons (f : Factor F) (fs : List (Factor F)) :
    productValue σ (f :: fs) = σ f.content ^ f.multiplicity * productValue σ fs := by
  simp [productValue]

variable [Field K] (φ : K →+* E)

theorem DecimalNumeral.map_value (n : DecimalNumeral) : φ (n.value : K) = n.value := by
  rw [value, map_div₀, map_natCast, map_natCast, value]

theorem WrittenGap.map_value_mul_bare (minus : Bool) (product : Option Summand) :
    φ (⟨minus, product⟩ : WrittenGap).value *
        Factor.productValue σ ((⟨minus, product⟩ : WrittenGap).bare : List (Factor F)) =
      Scalar.signed minus ((product.map (Summand.valueAt (σ "x"))).getD 1) := by
  have hsigned (v : K) : φ (Scalar.signed minus v) = Scalar.signed minus (φ v) := by
    cases minus <;> simp [Scalar.signed]
  have hmul (v w : E) : Scalar.signed minus v * w = Scalar.signed minus (v * w) := by
    cases minus <;> simp [Scalar.signed]
  rw [WrittenGap.value, hsigned, hmul]
  obtain _ | n | ⟨coefficient, exponent⟩ := product
  · simp [bare, Factor.productValue]
  · simp [bare, Factor.productValue, Summand.valueAt, Summand.coefficient, Summand.power,
      DecimalNumeral.map_value]
  · simp [bare, Factor.productValue, Factor.bare, Summand.valueAt, Summand.coefficient,
      DecimalNumeral.map_value]

variable [LinearOrder K] [Notated K]

/-- What is read of an unfused row has the value that is written. -/
theorem GapRow.value_of_read {r : GapRow} {s : List Char} (h : Spaced r.tokens s)
    (hr : r.Unfused) {leading : Bool} {v : Exact K} {fs : List (Factor (Exact K))}
    (hread : Gap.read leading s = .ok (v, fs)) :
    ∃ q : K, v = .finite q ∧ φ q * Factor.productValue σ fs = r.value (σ "x") := by
  obtain ⟨number, x, hparts, hnumber, hfactors⟩ := Gap.exists_parts hread
  rw [dropProducts_of_spaced h] at hparts
  obtain ⟨hnumber', hx⟩ := Gap.parts?_eq_some hparts
  obtain ⟨product, rfl, rfl, -, hvalue⟩ := Gap.exists_product hr hnumber' hx
  have hscale := Gap.value_of_leadingNumber hnumber
  have hbare := Gap.factors_shownVariable (K := Exact K) ⟨false, product⟩
  rw [hfactors] at hbare
  obtain rfl := Except.ok.inj hbare
  refine ⟨_, hscale, ?_⟩
  rw [GapRow.value, hvalue, ← WrittenGap.map_value_mul_bare (F := Exact K) σ φ]
  rfl

end Values

namespace Factorization

variable {K E : Type} [Field K] [LinearOrder K] [Notated K] [Field E] (σ : String → E)
  (φ : K →+* E) {brackets : List (ListedBracket GapRow)} {last : GapRow}

/-- Each bracket that is read multiplies the value by its own. -/
theorem value_of_bracketFactors {cut : List Bracket}
    (h : List.Forall₂ (ListedBracket.Cut GapRow.tokens) brackets cut)
    (hunfused : ∀ b ∈ brackets, b.gap.Unfused) {leading : Bool} {q : K} {v : Exact K}
    {fs : List (Factor (Exact K))}
    (hread : bracketFactors leading (.finite q) cut = .ok (v, fs)) :
    ∃ r : K, v = .finite r ∧
      φ r * Factor.productValue σ fs = φ q * (brackets.map (ListedBracket.value σ)).prod := by
  induction h generalizing leading q v fs with
  | nil =>
    obtain ⟨rfl, rfl⟩ := Prod.mk.inj (Except.ok.inj hread)
    exact ⟨q, rfl, by simp [Factor.productValue]⟩
  | @cons b c rest cut hb hrest ih =>
    obtain ⟨hfirst, hlater⟩ := List.forall_mem_cons.mp hunfused
    rw [bracketFactors] at hread
    obtain ⟨⟨multiplier, bare⟩, hgap, hread⟩ := bind_eq_ok.mp hread
    obtain ⟨f, hf, hread⟩ := bind_eq_ok.mp hread
    obtain ⟨⟨w, others⟩, hothers, hread⟩ := bind_eq_ok.mp hread
    obtain ⟨rfl, rfl⟩ := Prod.mk.inj (Except.ok.inj hread)
    obtain ⟨m, rfl, hm⟩ := GapRow.value_of_read σ φ hb.gap hfirst hgap
    rw [hb.bracketFactor_eq] at hf
    obtain rfl := Except.ok.inj (mapError_eq_ok.mp hf)
    obtain ⟨r, rfl, hr⟩ := ih hlater hothers
    refine ⟨r, rfl, ?_⟩
    have hcontent : σ (b.factor : Factor (Exact K)).content ^
        (b.factor : Factor (Exact K)).multiplicity =
        σ (String.ofList (trim b.content)) ^ b.multiplicity := zpow_natCast _ _
    rw [Factor.productValue_append, Factor.productValue_cons, hcontent, List.map_cons,
      List.prod_cons, ListedBracket.value, ← hm]
    rw [map_mul] at hr
    linear_combination (Factor.productValue σ bare *
      σ (String.ofList (trim b.content)) ^ b.multiplicity) * hr

/-- Scale and factors together have the value of the written product. -/
theorem value_of_listed {s : List Char} (h : ListedText GapRow.tokens brackets last s)
    (hne : brackets ≠ []) (hunfused : ∀ b ∈ brackets, b.gap.Unfused) (hlast : last.Unfused)
    {v : Exact K} {fs : List (Factor (Exact K))} (hread : listed s = .ok (v, fs)) :
    ∃ q : K, v = .finite q ∧ φ q * Factor.productValue σ fs =
      (brackets.map (ListedBracket.value σ)).prod * last.value (σ "x") := by
  obtain ⟨hcut, hgap⟩ := h.all_cut GapRow.gapTokens
  unfold listed at hread
  dsimp only at hread
  split at hread
  · rename_i hempty
    rw [List.isEmpty_iff.mp hempty] at hcut
    exact absurd (List.forall₂_nil_right_iff.mp hcut) hne
  · obtain ⟨⟨w, gs⟩, hbrackets, hread⟩ := bind_eq_ok.mp hread
    obtain ⟨⟨m, bare⟩, hbare, hread⟩ := bind_eq_ok.mp hread
    obtain ⟨rfl, rfl⟩ := Prod.mk.inj (Except.ok.inj hread)
    have hone : (Scalar.ofNat 1 : Exact K) = .finite 1 := by
      rw [Exact.scalar_ofNat, Nat.cast_one]
    rw [hone] at hbrackets
    obtain ⟨q, rfl, hq⟩ := value_of_bracketFactors σ φ hcut hunfused hbrackets
    obtain ⟨r, rfl, hr⟩ := GapRow.value_of_read σ φ hgap hlast hbare
    refine ⟨q * r, rfl, ?_⟩
    rw [map_one, one_mul] at hq
    rw [map_mul, Factor.productValue_append, ← hq, ← hr]
    ring

/-- With an opening parenthesis the factors are the listed ones, never those of a trinomial. -/
theorem listed_of_ofDenominator {s : List Char} {f : Factorization (Exact K)} (hopen : '(' ∈ s)
    (h : ofDenominator (String.ofList s) = .ok f) : listed s = .ok (f.scale, f.factors) := by
  unfold ofDenominator at h
  obtain ⟨g, hread, h⟩ := bind_eq_ok.mp h
  split at h
  · cases h
  · obtain rfl := Except.ok.inj h
    simp only [read, String.toList_ofList, if_pos hopen] at hread
    obtain ⟨⟨v, fs⟩, hlisted, hread⟩ := bind_eq_ok.mp hread
    obtain rfl := Except.ok.inj hread
    exact hlisted

/-- A parenthesis that is never closed leaves no factors. -/
theorem ofDenominator_of_unclosed {s : List Char} (hopen : '(' ∈ s)
    (hclose : ∀ before after, s = before ++ '(' :: after → ')' ∉ after) :
    ofDenominator (String.ofList s) = .ok ⟨.listed, Exact.finite (1 : K), []⟩ := by
  refine ofDenominator_of_listed (by simpa using hopen) ?_ one_ne_zero
  simp [listed, Bracket.all_of_none (Bracket.first?_of_unclosed hclose)]
  rfl

/-- A listed denominator that is read has the value that is written if none of its gaps is fused. If
none of its parentheses is closed, it is read as the empty product. -/
theorem value_of_ofDenominator :
    (∀ (brackets : List (ListedBracket GapRow)) (last : GapRow) (s : List Char)
      (f : Factorization (Exact K)), ListedText GapRow.tokens brackets last s → brackets ≠ [] →
      (∀ b ∈ brackets, b.gap.Unfused) → last.Unfused →
      ofDenominator (String.ofList s) = .ok f →
      ∃ q : K, f.scale = .finite q ∧ φ q * Factor.productValue σ f.factors =
        (brackets.map (ListedBracket.value σ)).prod * last.value (σ "x")) ∧
    ∀ s : List Char, '(' ∈ s → (∀ before after, s = before ++ '(' :: after → ')' ∉ after) →
      ofDenominator (String.ofList s) = .ok ⟨.listed, Exact.finite (1 : K), []⟩ := by
  refine ⟨?_, fun s hopen hclose => ofDenominator_of_unclosed hopen hclose⟩
  intro brackets last s f h hne hunfused hlast hread
  exact value_of_listed σ φ h hne hunfused hlast
    (listed_of_ofDenominator (h.open_mem hne) hread)

section Samples

/-- A denominator of one bracket with a gap in front of it. -/
theorem ofDenominator_of_single {denominator : String} {c : Bracket} {g : WrittenGap}
    {f : Factor (Exact K)} (hopen : '(' ∈ denominator.toList)
    (hall : Bracket.all denominator.toList = ([c], []))
    (hdrop : Gap.dropProducts (squeeze c.gap) = g.signText ++ (g.numberText ++ g.variableText))
    (hf : bracketFactor c = .ok f) (hv : (g.value : K) ≠ 0) :
    ofDenominator denominator = .ok ⟨.listed, Exact.finite g.value, g.bare ++ [f]⟩ := by
  have hgap : Gap.read true c.gap = .ok (Exact.finite (g.value : K), g.bare) :=
    Gap.read_of_dropProducts hdrop fun _ => rfl
  have hbrackets : bracketFactors true (Exact.finite 1) [c] =
      .ok (Exact.finite (g.value : K), g.bare ++ [f]) := by
    simp only [bracketFactors, hgap, hf, Except.mapError, bind, Except.bind, pure, Except.pure,
      Exact.finite_mul, one_mul]
  have hlisted := listed_of_parts hall (by simp) hbrackets (Gap.read_nil false)
  rw [mul_one, List.append_nil] at hlisted
  exact ofDenominator_of_listed hopen hlisted hv

theorem unclosed_of_notMem {s : List Char} (h : ')' ∉ s) :
    ∀ before after, s = before ++ '(' :: after → ')' ∉ after := by
  intro before after hs hmem
  exact h (by simp [hs, hmem])

/-- The gap 2 x\cdot and the bracket (x - 1)^2. -/
def sampleBracket : ListedBracket GapRow where
  gap :=
    { before := []
      negative := none
      items := [.factor (.constant (.ofDigit '2' isDigit_two)), .factor (.multiple none none),
        .sign .dot] }
  content := "x - 1".toList
  exponent := some .two
  closed := paren_notMem_content

/-- The product of 2, x and (x - 1)^2, and a parenthesis that is not closed. -/
theorem value_of_ofDenominator_square :
    (∃ (f : Factorization (Exact ℚ)) (q : ℚ),
      ofDenominator "2 x\\cdot(x - 1)^2" = .ok f ∧ f.scale = .finite q ∧
      q * Factor.productValue (fun s => if s = "x" then (3 : ℚ) else 2) f.factors =
        2 * 3 * 2 ^ 2) ∧
    ofDenominator "(x - 1" = .ok ⟨.listed, Exact.finite (1 : ℚ), []⟩ := by
  have htwo {F : Type} [Field F] :
      ((DecimalNumeral.ofDigit '2' isDigit_two).value : F) = 2 := by
    have hvalue := DecimalNumeral.value_ofDigit (K := F) (c := '2') (d := 2) (by decide) isDigit_two
    rwa [Nat.cast_ofNat] at hvalue
  have hgap : Spaced sampleBracket.gap.tokens "2 x\\cdot".toList :=
    .token (t := ['2']) (.blank (by decide) (.token (t := ['x'])
      (.token (t := ProductSign.dot.chars) .done)))
  have hblanks : ∀ c ∈ ([] : List Char), isBlank c = true := by simp
  have htext : ListedText GapRow.tokens [sampleBracket] ⟨[], none, []⟩ _ :=
    .bracket hgap (.some hblanks (by simp)) (.last .done)
  have hfactors : sampleBracket.gap.factors =
      [.constant (.ofDigit '2' isDigit_two), .multiple none none] := rfl
  have hunfused : sampleBracket.gap.Unfused := by
    rw [GapRow.Unfused, hfactors]
    exact .cons_cons (fun h => h.2 rfl) (.singleton _)
  have hall : Bracket.all "2 x\\cdot(x - 1)^2".toList =
      ([⟨"2 x\\cdot".toList, "x - 1".toList, some ['2']⟩], []) := by decide +kernel
  have hread := ofDenominator_of_single (K := ℚ) (by decide) hall
    (g := ⟨false, some (.multiple (some (.ofDigit '2' isDigit_two)) none)⟩) rfl rfl
    (by simp [WrittenGap.value, Summand.coefficient, Scalar.signed, htwo])
  obtain ⟨q, hq, hvalue⟩ := (value_of_ofDenominator (fun s => if s = "x" then (3 : ℚ) else 2)
    (RingHom.id ℚ)).1 [sampleBracket] ⟨[], none, []⟩ _ _ htext (by simp)
    (List.forall_mem_singleton.mpr hunfused) .nil hread
  refine ⟨⟨_, q, hread, hq, hvalue.trans ?_⟩,
    (value_of_ofDenominator (fun _ => 0) (RingHom.id ℚ)).2 "(x - 1".toList (by decide)
      (unclosed_of_notMem (by decide))⟩
  have hsign : sampleBracket.gap.negative = none := rfl
  have hcontent : String.ofList (trim sampleBracket.content) = "x - 1" := by decide
  have hexponent : sampleBracket.multiplicity = 2 := by decide
  have hrow : sampleBracket.gap.value (3 : ℚ) = 2 * 3 := by
    rw [GapRow.value, hfactors, hsign]
    simp [Summand.valueAt, Summand.coefficient, Summand.power, Scalar.signed, htwo,
      DecimalNumeral.value_one]
  have hlast : (⟨[], none, []⟩ : GapRow).value (3 : ℚ) = 1 := by
    simp [GapRow.value, GapRow.factors, Scalar.signed]
  simp [ListedBracket.value, hcontent, hexponent, hrow, hlast]

def sampleNumeral : DecimalNumeral :=
  { DecimalNumeral.ofDigit '2' isDigit_two with
    whole := ['2', '3']
    isDigit_whole := List.forall_mem_cons.mpr ⟨isDigit_two, isDigit_of_mem_singleton isDigit_three⟩
    ne_nil := List.cons_ne_nil _ _ }

/-- A parenthesis that is not closed, and two numbers that are read as one. -/
theorem exists_other_value :
    ofDenominator "(x - 1" = .ok ⟨.listed, Exact.finite (1 : ℚ), []⟩ ∧
    ofDenominator "2\\cdot 3(x - 1)" =
      .ok ⟨.listed, Exact.finite (23 : ℚ), [.ofContent "x - 1".toList 1]⟩ := by
  refine ⟨ofDenominator_of_unclosed (s := "(x - 1".toList) (by decide)
    (unclosed_of_notMem (by decide)), ?_⟩
  have hvalue : ((⟨false, some (.constant sampleNumeral)⟩ : WrittenGap).value : ℚ) = 23 := by
    have hdigits : sampleNumeral.digits = 23 := rfl
    have hplaces : sampleNumeral.places = 0 := rfl
    simp [WrittenGap.value, Summand.coefficient, Scalar.signed, DecimalNumeral.value, hdigits,
      hplaces]
  have hall : Bracket.all "2\\cdot 3(x - 1)".toList =
      ([⟨"2\\cdot 3".toList, "x - 1".toList, none⟩], []) := by decide +kernel
  have hread := ofDenominator_of_single (K := ℚ) (by decide) hall
    (g := ⟨false, some (.constant sampleNumeral)⟩) rfl rfl (by rw [hvalue]; norm_num)
  rwa [hvalue] at hread

end Samples

end Factorization

end PartialFractions
