import PartialFractions.Proofs.DenotedPolynomials
import PartialFractions.Proofs.SpelledTokens

/-!
Tokens of the notation that denote polynomials. What follows a factor or a product is multiplied and
added to it, so rows of factors denote products and rows of signed products denote sums.
-/
namespace PartialFractions

open Polynomial Number

noncomputable def Summand.monomial (m : Summand) : ℚ[X] := C m.coefficient.value * X ^ m.power

noncomputable def SignedSummand.monomial (t : SignedSummand) : ℚ[X] :=
  if t.negative then -t.summand.monomial else t.summand.monomial

namespace Verification

namespace Token

def ofDot (dotted : Bool) : List Token := if dotted then [.times] else []

@[simp] theorem ofDot_true : ofDot true = [.times] := rfl

@[simp] theorem ofDot_false : ofDot false = [] := rfl

end Token

namespace Arithmetic

variable (K : Type) {ts us : List Token} {p q : ℚ[X]}

/-- The tokens are an expression of the level that denotes the polynomial. -/
def DerivesPolynomial (level : Level) (ts : List Token) (p : ℚ[X]) : Prop :=
  ∃ e : Arithmetic K, Derives level ts e ∧ e.Denotes p

def IsFactor (ts : List Token) (p : ℚ[X]) : Prop := DerivesPolynomial K .power ts p

def IsSigned (ts : List Token) (p : ℚ[X]) : Prop := DerivesPolynomial K .product ts p

/-- The tokens are factors that follow another one, each behind a sign of multiplication or not, and
the polynomial is their product. -/
inductive IsProduct : List Token → ℚ[X] → Prop
  | nil : IsProduct [] 1
  | cons {ts us : List Token} {p q : ℚ[X]} (dotted : Bool) (hts : IsFactor K ts p)
    (hus : IsProduct us q) :
    IsProduct (Token.ofDot dotted ++ (ts ++ us)) (p * q)

/-- The tokens are products that follow another one, each behind a plus or a minus sign, and the
polynomial is their sum. -/
inductive IsSum : List Token → ℚ[X] → Prop
  | nil : IsSum [] 0
  | plus {ts us : List Token} {p q : ℚ[X]} (hts : IsSigned K ts p) (hus : IsSum us q) :
    IsSum (.plus :: (ts ++ us)) (p + q)
  | minus {ts us : List Token} {p q : ℚ[X]} (hts : IsSigned K ts p) (hus : IsSum us q) :
    IsSum (.minus :: (ts ++ us)) (-p + q)

variable {K}

section Products

theorem IsProduct.append (h : IsProduct K ts p) (h' : IsProduct K us q) :
    IsProduct K (ts ++ us) (p * q) := by
  induction h with
  | nil => simpa using h'
  | cons dotted hts hus ih =>
    rw [List.append_assoc, List.append_assoc, mul_assoc]
    exact .cons dotted hts ih

theorem IsFactor.isProduct (h : IsFactor K ts p) (dotted : Bool) :
    IsProduct K (Token.ofDot dotted ++ ts) p := by
  have hproduct := IsProduct.cons dotted h .nil
  rwa [List.append_nil, mul_one] at hproduct

/-- Every factor that follows is multiplied to what stands before it. -/
theorem IsSigned.append (h : IsSigned K ts p) (h' : IsProduct K us q) :
    IsSigned K (ts ++ us) (p * q) := by
  induction h' generalizing ts p with
  | nil => simpa using h
  | @cons ts' us p' q dotted hts hus ih =>
    obtain ⟨a, ha, hp⟩ := h
    obtain ⟨b, hb, hp'⟩ := hts
    cases dotted with
    | true =>
      have hfront : IsSigned K (ts ++ .times :: ts') (p * p') :=
        ⟨_, .times ha (.unsigned hb), hp.multiply hp'⟩
      have hall := ih hfront
      rw [mul_assoc, List.append_assoc] at hall
      exact hall
    | false =>
      have hfront : IsSigned K (ts ++ ts') (p * p') := ⟨_, .juxtapose ha hb, hp.multiply hp'⟩
      have hall := ih hfront
      rw [mul_assoc, List.append_assoc] at hall
      exact hall

/-- A factor may have a sign in front, and other factors behind it. -/
theorem IsFactor.isSigned (hts : IsFactor K ts p) (hus : IsProduct K us q) :
    IsSigned K (ts ++ us) (p * q) ∧ IsSigned K (.plus :: (ts ++ us)) (p * q) ∧
      IsSigned K (.minus :: (ts ++ us)) (-(p * q)) := by
  obtain ⟨e, hderives, he⟩ := hts
  have hplain : IsSigned K ts p := ⟨e, .factor (.unsigned hderives), he⟩
  have hplus : IsSigned K (.plus :: ts) p := ⟨e, .factor (.plus (.unsigned hderives)), he⟩
  have hminus : IsSigned K (.minus :: ts) (-p) :=
    ⟨e.negate, .factor (.minus (.unsigned hderives)), he.negate⟩
  rw [← neg_mul]
  exact ⟨hplain.append hus, hplus.append hus, hminus.append hus⟩

/-- A product may begin with any sign but that of multiplication. -/
theorem IsProduct.isSigned (h : IsProduct K ts p) (hne : ts ≠ [])
    (hhead : ts.head? ≠ some .times) : IsSigned K ts p ∧ IsSigned K (.minus :: ts) (-p) := by
  cases h with
  | nil => exact absurd rfl hne
  | cons dotted hts hus =>
    cases dotted with
    | true => exact absurd rfl hhead
    | false =>
      obtain ⟨hplain, -, hminus⟩ := hts.isSigned hus
      exact ⟨hplain, hminus⟩

end Products

section Sums

/-- Every product that follows is added to what stands before it. -/
theorem DerivesPolynomial.append (h : DerivesPolynomial K .sum ts p) (h' : IsSum K us q) :
    DerivesPolynomial K .sum (ts ++ us) (p + q) := by
  induction h' generalizing ts p with
  | nil => simpa using h
  | plus hts hus ih =>
    obtain ⟨a, ha, hp⟩ := h
    obtain ⟨b, hb, hp'⟩ := hts
    have hall := ih ⟨_, .add ha hb, hp.add hp'⟩
    rwa [add_assoc, List.append_assoc, List.cons_append] at hall
  | minus hts hus ih =>
    obtain ⟨a, ha, hp⟩ := h
    obtain ⟨b, hb, hp'⟩ := hts
    have hall := ih ⟨_, .subtract ha hb, hp.subtract hp'⟩
    rwa [sub_eq_add_neg, add_assoc, List.append_assoc, List.cons_append] at hall

/-- A first product and those that follow it are a sum. -/
theorem IsSigned.sum (hts : IsSigned K ts p) (hus : IsSum K us q) :
    DerivesPolynomial K .sum (ts ++ us) (p + q) := by
  obtain ⟨e, hderives, he⟩ := hts
  exact DerivesPolynomial.append ⟨e, .term hderives, he⟩ hus

end Sums

section Written

theorem derives_bracketed (l : Literal) :
    Derives .signed [.opening, .literal l, .closing] (.literal l : Arithmetic K) :=
  .unsigned (.base (.group (.term (.factor (.unsigned (.base (.literal l)))))))

/-- The power of an atom; without an exponent it is the atom itself. -/
theorem DerivesPolynomial.isFactor (h : DerivesPolynomial K .atom ts p)
    (exponent : Option WrittenExponent) :
    IsFactor K (ts ++ Token.ofExponent exponent)
      (p ^ (exponent.map WrittenExponent.value).getD 1) := by
  obtain ⟨e, hderives, he⟩ := h
  cases exponent with
  | none =>
    rw [Token.ofExponent, List.append_nil, Option.map_none, Option.getD_none, pow_one]
    exact ⟨e, .base hderives, he⟩
  | some w =>
    refine ⟨_, ?_, he.power w.value⟩
    rw [Token.ofExponent]
    split
    · exact .power hderives (derives_bracketed _)
    · exact .power hderives (.unsigned (.base (.literal _)))

theorem isFactor_numeral {n : DecimalNumeral} (h : n.IsWhole) :
    IsFactor K [Token.ofNumeral n] (C (n.value : ℚ)) := by
  rw [h.value_eq]
  exact ⟨_, .base (.literal _), denotes_whole _⟩

theorem isFactor_x (exponent : Option WrittenExponent) :
    IsFactor K (.x :: Token.ofExponent exponent)
      (X ^ (exponent.map WrittenExponent.value).getD 1) :=
  DerivesPolynomial.isFactor ⟨_, .x, denotes_x⟩ exponent

/-- A number or a power of x is a factor, or a number and then a power of x. -/
theorem exists_factors_ofSummand {m : Summand} (h : m.IsWhole) :
    ∃ ts us p q, Token.ofSummand m = ts ++ us ∧ m.monomial = p * q ∧ IsFactor K ts p ∧
      IsProduct K us q := by
  cases m with
  | constant n =>
    refine ⟨_, [], _, 1, (List.append_nil _).symm, ?_, isFactor_numeral h, .nil⟩
    simp [Summand.monomial, Summand.coefficient, Summand.power]
  | multiple coefficient exponent =>
    have hx := isFactor_x (K := K) exponent
    cases coefficient with
    | none =>
      refine ⟨_, [], _, 1, (List.append_nil _).symm, ?_, hx, .nil⟩
      simp [Summand.monomial, Summand.coefficient, Summand.power, DecimalNumeral.value_one]
    | some n =>
      refine ⟨[Token.ofNumeral n], _, _, _, rfl, ?_, isFactor_numeral (h.1 n rfl),
        hx.isProduct false⟩
      simp [Summand.monomial, Summand.coefficient, Summand.power]

/-- The tokens of a sum derive an expression for the sum of its monomials. -/
theorem isSum_ofSum {terms : List SignedSummand} (h : ∀ t ∈ terms, t.summand.IsWhole) :
    IsSum K (Token.ofSum true terms) (terms.map SignedSummand.monomial).sum := by
  induction terms with
  | nil => exact .nil
  | cons t rest ih =>
    obtain ⟨ht, hrest⟩ := List.forall_mem_cons.mp h
    obtain ⟨ts, us, p, q, hts, hp, hfactor, hproduct⟩ := exists_factors_ofSummand (K := K) ht
    have hsigned := (hfactor.isSigned hproduct).1
    have hplus := IsSum.plus hsigned (ih hrest)
    have hminus := IsSum.minus hsigned (ih hrest)
    rw [Token.ofSum, List.map_cons, List.sum_cons, SignedSummand.monomial, hts, hp]
    cases t.negative with
    | true => exact hminus
    | false => exact hplus

/-- The tokens of a sum are an expression of its polynomial. -/
theorem derives_ofSum {terms : List SignedSummand} (hne : terms ≠ [])
    (h : ∀ t ∈ terms, t.summand.IsWhole) (plusShown : Bool) :
    DerivesPolynomial K .sum (Token.ofSum plusShown terms)
      (terms.map SignedSummand.monomial).sum := by
  obtain ⟨t, rest, rfl⟩ := List.exists_cons_of_ne_nil hne
  obtain ⟨ht, hrest⟩ := List.forall_mem_cons.mp h
  obtain ⟨ts, us, p, q, hts, hp, hfactor, hproduct⟩ := exists_factors_ofSummand (K := K) ht
  obtain ⟨hplain, hplus, hminus⟩ := hfactor.isSigned hproduct
  have hsum := isSum_ofSum (K := K) hrest
  rw [Token.ofSum, List.map_cons, List.sum_cons, SignedSummand.monomial, hts, hp,
    ← List.append_assoc]
  cases t.negative with
  | true => exact hminus.sum hsum
  | false =>
    cases plusShown with
    | true => exact hplus.sum hsum
    | false => exact hplain.sum hsum

end Written

end Arithmetic

end Verification

end PartialFractions
