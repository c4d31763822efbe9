import PartialFractions.Proofs.BracketReading
import PartialFractions.Proofs.ClosedForms
import PartialFractions.Proofs.ContentReading

/-!
The fractions that are solved, as they are written. The numerator has at most one multiple of x and
at most one constant. The denominator has two linear or two quadratic contents in parentheses, where
a bare x may replace a linear one, and numbers in the gaps around them. Blanks may stand between any
two tokens.
-/
namespace PartialFractions

open Text Number

/-- A multiple of x with its sign; a coefficient that is left out is 1. -/
structure Slope where
  negative : Bool
  coefficient : Option DecimalNumeral

def Slope.summand (m : Slope) : SignedSummand := ⟨m.negative, .multiple m.coefficient none⟩

structure WrittenNumerator where
  slope : Option Slope
  constant : Option Offset
  constantFirst : Bool
  plusShown : Bool

namespace WrittenNumerator

def summands (n : WrittenNumerator) : List SignedSummand :=
  let slope := (n.slope.map Slope.summand).toList
  let constant := (n.constant.map Offset.summand).toList
  if n.constantFirst then constant ++ slope else slope ++ constant

def tokens (n : WrittenNumerator) : List (List Char) :=
  SignedSummand.sumTokens n.plusShown n.summands

variable {K : Type} [Field K]

def leading (n : WrittenNumerator) : K := (n.slope.map fun m => m.summand.value).getD 0

def trailing (n : WrittenNumerator) : K := (n.constant.map Offset.value).getD 0

def value (n : WrittenNumerator) (x : K) : K := n.leading * x + n.trailing

end WrittenNumerator

def multiplierValue {K : Type} [Field K] (m : Option DecimalNumeral) : K :=
  (m.map DecimalNumeral.value).getD 1

/-- What stands in front of the first divisor: a minus sign, a number, or both. -/
structure Front where
  negative : Bool
  multiplier : Option DecimalNumeral

def Front.value {K : Type} [Field K] (f : Front) : K :=
  Scalar.signed f.negative (multiplierValue f.multiplier)

/-- Two divisors with the numbers in the gaps; a bare x stands behind the number of its gap. -/
inductive WrittenDenominator
  | linear (front : Front) (first : LinearContent) (middle : Option DecimalNumeral)
      (second : LinearContent) (back : Option DecimalNumeral)
  | bareFirst (front : Front) (second : LinearContent) (back : Option DecimalNumeral)
  | bareLast (front : Front) (first : LinearContent) (back : Option DecimalNumeral)
  | quadratic (front : Front) (first : QuadraticContent) (middle : Option DecimalNumeral)
      (second : QuadraticContent) (back : Option DecimalNumeral)

namespace WrittenDenominator

def plainGap (negative : Bool) (multiplier : Option DecimalNumeral) : WrittenGap :=
  ⟨negative, multiplier.map .constant⟩

def bareGap (negative : Bool) (multiplier : Option DecimalNumeral) : WrittenGap :=
  ⟨negative, some (.multiple multiplier none)⟩

def brackets : WrittenDenominator → List WrittenBracket
  | linear front first middle second _ =>
    [⟨plainGap front.negative front.multiplier, first.summands⟩,
      ⟨plainGap false middle, second.summands⟩]
  | bareFirst front second _ => [⟨bareGap front.negative front.multiplier, second.summands⟩]
  | bareLast front first _ => [⟨plainGap front.negative front.multiplier, first.summands⟩]
  | quadratic front first middle second _ =>
    [⟨plainGap front.negative front.multiplier, first.summands⟩,
      ⟨plainGap false middle, second.summands⟩]

def last : WrittenDenominator → WrittenGap
  | linear _ _ _ _ back => plainGap false back
  | bareFirst _ _ back => plainGap false back
  | bareLast _ _ back => bareGap false back
  | quadratic _ _ _ _ back => plainGap false back

def tokens (d : WrittenDenominator) : List (List Char) :=
  WrittenBracket.productTokens d.brackets d.last

variable {K : Type} [Field K]

def scale : WrittenDenominator → K
  | linear front _ middle _ back => front.value * multiplierValue middle * multiplierValue back
  | bareFirst front _ back => front.value * multiplierValue back
  | bareLast front _ back => front.value * multiplierValue back
  | quadratic front _ middle _ back => front.value * multiplierValue middle * multiplierValue back

def divisors : WrittenDenominator → Divisors K
  | linear _ first _ second _ => .linear first.root second.root
  | bareFirst _ second _ => .linear 0 second.root
  | bareLast _ first _ => .linear first.root 0
  | quadratic _ first _ second _ => .quadratic first.rate second.rate

theorem value_plainGap (negative : Bool) (m : Option DecimalNumeral) :
    ((plainGap negative m).value : K) = Scalar.signed negative (multiplierValue m) := by
  cases m <;> rfl

theorem value_bareGap (negative : Bool) (m : Option DecimalNumeral) :
    ((bareGap negative m).value : K) = Scalar.signed negative (multiplierValue m) := by
  cases m with
  | none => simp [bareGap, WrittenGap.value, Summand.coefficient, multiplierValue,
      DecimalNumeral.value_one]
  | some n => rfl

theorem bare_plainGap {F : Type} (negative : Bool) (m : Option DecimalNumeral) :
    ((plainGap negative m).bare : List (Factor F)) = [] := by
  cases m <;> rfl

theorem bare_bareGap {F : Type} (negative : Bool) (m : Option DecimalNumeral) :
    ((bareGap negative m).bare : List (Factor F)) = [.bare 1] := rfl

theorem scale_eq (d : WrittenDenominator) :
    WrittenBracket.scale d.brackets * d.last.value = (d.scale : K) := by
  cases d <;> simp [WrittenBracket.scale, brackets, last, value_plainGap, value_bareGap, scale,
    Front.value, Scalar.signed]

end WrittenDenominator

section Braces

def Summand.Unbraced : Summand → Prop
  | .multiple _ (some e) => e.braced = false
  | _ => True

theorem Summand.brace_notMem {m : Summand} (h : m.Unbraced) : ∀ t ∈ m.tokens, '\x7d' ∉ t := by
  have hnumeral (n : DecimalNumeral) : '\x7d' ∉ n.chars := n.notMem_chars (by decide) (by decide)
  obtain n | ⟨coefficient, _ | e⟩ := m
  · simp [tokens, hnumeral]
  · cases coefficient <;> simp [tokens, hnumeral]
  · have hdigits : '\x7d' ∉ e.digits := fun hc => absurd (e.isDigit_digits _ hc) (by decide)
    have hexponent : ∀ t ∈ e.tokens, '\x7d' ∉ t := by
      have hbraced : e.braced = false := h
      simp [WrittenExponent.tokens, hbraced, hdigits]
    cases coefficient <;> simpa [tokens, hnumeral] using hexponent

theorem WrittenBracket.brace_notMem {brackets : List WrittenBracket} {last : WrittenGap}
    (hgaps : ∀ w ∈ brackets, ∀ m ∈ w.gap.product, m.Unbraced)
    (hcontents : ∀ w ∈ brackets, ∀ t ∈ w.content, t.summand.Unbraced)
    (hlast : ∀ m ∈ last.product, m.Unbraced) :
    ∀ t ∈ productTokens brackets last, '\x7d' ∉ t := by
  have hgap {g : WrittenGap} (h : ∀ m ∈ g.product, m.Unbraced) : ∀ t ∈ g.tokens, '\x7d' ∉ t :=
    g.forall_mem_tokens (by decide) fun m hm => Summand.brace_notMem (h m hm)
  have hcontent (w : WrittenBracket) (h : ∀ t ∈ w.content, t.summand.Unbraced) :
      ∀ t ∈ SignedSummand.sumTokens false w.content, '\x7d' ∉ t :=
    SignedSummand.forall_mem_sumTokens (by decide) (by decide)
      (fun t ht => Summand.brace_notMem (h t ht)) false
  exact forall_mem_productTokens (by decide) (by decide) (fun w hw => hgap (hgaps w hw))
    (fun w hw => hcontent w (hcontents w hw)) (hgap hlast)

theorem WrittenNumerator.brace_notMem (n : WrittenNumerator) : ∀ t ∈ n.tokens, '\x7d' ∉ t := by
  have hsummands : ∀ t ∈ n.summands, t.summand.Unbraced := by
    obtain ⟨_ | m, _ | k, _ | _, plusShown⟩ := n <;>
      simp [summands, Slope.summand, Offset.summand, Summand.Unbraced]
  exact SignedSummand.forall_mem_sumTokens (by decide) (by decide)
    (fun t ht => Summand.brace_notMem (hsummands t ht)) n.plusShown

theorem WrittenDenominator.brace_notMem (d : WrittenDenominator) :
    ∀ t ∈ d.tokens, '\x7d' ∉ t := by
  have hgap (negative : Bool) (k : Option DecimalNumeral) :
      ∀ m ∈ (plainGap negative k).product, m.Unbraced := by
    cases k <;> simp [plainGap, Summand.Unbraced]
  have hbare (negative : Bool) (k : Option DecimalNumeral) :
      ∀ m ∈ (bareGap negative k).product, m.Unbraced := by
    simp [bareGap, Summand.Unbraced]
  have hlinear (c : LinearContent) : ∀ t ∈ c.summands, t.summand.Unbraced := by
    obtain ⟨_ | k⟩ := c <;> simp [LinearContent.summands, Offset.summand, Summand.Unbraced]
  have hquadratic (c : QuadraticContent) : ∀ t ∈ c.summands, t.summand.Unbraced := by
    simp [QuadraticContent.summands, Offset.summand, Summand.Unbraced, WrittenExponent.two]
  cases d with
  | linear front first middle second back =>
    exact WrittenBracket.brace_notMem
      (List.forall_mem_cons.mpr ⟨hgap _ _, List.forall_mem_singleton.mpr (hgap _ _)⟩)
      (List.forall_mem_cons.mpr ⟨hlinear _, List.forall_mem_singleton.mpr (hlinear _)⟩) (hgap _ _)
  | bareFirst front second back =>
    exact WrittenBracket.brace_notMem (List.forall_mem_singleton.mpr (hbare _ _))
      (List.forall_mem_singleton.mpr (hlinear _)) (hgap _ _)
  | bareLast front first back =>
    exact WrittenBracket.brace_notMem (List.forall_mem_singleton.mpr (hgap _ _))
      (List.forall_mem_singleton.mpr (hlinear _)) (hbare _ _)
  | quadratic front first middle second back =>
    exact WrittenBracket.brace_notMem
      (List.forall_mem_cons.mpr ⟨hgap _ _, List.forall_mem_singleton.mpr (hgap _ _)⟩)
      (List.forall_mem_cons.mpr ⟨hquadratic _, List.forall_mem_singleton.mpr (hquadratic _)⟩)
      (hgap _ _)

end Braces

structure WrittenFraction where
  numerator : WrittenNumerator
  denominator : WrittenDenominator

namespace WrittenFraction

def tokens (f : WrittenFraction) : List (List Char) :=
  ['\x7b'] :: (f.numerator.tokens ++ (['\x7d'] :: ['\x7b'] ::
    (f.denominator.tokens ++ [['\x7d']])))

end WrittenFraction

end PartialFractions
