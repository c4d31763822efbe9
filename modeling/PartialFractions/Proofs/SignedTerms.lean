import PartialFractions.Proofs.Labels
import PartialFractions.Proofs.RenderedFormulas
import PartialFractions.Proofs.RoundedNumbers

/-!
Signs in a sum. A formula that gives up its minus sign denotes what it denoted with the sign turned,
so the signs between the terms of a sum and the terms without theirs denote the sum. In the lines of
a template and of a derivation no term behind a plus sign begins with a minus sign.
-/
namespace PartialFractions

open Number

namespace Formula

section Signs

variable {K : Type} [Neg K] [Scalar K]

/-- The second formula is the first one without the minus sign in front of it. -/
inductive Unsigns : Formula K → Formula K → Prop
  | number {v : K} (h : Scalar.isNegative v = true) : Unsigns (.number v) (.number (-v))
  | product {f p : Formula K} {fs : List (Formula K)} {separator : String} (h : Unsigns f p) :
      Unsigns (.product (f :: fs) separator) (.product (p :: fs) separator)
  | fraction {f p g : Formula K} {display : Bool} (h : Unsigns f p) :
      Unsigns (.fraction f g display) (.fraction p g display)

/-- What is drawn behind a minus sign is the formula without the sign of its leading number. -/
theorem unsigns_of_positivePart {p : Formula K} :
    ∀ {f : Formula K}, positivePart f = some p → Unsigns f p
  | .number v, h => by
    rw [positivePart] at h
    split at h
    · rename_i hv
      obtain rfl := Option.some.inj h
      exact .number hv
    · cases h
  | .product [] separator, h => by cases h
  | .product (f :: fs) separator, h => by
    obtain ⟨gs, hgs, rfl⟩ := Option.map_eq_some_iff.mp h
    obtain ⟨q, hq, rfl⟩ := Option.map_eq_some_iff.mp hgs
    exact .product (unsigns_of_positivePart hq)
  | .fraction f g display, h => by
    obtain ⟨q, hq, rfl⟩ := Option.map_eq_some_iff.mp h
    exact .fraction (unsigns_of_positivePart hq)

/-- A minus sign that is left out of a text is left out of the formula. -/
theorem Unsigns.renderWith_eq {f p : Formula K} (h : Unsigns f p) (precision : ℤ) :
    renderWith precision true f = renderWith precision false p := by
  induction h with
  | number hv => rfl
  | product h ih =>
    simp only [renderWith, renderFactors, ih]
  | fraction h ih => simp only [renderWith, ih]

/-- Where a number has one minus sign at most, no formula has a second one. -/
theorem Unsigns.positivePart_eq_none {f p : Formula K} (h : Unsigns f p)
    (hneg : ∀ v : K, Scalar.isNegative v = true → Scalar.isNegative (-v) = false) :
    positivePart p = none := by
  induction h with
  | number hv =>
    rw [positivePart, hneg _ hv]
    rfl
  | product h ih =>
    rw [positivePart, positiveHead, ih]
    rfl
  | fraction h ih =>
    rw [positivePart, ih]
    rfl

/-- Whether a term stands behind a minus sign in a sum, and what is written there. -/
def emitted (t : Formula K) : Bool × Formula K :=
  match positivePart t with
  | some p => (true, p)
  | none => (false, t)

def renderEmitted (precision : ℤ) (t : Bool × Formula K) : Except Fault String := do
  return (if t.1 then "- " else "+ ") ++ (← render precision t.2)

theorem renderTerms_eq (precision : ℤ) (terms : List (Formula K)) :
    renderTerms precision terms = (terms.map emitted).mapM (renderEmitted precision) := by
  induction terms with
  | nil => rfl
  | cons t terms ih =>
    rw [renderTerms, ih, List.map_cons, List.mapM_cons, renderEmitted, emitted]
    cases h : positivePart t with
    | none => simp [render]
    | some p => simp [render, (unsigns_of_positivePart h).renderWith_eq]

/-- A sum is its first term and the others, each behind its sign. -/
theorem render_sum (precision : ℤ) (first : Formula K) (rest : List (Formula K)) :
    render precision (.sum (first :: rest)) = (do
      let head ← render precision first
      let tail ← (rest.map emitted).mapM (renderEmitted precision)
      return " ".intercalate (head :: tail)) := by
  rw [render, renderWith, renderTerms_eq]
  rfl

end Signs

end Formula

/-- What formulas denote in a field, for any meaning of their texts. -/
structure Denotation (F : Type) [Field F] where
  text : String → F
  number : Float → F
  number_neg : ∀ v, Scalar.isNegative v = true → number (-v) = -number v
  /-- the value of a formula that is no arithmetic -/
  other : Formula Float → F

namespace Denotation

variable {F : Type} [Field F] (D : Denotation F)

mutual

def value : Formula Float → F
  | .latex s => D.text s
  | .number v => D.number v
  | .group inner => value inner
  | .power base exponent => value base ^ exponent
  | .product factors _ => product factors
  | .sum terms => sum terms
  | .fraction numerator denominator _ => value numerator / value denominator
  | .absolute inner => D.other (.absolute inner)
  | .integral body var => D.other (.integral body var)
  | .relation lhs rhs op => D.other (.relation lhs rhs op)
  | .bare => D.other .bare

def product : List (Formula Float) → F
  | [] => 1
  | first :: rest => value first * product rest

def sum : List (Formula Float) → F
  | [] => 0
  | first :: rest => value first + sum rest

end

def emittedValue (t : Bool × Formula Float) : F := if t.1 then -D.value t.2 else D.value t.2

/-- Without its minus sign a formula denotes the negation. -/
theorem value_of_unsigns {f p : Formula Float} (h : f.Unsigns p) : D.value p = -D.value f := by
  induction h with
  | number hv => exact D.number_neg _ hv
  | @product f p fs separator h ih =>
    change D.value p * D.product fs = -(D.value f * D.product fs)
    rw [ih, neg_mul]
  | @fraction f p g display h ih =>
    change D.value p / D.value g = -(D.value f / D.value g)
    rw [ih, neg_div]

theorem emittedValue_emitted (t : Formula Float) :
    D.emittedValue (Formula.emitted t) = D.value t := by
  unfold Formula.emitted emittedValue
  cases h : Formula.positivePart t with
  | none => rfl
  | some p => simp [D.value_of_unsigns (Formula.unsigns_of_positivePart h)]

theorem sum_emitted (terms : List (Formula Float)) :
    ((terms.map Formula.emitted).map D.emittedValue).sum = D.sum terms := by
  induction terms with
  | nil => rfl
  | cons t terms ih =>
    rw [List.map_cons, List.map_cons, List.sum_cons, ih, D.emittedValue_emitted]
    rfl

end Denotation

namespace Formula

section Inside

variable {K : Type} {f g : Formula K} {fs : List (Formula K)}

/-- The formula `g` stands somewhere inside of another one, or is that one. -/
inductive Inside (g : Formula K) : Formula K → Prop
  | refl : Inside g g
  | group {f : Formula K} (h : Inside g f) : Inside g (.group f)
  | power {f : Formula K} {n : ℤ} (h : Inside g f) : Inside g (.power f n)
  | product {f : Formula K} {fs : List (Formula K)} {separator : String} (hf : f ∈ fs)
      (h : Inside g f) : Inside g (.product fs separator)
  | sum {f : Formula K} {fs : List (Formula K)} (hf : f ∈ fs) (h : Inside g f) :
      Inside g (.sum fs)
  | numerator {f f' : Formula K} {display : Bool} (h : Inside g f) :
      Inside g (.fraction f f' display)
  | denominator {f f' : Formula K} {display : Bool} (h : Inside g f') :
      Inside g (.fraction f f' display)
  | absolute {f : Formula K} (h : Inside g f) : Inside g (.absolute f)
  | integral {f : Formula K} {var : String} (h : Inside g f) : Inside g (.integral f var)
  | lhs {f f' : Formula K} {op : String} (h : Inside g f) : Inside g (.relation f f' op)
  | rhs {f f' : Formula K} {op : String} (h : Inside g f') : Inside g (.relation f f' op)

variable [Neg K] [Scalar K]

def BeginsUnsigned (text : String) : Prop := ∃ c ∈ text.toList.head?, c ≠ '-'

/-- If the formula has no minus sign to give up, its text does not begin with one. -/
def ShowsSign (t : Formula K) : Prop :=
  positivePart t = none → ∀ (precision : ℤ) (text : String),
    render precision t = .ok text → BeginsUnsigned text

/-- In every sum inside of the formula the terms behind a plus sign begin with no minus sign. -/
def KeepsSigns (f : Formula K) : Prop :=
  ∀ terms, Inside (.sum terms) f → ∀ t ∈ terms.tail, ShowsSign t

@[simp] theorem keepsSigns_latex (text : String) : KeepsSigns (K := K) (.latex text) := by
  intro terms h
  cases h

@[simp] theorem keepsSigns_number (v : K) : KeepsSigns (.number v) := by
  intro terms h
  cases h

@[simp] theorem keepsSigns_group : KeepsSigns (.group f) ↔ KeepsSigns f := by
  constructor
  · exact fun h terms hin => h terms (.group hin)
  · intro h terms hin
    cases hin with
    | group hin => exact h terms hin

@[simp] theorem keepsSigns_power {n : ℤ} : KeepsSigns (.power f n) ↔ KeepsSigns f := by
  constructor
  · exact fun h terms hin => h terms (.power hin)
  · intro h terms hin
    cases hin with
    | power hin => exact h terms hin

@[simp] theorem keepsSigns_product {separator : String} :
    KeepsSigns (.product fs separator) ↔ ∀ f ∈ fs, KeepsSigns f := by
  constructor
  · exact fun h f hf terms hin => h terms (.product hf hin)
  · intro h terms hin
    cases hin with
    | product hf hin => exact h _ hf terms hin

@[simp] theorem keepsSigns_fraction {display : Bool} :
    KeepsSigns (.fraction f g display) ↔ KeepsSigns f ∧ KeepsSigns g := by
  constructor
  · exact fun h => ⟨fun terms hin => h terms (.numerator hin),
      fun terms hin => h terms (.denominator hin)⟩
  · rintro ⟨hf, hg⟩ terms hin
    cases hin with
    | numerator hin => exact hf terms hin
    | denominator hin => exact hg terms hin

@[simp] theorem keepsSigns_absolute : KeepsSigns (.absolute f) ↔ KeepsSigns f := by
  constructor
  · exact fun h terms hin => h terms (.absolute hin)
  · intro h terms hin
    cases hin with
    | absolute hin => exact h terms hin

@[simp] theorem keepsSigns_integral {var : String} :
    KeepsSigns (.integral f var) ↔ KeepsSigns f := by
  constructor
  · exact fun h terms hin => h terms (.integral hin)
  · intro h terms hin
    cases hin with
    | integral hin => exact h terms hin

@[simp] theorem keepsSigns_relation {op : String} :
    KeepsSigns (.relation f g op) ↔ KeepsSigns f ∧ KeepsSigns g := by
  constructor
  · exact fun h => ⟨fun terms hin => h terms (.lhs hin), fun terms hin => h terms (.rhs hin)⟩
  · rintro ⟨hf, hg⟩ terms hin
    cases hin with
    | lhs hin => exact hf terms hin
    | rhs hin => exact hg terms hin

@[simp] theorem keepsSigns_sum :
    KeepsSigns (.sum fs) ↔ (∀ f ∈ fs, KeepsSigns f) ∧ ∀ t ∈ fs.tail, ShowsSign t := by
  constructor
  · exact fun h => ⟨fun f hf terms hin => h terms (.sum hf hin), h fs .refl⟩
  · rintro ⟨hterms, htail⟩ terms hin
    cases hin with
    | refl => exact htail
    | sum hf hin => exact hterms _ hf terms hin

theorem keepsSigns_sum_of_forall (h : ∀ f ∈ fs, KeepsSigns f) (hshows : ∀ f ∈ fs, ShowsSign f) :
    KeepsSigns (.sum fs) :=
  keepsSigns_sum.mpr ⟨h, fun t ht => hshows t (List.mem_of_mem_tail ht)⟩

end Inside

section Fronts

variable {K : Type} [Neg K] [Scalar K] {f g : Formula K} {fs : List (Formula K)}

theorem BeginsUnsigned.append {s : String} (h : BeginsUnsigned s) (t : String) :
    BeginsUnsigned (s ++ t) := by
  obtain ⟨c, hc, hne⟩ := h
  refine ⟨c, ?_, hne⟩
  rw [String.toList_append, List.head?_append, Option.mem_def.mp hc]
  rfl

theorem BeginsUnsigned.intercalate {s : String} (h : BeginsUnsigned s) (separator : String)
    (texts : List String) : BeginsUnsigned (separator.intercalate (s :: texts)) := by
  cases texts with
  | nil => rwa [String.intercalate_singleton]
  | cons t texts =>
    rw [String.intercalate_cons_cons]
    exact (h.append _).append _

@[simp] theorem showsSign_latex {text : String} (h : BeginsUnsigned text) :
    ShowsSign (K := K) (.latex text) := by
  intro _ precision shown hshown
  rwa [← Except.ok.inj hshown]

@[simp] theorem showsSign_group : ShowsSign (.group f) := by
  intro _ precision text htext
  obtain ⟨inner, -, htext⟩ := bind_eq_ok.mp htext
  rw [← Except.ok.inj htext, String.append_assoc]
  exact BeginsUnsigned.append ⟨'(', rfl, by decide⟩ _

@[simp] theorem showsSign_integral {var : String} : ShowsSign (.integral f var) := by
  intro _ precision text htext
  obtain ⟨body, -, htext⟩ := bind_eq_ok.mp htext
  rw [← Except.ok.inj htext, String.append_assoc, String.append_assoc]
  exact BeginsUnsigned.append ⟨'\\', rfl, by decide⟩ _

@[simp] theorem showsSign_fraction {display : Bool} : ShowsSign (.fraction f g display) := by
  intro _ precision text htext
  obtain ⟨above, -, htext⟩ := bind_eq_ok.mp htext
  obtain ⟨below, -, htext⟩ := bind_eq_ok.mp htext
  rw [← Except.ok.inj htext]
  refine .append (.append (.append (.append (.append ⟨'\\', ?_, by decide⟩ _) _) _) _) _
  cases display <;> rfl

/-- A product shows its sign where its first part does. -/
@[simp] theorem showsSign_product {separator : String} (h : ShowsSign f) :
    ShowsSign (.product (f :: fs) separator) := by
  intro hnone precision text htext
  have hfirst : positivePart f = none := by
    rw [positivePart, positiveHead, Option.map_map, Option.map_eq_none_iff] at hnone
    exact hnone
  obtain ⟨texts, htexts, htext⟩ := bind_eq_ok.mp htext
  obtain ⟨head, hhead, htexts⟩ := bind_eq_ok.mp htexts
  obtain ⟨tail, -, htexts⟩ := bind_eq_ok.mp htexts
  rw [← Except.ok.inj htext, ← Except.ok.inj htexts]
  exact (h hfirst precision head hhead).intercalate separator tail

@[simp] theorem showsSign_number (v : Float) : ShowsSign (.number v) := by
  intro hnone precision text htext
  have hsign : Scalar.isNegative v = false := by
    rw [positivePart] at hnone
    split at hnone
    · cases hnone
    · simp_all
  have hshown : Scalar.roundedText precision v = .ok text := mapError_eq_ok.mp htext
  obtain ⟨t, ht, htoList⟩ := exists_unsigned hshown
  rw [hsign] at htoList
  rw [BeginsUnsigned, htoList]
  exact ht.head

end Fronts

end Formula

open Formula Float.Model

theorem Label.beginsUnsigned_ofNat (index : ℕ) : BeginsUnsigned (Label.ofNat index) := by
  refine ⟨Char.ofNat (65 + index % 26), by simp [toList_ofNat], ?_⟩
  intro h
  have hletter := toNat_letter index
  rw [h] at hletter
  have hminus : '-'.toNat = 45 := rfl
  omega

theorem Derivation.beginsUnsigned_integrationConstant (labels : List String) :
    BeginsUnsigned (integrationConstant labels) := by
  unfold integrationConstant
  split
  · exact ⟨'K', rfl, by decide⟩
  · exact ⟨'C', rfl, by decide⟩

namespace Template

@[simp] theorem keepsSigns_raised (f : Factor Float) (n : ℤ) : KeepsSigns (f.raised n) := by
  simp [Factor.raised]

@[simp] theorem keepsSigns_numerator (s : Slot Float) : KeepsSigns s.numerator := by
  have hlabel := Label.beginsUnsigned_ofNat (s.index + 1)
  unfold Slot.numerator
  split <;> simp [beside, hlabel]

theorem keepsSigns_formula (factors : List (Factor Float)) : KeepsSigns (formula factors) := by
  refine keepsSigns_sum_of_forall ?_ ?_
  · refine List.forall_mem_map.mpr fun s _ => ?_
    unfold term
    split <;> simp [quotient]
  · refine List.forall_mem_map.mpr fun s _ => ?_
    exact showsSign_fraction

theorem showsSign_leadingFactor (s : Slot Float) : ShowsSign s.leadingFactor := by
  unfold Slot.leadingFactor Slot.numerator
  cases hkind : s.factor.kind with
  | linear => exact showsSign_latex (Label.beginsUnsigned_ofNat s.index)
  | _ => exact showsSign_group

theorem keepsSigns_expanded (factors : List (Factor Float)) : KeepsSigns (expanded factors) := by
  refine keepsSigns_sum_of_forall ?_ ?_
  · refine List.forall_mem_map.mpr fun s _ => ?_
    simp only [expandedTerm, beside, keepsSigns_product, List.forall_mem_append,
      List.forall_mem_cons, List.forall_mem_map]
    refine ⟨⟨?_, ?_⟩, fun f _ => keepsSigns_raised f _⟩
    · unfold Slot.leadingFactor
      split <;> simp
    · split <;> simp
  · exact List.forall_mem_map.mpr fun s _ => showsSign_product (showsSign_leadingFactor s)

theorem keepsSigns_scaled {f : Formula Float} (h : KeepsSigns f) (scale : Float) :
    KeepsSigns (scaled f scale) := by
  unfold scaled
  split
  · exact h
  · split <;> simp [beside, h]

theorem keepsSigns_identityLines (numerator denominator : String) (factors : List (Factor Float))
    (scale : Float) : ∀ f ∈ identityLines numerator denominator factors scale, KeepsSigns f := by
  have hcleared := keepsSigns_scaled (keepsSigns_expanded factors) scale
  simp [identityLines, equation, quotient, keepsSigns_formula, hcleared]

end Template

namespace Derivation

theorem keepsSigns_constantsLine (constants : Constants Float) :
    KeepsSigns (constantsLine constants) := by
  simp only [constantsLine, spaced, keepsSigns_product, List.forall_mem_map]
  rintro ⟨label, v⟩ _
  simp [equation]

variable {constants : Constants Float} {factors : List (Factor Float)}
  {steps : List (Formula Float)}

theorem keepsSigns_linearLines (h : linearLines constants factors = .ok steps) :
    ∀ l ∈ steps, KeepsSigns l := by
  obtain ⟨A, a, B, b, f, g, others, rfl, rfl, h⟩ := linearLines_cases h
  have hconstants := keepsSigns_constantsLine [(A, a), (B, b)]
  obtain ⟨lines, hlines, hkept⟩ : ∃ lines,
      linearLines [(A, a), (B, b)] [f, g] = .ok lines ∧ ∀ l ∈ lines, KeepsSigns l := by
    refine ⟨_, rfl, ?_⟩
    simp [hconstants, quotient, dotted, logarithm, beside, beginsUnsigned_integrationConstant]
  obtain rfl := Except.ok.inj (h.symm.trans hlines)
  exact hkept

@[simp] theorem keepsSigns_reciprocalAntiderivative (rate : Float) :
    KeepsSigns (reciprocalAntiderivative rate) := by
  unfold reciprocalAntiderivative
  split <;> simp [beside, displayQuotient, squareRoot]

theorem keepsSigns_quadraticLines (h : quadraticLines constants factors = .ok steps) :
    ∀ l ∈ steps, KeepsSigns l := by
  obtain ⟨A, a, B, b, C, c, D, d, f, g, others, r, s, hconstants, -, rfl⟩ :=
    quadraticLines_cases h
  simp [quadraticSteps, keepsSigns_constantsLine, quotient, displayQuotient, dotted, spaced,
    equation, logarithm, beside, affine, cancelledIntegral, beginsUnsigned_integrationConstant]

end Derivation

namespace Denotation

open PartialFractions.Derivation

/-- Without its minus sign a formula denotes the negation and has no other one, so that a sum is
read from its terms and the signs between them. In the lines of a template and of a derivation no
term behind a plus sign begins with a minus sign. -/
theorem signs_kept {F : Type} [Field F] (D : Denotation F) :
    (∀ f p : Formula Float, f.positivePart = some p →
      D.value p = -D.value f ∧ p.positivePart = none) ∧
    (∀ precision, render precision (.sum ([] : List (Formula Float))) = .ok "0" ∧
      D.value (.sum []) = 0) ∧
    (∀ (first : Formula Float) (rest : List (Formula Float)),
      (∀ precision, render precision (.sum (first :: rest)) = (do
        let head ← render precision first
        let tail ← (rest.map emitted).mapM (renderEmitted precision)
        return " ".intercalate (head :: tail))) ∧
      D.value (.sum (first :: rest)) =
        D.value first + ((rest.map emitted).map D.emittedValue).sum) ∧
    (∀ (numerator denominator : String) (factors : List (Factor Float)) (scale : Float),
      ∀ l ∈ Template.identityLines numerator denominator factors scale, l.KeepsSigns) ∧
    (∀ (constants : Constants Float) (factors : List (Factor Float)) (steps : List (Formula Float)),
      linearLines constants factors = .ok steps → ∀ l ∈ steps, l.KeepsSigns) ∧
    (∀ (constants : Constants Float) (factors : List (Factor Float)) (steps : List (Formula Float)),
      quadraticLines constants factors = .ok steps → ∀ l ∈ steps, l.KeepsSigns) := by
  refine ⟨?_, ?_, ?_, Template.keepsSigns_identityLines, ?_, ?_⟩
  · intro f p h
    have hunsigns := unsigns_of_positivePart h
    exact ⟨D.value_of_unsigns hunsigns, hunsigns.positivePart_eq_none fun _ => isNegative_neg⟩
  · exact fun precision => ⟨rfl, rfl⟩
  · intro first rest
    refine ⟨fun precision => render_sum precision first rest, ?_⟩
    rw [D.sum_emitted]
    rfl
  · exact fun constants factors steps => keepsSigns_linearLines
  · exact fun constants factors steps => keepsSigns_quadraticLines

/-- The number that a float is, 0 if it is not finite. -/
def rational (v : Float) : ℚ :=
  match parts v with
  | .finite s m e _ => (if s == .negative then -1 else 1) * m * 2 ^ e
  | _ => 0

/-- The written rational of a negative number is the opposite of that of its magnitude. -/
theorem rational_neg (v : Float) (h : Scalar.isNegative v = true) :
    rational (-v) = -rational v := by
  cases hparts : parts v with
  | notANumber =>
    rw [Scalar.isNegative, below_eq, hparts] at h
    cases h
  | infinity sign =>
    have hneg : parts (-v) = .infinity (-sign) := by
      rw [neg_eq, hparts]
      cases sign <;> rfl
    simp [rational, hneg, hparts]
  | zero sign =>
    rw [(isPositive_of_parts_zero hparts).2] at h
    cases h
  | finite sign m e hm =>
    cases sign with
    | positive =>
      rw [(isPositive_of_parts hparts).2] at h
      cases h
    | negative =>
      rw [rational, rational, parts_neg hparts, hparts]
      change 1 * (m : ℚ) * 2 ^ e = -(-1 * m * 2 ^ e)
      ring

/-- Floats as the numbers that they are, and 3 for every text. -/
def exact : Denotation ℚ where
  text _ := 3
  number := rational
  number_neg := rational_neg
  other _ := 0

/-- The fraction -2/5 in front of x, then lines for x - 1 and x + 2 and for x² - 4 and x² + 9. -/
theorem signs_kept_sample :
    (∃ p, positivePart (.dotted [.quotient (.number (-2)) "5", "x"]) = some p ∧
      exact.value p = -exact.value (.dotted [.quotient (.number (-2)) "5", "x"])) ∧
    (∃ steps : List (Formula Float),
      linearLines [("A", 2), ("B", -3)]
        [.ofContent "x - 1".toList 1, .ofContent "x + 2".toList 1] = .ok steps ∧
      ∀ l ∈ steps, l.KeepsSigns) ∧
    ∃ steps : List (Formula Float),
      quadraticLines [("A", 0), ("B", -1), ("C", -0), ("D", 1)]
        [.ofContent "x^2 - 4".toList 1, .ofContent "x^2 + 9".toList 1] = .ok steps ∧
      ∀ l ∈ steps, l.KeepsSigns := by
  obtain ⟨hpositive, -, -, -, hlinear, hquadratic⟩ := exact.signs_kept
  have hr : Solution.rate (.ofContent "x^2 - 4".toList 1 : Factor Float) = .ok 4 := by
    decide +kernel
  have hs : Solution.rate (.ofContent "x^2 + 9".toList 1 : Factor Float) = .ok (-9) := by
    decide +kernel
  obtain ⟨steps, hsteps, -⟩ := exists_linearLines "A" "B" (2 : Float) (-3)
    (.ofContent "x - 1".toList 1) (.ofContent "x + 2".toList 1)
  have hlines := quadraticLines_eq_ok "A" "B" "C" "D" (0 : Float) (-1) (-0) 1 hr hs
  exact ⟨⟨_, rfl, (hpositive _ _ rfl).1⟩, ⟨steps, hsteps, hlinear _ _ _ hsteps⟩,
    _, hlines, hquadratic _ _ _ hlines⟩

end Denotation

end PartialFractions
