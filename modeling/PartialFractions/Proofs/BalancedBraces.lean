import PartialFractions.Proofs.ClearedIdentity
import PartialFractions.Proofs.Labels
import PartialFractions.Proofs.RequestOutcomes
import PartialFractions.Proofs.RoundedNumbers

/-!
Balanced braces. Every piece of a formula whose texts have balanced braces is rendered with balanced
braces, and so is a square root, whose braces stand in two texts of one product. The lines of a
template and of a derivation are made of such pieces.
-/
namespace PartialFractions

open Text Number

/-- No part of the text from the front closes more braces than it opens, and the whole text closes
all of them. -/
structure Balanced (s : String) : Prop where
  of_prefix : ∀ p, p <+: s.toList → p.count '\x7d' ≤ p.count '\x7b'
  count_eq : s.toList.count '\x7b' = s.toList.count '\x7d'

theorem balanced_iff {s : String} : Balanced s ↔
    (∀ p ∈ s.toList.inits, p.count '\x7d' ≤ p.count '\x7b') ∧
      s.toList.count '\x7b' = s.toList.count '\x7d' := by
  simp only [List.mem_inits]
  exact ⟨fun h => ⟨h.of_prefix, h.count_eq⟩, fun h => ⟨h.1, h.2⟩⟩

instance (s : String) : Decidable (Balanced s) := decidable_of_iff' _ balanced_iff

namespace Balanced

variable {s t : String}

theorem of_notMem (hopen : '\x7b' ∉ s.toList) (hclose : '\x7d' ∉ s.toList) : Balanced s where
  of_prefix p hp := by
    rw [List.count_eq_zero_of_not_mem fun h => hclose (hp.subset h)]
    exact Nat.zero_le _
  count_eq := by rw [List.count_eq_zero_of_not_mem hopen, List.count_eq_zero_of_not_mem hclose]

/-- The front of two texts is a front of the first one, or the first one and a front of the other
one. -/
theorem prefix_append_cases {u v p : List Char} (h : p <+: u ++ v) :
    p <+: u ∨ ∃ q, q <+: v ∧ p = u ++ q := by
  rcases List.prefix_or_prefix_of_prefix h (List.prefix_append u v) with hp | ⟨q, rfl⟩
  · exact Or.inl hp
  · exact Or.inr ⟨q, (List.prefix_append_right_inj u).mp h, rfl⟩

/-- A prefix of the joined text ends in the first text or is all of it and a prefix of the second.
-/
theorem append (hs : Balanced s) (ht : Balanced t) : Balanced (s ++ t) where
  of_prefix p hp := by
    rw [String.toList_append] at hp
    rcases prefix_append_cases hp with hp | ⟨q, hq, rfl⟩
    · exact hs.of_prefix p hp
    · have hfirst := hs.count_eq
      have hsecond := ht.of_prefix q hq
      simp only [List.count_append]
      omega
  count_eq := by
    rw [String.toList_append, List.count_append, List.count_append, hs.count_eq, ht.count_eq]

/-- Inside the pair every prefix has one open brace more. -/
theorem braced (hs : Balanced s) : Balanced ("\x7b" ++ s ++ "\x7d") where
  of_prefix p hp := by
    have htext : ("\x7b" ++ s ++ "\x7d").toList = '\x7b' :: (s.toList ++ ['\x7d']) := by
      simp [String.toList_append]
    rw [htext] at hp
    rcases List.prefix_cons_iff.mp hp with rfl | ⟨q, rfl, hq⟩
    · simp
    · -- one brace is open in front of the text
      have hopen : ('\x7b' :: q).count '\x7b' = q.count '\x7b' + 1 := by simp
      have hclose : ('\x7b' :: q).count '\x7d' = q.count '\x7d' := by simp
      rcases prefix_append_cases hq with hq | ⟨r, hr, rfl⟩
      · have hinner := hs.of_prefix q hq
        omega
      · have hlast : r.count '\x7d' ≤ 1 := hr.sublist.count_le '\x7d'
        have hall := hs.count_eq
        simp only [List.count_append] at hopen hclose
        omega
  count_eq := by
    simp [String.toList_append, hs.count_eq]

theorem empty : Balanced "" := by decide

theorem intercalate {separator : String} {texts : List String} (hseparator : Balanced separator)
    (htexts : ∀ t ∈ texts, Balanced t) : Balanced (separator.intercalate texts) := by
  induction texts with
  | nil => exact empty
  | cons s texts ih =>
    obtain ⟨hs, hrest⟩ := List.forall_mem_cons.mp htexts
    cases texts with
    | nil => rwa [String.intercalate_singleton]
    | cons t texts =>
      rw [String.intercalate_cons_cons]
      exact (hs.append hseparator).append (ih hrest)

theorem ofNat (index : ℕ) : Balanced (Label.ofNat index) := by
  have hletter := Label.toNat_letter index
  have hdigits : ∀ c ∈ (if index / 26 = 0 then [] else Nat.toDigits 10 (index / 26)),
      c.isDigit = true := by
    split
    · simp
    · exact isDigit_toDigits _
  have hnone (c : Char) (hc : 90 < c.toNat) (hdigit : c.isDigit = false) :
      c ∉ (Label.ofNat index).toList := by
    rw [Label.toList_ofNat]
    rintro (_ | ⟨_, hmem⟩)
    · omega
    · rw [hdigits c hmem] at hdigit
      cases hdigit
  exact of_notMem (hnone '\x7b' (by decide) (by decide)) (hnone '\x7d' (by decide) (by decide))

theorem toString_int (n : ℤ) : Balanced (toString n) := by
  have hdigits (m : ℕ) : Balanced (toString m) := by
    have htext : (toString m).toList = Nat.toDigits 10 m := String.toList_ofList
    have hnone (c : Char) (hc : c.isDigit = false) : c ∉ (toString m).toList := by
      intro h
      rw [htext] at h
      rw [isDigit_toDigits m c h] at hc
      cases hc
    exact of_notMem (hnone '\x7b' (by decide)) (hnone '\x7d' (by decide))
  cases n with
  | ofNat m => exact hdigits m
  | negSucc m =>
    have hsign : Balanced "-" := by decide
    exact hsign.append (hdigits (m + 1))

theorem roundedText {precision : ℤ} {v : Float} {text : String}
    (h : Scalar.roundedText precision v = .ok text) : Balanced text := by
  obtain ⟨t, ht, htext⟩ := exists_unsigned h
  have hnone (c : Char) (hc : c ≠ '-') (hmem : c ∉ t) : c ∉ text.toList := by
    rw [htext]
    split <;> simp [hc, hmem]
  exact of_notMem (hnone '\x7b' (by decide) ht.open_notMem)
    (hnone '\x7d' (by decide) ht.close_notMem)

end Balanced

namespace Formula

def RendersBalanced (f : Formula Float) : Prop :=
  ∀ (precision : ℤ) (unsigned : Bool) (text : String),
    renderWith precision unsigned f = .ok text → Balanced text

section Nodes

variable {f g : Formula Float} {fs : List (Formula Float)} {precision : ℤ}

theorem rendersBalanced_latex {text : String} (h : Balanced text) :
    RendersBalanced (.latex text) := by
  intro precision unsigned shown hshown
  rwa [← Except.ok.inj hshown]

theorem rendersBalanced_number (v : Float) : RendersBalanced (.number v) := by
  intro precision unsigned text htext
  exact .roundedText (mapError_eq_ok.mp htext)

theorem rendersBalanced_group (h : RendersBalanced f) : RendersBalanced (.group f) := by
  intro precision unsigned text htext
  obtain ⟨inner, hinner, htext⟩ := bind_eq_ok.mp htext
  rw [← Except.ok.inj htext]
  have hleft : Balanced "(" := by decide
  have hright : Balanced ")" := by decide
  exact (hleft.append (h _ _ _ hinner)).append hright

/-- The exponent stands in a pair of braces of its own, and an exponent of one is not written. -/
theorem rendersBalanced_power {n : ℤ} (h : RendersBalanced f) :
    RendersBalanced (.power f n) := by
  intro precision unsigned text htext
  rw [renderWith] at htext
  split at htext
  · exact h _ _ _ htext
  · obtain ⟨base, hbase, htext⟩ := bind_eq_ok.mp htext
    rw [← Except.ok.inj htext]
    have hcaret : Balanced "^" := by decide
    have hopen : "^\x7b" = "^" ++ "\x7b" := rfl
    rw [hopen]
    simpa only [String.append_assoc] using
      (h _ _ _ hbase).append (hcaret.append (Balanced.toString_int n).braced)

theorem balanced_of_renderFactors {texts : List String} (unsigned : Bool)
    (h : ∀ f ∈ fs, RendersBalanced f) (htexts : renderFactors precision unsigned fs = .ok texts) :
    ∀ t ∈ texts, Balanced t := by
  induction fs generalizing unsigned texts with
  | nil =>
    rw [← Except.ok.inj htexts]
    simp
  | cons f fs ih =>
    obtain ⟨hf, hfs⟩ := List.forall_mem_cons.mp h
    obtain ⟨head, hhead, htexts⟩ := bind_eq_ok.mp htexts
    obtain ⟨tail, htail, htexts⟩ := bind_eq_ok.mp htexts
    rw [← Except.ok.inj htexts]
    exact List.forall_mem_cons.mpr ⟨hf _ _ _ hhead, ih false hfs htail⟩

theorem balanced_of_renderTerms {texts : List String} (h : ∀ f ∈ fs, RendersBalanced f)
    (htexts : renderTerms precision fs = .ok texts) : ∀ t ∈ texts, Balanced t := by
  induction fs generalizing texts with
  | nil =>
    rw [← Except.ok.inj htexts]
    simp
  | cons f fs ih =>
    obtain ⟨hf, hfs⟩ := List.forall_mem_cons.mp h
    obtain ⟨body, hbody, htexts⟩ := bind_eq_ok.mp htexts
    obtain ⟨tail, htail, htexts⟩ := bind_eq_ok.mp htexts
    rw [← Except.ok.inj htexts]
    refine List.forall_mem_cons.mpr ⟨.append ?_ (hf _ _ _ hbody), ih hfs htail⟩
    split <;> decide

theorem rendersBalanced_product {separator : String} (h : ∀ f ∈ fs, RendersBalanced f)
    (hseparator : Balanced separator) : RendersBalanced (.product fs separator) := by
  intro precision unsigned text htext
  obtain ⟨texts, htexts, htext⟩ := bind_eq_ok.mp htext
  rw [← Except.ok.inj htext]
  exact hseparator.intercalate (balanced_of_renderFactors unsigned h htexts)

/-- The signs between the summands hold no brace. -/
theorem rendersBalanced_sum (h : ∀ f ∈ fs, RendersBalanced f) :
    RendersBalanced (.sum fs) := by
  intro precision unsigned text htext
  have hspace : Balanced " " := by decide
  cases fs with
  | nil =>
    rw [← Except.ok.inj htext]
    decide
  | cons f fs =>
    obtain ⟨hf, hfs⟩ := List.forall_mem_cons.mp h
    obtain ⟨head, hhead, htext⟩ := bind_eq_ok.mp htext
    obtain ⟨tail, htail, htext⟩ := bind_eq_ok.mp htext
    rw [← Except.ok.inj htext]
    exact hspace.intercalate
      (List.forall_mem_cons.mpr ⟨hf _ _ _ hhead, balanced_of_renderTerms hfs htail⟩)

/-- Both arguments stand in a pair of braces, with or without the display style around them. -/
theorem rendersBalanced_fraction {display : Bool} (hf : RendersBalanced f)
    (hg : RendersBalanced g) : RendersBalanced (.fraction f g display) := by
  intro precision unsigned text htext
  obtain ⟨above, habove, htext⟩ := bind_eq_ok.mp htext
  obtain ⟨below, hbelow, htext⟩ := bind_eq_ok.mp htext
  rw [← Except.ok.inj htext]
  have hbraces : "\x7d\x7b" = "\x7d" ++ "\x7b" := rfl
  have hpair (name : String) (hname : Balanced name) :
      Balanced (name ++ "\x7b" ++ above ++ "\x7d\x7b" ++ below ++ "\x7d") := by
    rw [hbraces]
    simpa only [String.append_assoc] using
      (hname.append (hf _ _ _ habove).braced).append (hg _ _ _ hbelow).braced
  cases display with
  | true => exact hpair "\\dfrac" (by decide)
  | false => exact hpair "\\frac" (by decide)

theorem rendersBalanced_absolute (h : RendersBalanced f) :
    RendersBalanced (.absolute f) := by
  intro precision unsigned text htext
  obtain ⟨inner, hinner, htext⟩ := bind_eq_ok.mp htext
  rw [← Except.ok.inj htext]
  have hleft : Balanced "| " := by decide
  have hright : Balanced " |" := by decide
  exact (hleft.append (h _ _ _ hinner)).append hright

theorem rendersBalanced_integral {var : String} (h : RendersBalanced f)
    (hvar : Balanced var) : RendersBalanced (.integral f var) := by
  intro precision unsigned text htext
  obtain ⟨body, hbody, htext⟩ := bind_eq_ok.mp htext
  rw [← Except.ok.inj htext]
  have hleft : Balanced "\\int " := by decide
  have hright : Balanced " ~\\mathrm\x7bd\x7d" := by decide
  exact ((hleft.append (h _ _ _ hbody)).append hright).append hvar

theorem rendersBalanced_relation {op : String} (hf : RendersBalanced f)
    (hg : RendersBalanced g) (hop : Balanced op) : RendersBalanced (.relation f g op) := by
  intro precision unsigned text htext
  obtain ⟨left, hleft, htext⟩ := bind_eq_ok.mp htext
  obtain ⟨right, hright, htext⟩ := bind_eq_ok.mp htext
  rw [← Except.ok.inj htext]
  have hspace : Balanced " " := by decide
  exact ((((hf _ _ _ hleft).append hspace).append hop).append hspace).append (hg _ _ _ hright)

/-- The brace that the first text of a square root opens is closed by its last one. -/
theorem rendersBalanced_squareRoot (v : Float) :
    RendersBalanced (Derivation.squareRoot v) := by
  intro precision unsigned text htext
  obtain ⟨texts, htexts, htext⟩ := bind_eq_ok.mp htext
  obtain ⟨opening, hopening, htexts⟩ := bind_eq_ok.mp htexts
  obtain ⟨others, hothers, htexts⟩ := bind_eq_ok.mp htexts
  obtain ⟨root, hroot, hothers⟩ := bind_eq_ok.mp hothers
  obtain ⟨last, hlast, hothers⟩ := bind_eq_ok.mp hothers
  obtain rfl := Except.ok.inj hopening
  obtain rfl : ["\x7d"] = last := Except.ok.inj hlast
  obtain rfl := Except.ok.inj hothers
  obtain rfl := Except.ok.inj htexts
  rw [← Except.ok.inj htext]
  have hname : Balanced "\\sqrt" := by decide
  have hinner : Balanced root := rendersBalanced_number v _ _ _ hroot
  have hopen : "\\sqrt\x7b" = "\\sqrt" ++ "\x7b" := rfl
  rw [String.intercalate_cons_cons, String.intercalate_cons_cons, String.intercalate_singleton,
    hopen]
  simpa only [String.append_assoc, String.append_empty, String.empty_append] using
    hname.append hinner.braced

end Nodes

section Closed

variable {K : Type} {f g : Formula K} {fs : List (Formula K)}

/-- The texts of the formula have balanced braces, up to those of square roots. -/
inductive Closed : Formula K → Prop
  | latex {text : String} (h : Balanced text) : Closed (.latex text)
  | number (v : K) : Closed (.number v)
  | squareRoot (v : K) : Closed (.product [.latex "\\sqrt\x7b", .number v, .latex "\x7d"] "")
  | group {f : Formula K} (h : Closed f) : Closed (.group f)
  | power {f : Formula K} {n : ℤ} (h : Closed f) : Closed (.power f n)
  | product {fs : List (Formula K)} {separator : String} (h : ∀ f ∈ fs, Closed f)
      (hseparator : Balanced separator) : Closed (.product fs separator)
  | sum {fs : List (Formula K)} (h : ∀ f ∈ fs, Closed f) : Closed (.sum fs)
  | fraction {f g : Formula K} {display : Bool} (hf : Closed f) (hg : Closed g) :
      Closed (.fraction f g display)
  | absolute {f : Formula K} (h : Closed f) : Closed (.absolute f)
  | integral {f : Formula K} {var : String} (h : Closed f) (hvar : Balanced var) :
      Closed (.integral f var)
  | relation {f g : Formula K} {op : String} (hf : Closed f) (hg : Closed g)
      (hop : Balanced op) : Closed (.relation f g op)

@[simp] theorem closed_latex {text : String} : Closed (K := K) (.latex text) ↔ Balanced text :=
  ⟨fun h => by cases h; assumption, .latex⟩

@[simp] theorem closed_number (v : K) : Closed (.number v) := .number v

@[simp] theorem closed_squareRoot (v : K) : Closed (Derivation.squareRoot v) := .squareRoot v

@[simp] theorem closed_group : Closed (.group f) ↔ Closed f :=
  ⟨fun h => by cases h; assumption, .group⟩

@[simp] theorem closed_power {n : ℤ} : Closed (.power f n) ↔ Closed f :=
  ⟨fun h => by cases h; assumption, .power⟩

/-- A product is closed with its parts. A square root is too, though its parts by themselves are not
balanced. -/
@[simp] theorem closed_product {separator : String} : Closed (.product fs separator) ↔
    ((∀ f ∈ fs, Closed f) ∧ Balanced separator) ∨
      ∃ v, .product fs separator = Derivation.squareRoot v := by
  constructor
  · intro h
    cases h with
    | squareRoot v => exact Or.inr ⟨v, rfl⟩
    | product h hseparator => exact Or.inl ⟨h, hseparator⟩
  · rintro (⟨h, hseparator⟩ | ⟨v, hv⟩)
    · exact .product h hseparator
    · exact hv ▸ closed_squareRoot v

@[simp] theorem closed_sum : Closed (.sum fs) ↔ ∀ f ∈ fs, Closed f :=
  ⟨fun h => by cases h; assumption, .sum⟩

@[simp] theorem closed_fraction {display : Bool} :
    Closed (.fraction f g display) ↔ Closed f ∧ Closed g :=
  ⟨fun h => by cases h; exact ⟨by assumption, by assumption⟩, fun h => .fraction h.1 h.2⟩

@[simp] theorem closed_absolute : Closed (.absolute f) ↔ Closed f :=
  ⟨fun h => by cases h; assumption, .absolute⟩

@[simp] theorem closed_integral {var : String} :
    Closed (.integral f var) ↔ Closed f ∧ Balanced var :=
  ⟨fun h => by cases h; exact ⟨by assumption, by assumption⟩, fun h => .integral h.1 h.2⟩

@[simp] theorem closed_relation {op : String} :
    Closed (.relation f g op) ↔ Closed f ∧ Closed g ∧ Balanced op :=
  ⟨fun h => by cases h; exact ⟨by assumption, by assumption, by assumption⟩,
    fun h => .relation h.1 h.2.1 h.2.2⟩

end Closed

/-- Closed formulas are rendered with balanced braces. -/
theorem Closed.rendersBalanced {f : Formula Float} (h : Closed f) : RendersBalanced f := by
  induction h with
  | latex h => exact rendersBalanced_latex h
  | number v => exact rendersBalanced_number v
  | squareRoot v => exact rendersBalanced_squareRoot v
  | group _ ih => exact rendersBalanced_group ih
  | power _ ih => exact rendersBalanced_power ih
  | product _ hseparator ih => exact rendersBalanced_product ih hseparator
  | sum _ ih => exact rendersBalanced_sum ih
  | fraction _ _ ihf ihg => exact rendersBalanced_fraction ihf ihg
  | absolute _ ih => exact rendersBalanced_absolute ih
  | integral _ hvar ih => exact rendersBalanced_integral ih hvar
  | relation _ _ hop ihf ihg => exact rendersBalanced_relation ihf ihg hop

/-- In particular a closed formula is one that can be drawn at every accepted precision. -/
theorem Closed.drawn {K : Type} {f : Formula K} (h : Closed f) : Drawn f := by
  induction h with
  | latex _ => exact .latex _
  | number v => exact .number v
  | squareRoot v => simp
  | group _ ih => exact .group ih
  | power _ ih => exact .power ih
  | product _ _ ih => exact .product ih
  | sum _ ih => exact .sum ih
  | fraction _ _ ihf ihg => exact .fraction ihf ihg
  | absolute _ ih => exact .absolute ih
  | integral _ _ ih => exact .integral ih
  | relation _ _ _ ihf ihg => exact .relation ihf ihg

/-- Every row of an array of closed lines is balanced by itself. -/
theorem balanced_of_rows {precision : ℤ} {lines : List (Formula Float)} {rows : List String}
    (h : ∀ f ∈ lines, Closed f) (hrows : lines.mapM (render precision) = .ok rows) :
    ∀ row ∈ rows, Balanced row := by
  induction lines generalizing rows with
  | nil =>
    rw [← Except.ok.inj hrows]
    simp
  | cons f lines ih =>
    obtain ⟨hf, hlines⟩ := List.forall_mem_cons.mp h
    rw [List.mapM_cons] at hrows
    obtain ⟨row, hrow, hrows⟩ := bind_eq_ok.mp hrows
    obtain ⟨others, hothers, hrows⟩ := bind_eq_ok.mp hrows
    rw [← Except.ok.inj hrows]
    exact List.forall_mem_cons.mpr ⟨hf.rendersBalanced _ _ _ hrow, ih hlines hothers⟩

/-- An array of closed lines has balanced braces. -/
theorem balanced_of_renderArray {precision : ℤ} {lines : List (Formula Float)} {text : String}
    (h : ∀ f ∈ lines, Closed f) (htext : renderArray precision lines = .ok text) :
    Balanced text := by
  obtain ⟨rows, hrows, htext⟩ := bind_eq_ok.mp htext
  have hopening : Balanced "\\begin\x7barray\x7d\x7bl\x7d \\displaystyle\n" := by decide
  have hbreak : Balanced "\n\\\\ \\\\ \\displaystyle\n" := by decide
  have hclosing : Balanced "\n\\end\x7barray\x7d" := by decide
  rw [← Except.ok.inj htext]
  exact (hopening.append (hbreak.intercalate (balanced_of_rows h hrows))).append hclosing

end Formula

open Formula

variable {K : Type} {factors : List (Factor K)}

namespace Template

theorem closed_raised {f : Factor K} (h : Balanced f.content) (n : ℤ) : Closed (f.raised n) := by
  simp [Factor.raised, h]

theorem closed_numerator (s : Slot K) : Closed s.numerator := by
  have hlabel := Balanced.ofNat
  unfold Slot.numerator
  split <;> simp +decide [beside, hlabel]

theorem closed_formula (h : ∀ f ∈ factors, Balanced f.content) : Closed (formula factors) := by
  simp only [formula, closed_sum, List.forall_mem_map]
  intro s hs
  have hcontent := h _ ((slots_within factors s hs).perm.subset (List.mem_cons_self ..))
  unfold term
  split <;> simp [quotient, closed_numerator, closed_raised, hcontent]

theorem closed_expanded (h : ∀ f ∈ factors, Balanced f.content) : Closed (expanded factors) := by
  simp only [expanded, closed_sum, List.forall_mem_map]
  intro s hs
  have hwithin := (slots_within factors s hs).perm.subset
  have hcontent := h _ (hwithin (List.mem_cons_self ..))
  have hleading : Closed s.leadingFactor := by
    unfold Slot.leadingFactor
    split <;> simp [closed_numerator]
  have hothers : ∀ f ∈ s.others, Closed (f.raised f.multiplicity) :=
    fun f hf => closed_raised (h f (hwithin (List.mem_cons_of_mem _ hf))) _
  refine .product ?_ .empty
  simp only [List.forall_mem_append, List.forall_mem_cons, List.forall_mem_map]
  refine ⟨⟨hleading, ?_⟩, hothers⟩
  split <;> simp [closed_raised hcontent]

variable [Neg K] [Scalar K]

theorem closed_scaled {f : Formula K} (h : Closed f) (scale : K) : Closed (scaled f scale) := by
  unfold scaled
  split
  · exact h
  · split <;> simp +decide [beside, h]

theorem closed_identityLines {numerator denominator : String} (hnumerator : Balanced numerator)
    (hdenominator : Balanced denominator) (h : ∀ f ∈ factors, Balanced f.content) (scale : K) :
    ∀ l ∈ identityLines numerator denominator factors scale, Closed l := by
  have hcleared := closed_scaled (closed_expanded h) scale
  simp +decide [identityLines, equation, quotient, closed_formula h, hcleared, hnumerator,
    hdenominator]

end Template

namespace Derivation

variable {constants : Constants K} {steps : List (Formula K)}

theorem closed_constantsLine (h : ∀ c ∈ constants, Balanced c.1) :
    Closed (constantsLine constants) := by
  refine .product (List.forall_mem_map.mpr ?_) (by decide)
  rintro ⟨label, v⟩ hmem
  simp +decide [equation, h _ hmem]

theorem balanced_integrationConstant (labels : List String) :
    Balanced (integrationConstant labels) := by
  unfold integrationConstant
  split <;> decide

/-- The derivation over two linear factors only puts labels and contents into closed forms. -/
theorem closed_linearLines (hlabels : ∀ c ∈ constants, Balanced c.1)
    (hfactors : ∀ f ∈ factors, Balanced f.content)
    (h : linearLines constants factors = .ok steps) : ∀ l ∈ steps, Closed l := by
  have hconstants := closed_constantsLine hlabels
  obtain ⟨A, a, B, b, f, g, others, rfl, rfl, h⟩ := linearLines_cases h
  obtain ⟨hf, hg, -⟩ : Balanced f.content ∧ Balanced g.content ∧ _ := by
    simpa using hfactors
  obtain ⟨lines, hlines, hclosed⟩ : ∃ lines,
      linearLines [(A, a), (B, b)] [f, g] = .ok lines ∧ ∀ l ∈ lines, Closed l := by
    refine ⟨_, rfl, ?_⟩
    simp +decide [hconstants, quotient, dotted, logarithm, beside, balanced_integrationConstant,
      hf, hg]
  obtain rfl := Except.ok.inj (h.symm.trans hlines)
  exact hclosed

/-- The line between u and x. -/
theorem balanced_substitution :
    Balanced ("\\mathrm\x7bd\x7du = 2x ~\\mathrm\x7bd\x7dx ~~\\implies~~ " ++
      "\\mathrm\x7bd\x7dx = \\dfrac\x7b1\x7d\x7b2x\x7d ~\\mathrm\x7bd\x7du") := by
  decide +kernel

variable [Neg K] [Scalar K]

theorem closed_reciprocalAntiderivative (rate : K) : Closed (reciprocalAntiderivative rate) := by
  unfold reciprocalAntiderivative
  split <;> simp +decide [beside, displayQuotient]

variable [Div K]

/-- The same over two quadratic factors, whose antiderivatives bring the square roots. -/
theorem closed_quadraticLines (hlabels : ∀ c ∈ constants, Balanced c.1)
    (hfactors : ∀ f ∈ factors, Balanced f.content)
    (h : quadraticLines constants factors = .ok steps) : ∀ l ∈ steps, Closed l := by
  have hconstants := closed_constantsLine hlabels
  obtain ⟨A, a, B, b, C, c, D, d, f, g, others, r, s, -, rfl, rfl⟩ := quadraticLines_cases h
  obtain ⟨hf, hg, -⟩ : Balanced f.content ∧ Balanced g.content ∧ _ := by
    simpa using hfactors
  have hsubstitution := closed_latex (K := K).mpr balanced_substitution
  simp only [quadraticSteps, List.forall_mem_cons]
  refine ⟨hconstants, ?_, ?_, ?_, ?_, ?_, hsubstitution, ?_, ?_, ?_, ?_, List.forall_mem_nil _⟩
  all_goals
    simp +decide [quotient, displayQuotient, dotted, spaced, equation, logarithm, beside, affine,
      cancelledIntegral, balanced_integrationConstant, closed_reciprocalAntiderivative, hf, hg]

end Derivation

namespace Formula

open PartialFractions.Derivation

/-- From texts with balanced braces the lines of a template, with those of a derivation behind them
or not, are rendered with balanced braces, and every precision that is accepted gives a text. -/
theorem renderArray_balanced {numerator denominator : String} {factors solved : List (Factor Float)}
    {scale : Float} {constants : Constants Float} {steps : List (Formula Float)} {precision : ℤ}
    (hnumerator : Balanced numerator) (hdenominator : Balanced denominator)
    (hfactors : ∀ f ∈ factors, Balanced f.content) (hsolved : ∀ f ∈ solved, Balanced f.content)
    (hlabels : ∀ c ∈ constants, Balanced c.1)
    (hsteps : steps = [] ∨ linearLines constants solved = .ok steps ∨
      quadraticLines constants solved = .ok steps) :
    (∀ text, renderArray precision
      (Template.identityLines numerator denominator factors scale ++ steps) = .ok text →
        Balanced text) ∧
    (0 ≤ precision → precision < 2147483648 → ∃ text, renderArray precision
      (Template.identityLines numerator denominator factors scale ++ steps) = .ok text ∧
        Balanced text) := by
  have hidentity := Template.closed_identityLines hnumerator hdenominator hfactors scale
  have hclosed : ∀ l ∈ steps, Closed l := by
    rcases hsteps with rfl | hlinear | hquadratic
    · exact List.forall_mem_nil _
    · exact closed_linearLines hlabels hsolved hlinear
    · exact closed_quadraticLines hlabels hsolved hquadratic
  have hlines := List.forall_mem_append.mpr ⟨hidentity, hclosed⟩
  refine ⟨fun text => balanced_of_renderArray hlines, ?_⟩
  intro hlow hhigh
  have hnumber := exists_roundedText (exists_significantCount hlow hhigh)
  obtain ⟨rows, hrows, -⟩ := exists_rows (fun l hl => (hlines l hl).drawn) hnumber
  have htext : ∃ text, renderArray precision
      (Template.identityLines numerator denominator factors scale ++ steps) = .ok text := by
    rw [renderArray, hrows]
    exact ⟨_, rfl⟩
  obtain ⟨text, htext⟩ := htext
  exact ⟨text, htext, balanced_of_renderArray hlines htext⟩

/-- The factors x^{2} - 4, with a logarithm and a square root, and x^{2} + 9, with an arctangent. -/
theorem renderArray_balanced_quadratic : ∃ steps text,
    quadraticLines [("A", (0 : Float)), ("B", -1), ("C", 0), ("D", 1)]
      [.ofContent "x^\x7b2\x7d - 4".toList 1, .ofContent "x^\x7b2\x7d + 9".toList 1] = .ok steps ∧
    renderArray 4 (Template.identityLines "13" "2(x^\x7b2\x7d - 4)(x^\x7b2\x7d + 9)"
      [.ofContent "x^\x7b2\x7d - 4".toList 1, .ofContent "x^\x7b2\x7d + 9".toList 1] 2 ++ steps) =
        .ok text ∧
    Balanced text := by
  have hr : Solution.rate (.ofContent "x^\x7b2\x7d - 4".toList 1 : Factor Float) = .ok 4 := by
    decide +kernel
  have hs : Solution.rate (.ofContent "x^\x7b2\x7d + 9".toList 1 : Factor Float) = .ok (-9) := by
    decide +kernel
  have hlines := quadraticLines_eq_ok "A" "B" "C" "D" (0 : Float) (-1) 0 1 hr hs
  have hfactors : ∀ f ∈ [(.ofContent "x^\x7b2\x7d - 4".toList 1 : Factor Float),
      .ofContent "x^\x7b2\x7d + 9".toList 1], Balanced f.content := by
    simp +decide
  have hlabels : ∀ c ∈ [("A", (0 : Float)), ("B", -1), ("C", 0), ("D", 1)], Balanced c.1 := by
    simp +decide
  have hnumerator : Balanced "13" := by decide
  have hdenominator : Balanced "2(x^\x7b2\x7d - 4)(x^\x7b2\x7d + 9)" := by decide +kernel
  obtain ⟨text, htext, hbalanced⟩ := (@renderArray_balanced _ _ _ _ 2 _ _ 4 hnumerator hdenominator
    hfactors hfactors hlabels (Or.inr (Or.inr hlines))).2 (by decide) (by decide)
  exact ⟨_, text, hlines, htext, hbalanced⟩

end Formula

end PartialFractions
