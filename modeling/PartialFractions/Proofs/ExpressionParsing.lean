import PartialFractions.Proofs.TokenScanning

/-!
The parser on rows of tokens that are expressions of the notation. A row is read at its level if the
fuel is enough for its length, whatever stands behind it that does not go on at this level. What
follows a product or a sum is read with it in hand, so these two levels are told by what the parser
goes on with.
-/
namespace PartialFractions.Verification

namespace Token

variable {ts us : List Token}

theorem joinTimes_cons {t : Token} (h : t ≠ .times) (ts : List Token) :
    joinTimes (t :: ts) = t :: joinTimes ts := by
  cases t <;> first | rfl | exact absurd rfl h

theorem joinTimes_times (h : ∃ t ∈ ts.head?, t ≠ .times) :
    joinTimes (.times :: ts) = .times :: joinTimes ts := by
  obtain ⟨t, ht, hne⟩ := h
  obtain ⟨ts, rfl⟩ := List.head?_eq_some_iff.mp ht
  cases t <;> first | rfl | exact absurd rfl hne

/-- No sign of multiplication is joined over the end of a factor. -/
theorem joinTimes_append (h : ∃ t ∈ ts.getLast?, t ≠ .times) (us : List Token) :
    joinTimes (ts ++ us) = joinTimes ts ++ joinTimes us := by
  fun_induction joinTimes ts with
  | case1 rest ih =>
    cases rest with
    | nil => simp at h
    | cons t rest =>
      have hlater := ih (by simpa using h)
      simpa [joinTimes] using hlater
  | case2 t rest hne ih =>
    cases rest with
    | nil =>
      have htimes : t ≠ .times := by simpa using h
      rw [List.singleton_append, joinTimes_cons htimes]
      rfl
    | cons u rest =>
      have hlater := ih (by simpa using h)
      by_cases ht : t = .times
      · have hu : u ≠ .times := by
          rintro rfl
          exact hne rest ht rfl
        rw [ht, List.cons_append, List.cons_append, joinTimes_times ⟨u, rfl, hu⟩,
          ← List.cons_append, hlater, List.cons_append]
      · rw [List.cons_append, joinTimes_cons ht, hlater, List.cons_append]
  | case3 => simp at h

end Token

namespace Arithmetic

variable {K : Type} {ts us : List Token} {e a b : Arithmetic K} {level : Level}

/-- No two signs of multiplication follow each other in an expression. -/
theorem Derives.joinTimes_eq (h : Derives level ts e) : Token.joinTimes ts = ts := by
  induction h with
  | literal | x => rfl
  | group h ih =>
    rw [Token.joinTimes_cons (by simp), Token.joinTimes_append h.exists_getLast?, ih]
    rfl
  | base h ih | unsigned h ih | factor h ih | term h ih => exact ih
  | plus h ih | minus h ih => rw [Token.joinTimes_cons (by simp), ih]
  | times ha hb iha ihb =>
    rw [Token.joinTimes_append ha.exists_getLast?, Token.joinTimes_times hb.exists_head?, iha, ihb]
  | juxtapose ha hb iha ihb => rw [Token.joinTimes_append ha.exists_getLast?, iha, ihb]
  | power ha hb iha ihb | divide ha hb iha ihb | add ha hb iha ihb | subtract ha hb iha ihb =>
    rw [Token.joinTimes_append ha.exists_getLast?, Token.joinTimes_cons (by simp), iha, ihb]

def ReadsAtom (ts : List Token) (e : Arithmetic K) : Prop :=
  ∀ fuel rest, 8 * ts.length ≤ fuel + 7 → atomFrom fuel (ts ++ rest) = some (e, rest)

def ReadsPower (ts : List Token) (e : Arithmetic K) : Prop :=
  ∀ fuel rest, 8 * ts.length ≤ fuel + 6 → .power ∉ rest.head? →
    powerFrom fuel (ts ++ rest) = some (e, rest)

def ReadsSigned (ts : List Token) (e : Arithmetic K) : Prop :=
  ∀ fuel rest, 8 * ts.length ≤ fuel + 5 → .power ∉ rest.head? →
    signedFrom fuel (ts ++ rest) = some (e, rest)

/-- Behind the tokens the parser goes on with the factors that follow their product. -/
def ReadsFactors (ts : List Token) (e : Arithmetic K) : Prop :=
  ∃ n < ts.length, ∀ fuel rest, 8 * ts.length ≤ fuel + n + 5 → .power ∉ rest.head? →
    productFrom (fuel + n + 1) (ts ++ rest) = moreFactors fuel e rest

/-- A product does not go on with these tokens. -/
def EndsProduct (ts : List Token) : Prop := ∀ t ∈ ts.head?, t ∈ [.plus, .minus, .closing]

/-- Behind the tokens the parser goes on with the terms that follow their sum. -/
def ReadsTerms (ts : List Token) (e : Arithmetic K) : Prop :=
  ∃ n < ts.length, ∀ fuel rest, 8 * ts.length ≤ fuel + n + 4 → EndsProduct rest →
    sumFrom (fuel + n + 1) (ts ++ rest) = moreTerms fuel e rest

def EndsSum (ts : List Token) : Prop := ∀ t ∈ ts.head?, t = .closing

theorem EndsSum.endsProduct (h : EndsSum ts) : EndsProduct ts := by
  intro t ht
  rw [h t ht]
  decide

theorem EndsProduct.power_notMem (h : EndsProduct ts) : .power ∉ ts.head? :=
  fun ht => absurd (h _ ht) (by decide)

theorem exists_fuel {n k fuel : ℕ} (h : 8 * n ≤ fuel + k) (hk : k < 8) (hn : 0 < n) :
    ∃ f, fuel = f + 1 ∧ 8 * n ≤ f + (k + 1) := by
  cases fuel with
  | zero => omega
  | succ f => exact ⟨f, rfl, by omega⟩

section Powers

theorem readsAtom_literal (l : Literal) : ReadsAtom [.literal l] (.literal l : Arithmetic K) := by
  intro fuel rest hfuel
  obtain ⟨f, rfl, -⟩ := exists_fuel hfuel (by decide) (by simp)
  rfl

theorem readsAtom_x : ReadsAtom [.x] (.x : Arithmetic K) := by
  intro fuel rest hfuel
  obtain ⟨f, rfl, -⟩ := exists_fuel hfuel (by decide) (by simp)
  rfl

/-- An atom that is not followed by an exponent is a power. -/
theorem ReadsAtom.readsPower (h : ReadsAtom ts e) (hts : 0 < ts.length) : ReadsPower ts e := by
  intro fuel rest hfuel hrest
  obtain ⟨f, rfl, hf⟩ := exists_fuel hfuel (by decide) hts
  rw [powerFrom, h f rest hf, Option.bind_some]
  split
  · rename_i heq
    obtain ⟨rfl, rfl⟩ := Prod.mk.inj heq
    exact absurd rfl hrest
  · rename_i heq
    rw [← heq]

/-- An atom with an exponent. -/
theorem ReadsAtom.power (ha : ReadsAtom ts a) (hb : ReadsSigned us b) :
    ReadsPower (ts ++ .power :: us) (.power a b) := by
  intro fuel rest hfuel hrest
  obtain ⟨f, rfl, hf⟩ := exists_fuel hfuel (by decide) (by simp)
  rw [List.length_append, List.length_cons] at hf
  have hexponent := hb f rest (by omega) hrest
  rw [powerFrom, List.append_assoc, ha f _ (by omega)]
  simp only [List.cons_append, Option.bind_some, hexponent]
  rfl

theorem signedFrom_of_startsFactor (h : StartsFactor ts) (fuel : ℕ) (rest : List Token) :
    (signedFrom (fuel + 1) (ts ++ rest) : Option (Arithmetic K × _)) =
      powerFrom fuel (ts ++ rest) := by
  obtain ⟨t, ht, hstart⟩ := h
  obtain ⟨us, rfl⟩ := List.head?_eq_some_iff.mp ht
  cases t <;> first | rfl | cases hstart

theorem ReadsPower.readsSigned (h : ReadsPower ts e) (hts : StartsFactor ts) :
    ReadsSigned ts e := by
  intro fuel rest hfuel hrest
  obtain ⟨f, rfl, hf⟩ := exists_fuel hfuel (by decide) hts.length_pos
  rw [signedFrom_of_startsFactor hts, h f rest hf hrest]

theorem ReadsSigned.minus (h : ReadsSigned ts e) : ReadsSigned (.minus :: ts) e.negate := by
  intro fuel rest hfuel hrest
  obtain ⟨f, rfl, hf⟩ := exists_fuel hfuel (by decide) (by simp)
  rw [List.length_cons] at hf
  rw [List.cons_append, signedFrom, h f rest (by omega) hrest]
  rfl

theorem ReadsSigned.plus (h : ReadsSigned ts e) : ReadsSigned (.plus :: ts) e := by
  intro fuel rest hfuel hrest
  obtain ⟨f, rfl, hf⟩ := exists_fuel hfuel (by decide) (by simp)
  rw [List.length_cons] at hf
  rw [List.cons_append, signedFrom, h f rest (by omega) hrest]

end Powers

section Products

theorem ReadsSigned.readsFactors (h : ReadsSigned ts e) (hts : 0 < ts.length) :
    ReadsFactors ts e := by
  refine ⟨0, hts, fun fuel rest hfuel hrest => ?_⟩
  rw [productFrom, h fuel rest hfuel hrest]
  rfl

/-- A sign and the power behind it are added to the product that stands in front. -/
theorem ReadsFactors.sign (ha : ReadsFactors ts a) (hb : ReadsSigned us b) {t : Token}
    {op : Arithmetic K → Arithmetic K → Arithmetic K} (ht : t ≠ .power)
    (hop : ∀ fuel e rest, moreFactors (fuel + 1) e (t :: rest) =
      (signedFrom fuel rest).bind fun r => moreFactors fuel (op e r.1) r.2) :
    ReadsFactors (ts ++ t :: us) (op a b) := by
  obtain ⟨n, hn, hproduct⟩ := ha
  refine ⟨n + 1, by simp; omega, fun fuel rest hfuel hrest => ?_⟩
  rw [List.length_append, List.length_cons] at hfuel
  have hfront := hproduct (fuel + 1) (t :: (us ++ rest)) (by omega) (by simpa using ht)
  have hfactor := hb fuel rest (by omega) hrest
  rw [hop, hfactor, Option.bind_some, Nat.add_right_comm fuel 1 n] at hfront
  rwa [List.append_assoc]

theorem moreFactors_of_startsFactor (h : StartsFactor ts) (fuel : ℕ) (e : Arithmetic K)
    (rest : List Token) : moreFactors (fuel + 1) e (ts ++ rest) =
      (powerFrom fuel (ts ++ rest)).bind fun r => moreFactors fuel (.multiply e r.1) r.2 := by
  obtain ⟨t, ht, hstart⟩ := h
  obtain ⟨us, rfl⟩ := List.head?_eq_some_iff.mp ht
  cases t <;> first | rfl | cases hstart

/-- A power that follows without a sign is multiplied. -/
theorem ReadsFactors.juxtapose (ha : ReadsFactors ts a) (hb : ReadsPower us b)
    (hus : StartsFactor us) : ReadsFactors (ts ++ us) (.multiply a b) := by
  obtain ⟨n, hn, hproduct⟩ := ha
  have hpos := hus.length_pos
  refine ⟨n + 1, by simp; omega, fun fuel rest hfuel hrest => ?_⟩
  rw [List.length_append] at hfuel
  have hpower : .power ∉ (us ++ rest).head? := by
    obtain ⟨t, ht, hstart⟩ := hus.append rest
    rw [ht]
    rintro ⟨⟩
    cases hstart
  have hfront := hproduct (fuel + 1) (us ++ rest) (by omega) hpower
  have hfactor := hb fuel rest (by omega) hrest
  rw [moreFactors_of_startsFactor hus, hfactor, Option.bind_some, Nat.add_right_comm fuel 1 n]
    at hfront
  rwa [List.append_assoc]

theorem moreFactors_of_endsProduct {rest : List Token} (h : EndsProduct rest) (fuel : ℕ)
    (e : Arithmetic K) : moreFactors (fuel + 1) e rest = some (e, rest) := by
  cases rest with
  | nil => rfl
  | cons t rest =>
    have hmem := h t rfl
    simp only [List.mem_cons, List.not_mem_nil, or_false] at hmem
    rcases hmem with rfl | rfl | rfl <;> rfl

/-- A product is read up to what ends it. -/
theorem ReadsFactors.productFrom_eq (h : ReadsFactors ts e) (fuel : ℕ) {rest : List Token}
    (hfuel : 8 * ts.length ≤ fuel + 4) (hrest : EndsProduct rest) :
    productFrom fuel (ts ++ rest) = some (e, rest) := by
  obtain ⟨n, hn, hproduct⟩ := h
  obtain ⟨f, rfl⟩ : ∃ f, fuel = f + 1 + n + 1 := ⟨fuel - (n + 2), by omega⟩
  rw [hproduct (f + 1) rest (by omega) hrest.power_notMem]
  exact moreFactors_of_endsProduct hrest f e

end Products

section Sums

theorem ReadsFactors.readsTerms (h : ReadsFactors ts e) (hts : 0 < ts.length) :
    ReadsTerms ts e := by
  refine ⟨0, hts, fun fuel rest hfuel hrest => ?_⟩
  rw [sumFrom, h.productFrom_eq fuel hfuel hrest]
  rfl

/-- A sign and the product behind it are added to the sum that stands in front. -/
theorem ReadsTerms.sign (ha : ReadsTerms ts a) (hb : ReadsFactors us b) {t : Token}
    {op : Arithmetic K → Arithmetic K → Arithmetic K} (ht : EndsProduct [t])
    (hop : ∀ fuel e rest, moreTerms (fuel + 1) e (t :: rest) =
      (productFrom fuel rest).bind fun r => moreTerms fuel (op e r.1) r.2) :
    ReadsTerms (ts ++ t :: us) (op a b) := by
  obtain ⟨n, hn, hsum⟩ := ha
  refine ⟨n + 1, by simp; omega, fun fuel rest hfuel hrest => ?_⟩
  rw [List.length_append, List.length_cons] at hfuel
  have hfront := hsum (fuel + 1) (t :: (us ++ rest)) (by omega) ht
  have hterm := hb.productFrom_eq fuel (by omega) hrest
  rw [hop, hterm, Option.bind_some, Nat.add_right_comm fuel 1 n] at hfront
  rwa [List.append_assoc]

/-- A sum is read up to what ends it. -/
theorem ReadsTerms.sumFrom_eq (h : ReadsTerms ts e) (fuel : ℕ) (rest : List Token)
    (hfuel : 8 * ts.length ≤ fuel + 3) (hrest : EndsSum rest) :
    sumFrom fuel (ts ++ rest) = some (e, rest) := by
  obtain ⟨n, hn, hsum⟩ := h
  obtain ⟨f, rfl⟩ : ∃ f, fuel = f + 1 + n + 1 := ⟨fuel - (n + 2), by omega⟩
  rw [hsum (f + 1) rest (by omega) hrest.endsProduct]
  cases rest with
  | nil => rfl
  | cons t rest =>
    obtain rfl := hrest t rfl
    rfl

/-- A sum in brackets is an atom. -/
theorem ReadsTerms.group (h : ReadsTerms ts e) : ReadsAtom (.opening :: (ts ++ [.closing])) e := by
  intro fuel rest hfuel
  obtain ⟨f, rfl, hf⟩ := exists_fuel hfuel (by decide) (by simp)
  have hsum := h.sumFrom_eq f (.closing :: rest) (by simp at hf; omega) (by simp [EndsSum])
  rw [List.cons_append, List.append_assoc, List.singleton_append, atomFrom, hsum]
  rfl

end Sums

def Reads : Level → List Token → Arithmetic K → Prop
  | .atom => ReadsAtom
  | .power => ReadsPower
  | .signed => ReadsSigned
  | .product => ReadsFactors
  | .sum => ReadsTerms

/-- What the grammar derives the parser reads, by induction on the derivation. -/
theorem Derives.reads (h : Derives level ts e) : Reads level ts e := by
  induction h with
  | literal l => exact readsAtom_literal l
  | x => exact readsAtom_x
  | group h ih => exact ReadsTerms.group ih
  | base h ih => exact ReadsAtom.readsPower ih h.length_pos
  | power ha hb iha ihb => exact ReadsAtom.power iha ihb
  | unsigned h ih => exact ReadsPower.readsSigned ih h.startsFactor
  | plus h ih => exact ReadsSigned.plus ih
  | minus h ih => exact ReadsSigned.minus ih
  | factor h ih => exact ReadsSigned.readsFactors ih h.length_pos
  | times ha hb iha ihb => exact ReadsFactors.sign iha ihb (by simp) fun _ _ _ => rfl
  | divide ha hb iha ihb => exact ReadsFactors.sign iha ihb (by simp) fun _ _ _ => rfl
  | juxtapose ha hb iha ihb => exact ReadsFactors.juxtapose iha ihb hb.startsFactor
  | term h ih => exact ReadsFactors.readsTerms ih h.length_pos
  | add ha hb iha ihb => exact ReadsTerms.sign iha ihb (by simp [EndsProduct]) fun _ _ _ => rfl
  | subtract ha hb iha ihb => exact ReadsTerms.sign iha ihb (by simp [EndsProduct]) fun _ _ _ => rfl

theorem ofTokens?_of_derives (h : Derives .sum ts e) : ofTokens? ts = some e := by
  have hsum : ReadsTerms ts e := h.reads
  have hall := hsum.sumFrom_eq (8 * (ts.length + 1)) [] (by omega) (by simp [EndsSum])
  rw [List.append_nil] at hall
  rw [ofTokens?, hall]

/-- The parser follows the notation. -/
theorem parse_of_written {s : List Char} (h : e.Written s) : Arithmetic.parse s = .ok e := by
  obtain ⟨ts, hscanned, hderives⟩ := h
  have htokens := Token.ofText_of_scanned hscanned hderives.joinTimes_eq
  simp only [Arithmetic.parse, htokens, ofTokens?_of_derives hderives, bind, Except.bind]
  rfl

end Arithmetic

end PartialFractions.Verification
