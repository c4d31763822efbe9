import PartialFractions.Proofs.RationalValues

/-!
The atoms of an expression: its numbers, its symbols and x, in the order in which they are written.
The expression of a row of tokens leaves none of them out and makes none up.
-/
namespace PartialFractions.Verification

open Polynomial

def Token.isAtom : Token → Bool
  | .literal _ | .x | .symbol _ => true
  | _ => false

namespace Arithmetic

variable {K : Type}

def atoms : Arithmetic K → List Token
  | .literal l => [.literal l]
  | .constant _ => []
  | .x => [.x]
  | .symbol name => [.symbol name]
  | .negate e => e.atoms
  | .add a b | .subtract a b | .multiply a b | .divide a b | .power a b => a.atoms ++ b.atoms

/-- The atoms of an expression are those of its tokens. -/
theorem Derives.atoms_eq {level : Level} {ts : List Token} {e : Arithmetic K}
    (h : Derives level ts e) : e.atoms = ts.filter Token.isAtom := by
  induction h with
  | literal | x => rfl
  | group h ih => simp [ih, Token.isAtom]
  | base h ih | unsigned h ih | factor h ih | term h ih => exact ih
  | plus h ih | minus h ih => simpa [atoms, Token.isAtom] using ih
  | power ha hb iha ihb | times ha hb iha ihb | divide ha hb iha ihb | juxtapose ha hb iha ihb
  | add ha hb iha ihb | subtract ha hb iha ihb => simp [atoms, iha, ihb, Token.isAtom]

theorem Derives.x_notMem_atoms {level : Level} {ts : List Token} {e : Arithmetic K}
    (h : Derives level ts e) (hx : .x ∉ ts) : .x ∉ e.atoms := by
  rw [h.atoms_eq]
  exact fun hmem => hx (List.mem_filter.mp hmem).1

section Values

variable {e : Arithmetic (Exact ℚ)} {u v w : ℚ}

/-- The value of an expression without x does not depend on the point. -/
theorem rationalAt?_congr (h : .x ∉ e.atoms) (u v : ℚ) : e.rationalAt? u = e.rationalAt? v := by
  induction e with
  | literal l | constant c | symbol name => rfl
  | x => exact absurd (List.mem_singleton.mpr rfl) h
  | negate e ih => rw [rationalAt?, ih h, rationalAt?]
  | add a b iha ihb | subtract a b iha ihb | multiply a b iha ihb | divide a b iha ihb
  | power a b iha ihb =>
    obtain ⟨ha, hb⟩ := not_or.mp (List.mem_append.not.mp h)
    rw [rationalAt?, iha ha, ihb hb, rationalAt?]

/-- The values of two expressions differ by the same number at every point, where there are values
at all. -/
def Shifted (e e' : Arithmetic (Exact ℚ)) : Prop :=
  ∃ offset : Option ℚ, ∀ v,
    e'.rationalAt? v = (e.rationalAt? v).bind fun w => offset.map fun c => w + c

theorem Shifted.refl (e : Arithmetic (Exact ℚ)) : Shifted e e :=
  ⟨some 0, fun v => by simp⟩

theorem Shifted.trans {e e' e'' : Arithmetic (Exact ℚ)} (h : Shifted e e') (h' : Shifted e' e'') :
    Shifted e e'' := by
  obtain ⟨m, hm⟩ := h
  obtain ⟨n, hn⟩ := h'
  refine ⟨m.bind fun c => n.map fun d => c + d, fun v => ?_⟩
  rw [hn, hm]
  cases e.rationalAt? v <;> cases m <;> cases n <;> simp [add_assoc]

variable {a : Arithmetic (Exact ℚ)}

theorem shifted_add (ha : .x ∉ a.atoms) (e : Arithmetic (Exact ℚ)) : Shifted e (e.add a) := by
  refine ⟨a.rationalAt? 0, fun v => ?_⟩
  rw [rationalAt?, rationalAt?_congr ha v 0]
  cases e.rationalAt? v <;> cases a.rationalAt? 0 <;> rfl

theorem shifted_subtract (ha : .x ∉ a.atoms) (e : Arithmetic (Exact ℚ)) :
    Shifted e (e.subtract a) := by
  refine ⟨(a.rationalAt? 0).map Neg.neg, fun v => ?_⟩
  rw [rationalAt?, rationalAt?_congr ha v 0]
  cases e.rationalAt? v <;> cases a.rationalAt? 0 <;> simp [sub_eq_add_neg]

variable {level : Level} {ts us : List Token} {f : ℚ[X]}

def BeginsWithSign (ts : List Token) : Prop := ∀ t ∈ ts.head?, t = .plus ∨ t = .minus

theorem BeginsWithSign.of_append (h : BeginsWithSign (ts ++ us)) : BeginsWithSign ts := by
  cases ts with
  | nil => simp [BeginsWithSign]
  | cons t ts => exact h

theorem exists_cons_of_append (hts : 0 < ts.length) {vs : List Token}
    (h : ts ++ vs = .x :: us) : ∃ rest, ts = .x :: rest ∧ us = rest ++ vs := by
  obtain ⟨t, rest, rfl⟩ := List.exists_cons_of_length_pos hts
  obtain ⟨rfl, rfl⟩ := List.cons.inj h
  exact ⟨rest, rfl, rfl⟩

/-- Nothing is bound to an x that a sign follows. -/
theorem Derives.eq_x (h : Derives level ts e) (hlevel : level ≠ .sum) (hts : ts = .x :: us)
    (hus : BeginsWithSign us) : us = [] ∧ e = .x := by
  -- what stands behind a front that is bound to it would begin with a sign
  have hbehind {ts vs us : List Token} {a : Arithmetic (Exact ℚ)} (hpos : 0 < ts.length)
      (ih : ∀ {us}, ts = .x :: us → BeginsWithSign us → us = [] ∧ a = .x)
      (hts : ts ++ vs = .x :: us) (hus : BeginsWithSign us) : BeginsWithSign vs := by
    obtain ⟨rest, hrest, rfl⟩ := exists_cons_of_append hpos hts
    obtain ⟨rfl, -⟩ := ih hrest hus.of_append
    exact hus
  induction h generalizing us with
  | literal | group | plus | minus => cases hts
  | x =>
    obtain ⟨-, rfl⟩ := List.cons.inj hts
    exact ⟨rfl, rfl⟩
  | base h ih | unsigned h ih | factor h ih => exact ih (by simp) hts hus
  | power ha hb iha ihb | times ha hb iha ihb | divide ha hb iha ihb =>
    have hsign := hbehind ha.length_pos (iha (by simp)) hts hus
    simp [BeginsWithSign] at hsign
  | juxtapose ha hb iha ihb =>
    have hsign := hbehind ha.length_pos (iha (by simp)) hts hus
    obtain ⟨t, ht, hstart⟩ := hb.startsFactor
    rcases hsign t ht with rfl | rfl <;> cases hstart
  | term | add | subtract => exact absurd rfl hlevel

/-- Terms without an x that follow an x add the same number to it at every point. -/
theorem Derives.shifted (h : Derives level ts e) (hlevel : level = .sum) (hts : ts = .x :: us)
    (hus : BeginsWithSign us) (hx : .x ∉ us) : Shifted .x e := by
  induction h generalizing us with
  | literal | x | group | base | power | unsigned | plus | minus | factor | times | divide
  | juxtapose => cases hlevel
  | term h ih =>
    obtain ⟨-, rfl⟩ := h.eq_x (by simp) hts hus
    exact .refl _
  | add ha hb iha ihb =>
    obtain ⟨rest, hrest, rfl⟩ := exists_cons_of_append ha.length_pos hts
    obtain ⟨hfront, hlater⟩ := not_or.mp (List.mem_append.not.mp hx)
    have hterm := hb.x_notMem_atoms fun hmem => hlater (List.mem_cons_of_mem _ hmem)
    exact (iha rfl hrest hus.of_append hfront).trans (shifted_add hterm _)
  | subtract ha hb iha ihb =>
    obtain ⟨rest, hrest, rfl⟩ := exists_cons_of_append ha.length_pos hts
    obtain ⟨hfront, hlater⟩ := not_or.mp (List.mem_append.not.mp hx)
    have hterm := hb.x_notMem_atoms fun hmem => hlater (List.mem_cons_of_mem _ hmem)
    exact (iha rfl hrest hus.of_append hfront).trans (shifted_subtract hterm _)

/-- Tokens that begin with x, which a sign follows if anything does, and that do not hold another x
are no polynomial but x - r. -/
theorem Represents.eq_X_sub_C (he : e.Represents f) (h : Derives .sum (.x :: us) e)
    (hus : BeginsWithSign us) (hx : .x ∉ us) : ∃ r, f = X - C r := by
  obtain ⟨offset, hoffset⟩ := h.shifted rfl rfl hus hx
  have hvalue (v : ℚ) : offset.map (fun c => v + c) = some (f.eval v) := by
    rw [← he v, hoffset v]
    rfl
  obtain ⟨c, rfl, -⟩ := Option.map_eq_some_iff.mp (hvalue 0)
  refine ⟨-c, Polynomial.funext fun v => ?_⟩
  rw [← Option.some.inj (hvalue v)]
  simp

end Values

end Arithmetic

end PartialFractions.Verification
