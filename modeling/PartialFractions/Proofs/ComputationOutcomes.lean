/-!
Computations that may fail. A sequence of steps has a value just if each step has one, and it fails
as one of its steps does. Two computations whose steps agree have related values or fail alike.
-/
namespace PartialFractions

section Values

variable {ε ε' α β : Type}

theorem bind_eq_ok {x : Except ε α} {f : α → Except ε β} {b : β} :
    (x >>= f) = .ok b ↔ ∃ a, x = .ok a ∧ f a = .ok b := by
  cases x <;> simp [bind, Except.bind]

theorem mapError_eq_ok {x : Except ε α} {f : ε → ε'} {a : α} :
    x.mapError f = .ok a ↔ x = .ok a := by
  cases x with
  | ok b =>
    change Except.ok b = .ok a ↔ Except.ok b = .ok a
    rw [Except.ok.injEq, Except.ok.injEq]
  | error e => exact ⟨nofun, nofun⟩

theorem map_eq_ok {x : Except ε α} {f : α → β} {b : β} :
    x.map f = .ok b ↔ ∃ a, x = .ok a ∧ f a = b := by
  cases x <;> simp [Except.map]

end Values

def FailsWithin {ε α : Type} (P : ε → Prop) (x : Except ε α) : Prop := ∀ e, x = .error e → P e

namespace FailsWithin

variable {ε ε' α β : Type} {P : ε → Prop} {P' : ε' → Prop} {x : Except ε α}

theorem value (a : α) : FailsWithin P (.ok a) := by
  intro e he
  cases he

theorem failure {e : ε} (h : P e) : FailsWithin P (.error e : Except ε α) := by
  intro e' he'
  cases he'
  exact h

/-- Where there is no failure there is a value. -/
theorem exists_value (h : FailsWithin P x) (hP : ∀ e, ¬ P e) : ∃ a, x = .ok a := by
  cases x with
  | ok a => exact ⟨a, rfl⟩
  | error e => exact absurd (h e rfl) (hP e)

theorem bind {f : α → Except ε β} (hx : FailsWithin P x)
    (hf : ∀ a, x = .ok a → FailsWithin P (f a)) : FailsWithin P (x >>= f) := by
  cases x with
  | ok a => exact hf a rfl
  | error e => exact failure (hx e rfl)

theorem mapError {f : ε → ε'} (h : FailsWithin (fun e => P' (f e)) x) :
    FailsWithin P' (x.mapError f) := by
  cases x with
  | ok a => exact value a
  | error e => exact failure (h e rfl)

theorem map {f : α → β} (h : FailsWithin P x) : FailsWithin P (x.map f) := by
  cases x with
  | ok a => exact value (f a)
  | error e => exact failure (h e rfl)

end FailsWithin

/-- Both fail in the same way, or both have results that are related. -/
inductive SameOutcome {ε α β : Type} (R : α → β → Prop) : Except ε α → Except ε β → Prop
  | ok {a : α} {b : β} (h : R a b) : SameOutcome R (.ok a) (.ok b)
  | error (e : ε) : SameOutcome R (.error e) (.error e)

namespace SameOutcome

variable {ε α β γ δ : Type} {R : α → β → Prop} {S : γ → δ → Prop}

theorem refl {R : α → α → Prop} (hR : ∀ a, R a a) (x : Except ε α) : SameOutcome R x x := by
  cases x with
  | ok a => exact .ok (hR a)
  | error e => exact .error e

theorem bind {x : Except ε α} {y : Except ε β} (h : SameOutcome R x y) {f : α → Except ε γ}
    {g : β → Except ε δ} (hfg : ∀ a b, R a b → SameOutcome S (f a) (g b)) :
    SameOutcome S (x >>= f) (y >>= g) := by
  cases h with
  | ok h => exact hfg _ _ h
  | error e => exact .error e

theorem mapError {ε' : Type} {x : Except ε α} {y : Except ε β} (h : SameOutcome R x y)
    (f : ε → ε') : SameOutcome R (x.mapError f) (y.mapError f) := by
  cases h with
  | ok h => exact .ok h
  | error e => exact .error (f e)

end SameOutcome

end PartialFractions
