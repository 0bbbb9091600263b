/-
# Taking a computation that returned apart

A computation that may stop with an exception and that did return has returned at every
step.  `run_bind_eq_ok` takes the first step off, and `bind_eq_ok` does where there is no
state; `orThrow` and `throwIf`, a value or an exception and an exception on a condition,
are steps that say something when they return and leave the state alone.
-/

import Mathlib.Logic.Basic

namespace TjTools

variable {ε σ α β : Type}

theorem run_bind_eq_ok {m : EStateM ε σ α} {f : α → EStateM ε σ β} {s t : σ} {b : β} :
    (m >>= f).run s = .ok b t ↔ ∃ a s', m.run s = .ok a s' ∧ (f a).run s' = .ok b t := by
  rw [EStateM.run_bind]
  rcases m.run s with ⟨a, s'⟩ | ⟨e, s'⟩
  · constructor
    · intro h
      exact ⟨a, s', rfl, h⟩
    · rintro ⟨a', s'', hrun, h⟩
      cases hrun
      exact h
  · simp

/-- The same for a computation without a state. -/
theorem bind_eq_ok {x : Except ε α} {f : α → Except ε β} {b : β} :
    (x >>= f) = .ok b ↔ ∃ a, x = .ok a ∧ f a = .ok b := by
  rcases x with e | a
  · exact iff_of_false (fun h => by cases h) fun ⟨_, h, _⟩ => by cases h
  · constructor
    · intro h
      exact ⟨a, rfl, h⟩
    · rintro ⟨a', hx, h⟩
      cases hx
      exact h

/-- The value, or an exception. -/
def orThrow (value : Option α) (what : ε) : EStateM ε σ α :=
  match value with
  | some a => pure a
  | none => throw what

/-- An exception if the condition holds. -/
def throwIf (p : Prop) [Decidable p] (what : ε) : EStateM ε σ Unit :=
  if p then throw what else pure ()

theorem run_pure_eq_ok {a b : α} {s t : σ} :
    (pure a : EStateM ε σ α).run s = .ok b t ↔ a = b ∧ s = t := by
  rw [EStateM.run_pure, EStateM.Result.ok.injEq]

theorem run_orThrow_eq_ok {value : Option α} {what : ε} {s t : σ} {a : α} :
    (orThrow value what : EStateM ε σ α).run s = .ok a t ↔ value = some a ∧ s = t := by
  cases value with
  | some b => rw [orThrow, run_pure_eq_ok, Option.some.injEq]
  | none => exact iff_of_false (fun h => by cases h) (fun h => by cases h.1)

theorem run_throwIf_eq_ok {p : Prop} [Decidable p] {what : ε} {s t : σ} :
    (throwIf p what : EStateM ε σ Unit).run s = .ok () t ↔ ¬p ∧ s = t := by
  unfold throwIf
  by_cases hp : p
  · rw [if_pos hp]
    exact iff_of_false (fun h => by cases h) (fun h => h.1 hp)
  · rw [if_neg hp, run_pure_eq_ok]
    exact and_congr_left fun _ => iff_of_true rfl hp

end TjTools
