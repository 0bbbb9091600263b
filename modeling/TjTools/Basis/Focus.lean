/-
# Calls on a part of the state

An object that owns another one calls its methods.  Both are computations on a
state that may stop with an exception and keep the state they stopped with
(`EStateM`); `focus` runs a computation of the part inside the whole, and renames
its exceptions to those of the whole.
-/

import Mathlib.Logic.Basic

namespace TjTools

variable {ε ε' σ τ α : Type}

/-- A computation on a part of the state. -/
def focus (part : σ → τ) (put : σ → τ → σ) (wrap : ε → ε') (m : EStateM ε τ α) :
    EStateM ε' σ α := fun s =>
  match m.run (part s) with
  | .ok a t => .ok a (put s t)
  | .error e t => .error (wrap e) (put s t)

theorem run_focus_ok {part : σ → τ} {put : σ → τ → σ} {wrap : ε → ε'} {m : EStateM ε τ α} {s : σ}
    {a : α} {t : τ} (h : m.run (part s) = .ok a t) :
    (focus part put wrap m).run s = .ok a (put s t) := by
  simp [focus, EStateM.run, show m (part s) = .ok a t from h]

theorem run_focus_error {part : σ → τ} {put : σ → τ → σ} {wrap : ε → ε'} {m : EStateM ε τ α}
    {s : σ} {e : ε} {t : τ} (h : m.run (part s) = .error e t) :
    (focus part put wrap m).run s = .error (wrap e) (put s t) := by
  simp [focus, EStateM.run, show m (part s) = .error e t from h]

@[simp] theorem run_map {β : Type} (f : α → β) (m : EStateM ε σ α) (s : σ) :
    (f <$> m).run s =
      match m.run s with
      | .ok a t => .ok (f a) t
      | .error e t => .error e t := rfl

/-- A handler runs on the state the body stopped with. -/
theorem run_tryCatch (body : EStateM ε σ α) (handler : ε → EStateM ε σ α) (s : σ) :
    (tryCatch body handler).run s =
      match body.run s with
      | .ok a t => .ok a t
      | .error e t => (handler e).run t := by
  show EStateM.tryCatch body handler s = _
  delta EStateM.tryCatch EStateM.run
  cases body s <;> rfl

end TjTools
