/-
# Triples for computations that may stop with an exception

`Triple P m Q E`: from a state that meets `P` the computation `m` either returns,
with result and state in `Q`, or stops with an exception, with exception and state
in `E`.  The state it stopped with is kept, so `E` speaks about it.

One rule for each way a program is put together.  `Keeps P m` is the case where a
state property is not lost, however the computation ends.
-/

import TjTools.Basis.Focus

namespace TjTools

variable {ε ε' σ τ α β : Type}

/-- The state after a computation, whether it returned or threw. -/
def final : EStateM.Result ε σ α → σ
  | .ok _ s => s
  | .error _ s => s

/-- Whether a computation threw. -/
def threw : EStateM.Result ε σ α → Bool
  | .ok _ _ => false
  | .error _ _ => true

def Triple (P : σ → Prop) (m : EStateM ε σ α) (Q : α → σ → Prop) (E : ε → σ → Prop) : Prop :=
  ∀ s, P s →
    match m.run s with
    | .ok a t => Q a t
    | .error e t => E e t

/-- `P` is not lost. -/
def Keeps (P : σ → Prop) (m : EStateM ε σ α) : Prop := Triple P m (fun _ => P) fun _ => P

namespace Triple

variable {P P' : σ → Prop} {m : EStateM ε σ α} {Q Q' : α → σ → Prop} {E E' : ε → σ → Prop}

theorem ok (h : Triple P m Q E) {s t : σ} {a : α} (hs : P s) (hrun : m.run s = .ok a t) :
    Q a t := by
  have := h s hs
  rwa [hrun] at this

theorem error (h : Triple P m Q E) {s t : σ} {e : ε} (hs : P s) (hrun : m.run s = .error e t) :
    E e t := by
  have := h s hs
  rwa [hrun] at this

theorem mono (h : Triple P m Q E) (hP : ∀ s, P' s → P s) (hQ : ∀ a s, Q a s → Q' a s)
    (hE : ∀ e s, E e s → E' e s) : Triple P' m Q' E' := by
  intro s hs
  rcases hrun : m.run s with ⟨a, t⟩ | ⟨e, t⟩
  · exact hQ a t (h.ok (hP s hs) hrun)
  · exact hE e t (h.error (hP s hs) hrun)

theorem pure {a : α} (h : ∀ s, P s → Q a s) : Triple P (Pure.pure a : EStateM ε σ α) Q E := h

theorem throw {e : ε} (h : ∀ s, P s → E e s) :
    Triple P (MonadExcept.throw e : EStateM ε σ α) Q E := h

theorem modify {f : σ → σ} {R : Unit → σ → Prop} (h : ∀ s, P s → R () (f s)) :
    Triple P (MonadState.modifyGet fun s => ((), f s) : EStateM ε σ Unit) R E := h

/-- Reading the state: what follows may use that it is the current one. -/
theorem get_bind {f : σ → EStateM ε σ β} {R : β → σ → Prop}
    (h : ∀ s, P s → Triple (fun t => t = s) (f s) R E) :
    Triple P (MonadState.get >>= f) R E := by
  intro s hs
  rw [EStateM.run_bind, EStateM.run_get]
  exact h s hs s rfl

theorem bind {f : α → EStateM ε σ β} {R : β → σ → Prop} (hm : Triple P m Q E)
    (hf : ∀ a, Triple (Q a) (f a) R E) : Triple P (m >>= f) R E := by
  intro s hs
  rw [EStateM.run_bind]
  rcases hrun : m.run s with ⟨a, t⟩ | ⟨e, t⟩
  · exact hf a t (hm.ok hs hrun)
  · exact hm.error hs hrun

theorem ite {p : Prop} [Decidable p] {n : EStateM ε σ α} (hm : p → Triple P m Q E)
    (hn : ¬p → Triple P n Q E) : Triple P (if p then m else n) Q E := by
  by_cases hp : p
  · rw [if_pos hp]
    exact hm hp
  · rw [if_neg hp]
    exact hn hp

/-- A computation on a part of the state. -/
theorem focus {part : σ → τ} {put : σ → τ → σ} {wrap : ε' → ε} {n : EStateM ε' τ α}
    {R : τ → Prop} {S : α → τ → Prop} {F : ε' → τ → Prop} (hn : Triple R n S F)
    (hP : ∀ s, P s → R (part s)) (hQ : ∀ s a t, P s → S a t → Q a (put s t))
    (hE : ∀ s e t, P s → F e t → E (wrap e) (put s t)) :
    Triple P (TjTools.focus part put wrap n) Q E := by
  intro s hs
  rcases h : n.run (part s) with ⟨a, t⟩ | ⟨e, t⟩
  · rw [run_focus_ok h]
    exact hQ s a t hs (hn.ok (hP s hs) h)
  · rw [run_focus_error h]
    exact hE s e t hs (hn.error (hP s hs) h)

end Triple

theorem Keeps.final {P : σ → Prop} {m : EStateM ε σ α} (h : Keeps P m) {s : σ} (hs : P s) :
    P (final (m.run s)) := by
  have hrun := h s hs
  rcases hm : m.run s with ⟨a, t⟩ | ⟨e, t⟩
  · rw [hm] at hrun
    exact hrun
  · rw [hm] at hrun
    exact hrun

end TjTools
