/-
# Requests that end at the first failure

A device whose requests have an effect on its state, or fail and have none, and a sequence
of requests that is given up at the first one that fails (`play`).  The `Log` keeps the
state, every request that was issued with what became of it, and every state so far.

Either all requests are issued, none of them fails and the state is what they make of it
(`play_state`), or the last one that is issued fails and no other does (`play_ends`).  A
relation that every request keeps in its place holds between all consecutive states,
wherever the sequence is given up (`play_chained`).
-/

import Mathlib.Data.List.Chain

namespace TjTools
namespace Script

variable {ρ σ : Type}

structure Log (ρ σ : Type) where
  state : σ
  /-- The requests, each with whether it failed. -/
  issued : List (ρ × Bool)
  /-- The first state, and the one after each request. -/
  trail : List σ

/-- Nothing was issued yet. -/
def Log.fresh (state : σ) : Log ρ σ := ⟨state, [], [state]⟩

/-- No request failed. -/
def Log.Clean (l : Log ρ σ) : Prop := ∀ request ∈ l.issued, request.2 = false

/-- The last request failed, and no other. -/
def Log.Stopped (l : Log ρ σ) : Prop :=
  ∃ before request, l.issued = before ++ [(request, true)] ∧ ∀ r ∈ before, r.2 = false

theorem Log.clean_fresh (state : σ) : (Log.fresh state : Log ρ σ).Clean := by
  intro request hrequest
  cases hrequest

theorem Log.Stopped.not_clean {l : Log ρ σ} (h : l.Stopped) : ¬l.Clean := by
  obtain ⟨before, request, hissued, -⟩ := h
  intro hclean
  have hfailed := hclean (request, true) (by rw [hissued]; simp)
  exact Bool.noConfusion hfailed

/-- Nothing is issued after a failure. -/
theorem Log.Stopped.eq_nil {l : Log ρ σ} (h : l.Stopped) {before after : List (ρ × Bool)}
    {request : ρ} (hissued : l.issued = before ++ (request, true) :: after) : after = [] := by
  obtain ⟨before', last, hlast, hbefore⟩ := h
  rw [hissued] at hlast
  rcases List.eq_nil_or_concat after with rfl | ⟨rest, final, rfl⟩
  · rfl
  · -- then the failed request would be one of those before the last
    rw [List.concat_eq_append, ← List.cons_append, ← List.append_assoc] at hlast
    obtain ⟨rfl, -⟩ := List.append_inj' hlast rfl
    have hfailed := hbefore (request, true) (by simp)
    exact Bool.noConfusion hfailed

section

variable (effect : ρ → σ → σ) (fails : ℕ → Bool)

/-- One request.  Whether it fails depends on how many there were before. -/
def Log.issue (request : ρ) (l : Log ρ σ) : Log ρ σ :=
  let failed := fails l.issued.length
  let state := if failed then l.state else effect request l.state
  ⟨state, l.issued ++ [(request, failed)], l.trail ++ [state]⟩

/-- Requests one after the other up to the first that fails, and whether none did. -/
def play : List ρ → Log ρ σ → Bool × Log ρ σ
  | [], l => (true, l)
  | request :: requests, l =>
    if fails l.issued.length then (false, l.issue effect fails request)
    else play requests (l.issue effect fails request)

/-- What requests make of a state. -/
def perform (requests : List ρ) (state : σ) : σ :=
  requests.foldl (fun state request => effect request state) state

end

variable {effect : ρ → σ → σ} {fails : ℕ → Bool}

theorem play_append (first second : List ρ) (l : Log ρ σ) :
    play effect fails (first ++ second) l =
      match play effect fails first l with
      | (true, l') => play effect fails second l'
      | (false, l') => (false, l') := by
  induction first generalizing l with
  | nil => rfl
  | cons request first ih =>
    rw [List.cons_append, play, play]
    by_cases hfails : fails l.issued.length = true
    · rw [if_pos hfails, if_pos hfails]
    · rw [if_neg hfails, if_neg hfails]
      exact ih _

theorem state_issue {l : Log ρ σ} {request : ρ} (hfails : ¬fails l.issued.length = true) :
    (l.issue effect fails request).state = effect request l.state := by
  simp [Log.issue, hfails]

/-- The state is what all the requests make of it. -/
theorem play_state {requests : List ρ} {l : Log ρ σ}
    (h : (play effect fails requests l).1 = true) :
    (play effect fails requests l).2.state = perform effect requests l.state := by
  induction requests generalizing l with
  | nil => rfl
  | cons request requests ih =>
    rw [play] at h ⊢
    by_cases hfails : fails l.issued.length = true
    · rw [if_pos hfails] at h
      cases h
    · rw [if_neg hfails] at h ⊢
      rw [ih h, state_issue hfails]
      rfl

theorem Log.Clean.issue {l : Log ρ σ} (h : l.Clean) {request : ρ}
    (hfails : ¬fails l.issued.length = true) : (l.issue effect fails request).Clean := by
  intro r hr
  rcases List.mem_append.1 hr with hr | hr
  · exact h r hr
  · rw [List.mem_singleton.1 hr]
    exact Bool.eq_false_iff.2 hfails

theorem Log.Clean.issue_stopped {l : Log ρ σ} (h : l.Clean) {request : ρ}
    (hfails : fails l.issued.length = true) : (l.issue effect fails request).Stopped :=
  ⟨l.issued, request, by simp [Log.issue, hfails], h⟩

/-- **All requests are issued and none fails, or the last one that is issued fails.** -/
theorem play_ends {l : Log ρ σ} (hl : l.Clean) (requests : List ρ) :
    if (play effect fails requests l).1 then (play effect fails requests l).2.Clean
    else (play effect fails requests l).2.Stopped := by
  induction requests generalizing l with
  | nil => exact hl
  | cons request requests ih =>
    rw [play]
    by_cases hfails : fails l.issued.length = true
    · rw [if_pos hfails]
      exact hl.issue_stopped hfails
    · rw [if_neg hfails]
      exact ih (hl.issue hfails)

/-! ### Consecutive states -/

/-- Every request keeps the relation `R` in its place. -/
def Maintains (R : σ → σ → Prop) (effect : ρ → σ → σ) : List ρ → σ → Prop
  | [], _ => True
  | request :: requests, state =>
    R state (effect request state) ∧ Maintains R effect requests (effect request state)

/-- Consecutive states are in the relation `R`. -/
structure Log.Chained (R : σ → σ → Prop) (l : Log ρ σ) : Prop where
  chain : l.trail.IsChain R
  last : l.trail.getLast? = some l.state

theorem Log.chained_fresh (R : σ → σ → Prop) (state : σ) :
    (Log.fresh state : Log ρ σ).Chained R :=
  ⟨List.isChain_singleton _, rfl⟩

theorem Log.Chained.issue {R : σ → σ → Prop} {l : Log ρ σ} (h : l.Chained R) {request : ρ}
    (hR : R l.state (l.issue effect fails request).state) :
    (l.issue effect fails request).Chained R := by
  obtain ⟨hchain, hlast⟩ := h
  refine ⟨hchain.append (List.isChain_singleton _) ?_, by simp [Log.issue]⟩
  intro x hx y hy
  rw [hlast] at hx
  cases hx
  cases hy
  exact hR

/-- **Every step of the way keeps the relation.** -/
theorem play_chained {R : σ → σ → Prop} (hrefl : ∀ s, R s s) {requests : List ρ} {l : Log ρ σ}
    (hl : l.Chained R) (hkeeps : Maintains R effect requests l.state) :
    (play effect fails requests l).2.Chained R := by
  induction requests generalizing l with
  | nil => exact hl
  | cons request requests ih =>
    rw [play]
    by_cases hfails : fails l.issued.length = true
    · rw [if_pos hfails]
      refine hl.issue ?_
      simpa [Log.issue, hfails] using hrefl l.state
    · rw [if_neg hfails]
      refine ih (hl.issue ?_) ?_
      · rw [state_issue hfails]
        exact hkeeps.1
      · rw [state_issue hfails]
        exact hkeeps.2

/-! ### All states on the way -/

/-- `P` holds of every state that the requests go through. -/
def Throughout (P : σ → Prop) (effect : ρ → σ → σ) : List ρ → σ → Prop
  | [], state => P state
  | request :: requests, state => P state ∧ Throughout P effect requests (effect request state)

theorem Throughout.start {P : σ → Prop} {requests : List ρ} {state : σ}
    (h : Throughout P effect requests state) : P state := by
  cases requests with
  | nil => exact h
  | cons request requests => exact h.1

theorem throughout_append {P : σ → Prop} {first second : List ρ} {state : σ} :
    Throughout P effect (first ++ second) state ↔
      Throughout P effect first state ∧
        Throughout P effect second (perform effect first state) := by
  induction first generalizing state with
  | nil => exact ⟨fun h => ⟨h.start, h⟩, fun h => h.2⟩
  | cons request first ih =>
    rw [List.cons_append, Throughout, Throughout, ih, and_assoc]
    rfl

theorem throughout_of_forall {P : σ → Prop} {requests : List ρ} {state : σ}
    (h : ∀ request ∈ requests, ∀ state, P state → P (effect request state)) (hstate : P state) :
    Throughout P effect requests state := by
  induction requests generalizing state with
  | nil => exact hstate
  | cons request requests ih =>
    refine ⟨hstate, ih ?_ (h request List.mem_cons_self state hstate)⟩
    intro r hr
    exact h r (List.mem_cons_of_mem request hr)

theorem forall_trail_issue {P : σ → Prop} {l : Log ρ σ} (hl : ∀ state ∈ l.trail, P state)
    {request : ρ} (h : P (l.issue effect fails request).state) :
    ∀ state ∈ (l.issue effect fails request).trail, P state := by
  intro state hstate
  rcases List.mem_append.1 hstate with hstate | hstate
  · exact hl state hstate
  · rw [List.mem_singleton.1 hstate]
    exact h

theorem state_issue_of_fails {l : Log ρ σ} {request : ρ} (hfails : fails l.issued.length = true) :
    (l.issue effect fails request).state = l.state := by
  simp [Log.issue, hfails]

/-- A state on the way, wherever the requests are given up. -/
theorem play_throughout {P : σ → Prop} {requests : List ρ} {l : Log ρ σ}
    (hl : ∀ state ∈ l.trail, P state) (h : Throughout P effect requests l.state) :
    ∀ state ∈ (play effect fails requests l).2.trail, P state := by
  induction requests generalizing l with
  | nil => exact hl
  | cons request requests ih =>
    rw [play]
    by_cases hfails : fails l.issued.length = true
    · rw [if_pos hfails]
      exact forall_trail_issue hl (by rw [state_issue_of_fails hfails]; exact h.1)
    · rw [if_neg hfails]
      have hnext : Throughout P effect requests (l.issue effect fails request).state := by
        rw [state_issue hfails]
        exact h.2
      exact ih (forall_trail_issue hl hnext.start) hnext

/-- Where one of the requests fails, the state that the last one would lead to does not matter. -/
theorem play_throughout_failed {P : σ → Prop} {requests : List ρ} {last : ρ} {l : Log ρ σ}
    (hl : ∀ state ∈ l.trail, P state) (h : Throughout P effect requests l.state)
    (hfailed : (play effect fails (requests ++ [last]) l).1 = false) :
    ∀ state ∈ (play effect fails (requests ++ [last]) l).2.trail, P state := by
  induction requests generalizing l with
  | nil =>
    rw [List.nil_append, play] at hfailed ⊢
    by_cases hfails : fails l.issued.length = true
    · rw [if_pos hfails]
      exact forall_trail_issue hl (by rw [state_issue_of_fails hfails]; exact h)
    · rw [if_neg hfails] at hfailed
      cases hfailed
  | cons request requests ih =>
    rw [List.cons_append, play] at hfailed ⊢
    by_cases hfails : fails l.issued.length = true
    · rw [if_pos hfails]
      exact forall_trail_issue hl (by rw [state_issue_of_fails hfails]; exact h.1)
    · rw [if_neg hfails] at hfailed ⊢
      have hnext : Throughout P effect requests (l.issue effect fails request).state := by
        rw [state_issue hfails]
        exact h.2
      exact ih (forall_trail_issue hl hnext.start) hnext hfailed

theorem length_issue (l : Log ρ σ) (request : ρ) :
    (l.issue effect fails request).issued.length = l.issued.length + 1 := by
  simp [Log.issue]

/-- None of the requests fails exactly if none of their places does. -/
theorem play_eq_true_iff (requests : List ρ) (l : Log ρ σ) :
    (play effect fails requests l).1 = true ↔
      ∀ k < requests.length, fails (l.issued.length + k) = false := by
  induction requests generalizing l with
  | nil => simp [play]
  | cons request requests ih =>
    rw [play]
    by_cases hfails : fails l.issued.length = true
    · rw [if_pos hfails]
      refine iff_of_false Bool.false_ne_true fun h => ?_
      have hfirst := h 0 (Nat.succ_pos _)
      rw [Nat.add_zero, hfails] at hfirst
      cases hfirst
    · rw [if_neg hfails, ih, length_issue]
      constructor
      · intro h k hk
        cases k with
        | zero => exact Bool.eq_false_iff.2 hfails
        | succ k =>
          have hnext := h k (by simpa using hk)
          rwa [Nat.add_right_comm, Nat.add_assoc] at hnext
      · intro h k hk
        have hnext := h (k + 1) (by simpa using hk)
        rwa [Nat.add_right_comm, Nat.add_assoc]

/-- The last state is one of those on the way. -/
theorem state_mem_trail {requests : List ρ} {l : Log ρ σ} (hl : l.state ∈ l.trail) :
    (play effect fails requests l).2.state ∈ (play effect fails requests l).2.trail := by
  induction requests generalizing l with
  | nil => exact hl
  | cons request requests ih =>
    rw [play]
    split_ifs
    · simp [Log.issue]
    · exact ih (by simp [Log.issue])

end Script
end TjTools
