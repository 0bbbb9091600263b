/-
# Runs of a deterministic machine

A machine is a step function: a state and an input give the next state, and an
input the state refuses leaves it alone.  `run` feeds it a list of inputs.
`Along ok` says that every step of a run meets `ok`, a condition on the state
before the step and the input; `Always P` says that `P` holds in every state the
run goes through.

The rules: an invariant that every `ok` step keeps holds always (`always_of_inv`);
where moreover every step that is not `ok` breaks the property, the property holds
always exactly when every step is `ok` (`always_iff_along`), and so for the last state
where the breach is for good (`run_iff_along`); and two machines that answer alike from
related states, and go to related ones, answer alike on every run (`replies_simulates`).
-/

import Mathlib.Data.List.Infix

namespace TjTools
namespace Runs

variable {σ τ ι : Type*} (step : σ → ι → σ)

/-- The state after a list of inputs. -/
def run (s : σ) (is : List ι) : σ := is.foldl step s

/-- Every step of the run meets `ok`. -/
def Along (ok : σ → ι → Prop) : σ → List ι → Prop
  | _, [] => True
  | s, i :: is => ok s i ∧ Along ok (step s i) is

/-- `P` holds in every state the run goes through, the first and the last included. -/
def Always (P : σ → Prop) (s : σ) (is : List ι) : Prop := ∀ pre, pre <+: is → P (run step s pre)

@[simp] theorem run_nil (s : σ) : run step s [] = s := rfl

@[simp] theorem run_cons (s : σ) (i : ι) (is : List ι) :
    run step s (i :: is) = run step (step s i) is := rfl

@[simp] theorem run_append (s : σ) (is js : List ι) :
    run step s (is ++ js) = run step (run step s is) js := by
  simp [run]

variable {step}

instance Along.decidable {ok : σ → ι → Prop} [∀ s i, Decidable (ok s i)] :
    (s : σ) → (is : List ι) → Decidable (Along step ok s is)
  | _, [] => .isTrue trivial
  | s, i :: is =>
    have : Decidable (Along step ok (step s i) is) := Along.decidable (step s i) is
    inferInstanceAs (Decidable (ok s i ∧ Along step ok (step s i) is))

theorem always_nil {P : σ → Prop} {s : σ} : Always step P s [] ↔ P s := by
  simp [Always]

theorem always_cons {P : σ → Prop} {s : σ} {i : ι} {is : List ι} :
    Always step P s (i :: is) ↔ P s ∧ Always step P (step s i) is := by
  constructor
  · intro h
    exact ⟨h [] List.nil_prefix, fun pre hpre => h (i :: pre) (List.cons_prefix_cons.2 ⟨rfl, hpre⟩)⟩
  · rintro ⟨h0, h1⟩ pre hpre
    rcases List.prefix_cons_iff.1 hpre with rfl | ⟨pre, rfl, hpre⟩
    · exact h0
    · exact h1 pre (List.cons_prefix_cons.1 hpre).2

theorem Always.last {P : σ → Prop} {s : σ} {is : List ι} (h : Always step P s is) :
    P (run step s is) :=
  h is List.prefix_rfl

theorem Always.mono {P Q : σ → Prop} {s : σ} {is : List ι} (h : Always step P s is)
    (hPQ : ∀ s, P s → Q s) : Always step Q s is :=
  fun pre hpre => hPQ _ (h pre hpre)

theorem along_of_forall {ok : ι → Prop} {is : List ι} (h : ∀ i ∈ is, ok i) (s : σ) :
    Along step (fun _ => ok) s is := by
  induction is generalizing s with
  | nil => trivial
  | cons i is ih =>
    exact ⟨h i List.mem_cons_self, ih (fun j hj => h j (List.mem_cons_of_mem i hj)) (step s i)⟩

theorem forall_of_along {ok : ι → Prop} {s : σ} {is : List ι}
    (h : Along step (fun _ => ok) s is) : ∀ i ∈ is, ok i := by
  induction is generalizing s with
  | nil => exact fun i hi => absurd hi List.not_mem_nil
  | cons i is ih =>
    intro j hj
    rcases List.mem_cons.1 hj with rfl | hj
    · exact h.1
    · exact ih h.2 j hj

theorem along_append {ok : σ → ι → Prop} {s : σ} {is js : List ι} :
    Along step ok s (is ++ js) ↔ Along step ok s is ∧ Along step ok (run step s is) js := by
  induction is generalizing s with
  | nil => exact (and_iff_right trivial).symm
  | cons i is ih =>
    show ok s i ∧ Along step ok (step s i) (is ++ js) ↔ (ok s i ∧ Along step ok (step s i) is) ∧ _
    rw [ih, and_assoc]
    rfl

/-- A condition on the steps that follows from another one under an invariant. -/
theorem Along.mono_of_inv (Inv : σ → Prop) {ok ok' : σ → ι → Prop} {s : σ} {is : List ι}
    (h : Along step ok s is) (hstep : ∀ s i, Inv s → Inv (step s i))
    (hok : ∀ s i, Inv s → ok s i → ok' s i) (hs : Inv s) : Along step ok' s is := by
  induction is generalizing s with
  | nil => trivial
  | cons i is ih => exact ⟨hok s i hs h.1, ih h.2 (hstep s i hs)⟩

/-- **Invariant rule.**  What every `ok` step keeps holds in every state of a run
whose steps are all `ok`. -/
theorem always_of_inv (Inv : σ → Prop) (ok : σ → ι → Prop)
    (hstep : ∀ s i, Inv s → ok s i → Inv (step s i)) {s : σ} {is : List ι} (hs : Inv s)
    (hok : Along step ok s is) : Always step Inv s is := by
  induction is generalizing s with
  | nil => exact always_nil.2 hs
  | cons i is ih => exact always_cons.2 ⟨hs, ih (hstep s i hs hok.1) hok.2⟩

/-- The invariant rule where no step is excluded. -/
theorem inv_run {Inv : σ → Prop} (hstep : ∀ s i, Inv s → Inv (step s i)) {s : σ} (hs : Inv s)
    (is : List ι) : Inv (run step s is) := by
  induction is generalizing s with
  | nil => exact hs
  | cons i is ih => exact ih (hstep s i hs)

/-- **Exact condition of a property of runs.**  `ok` steps keep the invariant, the
invariant gives the property, and a step that is not `ok` ends in a state without
it: then the property holds in every state of a run exactly when every step is
`ok`. -/
theorem always_iff_along (Inv : σ → Prop) {P : σ → Prop} {ok : σ → ι → Prop}
    (hstep : ∀ s i, Inv s → ok s i → Inv (step s i)) (hP : ∀ s, Inv s → P s)
    (hbad : ∀ s i, Inv s → P (step s i) → ok s i) {s : σ} (hs : Inv s) (is : List ι) :
    Always step P s is ↔ Along step ok s is := by
  induction is generalizing s with
  | nil => exact ⟨fun _ => trivial, fun _ => always_nil.2 (hP s hs)⟩
  | cons i is ih =>
    rw [always_cons]
    constructor
    · rintro ⟨-, h⟩
      have hok : ok s i := hbad s i hs (h [] List.nil_prefix)
      exact ⟨hok, (ih (hstep s i hs hok)).1 h⟩
    · rintro ⟨hok, h⟩
      exact ⟨hP s hs, (ih (hstep s i hs hok)).2 h⟩

/-- **Exact condition of the last state.**  Where a step ends in a state with `P`
exactly if `P` held before and the step is `ok`, a run does so exactly if every step
is. -/
theorem run_iff_along {Inv P : σ → Prop} {ok : σ → ι → Prop}
    (hstep : ∀ s i, Inv s → Inv (step s i)) (hP : ∀ s i, Inv s → (P (step s i) ↔ P s ∧ ok s i))
    {s : σ} (hs : Inv s) (is : List ι) : P (run step s is) ↔ P s ∧ Along step ok s is := by
  induction is generalizing s with
  | nil => exact ⟨fun h => ⟨h, trivial⟩, fun h => h.1⟩
  | cons i is ih =>
    rw [run_cons, ih (hstep s i hs), hP s i hs, and_assoc]
    rfl

/-! ### Machines that answer -/

variable {ρ : Type*}

/-- The answers to a list of inputs. -/
def replies (call : σ → ι → ρ × σ) : σ → List ι → List ρ
  | _, [] => []
  | s, i :: is => (call s i).1 :: replies call (call s i).2 is

/-- The state after them. -/
abbrev after (call : σ → ι → ρ × σ) : σ → List ι → σ := run fun s i => (call s i).2

/-- **Simulation rule with answers.**  Related states answer alike and stay related, on the
inputs considered. -/
theorem replies_simulates {call : σ → ι → ρ × σ} {acall : τ → ι → ρ × τ} (R : σ → τ → Prop)
    {ok : σ → ι → Prop}
    (hstep : ∀ s t i, ok s i → R s t → (call s i).1 = (acall t i).1 ∧ R (call s i).2 (acall t i).2)
    {s : σ} {t : τ} (h : R s t) (is : List ι) (hok : Along (fun s i => (call s i).2) ok s is) :
    replies call s is = replies acall t is ∧ R (after call s is) (after acall t is) := by
  induction is generalizing s t with
  | nil => exact ⟨rfl, h⟩
  | cons i is ih =>
    obtain ⟨hreply, hrel⟩ := hstep s t i hok.1 h
    obtain ⟨hreplies, hafter⟩ := ih hrel hok.2
    exact ⟨by rw [replies, replies, hreply, hreplies], hafter⟩

end Runs
end TjTools
