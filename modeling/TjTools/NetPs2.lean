/-
# A link that is kept alive

`src/scripts/net_ps2.sh`: `ping_loop` (lines 8-34) sends a number of pings and prints how many were
answered; `net_ps2` (lines 36-66) does so for 15 at a time, and restarts the interface after fewer
than three answers.

Between the ping and the `$?` that is to be its status stands another command, `if [[ ... ]]; then
break; fi`.  An `if` none of whose conditions holds has the status zero, so every ping counts as
answered: what is printed is the number of pings that were sent (`pingLoop_iff`), and the interface
is never restarted (`Runs.commands_eq`).

The pings are a sequence of answers, `pings i` that of the ping number `i`.  No signal arrives, so
`alive_loop` stays what it is.  The lines on `stdout` are left out.
-/

import Mathlib.Data.List.Count
import Mathlib.Data.List.Range
import TjTools.Basis.Loop

namespace TjTools
namespace NetPs2

open Loop

structure Shell where
  aliveLoop : ℕ
  count : ℕ
  replies : ℕ
  /-- `$?` -/
  status : ℕ
  deriving DecidableEq

namespace Shell

/-- `[[ ... ]]` -/
def test (holds : Bool) (s : Shell) : Shell := { s with status := if holds then 0 else 1 }

/-- `((replies++))`, whose status is that of the value before. -/
def countReply (s : Shell) : Shell :=
  { s with replies := s.replies + 1, status := if s.replies = 0 then 1 else 0 }

end Shell

/-- A turn of the loop of `ping_loop`, before the ping number `sent`. -/
def turn (pings : ℕ → Bool) (n : ℕ) : ℕ × Shell → Turn (ℕ × Shell) ℕ
  | (sent, s) =>
    let s := { s with status := if pings sent then 0 else 1 }
    let s := s.test (s.aliveLoop == 0)
    if s.status = 0 then .leave s.replies
    else
      -- the status of an `if` that did nothing
      let s := { s with status := 0 }
      let s := s.test (s.status == 0)
      let s := if s.status = 0 then s.countReply else { s with status := 0 }
      let s := { s with count := s.count + 1 }
      if s.count = n then .leave s.replies else .again (sent + 1, s)

/-- `ping_loop`, from the ping number `first` on: what it prints. -/
def PingLoop (pings : ℕ → Bool) (first n printed : ℕ) : Prop :=
  Ends (turn pings n) (first, ⟨1, 0, 0, 0⟩) printed

/-- The pings that were answered. -/
def answered (pings : ℕ → Bool) (first n : ℕ) : ℕ :=
  ((List.range' first n).filter fun i => pings i).length

inductive Command where
  | linkDown (device : String)
  | reconfigure (device : String)
  deriving DecidableEq

def restart (device : String) : List Command := [.linkDown device, .reconfigure device]

/-- `net_ps2` after some windows, with the commands so far. -/
inductive Runs (pings : ℕ → Bool) (device : String) : ℕ → List Command → Prop
  | started : device ≠ "" → Runs pings device 0 []
  | window {windows replies : ℕ} {commands : List Command} : Runs pings device windows commands →
      PingLoop pings (15 * windows) 15 replies →
      Runs pings device (windows + 1) (commands ++ if replies < 3 then restart device else [])

/-- What is to be done in some windows: a restart after each with fewer than three answers. -/
def intended (pings : ℕ → Bool) (device : String) (windows : ℕ) : List Command :=
  (List.range windows).flatMap fun i =>
    if answered pings (15 * i) 15 < 3 then restart device else []

/-! ### One loop -/

/-- Whatever became of the ping, a turn counts a reply. -/
theorem turn_eq (pings : ℕ → Bool) (n sent count replies status : ℕ) :
    ∃ status', turn pings n (sent, ⟨1, count, replies, status⟩) =
      if count + 1 = n then .leave (replies + 1)
      else .again (sent + 1, ⟨1, count + 1, replies + 1, status'⟩) :=
  ⟨_, rfl⟩

/-- **It prints the number of pings it sent.** -/
theorem pingLoop_ends (pings : ℕ → Bool) (first : ℕ) {n : ℕ} (hn : 1 ≤ n) :
    PingLoop pings first n n := by
  have hfrom : ∀ left count sent status, count + 1 + left = n →
      Ends (turn pings n) (sent, ⟨1, count, count, status⟩) n := by
    intro left
    induction left with
    | zero =>
      intro count sent status hcount
      obtain ⟨status', hturn⟩ := turn_eq pings n sent count count status
      rw [if_pos hcount] at hturn
      rw [← hcount]
      rw [← hcount] at hturn
      exact .leave hturn
    | succ left ih =>
      intro count sent status hcount
      obtain ⟨status', hturn⟩ := turn_eq pings n sent count count status
      rw [if_neg (by omega)] at hturn
      exact .again hturn (ih (count + 1) (sent + 1) status' (by omega))
  exact hfrom (n - 1) 0 first 0 (by omega)

theorem length_answered (pings : ℕ → Bool) (first n : ℕ) :
    answered pings first n = n ↔ ∀ i, i < n → pings (first + i) = true := by
  have hlength : (List.range' first n).length = n := List.length_range'
  unfold answered
  constructor
  · intro h i hi
    have hall := List.length_filter_eq_length_iff.1 (h.trans hlength.symm)
    exact hall (first + i) (List.mem_range'_1.2 (by omega))
  · intro h
    refine (List.length_filter_eq_length_iff.2 ?_).trans hlength
    intro i hi
    have hbounds := List.mem_range'_1.1 hi
    have hanswered := h (i - first) (by omega)
    rwa [Nat.add_sub_cancel' hbounds.1] at hanswered

/-- **The number is right exactly where every ping was answered.** -/
theorem pingLoop_iff (pings : ℕ → Bool) (first : ℕ) {n : ℕ} (hn : 1 ≤ n) :
    PingLoop pings first n (answered pings first n) ↔
      ∀ i, i < n → pings (first + i) = true := by
  have hends := pingLoop_ends pings first hn
  rw [← length_answered]
  constructor
  · intro h
    exact h.unique hends
  · intro h
    rw [h]
    exact hends

/-! ### Windows -/

/-- The interface is never restarted. -/
theorem Runs.commands_eq {pings : ℕ → Bool} {device : String} {windows : ℕ}
    {commands : List Command} (h : Runs pings device windows commands) : commands = [] := by
  induction h with
  | started _ => rfl
  | window _ hloop ih =>
    have hreplies := hloop.unique (pingLoop_ends pings _ (by omega))
    rw [ih, hreplies]
    rfl

theorem exists_runs (pings : ℕ → Bool) {device : String} (hdevice : device ≠ "") (windows : ℕ) :
    Runs pings device windows [] := by
  induction windows with
  | zero => exact .started hdevice
  | succ windows ih => exact .window ih (pingLoop_ends pings _ (by omega))

theorem intended_eq_nil_iff (pings : ℕ → Bool) (device : String) (windows : ℕ) :
    intended pings device windows = [] ↔ ∀ i, i < windows → 3 ≤ answered pings (15 * i) 15 := by
  unfold intended
  rw [List.flatMap_eq_nil_iff]
  constructor
  · intro h i hi
    by_contra hfew
    have hnil := h i (List.mem_range.2 hi)
    rw [if_pos (by omega)] at hnil
    cases hnil
  · intro h i hi
    rw [if_neg (not_lt.2 (h i (List.mem_range.1 hi)))]

/-- **What is printed is right exactly where every ping was answered, and what is restarted exactly
where no window has fewer than three answers.** -/
theorem netPs2_iff (pings : ℕ → Bool) {n : ℕ} (hn : 1 ≤ n) {device : String} (hdevice : device ≠ "")
    (windows : ℕ) :
    (PingLoop pings 0 n (answered pings 0 n) ↔ ∀ i, i < n → pings i = true) ∧
      ((∀ commands, Runs pings device windows commands →
          commands = intended pings device windows) ↔
        ∀ i, i < windows → 3 ≤ answered pings (15 * i) 15) := by
  constructor
  · have hloop := pingLoop_iff pings 0 hn
    simpa using hloop
  · rw [← intended_eq_nil_iff pings device]
    constructor
    · intro h
      exact (h [] (exists_runs pings hdevice windows)).symm
    · intro h commands hcommands
      rw [hcommands.commands_eq, h]

/-- On a link that answers, every window is right. -/
theorem netPs2_alive :
    (PingLoop (fun _ => true) 0 15 (answered (fun _ => true) 0 15) ↔ ∀ i, i < 15 → true = true) ∧
      ((∀ commands, Runs (fun _ => true) "enp3s0" 2 commands →
          commands = intended (fun _ => true) "enp3s0" 2) ↔
        ∀ i, i < 2 → 3 ≤ answered (fun _ => true) (15 * i) 15) :=
  netPs2_iff (fun _ => true) (by decide) (by decide) 2

/-- A link that is dead is not restarted. -/
theorem not_netPs2_dead :
    ¬PingLoop (fun _ => false) 0 15 (answered (fun _ => false) 0 15) ∧
      ∃ commands, Runs (fun _ => false) "enp3s0" 1 commands ∧
        commands ≠ intended (fun _ => false) "enp3s0" 1 := by
  constructor
  · intro h
    have heq : answered (fun _ => false) 0 15 = 15 := h.unique (pingLoop_ends _ 0 (by decide))
    revert heq
    decide
  · exact ⟨[], exists_runs _ (by decide) 1, by decide⟩

end NetPs2
end TjTools
