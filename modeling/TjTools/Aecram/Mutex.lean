/-
# What the mutex gives

Of the sessions of `Ports`.  The port accesses of two transfers never mix: what the
controller sees is whole transfers one after the other, and then what the holder of the
mutex has executed of its own (`accesses_whole`).  And no session waits forever for want of
steps: from every state, the holder can leave the mutex by steps of its own, and every
call can then be brought to its end (`completes`).
-/

import TjTools.Aecram.Ports

namespace TjTools
namespace Aecram
namespace Ports

open Runs

theorem withBuffer_accesses (m : Machine) (buffer : Buffer) :
    (m.withBuffer buffer).accesses = m.accesses := rfl

/-- The port accesses of a program. -/
def accesses (prog : List Instr) : List PortAccess := prog.flatMap fun instr => instr.access.toList

theorem foldl_exec_accesses (prog : List Instr) (m : Machine) (value : UInt8) :
    (prog.foldl Instr.exec (m, value)).1.accesses = m.accesses ++ accesses prog := by
  induction prog generalizing m value with
  | nil => exact (List.append_nil _).symm
  | cons instr prog ih =>
    rw [List.foldl_cons, ← Prod.eta (Instr.exec (m, value) instr), ih, Instr.exec_accesses,
      List.append_assoc]
    rfl

/-- The port accesses of one transfer, from the first to the last: what `aecram_write` or
`aecram_read` adds to those of any machine, where no signal interrupts it. -/
def Transfer (log : List PortAccess) : Prop :=
  ∃ offset, (∃ val, ∀ m : Machine, m.Uninterrupted →
      (m.aecramWrite configDefault offset val).2.accesses = m.accesses ++ log) ∨
    ∃ i, ∀ m : Machine, m.Uninterrupted →
      (m.aecramRead configDefault offset i).2.accesses = m.accesses ++ log

theorem transfer_of_program {pc : Pc} (h : program pc ≠ []) : Transfer (accesses (program pc)) := by
  cases pc with
  | write req i val =>
    refine ⟨address req i, .inl ⟨val, fun m hm => ?_⟩⟩
    rw [aecramWrite_eq hm configDefault (address req i) val 0, foldl_exec_accesses,
      Machine.mutexLockInterruptible_run hm]
    rfl
  | read req i =>
    refine ⟨address req i, .inr ⟨i, fun m hm => ?_⟩⟩
    rw [aecramRead_eq hm configDefault (address req i) i 0, foldl_exec_accesses,
      Machine.mutexLockInterruptible_run hm]
    rfl
  | idle => exact absurd rfl h
  | copyIn req => exact absurd rfl h
  | load req i => exact absurd rfl h
  | copyOut req => exact absurd rfl h

namespace State

variable {ι : Type}

/-- The log `start` has been followed by whole transfers, and then by what the holder of the
mutex has executed of its own one. -/
def Whole (start : List PortAccess) (s : State ι) : Prop :=
  ∃ (whole : List (List PortAccess)) (done : List Instr), (∀ log ∈ whole, Transfer log) ∧
    s.machine.accesses = start ++ whole.flatten ++ accesses done ∧
      match s.owner with
      | none => done = []
      | some w => program (s.pc w) = done ++ s.todo w

theorem whole_initial (machine : Machine) :
    (initial machine : State ι).Whole machine.accesses := by
  refine ⟨[], [], by simp, ?_, rfl⟩
  simp [initial, Machine.mutexUnlock, accesses]

/-- A step that leaves the ports, the mutex and the place of its holder alone. -/
theorem whole_of_eq {start : List PortAccess} {s s' : State ι} (h : s.Whole start)
    (haccesses : s'.machine.accesses = s.machine.accesses) (howner : s'.owner = s.owner)
    (htodo : s'.todo = s.todo) (hpc : ∀ w, s.owner = some w → s'.pc w = s.pc w) :
    s'.Whole start := by
  obtain ⟨whole, done, hwhole, hlog, hdone⟩ := h
  refine ⟨whole, done, hwhole, haccesses.trans hlog, ?_⟩
  rw [howner, htodo]
  cases hs : s.owner with
  | none =>
    rw [hs] at hdone
    exact hdone
  | some w =>
    rw [hs] at hdone
    simp only [hpc w hs]
    exact hdone

variable [DecidableEq ι]

theorem whole_execute {start : List PortAccess} {s : State ι} (h : s.Inv) (hs : s.Whole start)
    {who : ι} {instr : Instr} {rest : List Instr} (htodo : s.todo who = instr :: rest) :
    (s.execute who instr rest).Whole start := by
  have hinside : s.todo who ≠ [] := by simp [htodo]
  have howner : s.owner = some who := (h.guards who).1 hinside
  have hmidway := h.midway who hinside
  rw [htodo] at hmidway
  obtain ⟨whole, done, hwhole, hlog, hdone⟩ := hs
  rw [howner] at hdone
  simp only [htodo] at hdone
  have hlog' : (s.execute who instr rest).machine.accesses
      = start ++ whole.flatten ++ accesses (done ++ [instr]) := by
    rw [execute_machine, Instr.exec_accesses, hlog]
    simp [accesses]
  by_cases hunlock : instr = .unlock
  · -- the transfer is over, and is one of the whole ones from here on
    obtain rfl : rest = [] := (midway_unlock hmidway).1 hunlock
    have htransfer : Transfer (accesses (done ++ [instr])) := by
      rw [← hdone]
      exact transfer_of_program (by simp [hdone])
    refine ⟨whole ++ [accesses (done ++ [instr])], [], ?_, ?_, ?_⟩
    · intro log hmem
      rcases List.mem_append.1 hmem with hmem | hmem
      · exact hwhole log hmem
      · rw [List.mem_singleton.1 hmem]
        exact htransfer
    · rw [hlog']
      simp [accesses]
    · simp [hunlock]
  · have hrest : rest ≠ [] := fun hnil => hunlock ((midway_unlock hmidway).2 hnil)
    refine ⟨whole, done ++ [instr], hwhole, hlog', ?_⟩
    simp [hunlock, hrest, howner, hdone]

/-- A session outside the transfers does not hold the mutex, and may go anywhere. -/
theorem goto_of_owner {s : State ι} (h : s.Inv) {who : ι} (htodo : s.todo who = []) (pc : Pc)
    (w : ι) (howner : s.owner = some w) : Function.update s.pc who pc w = s.pc w := by
  have hne : w ≠ who := by
    rintro rfl
    exact (h.guards w).2 howner htodo
  exact Function.update_of_ne hne _ _

theorem whole_lock {start : List PortAccess} {s : State ι} (h : s.Inv) (hs : s.Whole start)
    {who : ι} (htodo : s.todo who = []) (interrupted : Bool) :
    (s.lock who interrupted).Whole start := by
  rcases lock_cases s who interrupted with ⟨-, hlock⟩ | ⟨-, -, hlock⟩ | ⟨-, hfree, hlock⟩
  · rw [hlock]
    exact whole_of_eq hs rfl rfl rfl (goto_of_owner h htodo _)
  · rw [hlock]
    exact hs
  · rw [hlock]
    obtain ⟨whole, done, hwhole, hlog, hdone⟩ := hs
    rw [hfree] at hdone
    obtain rfl : done = [] := hdone
    refine ⟨whole, [], hwhole, hlog, ?_⟩
    simp

theorem whole_step {start : List PortAccess} {s : State ι} (h : s.Inv) (hs : s.Whole start)
    (act : Action ι) : (s.step act).Whole start := by
  cases act with
  | beginRead who req =>
    simp only [step]
    split_ifs with hidle
    · exact whole_of_eq hs rfl rfl rfl (goto_of_owner h (h.todo_of_idle hidle.1) _)
    · exact whole_of_eq hs rfl rfl rfl fun _ _ => rfl
  | beginWrite who req =>
    simp only [step]
    split_ifs with hidle
    · exact whole_of_eq hs rfl rfl rfl (goto_of_owner h (h.todo_of_idle hidle.1) _)
    · exact whole_of_eq hs rfl rfl rfl fun _ _ => rfl
  | advance who interrupted =>
    have hadvance : (s.advance who interrupted).Whole start := by
      cases htodo : s.todo who with
      | cons instr rest =>
        rw [advance_execute htodo]
        exact whole_execute h hs htodo
      | nil =>
        cases hpc : s.pc who with
        | idle =>
          simp only [advance, htodo, hpc]
          exact hs
        | copyIn req =>
          simp only [advance, htodo, hpc]
          exact whole_of_eq hs (withBuffer_accesses _ _) rfl rfl (goto_of_owner h htodo _)
        | load req i =>
          simp only [advance, htodo, hpc]
          exact whole_of_eq hs rfl rfl rfl (goto_of_owner h htodo _)
        | write req i val =>
          simp only [advance, htodo, hpc]
          exact whole_lock h hs htodo interrupted
        | read req i =>
          simp only [advance, htodo, hpc]
          exact whole_lock h hs htodo interrupted
        | copyOut req =>
          simp only [advance, htodo, hpc]
          exact whole_of_eq hs rfl rfl rfl (goto_of_owner h htodo _)
    exact whole_of_eq hadvance rfl rfl rfl fun _ _ => rfl

/-- **Transfers never mix at the ports.**  In every state of every interleaving, the port
accesses since the beginning are whole transfers, one after the other, and then the first
ones of the transfer that the holder of the mutex is in the middle of, none if it is free. -/
theorem accesses_whole (machine : Machine) (acts : List (Action ι)) :
    Always step (Whole machine.accesses) (initial machine : State ι) acts := by
  have hboth : Always step (fun s : State ι => s.Inv ∧ s.Whole machine.accesses)
      (initial machine) acts :=
    always_of_inv _ (fun _ _ => True) (fun s act h _ => ⟨inv_step h.1 act, whole_step h.1 h.2 act⟩)
      ⟨inv_initial machine, whole_initial machine⟩ (along_of_forall (fun _ _ => trivial) _)
  exact hboth.mono fun s h => h.2

/-! ### Progress -/

/-- `n` uninterrupted steps of a session. -/
def steps (who : ι) (n : ℕ) : List (Action ι) := List.replicate n (.advance who false)

theorem inv_steps {s : State ι} (h : s.Inv) (acts : List (Action ι)) : (run step s acts).Inv := by
  have hstep : ∀ (s : State ι) act, s.Inv → (s.step act).Inv := fun _ act h => inv_step h act
  exact inv_run hstep h acts

/-- **The holder of the mutex can leave it**, by as many steps as it has instructions left, and
is then past its byte. -/
theorem run_transfer {s : State ι} (h : s.Inv) {who : ι} {todo : List Instr}
    (htodo : s.todo who = todo) (hinside : todo ≠ []) :
    (run step s (steps who todo.length)).owner = none ∧
      (run step s (steps who todo.length)).pc
        = Function.update s.pc who (next (s.pc who)) := by
  induction todo generalizing s with
  | nil => exact absurd rfl hinside
  | cons instr rest ih =>
    have hstep : s.step (.advance who false) = (s.execute who instr rest).observe := by
      show (s.advance who false).observe = _
      rw [advance_execute htodo]
    have hafter : steps who (instr :: rest).length
        = .advance who false :: steps who rest.length := rfl
    rw [hafter, run_cons, hstep]
    by_cases hrest : rest = []
    · subst hrest
      have hmidway := h.midway who (by simp [htodo])
      rw [htodo] at hmidway
      obtain rfl : instr = .unlock := (midway_unlock hmidway).2 rfl
      exact ⟨rfl, rfl⟩
    · have hpc : (s.execute who instr rest).observe.pc = s.pc := by
        show (s.execute who instr rest).pc = s.pc
        rw [execute_pc, if_neg hrest]
      have hnext := ih (inv_observe (inv_execute h htodo))
        (show Function.update s.todo who rest who = rest from Function.update_self ..) hrest
      rw [hpc] at hnext
      exact hnext

/-- How far a call is from its end. -/
def rank : Pc → ℕ
  | .idle => 0
  | .copyOut _ => 1
  | .read req i => req.length.toNat - i + 2
  | .write req i _ => 2 * (req.length.toNat - i) + 1
  | .load req i => 2 * (req.length.toNat - i) + 2
  | .copyIn req => 2 * req.length.toNat + 3

theorem rank_next {pc : Pc} (h : program pc ≠ []) : rank (next pc) < rank pc := by
  cases pc with
  | write req i val =>
    simp only [next]
    split_ifs with hmore
    · simp only [rank]
      omega
    · simp only [rank]
      omega
  | read req i =>
    simp only [next]
    split_ifs with hmore
    · simp only [rank]
      omega
    · simp only [rank]
      omega
  | idle => exact absurd rfl h
  | copyIn req => exact absurd rfl h
  | load req i => exact absurd rfl h
  | copyOut req => exact absurd rfl h

omit [DecidableEq ι] in
theorem Inv.todo_of_free {s : State ι} (h : s.Inv) (hfree : s.owner = none) (w : ι) :
    s.todo w = [] := by
  by_contra hinside
  cases hfree.symm.trans ((h.guards w).1 hinside)

/-- A session that finds the mutex free transfers its byte. -/
theorem run_lock {s : State ι} (h : s.Inv) (hfree : s.owner = none) {who : ι}
    (hprogram : program (s.pc who) ≠ [])
    (hlock : s.advance who false = s.lock who false) :
    ∃ n, (run step s (steps who n)).owner = none ∧
      (run step s (steps who n)).pc who = next (s.pc who) := by
  have htodo := h.todo_of_free hfree who
  rcases lock_cases s who false with ⟨hfalse, -⟩ | ⟨-, htaken, -⟩ | ⟨-, -, hstart⟩
  · cases hfalse
  · exact absurd hfree htaken
  · have hlocked := inv_lock h htodo hprogram false
    rw [hstart] at hlocked hlock
    obtain ⟨howner, hpc⟩ := run_transfer (inv_observe hlocked)
      (show Function.update s.todo who (program (s.pc who)) who = _ from Function.update_self ..)
      hprogram
    refine ⟨(program (s.pc who)).length + 1, ?_⟩
    have hfirst : steps who ((program (s.pc who)).length + 1)
        = .advance who false :: steps who (program (s.pc who)).length := rfl
    rw [hfirst, run_cons]
    simp only [step, hlock]
    refine ⟨howner, ?_⟩
    rw [hpc, Function.update_self]
    rfl

/-- A session that finds the mutex free comes closer to the end of its call. -/
theorem exists_rank_lt {s : State ι} (h : s.Inv) (hfree : s.owner = none) {who : ι}
    (hbusy : s.pc who ≠ .idle) :
    ∃ n, (run step s (steps who n)).owner = none ∧
      rank ((run step s (steps who n)).pc who) < rank (s.pc who) := by
  have htodo := h.todo_of_free hfree who
  cases hpc : s.pc who with
  | idle => exact absurd hpc hbusy
  | copyIn req =>
    refine ⟨1, ?_⟩
    show ((s.advance who false).observe).owner = none ∧ rank ((s.advance who false).pc who) < _
    simp [advance, htodo, hpc, observe, goto, rank, hfree]
  | load req i =>
    refine ⟨1, ?_⟩
    show ((s.advance who false).observe).owner = none ∧ rank ((s.advance who false).pc who) < _
    simp [advance, htodo, hpc, observe, goto, rank, hfree]
  | write req i val =>
    have hprogram : program (s.pc who) ≠ [] := by simp [hpc, program, aecramWrite]
    obtain ⟨n, howner, hnext⟩ := run_lock h hfree hprogram (by simp only [advance, htodo, hpc])
    refine ⟨n, howner, ?_⟩
    rw [hnext, ← hpc]
    exact rank_next hprogram
  | read req i =>
    have hprogram : program (s.pc who) ≠ [] := by simp [hpc, program, aecramRead]
    obtain ⟨n, howner, hnext⟩ := run_lock h hfree hprogram (by simp only [advance, htodo, hpc])
    refine ⟨n, howner, ?_⟩
    rw [hnext, ← hpc]
    exact rank_next hprogram
  | copyOut req =>
    refine ⟨1, ?_⟩
    show ((s.advance who false).observe).owner = none ∧ rank ((s.advance who false).pc who) < _
    simp [advance, htodo, hpc, observe, goto, rank, hfree]

/-- With the mutex free, a session can bring its call to its end. -/
theorem exists_idle {s : State ι} (h : s.Inv) (hfree : s.owner = none) (who : ι) :
    ∃ n, (run step s (steps who n)).owner = none ∧
      (run step s (steps who n)).pc who = .idle := by
  induction hrank : rank (s.pc who) using Nat.strong_induction_on generalizing s with
  | _ r ih =>
    by_cases hidle : s.pc who = .idle
    · exact ⟨0, hfree, hidle⟩
    · obtain ⟨n, howner, hlt⟩ := exists_rank_lt h hfree hidle
      rw [hrank] at hlt
      obtain ⟨m, howner', hidle'⟩ := ih _ hlt (inv_steps h _) howner rfl
      refine ⟨n + m, ?_⟩
      rw [steps, List.replicate_add, run_append]
      exact ⟨howner', hidle'⟩

/-- **Every call can be brought to its end.**  From every state of every interleaving, steps of
the session that holds the mutex, if one does, and then of the session itself lead to a
state in which the session is idle and the mutex free. -/
theorem completes (machine : Machine) (acts : List (Action ι)) (who : ι) :
    ∃ holders own : List (Action ι),
      (∀ act ∈ holders, ∃ w, (run step (initial machine) acts).owner = some w ∧
        act = .advance w false) ∧
      (∀ act ∈ own, act = .advance who false) ∧
      (run step (initial machine) (acts ++ (holders ++ own))).pc who = .idle ∧
      (run step (initial machine) (acts ++ (holders ++ own))).owner = none := by
  have hinv : (run step (initial machine) acts).Inv := inv_steps (inv_initial machine) acts
  simp only [run_append]
  generalize run step (initial machine) acts = s at hinv
  cases howner : s.owner with
  | none =>
    obtain ⟨n, hfree, hidle⟩ := exists_idle hinv howner who
    exact ⟨[], steps who n, fun act hact => absurd hact List.not_mem_nil,
      fun act hact => List.eq_of_mem_replicate hact, hidle, hfree⟩
  | some w =>
    -- first the holder leaves the mutex
    have hinside : s.todo w ≠ [] := (hinv.guards w).2 howner
    obtain ⟨hfree, -⟩ := run_transfer hinv rfl hinside
    obtain ⟨n, hfree', hidle⟩ := exists_idle (inv_steps hinv _) hfree who
    exact ⟨steps w (s.todo w).length, steps who n,
      fun act hact => ⟨w, rfl, List.eq_of_mem_replicate hact⟩,
      fun act hact => List.eq_of_mem_replicate hact, hidle, hfree'⟩

end State
end Ports
end Aecram
end TjTools
