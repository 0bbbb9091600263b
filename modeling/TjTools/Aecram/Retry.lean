/-
# Requests that a signal interrupts

`mutex_lock_interruptible` of `src/aecram/driver/driver.c` may fail before any byte of a
transfer (lines 146-207), and then the ioctl fails too (lines 270-324).  The pattern of
the failures is the list of the machine; a request that is repeated until it succeeds
makes finitely many attempts, and those after the list succeed.  The attempts that a call
made are what it took from the front of the list (`Settles`): the call fails exactly if
one of them did, and it leaves the mutex as free as it found it, over one byte, over the
loops (`aecramWriteBufferFrom_settles`, `aecramReadBufferFrom_settles`) and over a
request.

A loop that is interrupted did what a loop over fewer bytes does without a signal
(`aecramWriteBufferFrom_interrupted`), so a request that fails wrote its first bytes
(`storedTo`), and a request written over a part of itself is written as if from the start
(`stored_storedTo`).  That is the invariant of the loop that repeats a request until it
succeeds (`rewrite_ends`).
-/

import TjTools.Aecram.Memory
import TjTools.Basis.Loop

namespace TjTools
namespace Aecram

open Loop

namespace Memory

/-- The array with the first `k` bytes of a request. -/
def storedTo (bytes : UInt16 → UInt8) (req : Request) (k : ℕ) : UInt16 → UInt8 := fun a =>
  if req.offset.toNat ≤ a.toNat ∧ a.toNat < req.offset.toNat + k then
    cell req.buffer (a.toNat - req.offset.toNat)
  else bytes a

theorem storedTo_zero (bytes : UInt16 → UInt8) (req : Request) : storedTo bytes req 0 = bytes := by
  funext a
  rw [storedTo, if_neg (by omega)]

theorem storedTo_length (bytes : UInt16 → UInt8) (req : Request) :
    storedTo bytes req req.length.toNat = stored bytes req := rfl

/-- The bytes of a part of the request are written again with the others. -/
theorem stored_storedTo (bytes : UInt16 → UInt8) (req : Request) {k : ℕ}
    (hk : k ≤ req.length.toNat) : stored (storedTo bytes req k) req = stored bytes req := by
  funext a
  rw [stored, stored]
  by_cases ha : req.offset.toNat ≤ a.toNat ∧ a.toNat < req.offset.toNat + req.length.toNat
  · rw [if_pos ha, if_pos ha]
  · rw [if_neg ha, if_neg ha, storedTo, if_neg (by omega)]

end Memory

namespace Machine

/-! ### The attempts of a call -/

/-- What a function that takes the mutex some number of times leaves: it fails exactly if one of
its attempts does, and frees the mutex. -/
structure Settles (m : Machine) (r : ℤ × Machine) : Prop where
  attempts : ∃ attempts, m.interrupts = attempts ++ r.2.interrupts ∧
    ((r.1 = 0 ∧ true ∉ attempts) ∨ (r.1 = -EINTR ∧ true ∈ attempts))
  released : m.mtxHeld = false → r.2.mtxHeld = false

namespace Settles

theorem refl (m : Machine) : m.Settles (0, m) where
  attempts := ⟨[], rfl, .inl ⟨rfl, List.not_mem_nil⟩⟩
  released h := h

/-- One attempt that succeeds. -/
theorem acquired {m : Machine} {r : ℤ × Machine} (h : m.Uninterrupted) (hret : r.1 = 0)
    (hinterrupts : r.2.interrupts = m.interrupts.tail) (hfree : r.2.mtxHeld = false) :
    m.Settles r where
  attempts := by
    refine ⟨m.interrupts.take 1, ?_, .inl ⟨hret, ?_⟩⟩
    · rw [hinterrupts, ← List.drop_one, List.take_append_drop]
    · rcases hi : m.interrupts with _ | ⟨_ | _, rest⟩
      · exact List.not_mem_nil
      · rw [List.take_succ_cons, List.take_zero]
        decide
      · rw [Uninterrupted, hi] at h
        exact absurd rfl h
  released _ := hfree

/-- One attempt that fails. -/
theorem interrupted {m : Machine} {rest : List Bool} (h : m.interrupts = true :: rest) :
    m.Settles (-EINTR, m.withInterrupts rest) where
  attempts := ⟨[true], h, .inr ⟨rfl, List.mem_cons_self⟩⟩
  released h := h

/-- One attempt, with what either outcome of it leads to. -/
theorem attempt {m : Machine} {r : ℤ × Machine}
    (hrun : m.Uninterrupted →
      r.1 = 0 ∧ r.2.interrupts = m.interrupts.tail ∧ r.2.mtxHeld = false)
    (hfails : ∀ rest, m.interrupts = true :: rest → r = (-EINTR, m.withInterrupts rest)) :
    m.Settles r := by
  by_cases h : m.Uninterrupted
  · obtain ⟨hret, hinterrupts, hfree⟩ := hrun h
    exact .acquired h hret hinterrupts hfree
  · obtain ⟨rest, hrest⟩ := List.head?_eq_some_iff.1 (not_not.1 h)
    rw [hfails rest hrest]
    exact .interrupted hrest

theorem seq {m m₁ : Machine} {r : ℤ × Machine} (h₁ : m.Settles (0, m₁)) (h₂ : m₁.Settles r) :
    m.Settles r where
  attempts := by
    obtain ⟨first, hfirst, ⟨-, hquiet⟩ | ⟨hret, -⟩⟩ := h₁.attempts
    · obtain ⟨rest, hrest, hends⟩ := h₂.attempts
      refine ⟨first ++ rest, ?_, ?_⟩
      · rw [hfirst, List.append_assoc, ← hrest]
      · rcases hends with ⟨hret, hnone⟩ | ⟨hret, hsome⟩
        · exact .inl ⟨hret, fun h => (List.mem_append.1 h).elim hquiet hnone⟩
        · exact .inr ⟨hret, List.mem_append_right first hsome⟩
    · have hne : (0 : ℤ) ≠ -EINTR := by decide
      exact absurd hret hne
  released h := h₂.released (h₁.released h)

theorem ret_cases {m : Machine} {r : ℤ × Machine} (h : m.Settles r) : r.1 = 0 ∨ r.1 = -EINTR := by
  obtain ⟨-, -, ⟨hret, -⟩ | ⟨hret, -⟩⟩ := h.attempts
  · exact .inl hret
  · exact .inr hret

end Settles

theorem aecramWrite_settles (m : Machine) (offset : UInt16) (val : UInt8) :
    m.Settles (m.aecramWrite configDefault offset val) := by
  refine .attempt ?_ ?_
  · intro h
    obtain ⟨hret, -, -, hinterrupts, hfree⟩ := aecramWrite_run h offset val
    exact ⟨hret, hinterrupts, hfree⟩
  · intro rest hrest
    exact aecramWrite_interrupted hrest offset val

theorem aecramRead_settles (m : Machine) (offset : UInt16) (i : ℕ) :
    m.Settles (m.aecramRead configDefault offset i) := by
  refine .attempt ?_ ?_
  · intro h
    obtain ⟨hret, -, -, hinterrupts, hfree⟩ := aecramRead_run h offset i
    exact ⟨hret, hinterrupts, hfree⟩
  · intro rest hrest
    exact aecramRead_interrupted hrest offset i

theorem aecramWriteBufferFrom_settles (m : Machine) (offset : UInt16) (i n : ℕ) :
    m.Settles (m.aecramWriteBufferFrom configDefault offset i n) := by
  induction n generalizing i m with
  | zero => exact .refl m
  | succ n ih =>
    have hbyte := aecramWrite_settles m (offset + UInt16.ofNat i) (cell m.buffer i)
    rcases hbyte.ret_cases with hret | hret
    · rw [aecramWriteBufferFrom_step hret]
      rw [← Prod.eta (m.aecramWrite _ _ _), hret] at hbyte
      exact hbyte.seq (ih _ (i + 1))
    · rw [aecramWriteBufferFrom_stop hret]
      exact hbyte

theorem aecramReadBufferFrom_settles (m : Machine) (offset : UInt16) (i n : ℕ) :
    m.Settles (m.aecramReadBufferFrom configDefault offset i n) := by
  induction n generalizing i m with
  | zero => exact .refl m
  | succ n ih =>
    have hbyte := aecramRead_settles m (offset + UInt16.ofNat i) i
    rcases hbyte.ret_cases with hret | hret
    · rw [aecramReadBufferFrom_step hret]
      rw [← Prod.eta (m.aecramRead _ _ _), hret] at hbyte
      exact hbyte.seq (ih _ (i + 1))
    · rw [aecramReadBufferFrom_stop hret]
      exact hbyte

/-! ### Where a write stops -/

/-- A byte that is written without a signal. -/
theorem aecramWrite_uninterrupted {m : Machine} (h : m.Uninterrupted) (offset : UInt16)
    (val : UInt8) :
    m.aecramWrite configDefault offset val
      = (0, ((m.withInterrupts []).aecramWrite configDefault offset val).2.withInterrupts
          m.interrupts.tail) := by
  unfold aecramWrite
  rw [mutexLockInterruptible_run h]
  rfl

/-- **The loop that writes does what a loop without signals does**, over all of its bytes or,
if an attempt fails, over those before. -/
theorem aecramWriteBufferFrom_interrupted (m : Machine) (offset : UInt16) (i n : ℕ) :
    let r := m.aecramWriteBufferFrom configDefault offset i n
    ∃ k ≤ n, (r.1 = 0 → k = n) ∧
      r.2 = ((m.withInterrupts []).aecramWriteBufferFrom configDefault offset i
        k).2.withInterrupts r.2.interrupts := by
  induction n generalizing i m with
  | zero => exact ⟨0, le_rfl, fun _ => rfl, rfl⟩
  | succ n ih =>
    by_cases h : m.Uninterrupted
    · obtain ⟨m₁, hm₁⟩ : ∃ m₁, m₁ = (m.aecramWrite configDefault (offset + UInt16.ofNat i)
        (cell m.buffer i)).2 := ⟨_, rfl⟩
      obtain ⟨c₁, hc₁⟩ : ∃ c₁, c₁ = ((m.withInterrupts []).aecramWrite configDefault
        (offset + UInt16.ofNat i) (cell m.buffer i)).2 := ⟨_, rfl⟩
      have hcalm : (m.withInterrupts []).Uninterrupted := Calm.uninterrupted rfl
      have hquiet : m₁.withInterrupts [] = c₁ := by
        rw [hm₁, aecramWrite_uninterrupted h, hc₁, aecramWrite_uninterrupted hcalm]
        rfl
      obtain ⟨k, hk, hall, hrun⟩ := ih m₁ (i + 1)
      have hstep := aecramWriteBufferFrom_step
        (aecramWrite_run h (offset + UInt16.ofNat i) (cell m.buffer i)).1 n
      have hstep' := @aecramWriteBufferFrom_step (m.withInterrupts []) offset i
        (aecramWrite_run hcalm (offset + UInt16.ofNat i) (cell m.buffer i)).1 k
      rw [← hm₁] at hstep
      rw [hquiet] at hrun
      rw [hstep]
      refine ⟨k + 1, by omega, fun hret => congrArg (· + 1) (hall hret), ?_⟩
      rw [hrun, hc₁]
      exact congrArg (fun r : ℤ × Machine => r.2.withInterrupts _) hstep'.symm
    · obtain ⟨rest, hrest⟩ := List.head?_eq_some_iff.1 (not_not.1 h)
      have hstop := aecramWrite_interrupted hrest (offset + UInt16.ofNat i) (cell m.buffer i)
      rw [aecramWriteBufferFrom_stop (congrArg Prod.fst hstop), hstop]
      have hne : -EINTR ≠ 0 := by decide
      exact ⟨0, Nat.zero_le _, fun hret => absurd hret hne, rfl⟩

end Machine

/-! ### Requests -/

/-- No command keeps the mutex, whatever faults and whatever is interrupted. -/
theorem ioctl_released (u : User) {m : Machine} (hfree : m.mtxHeld = false) :
    (ioctlWrite u ⟨some configDefault⟩ m).2.mtxHeld = false ∧
      (ioctlRead u ⟨some configDefault⟩ m).2.mtxHeld = false := by
  by_cases h : u.Transfers
  · constructor
    · obtain ⟨m₁, hm₁⟩ : ∃ m₁, m₁ = m.withBuffer
        (u.copyFrom m.buffer u.getLength.toNat).1 := ⟨_, rfl⟩
      obtain ⟨r, hr⟩ : ∃ r, r = m₁.aecramWriteBufferFrom configDefault u.getOffset 0
        u.getLength.toNat := ⟨_, rfl⟩
      have hfree₁ : m₁.mtxHeld = false := by rw [hm₁, Machine.withBuffer_mtxHeld, hfree]
      have hsettles : m₁.Settles r := by
        rw [hr]
        exact Machine.aecramWriteBufferFrom_settles _ _ _ _
      rw [ioctlWrite_transfers h hm₁ hr]
      split_ifs
      · exact hfree₁
      · exact hsettles.released hfree₁
    · obtain ⟨r, hr⟩ : ∃ r, r = m.aecramReadBufferFrom configDefault u.getOffset 0
        u.getLength.toNat := ⟨_, rfl⟩
      have hsettles : m.Settles r := by
        rw [hr]
        exact Machine.aecramReadBufferFrom_settles _ _ _ _
      rw [ioctlRead_transfers h hr, apply_ite Prod.snd, ite_self]
      exact hsettles.released hfree
  · obtain ⟨hread, hwrite⟩ := ioctl_idle h m
    rw [hread, hwrite]
    exact ⟨hfree, hfree⟩

/-- The loop over a request that was copied writes its first bytes, and all of them if it
succeeds. -/
theorem aecramWriteBufferFrom_storedTo {req : Request} (hin : req.InRange) {m m₁ : Machine}
    (hm₁ : m₁ = m.withBuffer (copyPrefix req.length.toNat req.buffer m.buffer))
    {r : ℤ × Machine}
    (hr : r = m₁.aecramWriteBufferFrom configDefault req.offset 0 req.length.toNat) :
    ∃ k ≤ req.length.toNat, (r.1 = 0 → k = req.length.toNat) ∧
      r.2.controller.ram = Memory.storedTo m.controller.ram req k := by
  obtain ⟨k, hk, hall, hrun⟩ :=
    Machine.aecramWriteBufferFrom_interrupted m₁ req.offset 0 req.length.toNat
  have hrange : req.offset.toNat + 0 + k ≤ 65536 := by
    have hfits := hin.2
    omega
  have hcalm : (m₁.withInterrupts []).Calm := rfl
  obtain ⟨-, -, -, -, hram⟩ :=
    Machine.aecramWriteBufferFrom_run hcalm req.offset 0 k hrange
  rw [← hr] at hall hrun
  refine ⟨k, hk, hall, ?_⟩
  rw [hrun, Machine.withInterrupts_controller]
  funext a
  rw [hram, Memory.storedTo, Nat.add_zero, Machine.withInterrupts_buffer,
    Machine.withInterrupts_controller, hm₁, Machine.withBuffer_buffer,
    Machine.withBuffer_controller]
  by_cases ha : req.offset.toNat ≤ a.toNat ∧ a.toNat < req.offset.toNat + k
  · rw [if_pos ha, if_pos ha, cell_copyPrefix, if_pos (by omega)]
  · rw [if_neg ha, if_neg ha]

/-- **A command that writes stores the first bytes of its request**, as the driver reads it,
whatever stops it. -/
theorem ioctlWrite_storedTo (u : User) (m : Machine) :
    ∃ k ≤ u.seen.length.toNat, (ioctlWrite u ⟨some configDefault⟩ m).2.controller.ram
      = Memory.storedTo m.controller.ram u.seen k := by
  have hnothing := (Memory.storedTo_zero m.controller.ram u.seen).symm
  by_cases h : u.Transfers
  · obtain ⟨m₁, hm₁⟩ : ∃ m₁, m₁ = m.withBuffer
      (u.copyFrom m.buffer u.getLength.toNat).1 := ⟨_, rfl⟩
    rw [ioctlWrite_transfers h hm₁ rfl]
    by_cases hmissing : (u.copyFrom m.buffer u.getLength.toNat).2 = true
    · rw [if_pos hmissing, hm₁]
      exact ⟨0, Nat.zero_le _, hnothing⟩
    · rw [u.copyFrom_complete hmissing] at hm₁
      obtain ⟨k, hk, -, hram⟩ := aecramWriteBufferFrom_storedTo h.inRange hm₁ rfl
      rw [if_neg hmissing]
      exact ⟨k, hk, hram⟩
  · rw [(ioctl_idle h m).2]
    exact ⟨0, Nat.zero_le _, hnothing⟩

/-- A request in range that nothing faults on fails exactly if an attempt does. -/
theorem ioctlWrite_settles {u : User} (hu : u.Plain) (hin : u.request.InRange) (m : Machine) :
    m.Settles ((ioctlWrite u ⟨some configDefault⟩ m).1.ret,
      (ioctlWrite u ⟨some configDefault⟩ m).2) := by
  have hsettles := Machine.aecramWriteBufferFrom_settles
    (m.withBuffer (copyPrefix u.request.length.toNat u.request.buffer m.buffer))
    u.request.offset 0 u.request.length.toNat
  have hattempts := hsettles.attempts
  have hreleased := hsettles.released
  rw [Machine.withBuffer_interrupts] at hattempts
  rw [Machine.withBuffer_mtxHeld] at hreleased
  rw [ioctlWrite_plain hu hin rfl]
  exact ⟨hattempts, hreleased⟩

/-- A read that is interrupted changes neither the array nor the request. -/
theorem ioctlRead_interrupted (u : User) (m : Machine) :
    ∃ attempts, m.interrupts = attempts ++ (ioctlRead u ⟨some configDefault⟩ m).2.interrupts ∧
      (true ∈ attempts →
        (ioctlRead u ⟨some configDefault⟩ m).1 = ⟨-EINTR, some u.request.buffer⟩ ∧
          (ioctlRead u ⟨some configDefault⟩ m).2.controller.ram = m.controller.ram) := by
  by_cases h : u.Transfers
  · obtain ⟨r, hr⟩ : ∃ r, r = m.aecramReadBufferFrom configDefault u.getOffset 0
      u.getLength.toNat := ⟨_, rfl⟩
    have hbound : 0 + u.getLength.toNat ≤ aecramBufferSize := by
      rw [Nat.zero_add]
      exact h.inRange.1
    obtain ⟨hram, -⟩ :=
      Machine.aecramReadBufferFrom_cases m u.getOffset 0 u.getLength.toNat hbound
    have hsettles :=
      Machine.aecramReadBufferFrom_settles m u.getOffset 0 u.getLength.toNat
    rw [← hr] at hram hsettles
    obtain ⟨attempts, hattempts, ⟨hret, hquiet⟩ | ⟨hret, -⟩⟩ := hsettles.attempts
    · rw [ioctlRead_transfers h hr, if_pos hret]
      exact ⟨attempts, hattempts, fun hfailed => absurd hfailed hquiet⟩
    · have hne : r.1 ≠ 0 := by
        rw [hret]
        decide
      rw [ioctlRead_transfers h hr, if_neg hne, hret]
      exact ⟨attempts, hattempts, fun _ => ⟨rfl, hram⟩⟩
  · rw [(ioctl_idle h m).1]
    exact ⟨[], rfl, fun hfailed => absurd hfailed List.not_mem_nil⟩

/-- A request that returns 0 is stored, signals or not. -/
theorem ioctlWrite_stored {u : User} (hu : u.Plain) (hin : u.request.InRange) {m : Machine}
    (hret : (ioctlWrite u ⟨some configDefault⟩ m).1.ret = 0) :
    (ioctlWrite u ⟨some configDefault⟩ m).2.controller.ram
      = Memory.stored m.controller.ram u.request := by
  rw [ioctlWrite_plain hu hin rfl] at hret ⊢
  obtain ⟨k, -, hall, hram⟩ := aecramWriteBufferFrom_storedTo (m := m) hin rfl rfl
  rw [hram, hall hret, Memory.storedTo_length]

/-! ### The same request until it succeeds -/

/-- A turn of the loop that repeats a request until it returns 0. -/
def rewrite (u : User) (m : Machine) : Turn Machine Machine :=
  let (reply, m) := ioctlWrite u ⟨some configDefault⟩ m
  if reply.ret = 0 then .leave m else .again m

theorem rewrite_eq (u : User) (m : Machine) :
    rewrite u m = if (ioctlWrite u ⟨some configDefault⟩ m).1.ret = 0 then
      .leave (ioctlWrite u ⟨some configDefault⟩ m).2
    else .again (ioctlWrite u ⟨some configDefault⟩ m).2 := rfl

theorem rewrite_leave {u : User} {m m' : Machine} (h : rewrite u m = .leave m') :
    (ioctlWrite u ⟨some configDefault⟩ m).1.ret = 0 ∧
      m' = (ioctlWrite u ⟨some configDefault⟩ m).2 := by
  rw [rewrite_eq] at h
  split_ifs at h with hret
  exact ⟨hret, (Turn.leave.inj h).symm⟩

theorem rewrite_again {u : User} {m m' : Machine} (h : rewrite u m = .again m') :
    (ioctlWrite u ⟨some configDefault⟩ m).1.ret ≠ 0 ∧
      m' = (ioctlWrite u ⟨some configDefault⟩ m).2 := by
  rw [rewrite_eq] at h
  split_ifs at h with hret
  exact ⟨hret, (Turn.again.inj h).symm⟩

/-- A call that fails took the attempt that did from the list. -/
theorem Machine.Settles.interrupts_lt {m : Machine} {r : ℤ × Machine} (h : m.Settles r)
    (hret : r.1 ≠ 0) : r.2.interrupts.length < m.interrupts.length := by
  obtain ⟨attempts, hattempts, ⟨hzero, -⟩ | ⟨-, hfailed⟩⟩ := h.attempts
  · exact absurd hzero hret
  · have hpos := List.length_pos_of_mem hfailed
    rw [hattempts, List.length_append]
    omega

/-- **Repeated until it returns 0, a request is stored as if nothing had interrupted it.**  What
the attempts that failed left of it is stored over: `stored_storedTo` is the invariant, and the
list of the signals gets shorter. -/
theorem rewrite_ends {u : User} (hu : u.Plain) (hin : u.request.InRange) {m : Machine}
    (hfree : m.mtxHeld = false) :
    ∃ m', Ends (rewrite u) m m' ∧ m'.mtxHeld = false ∧
      m'.controller.ram = Memory.stored m.controller.ram u.request := by
  refine ends_of_measure
    (fun s : Machine => s.mtxHeld = false ∧ Memory.stored s.controller.ram u.request
      = Memory.stored m.controller.ram u.request)
    (fun b : Machine => b.mtxHeld = false ∧ b.controller.ram
      = Memory.stored m.controller.ram u.request)
    (fun s : Machine => s.interrupts.length) ?_ ?_ ⟨hfree, rfl⟩
  · rintro s s' ⟨hfree', hstored⟩ hturn
    obtain ⟨hret, rfl⟩ := rewrite_again hturn
    obtain ⟨k, hk, hram⟩ := ioctlWrite_storedTo u s
    rw [hu.seen] at hk hram
    refine ⟨⟨(ioctl_released u hfree').1, ?_⟩, ?_⟩
    · rw [hram, Memory.stored_storedTo _ _ hk, hstored]
    · exact (ioctlWrite_settles hu hin s).interrupts_lt hret
  · rintro s b ⟨hfree', hstored⟩ hturn
    obtain ⟨hret, rfl⟩ := rewrite_leave hturn
    refine ⟨(ioctl_released u hfree').1, ?_⟩
    rw [ioctlWrite_stored hu hin hret, hstored]

/-- **Interrupted requests.**  For every content of the machine and every pattern of signals, the
mutex is free after each command.  A write that fails stored the first bytes of its request, as the
driver read it; a request in range that nothing faults on returns 0 exactly if none of the attempts
it made failed; and repeated until it does so, it leaves the array that one write without signals
leaves.  A read that is interrupted changes neither the array nor the request. -/
theorem ioctl_interrupted (u : User) {m : Machine} (hfree : m.mtxHeld = false) :
    let w := ioctlWrite u ⟨some configDefault⟩ m
    let r := ioctlRead u ⟨some configDefault⟩ m
    (w.2.mtxHeld = false ∧ r.2.mtxHeld = false) ∧
      (w.1.ret ≠ 0 → ∃ k ≤ u.seen.length.toNat,
        w.2.controller.ram = Memory.storedTo m.controller.ram u.seen k) ∧
      (u.Plain → u.request.InRange →
        (∃ attempts, m.interrupts = attempts ++ w.2.interrupts ∧
          (w.1.ret = 0 ↔ true ∉ attempts)) ∧
        (∃ m', Ends (rewrite u) m m') ∧
        ∀ m', Ends (rewrite u) m m' → m'.mtxHeld = false ∧ m'.controller.ram
          = (ioctlWrite u ⟨some configDefault⟩ (m.withInterrupts [])).2.controller.ram) ∧
      ∃ attempts, m.interrupts = attempts ++ r.2.interrupts ∧
        (true ∈ attempts → r.1 = ⟨-EINTR, some u.request.buffer⟩ ∧
          r.2.controller.ram = m.controller.ram) := by
  intro w r
  refine ⟨ioctl_released u hfree, fun _ => ioctlWrite_storedTo u m, ?_,
    ioctlRead_interrupted u m⟩
  intro hu hin
  refine ⟨?_, ?_⟩
  · obtain ⟨attempts, hattempts, ⟨hret, hquiet⟩ | ⟨hret, hfailed⟩⟩ :=
      (ioctlWrite_settles hu hin m).attempts
    · exact ⟨attempts, hattempts, fun _ => hquiet, fun _ => hret⟩
    · have hne : -EINTR ≠ 0 := by decide
      refine ⟨attempts, hattempts, fun hzero => ?_, fun hquiet => absurd hfailed hquiet⟩
      exact absurd (hret.symm.trans hzero) hne
  · obtain ⟨m', hends, hfree', hram⟩ := rewrite_ends hu hin hfree
    obtain ⟨m₁, hrun, -, hram₁⟩ := ioctlWrite_run hu hin
      (m := m.withInterrupts []) ⟨rfl, hfree⟩
    refine ⟨⟨m', hends⟩, fun m'' hends'' => ?_⟩
    obtain rfl := hends.unique hends''
    rw [hrun]
    exact ⟨hfree', hram.trans hram₁.symm⟩

/-- Two bytes for the end of the array, and a signal before the second of them. -/
def interruptedSample : Machine :=
  ⟨⟨1, 2, 3, 4, fun _ => 5⟩, [], [false, true], false, Vector.replicate 64 6⟩

theorem ioctl_interrupted_sample :
    (ioctlWrite (.mapped Driver.sampleRequest) ⟨some configDefault⟩ interruptedSample).1.ret
        = -EINTR ∧
      (∃ k ≤ 2, (ioctlWrite (.mapped Driver.sampleRequest) ⟨some configDefault⟩
          interruptedSample).2.controller.ram
        = Memory.storedTo (fun _ => 5) Driver.sampleRequest k) ∧
      ∃ m', Ends (rewrite (.mapped Driver.sampleRequest)) interruptedSample m' ∧
        m'.mtxHeld = false ∧ m'.controller.ram 0xfffe = 7 ∧ m'.controller.ram 0xffff = 9 := by
  obtain ⟨-, hfails, hrepeated, -⟩ :=
    ioctl_interrupted (.mapped Driver.sampleRequest) (m := interruptedSample) rfl
  have hret : (ioctlWrite (.mapped Driver.sampleRequest) ⟨some configDefault⟩
      interruptedSample).1.ret = -EINTR := by decide +kernel
  have hne : (ioctlWrite (.mapped Driver.sampleRequest) ⟨some configDefault⟩
      interruptedSample).1.ret ≠ 0 := by
    rw [hret]
    decide
  obtain ⟨-, ⟨m', hends⟩, hram⟩ := hrepeated (by decide) (by decide)
  obtain ⟨hfree, hram⟩ := hram m' hends
  refine ⟨hret, hfails hne, m', hends, hfree, ?_, ?_⟩
  · rw [hram]
    decide +kernel
  · rw [hram]
    decide +kernel

end Aecram
end TjTools
