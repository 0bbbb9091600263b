/-
# Transfers

What the driver's functions do to the memory of the controller, one lemma for each.
One byte transfer sets the address and then reads or writes it, whatever the registers
held before (`aecramWrite_run`, `aecramRead_run`); a loop transfers a range of bytes
(`aecramWriteBufferFrom_run`, `aecramReadBufferFrom_run`); a request is valid exactly if its
range fits the buffer and the memory, apart from the empty one at zero
(`isValidParam_iff`).
-/

import TjTools.Aecram.Driver
import Mathlib.Data.List.Basic

namespace TjTools
namespace Aecram

/-! ### Buffers -/

theorem cell_of_le (b : Buffer) {i : ℕ} (h : aecramBufferSize ≤ i) : cell b i = 0 := by
  have hnone : b[i]? = none := Vector.getElem?_eq_none h
  rw [cell, hnone]
  rfl

theorem ext_cell {b b' : Buffer} (h : ∀ i < aecramBufferSize, cell b i = cell b' i) : b = b' := by
  ext i hi
  have hcell := h i hi
  simpa [cell, hi] using congrArg UInt8.toNat hcell

@[simp] theorem cell_copyPrefix (n : ℕ) (src dst : Buffer) (i : ℕ) :
    cell (copyPrefix n src dst) i = if i < n then cell src i else cell dst i := by
  by_cases h : i < aecramBufferSize
  · rw [cell, copyPrefix, Vector.getElem?_ofFn, dif_pos h]
    rfl
  · have hle : aecramBufferSize ≤ i := by omega
    rw [cell_of_le _ hle, cell_of_le _ hle, cell_of_le _ hle, ite_self]

theorem cell_setIfInBounds (b : Buffer) {i : ℕ} (h : i < aecramBufferSize) (v : UInt8) (j : ℕ) :
    cell (b.setIfInBounds i v) j = if j = i then v else cell b j := by
  rw [cell, cell, Vector.getElem?_setIfInBounds]
  by_cases hj : i = j
  · rw [if_pos hj, if_pos h, if_pos hj.symm]
    rfl
  · rw [if_neg hj, if_neg (Ne.symm hj)]

namespace Machine

section

variable (m : Machine) (buffer : Buffer) (interrupts : List Bool)

@[simp] theorem withBuffer_buffer : (m.withBuffer buffer).buffer = buffer := rfl
@[simp] theorem withBuffer_controller : (m.withBuffer buffer).controller = m.controller := rfl
@[simp] theorem withBuffer_interrupts : (m.withBuffer buffer).interrupts = m.interrupts := rfl
@[simp] theorem withBuffer_mtxHeld : (m.withBuffer buffer).mtxHeld = m.mtxHeld := rfl
@[simp] theorem withInterrupts_interrupts :
    (m.withInterrupts interrupts).interrupts = interrupts := rfl
@[simp] theorem withInterrupts_buffer : (m.withInterrupts interrupts).buffer = m.buffer := rfl
@[simp] theorem withInterrupts_controller :
    (m.withInterrupts interrupts).controller = m.controller := rfl

end

/-! ### One byte -/

/-- The next attempt to take the mutex succeeds. -/
def Uninterrupted (m : Machine) : Prop := m.interrupts.head? ≠ some true

theorem mutexLockInterruptible_run {m : Machine} (h : m.Uninterrupted) :
    m.mutexLockInterruptible
      = (0, { m with interrupts := m.interrupts.tail, mtxHeld := true }) := by
  unfold mutexLockInterruptible
  rcases hi : m.interrupts with _ | ⟨_ | _, rest⟩
  · rfl
  · rfl
  · rw [Uninterrupted, hi] at h
    exact absurd rfl h

/-- **One byte is written**, at its address and nowhere else. -/
theorem aecramWrite_run {m : Machine} (h : m.Uninterrupted) (offset : UInt16) (val : UInt8) :
    (m.aecramWrite configDefault offset val).1 = 0 ∧
      (m.aecramWrite configDefault offset val).2.controller.ram
        = Function.update m.controller.ram offset val ∧
      (m.aecramWrite configDefault offset val).2.buffer = m.buffer ∧
      (m.aecramWrite configDefault offset val).2.interrupts = m.interrupts.tail ∧
      (m.aecramWrite configDefault offset val).2.mtxHeld = false := by
  have hram : (m.aecramWrite configDefault offset val).2.controller.ram
      = Function.update m.controller.ram (m.controller.held offset).address val := by
    unfold aecramWrite
    rw [mutexLockInterruptible_run h]
    rfl
  rw [Controller.address_held] at hram
  unfold aecramWrite at hram ⊢
  rw [mutexLockInterruptible_run h] at hram ⊢
  exact ⟨rfl, hram, rfl, rfl, rfl⟩

/-- **One byte is read**, into its cell of the buffer. -/
theorem aecramRead_run {m : Machine} (h : m.Uninterrupted) (offset : UInt16) (i : ℕ) :
    (m.aecramRead configDefault offset i).1 = 0 ∧
      (m.aecramRead configDefault offset i).2.controller.ram = m.controller.ram ∧
      (m.aecramRead configDefault offset i).2.buffer
        = m.buffer.setIfInBounds i (m.controller.ram offset) ∧
      (m.aecramRead configDefault offset i).2.interrupts = m.interrupts.tail ∧
      (m.aecramRead configDefault offset i).2.mtxHeld = false := by
  have hbuffer : (m.aecramRead configDefault offset i).2.buffer
      = m.buffer.setIfInBounds i (m.controller.ram (m.controller.held offset).address) := by
    unfold aecramRead
    rw [mutexLockInterruptible_run h]
    rfl
  rw [Controller.address_held] at hbuffer
  unfold aecramRead at hbuffer ⊢
  rw [mutexLockInterruptible_run h] at hbuffer ⊢
  exact ⟨rfl, rfl, hbuffer, rfl, rfl⟩

theorem mutexLockInterruptible_interrupted {m : Machine} {rest : List Bool}
    (h : m.interrupts = true :: rest) :
    m.mutexLockInterruptible = (-EINTR, m.withInterrupts rest) := by
  unfold mutexLockInterruptible
  rw [h]
  rfl

/-- A transfer whose attempt to take the mutex is interrupted does nothing. -/
theorem aecramWrite_interrupted {m : Machine} {rest : List Bool} (h : m.interrupts = true :: rest)
    (offset : UInt16) (val : UInt8) :
    m.aecramWrite configDefault offset val = (-EINTR, m.withInterrupts rest) := by
  unfold aecramWrite
  rw [mutexLockInterruptible_interrupted h]
  rfl

theorem aecramRead_interrupted {m : Machine} {rest : List Bool} (h : m.interrupts = true :: rest)
    (offset : UInt16) (i : ℕ) :
    m.aecramRead configDefault offset i = (-EINTR, m.withInterrupts rest) := by
  unfold aecramRead
  rw [mutexLockInterruptible_interrupted h]
  rfl

/-- One byte is read, or the attempt is interrupted. -/
theorem aecramRead_cases (m : Machine) (offset : UInt16) (i : ℕ) :
    (m.aecramRead configDefault offset i).2.controller.ram = m.controller.ram ∧
      ((m.aecramRead configDefault offset i).1 = -EINTR ∨
        ((m.aecramRead configDefault offset i).1 = 0 ∧
          (m.aecramRead configDefault offset i).2.buffer
            = m.buffer.setIfInBounds i (m.controller.ram offset))) := by
  by_cases h : m.Uninterrupted
  · obtain ⟨hret, hram, hbuffer, -⟩ := aecramRead_run h offset i
    exact ⟨hram, .inr ⟨hret, hbuffer⟩⟩
  · obtain ⟨rest, hrest⟩ := List.head?_eq_some_iff.1 (not_not.1 h)
    rw [aecramRead_interrupted hrest]
    exact ⟨rfl, .inl rfl⟩

/-! ### Ranges -/

/-- No attempt to take the mutex is interrupted. -/
def Calm (m : Machine) : Prop := m.interrupts = []

theorem Calm.uninterrupted {m : Machine} (h : m.Calm) : m.Uninterrupted := by
  rw [Uninterrupted, show m.interrupts = [] from h]
  simp

theorem toNat_add_ofNat (offset : UInt16) (i : ℕ) (h : offset.toNat + i < 65536) :
    (offset + UInt16.ofNat i).toNat = offset.toNat + i := by
  rw [UInt16.toNat_add, UInt16.toNat_ofNat']
  omega

/-- A byte that could not be written ends the loop. -/
theorem aecramWriteBufferFrom_stop {m : Machine} {offset : UInt16} {i : ℕ}
    (h : (m.aecramWrite configDefault (offset + UInt16.ofNat i) (cell m.buffer i)).1 = -EINTR)
    (n : ℕ) :
    m.aecramWriteBufferFrom configDefault offset i (n + 1)
      = m.aecramWrite configDefault (offset + UInt16.ofNat i) (cell m.buffer i) := by
  have hnegative : -EINTR < 0 := by decide
  rw [aecramWriteBufferFrom]
  simp only [h, hnegative, if_true]
  rw [← h]

/-- After a byte that could be written the loop goes on. -/
theorem aecramWriteBufferFrom_step {m : Machine} {offset : UInt16} {i : ℕ}
    (h : (m.aecramWrite configDefault (offset + UInt16.ofNat i) (cell m.buffer i)).1 = 0) (n : ℕ) :
    m.aecramWriteBufferFrom configDefault offset i (n + 1)
      = (m.aecramWrite configDefault (offset + UInt16.ofNat i)
          (cell m.buffer i)).2.aecramWriteBufferFrom configDefault offset (i + 1) n := by
  rw [aecramWriteBufferFrom]
  simp only [h, Int.lt_irrefl, if_false]

/-- The loop that writes: the cells from `i` on go to their addresses. -/
theorem aecramWriteBufferFrom_run {m : Machine} (hm : m.Calm) (offset : UInt16) (i n : ℕ)
    (hrange : offset.toNat + i + n ≤ 65536) :
    let r := m.aecramWriteBufferFrom configDefault offset i n
    r.1 = 0 ∧ r.2.buffer = m.buffer ∧ r.2.Calm ∧ (m.mtxHeld = false → r.2.mtxHeld = false) ∧
      ∀ a, r.2.controller.ram a =
        if offset.toNat + i ≤ a.toNat ∧ a.toNat < offset.toNat + i + n then
          cell m.buffer (a.toNat - offset.toNat)
        else m.controller.ram a := by
  induction n generalizing i m with
  | zero =>
    refine ⟨rfl, rfl, hm, fun h => h, fun a => ?_⟩
    rw [if_neg (by omega)]
    rfl
  | succ n ih =>
    obtain ⟨hret, hram, hbuffer, hinterrupts, hheld⟩ :=
      aecramWrite_run hm.uninterrupted (offset + UInt16.ofNat i) (cell m.buffer i)
    have hcalm : (m.aecramWrite configDefault (offset + UInt16.ofNat i)
        (cell m.buffer i)).2.Calm := by
      rw [Calm, hinterrupts, show m.interrupts = [] from hm]
      rfl
    obtain ⟨hret', hbuffer', hcalm', hheld', hram'⟩ := ih hcalm (i + 1) (by omega)
    rw [aecramWriteBufferFrom_step hret]
    refine ⟨hret', hbuffer'.trans hbuffer, hcalm', fun _ => hheld' hheld, fun a => ?_⟩
    have haddress := toNat_add_ofNat offset i (by omega)
    rw [hram', hbuffer, hram]
    by_cases ha : a = offset + UInt16.ofNat i
    · have hnat : a.toNat = offset.toNat + i := by rw [ha, haddress]
      rw [if_neg (by omega), if_pos (by omega), ha, Function.update_self, haddress,
        Nat.add_sub_cancel_left]
    · have hne : a.toNat ≠ offset.toNat + i := by
        intro h
        exact ha (UInt16.toNat_inj.1 (h.trans haddress.symm))
      rw [Function.update_of_ne ha]
      by_cases hin : offset.toNat + (i + 1) ≤ a.toNat ∧ a.toNat < offset.toNat + (i + 1) + n
      · rw [if_pos hin, if_pos (by omega)]
      · rw [if_neg hin, if_neg (by omega)]

/-- A byte that could not be read ends the loop. -/
theorem aecramReadBufferFrom_stop {m : Machine} {offset : UInt16} {i : ℕ}
    (h : (m.aecramRead configDefault (offset + UInt16.ofNat i) i).1 = -EINTR) (n : ℕ) :
    m.aecramReadBufferFrom configDefault offset i (n + 1)
      = m.aecramRead configDefault (offset + UInt16.ofNat i) i := by
  have hnegative : -EINTR < 0 := by decide
  rw [aecramReadBufferFrom]
  simp only [h, hnegative, if_true]
  rw [← h]

/-- After a byte that could be read the loop goes on. -/
theorem aecramReadBufferFrom_step {m : Machine} {offset : UInt16} {i : ℕ}
    (h : (m.aecramRead configDefault (offset + UInt16.ofNat i) i).1 = 0) (n : ℕ) :
    m.aecramReadBufferFrom configDefault offset i (n + 1)
      = (m.aecramRead configDefault (offset + UInt16.ofNat i) i).2.aecramReadBufferFrom
          configDefault offset (i + 1) n := by
  rw [aecramReadBufferFrom]
  simp only [h, Int.lt_irrefl, if_false]

/-- The loop that reads, whatever is interrupted: it fails, or the cells from `i` on get what
their addresses hold. -/
theorem aecramReadBufferFrom_cases (m : Machine) (offset : UInt16) (i n : ℕ)
    (hbound : i + n ≤ aecramBufferSize) :
    let r := m.aecramReadBufferFrom configDefault offset i n
    r.2.controller.ram = m.controller.ram ∧
      (r.1 = -EINTR ∨ (r.1 = 0 ∧ ∀ j, cell r.2.buffer j =
        if i ≤ j ∧ j < i + n then m.controller.ram (offset + UInt16.ofNat j)
        else cell m.buffer j)) := by
  induction n generalizing i m with
  | zero =>
    refine ⟨rfl, .inr ⟨rfl, fun j => ?_⟩⟩
    rw [if_neg (by omega)]
    rfl
  | succ n ih =>
    obtain ⟨hram, hinterrupted | ⟨hret, hbuffer⟩⟩ :=
      aecramRead_cases m (offset + UInt16.ofNat i) i
    · rw [aecramReadBufferFrom_stop hinterrupted]
      exact ⟨hram, .inl hinterrupted⟩
    · obtain ⟨hram', hends⟩ := ih (m.aecramRead configDefault (offset + UInt16.ofNat i) i).2
        (i + 1) (by omega)
      rw [aecramReadBufferFrom_step hret]
      refine ⟨hram'.trans hram, hends.imp_right ?_⟩
      rintro ⟨hret', hbuffer'⟩
      refine ⟨hret', fun j => ?_⟩
      rw [hbuffer', hram, hbuffer, cell_setIfInBounds _ (by omega)]
      by_cases hj : j = i
      · rw [if_neg (by omega), if_pos hj, if_pos (by omega), hj]
      · rw [if_neg hj]
        by_cases hin : i + 1 ≤ j ∧ j < i + 1 + n
        · rw [if_pos hin, if_pos (by omega)]
        · rw [if_neg hin, if_neg (by omega)]

/-- The loop that reads is not interrupted on a calm machine. -/
theorem aecramReadBufferFrom_calm {m : Machine} (hm : m.Calm) (offset : UInt16) (i n : ℕ) :
    let r := m.aecramReadBufferFrom configDefault offset i n
    r.1 = 0 ∧ r.2.Calm ∧ (m.mtxHeld = false → r.2.mtxHeld = false) := by
  induction n generalizing i m with
  | zero => exact ⟨rfl, hm, fun h => h⟩
  | succ n ih =>
    obtain ⟨hret, -, -, hinterrupts, hheld⟩ :=
      aecramRead_run hm.uninterrupted (offset + UInt16.ofNat i) i
    have hcalm : (m.aecramRead configDefault (offset + UInt16.ofNat i) i).2.Calm := by
      rw [Calm, hinterrupts, show m.interrupts = [] from hm]
      rfl
    obtain ⟨hret', hcalm', hheld'⟩ := ih hcalm (i + 1)
    rw [aecramReadBufferFrom_step hret]
    exact ⟨hret', hcalm', fun _ => hheld' hheld⟩

/-- The loop that reads: the cells from `i` on get what their addresses hold. -/
theorem aecramReadBufferFrom_run {m : Machine} (hm : m.Calm) (offset : UInt16) (i n : ℕ)
    (hbound : i + n ≤ aecramBufferSize) :
    let r := m.aecramReadBufferFrom configDefault offset i n
    r.1 = 0 ∧ r.2.controller.ram = m.controller.ram ∧ r.2.Calm ∧
      (m.mtxHeld = false → r.2.mtxHeld = false) ∧
      ∀ j, cell r.2.buffer j =
        if i ≤ j ∧ j < i + n then m.controller.ram (offset + UInt16.ofNat j)
        else cell m.buffer j := by
  obtain ⟨hret, hcalm, hheld⟩ := aecramReadBufferFrom_calm hm offset i n
  obtain ⟨hram, hinterrupted | ⟨-, hbuffer⟩⟩ := aecramReadBufferFrom_cases m offset i n hbound
  · have hne : -EINTR ≠ 0 := by decide
    exact absurd (hinterrupted.symm.trans hret) hne
  · exact ⟨hret, hram, hcalm, hheld, hbuffer⟩

end Machine

/-- **Which requests are valid.**  The sum is computed with 32 bits, so the empty request at
zero underflows and is refused. -/
theorem isValidParam_iff (offset : UInt16) (length : UInt8) :
    isValidParam offset length = true ↔
      length.toNat ≤ aecramBufferSize ∧ offset.toNat + length.toNat ≤ 65536 ∧
        (0 < offset.toNat ∨ 0 < length.toNat) := by
  have hoffset := offset.toNat_lt
  have hlength := length.toNat_lt
  have hsum : (offset.toUInt32 + length.toUInt32 - 1).toNat
      = (offset.toNat + length.toNat + 2 ^ 32 - 1) % 2 ^ 32 := by
    rw [UInt32.toNat_sub, UInt32.toNat_add, UInt16.toNat_toUInt32, UInt8.toNat_toUInt32]
    have hone : (1 : UInt32).toNat = 1 := rfl
    rw [hone]
    omega
  have hmax : (0xffff : UInt32).toNat = 65535 := rfl
  have hover : offset.toUInt32 + length.toUInt32 - 1 > 0xffff ↔
      65535 < (offset.toNat + length.toNat + 2 ^ 32 - 1) % 2 ^ 32 := by
    rw [gt_iff_lt, UInt32.lt_iff_toNat_lt, hsum, hmax]
  unfold isValidParam
  by_cases hbig : offset.toUInt32 + length.toUInt32 - 1 > 0xffff
  · rw [if_pos hbig]
    rw [hover] at hbig
    constructor
    · intro h
      cases h
    · rintro ⟨-, hfit, hpos⟩
      omega
  · rw [if_neg hbig]
    rw [hover] at hbig
    by_cases hlong : length.toNat > aecramBufferSize
    · rw [if_pos hlong]
      constructor
      · intro h
        cases h
      · rintro ⟨hshort, -⟩
        omega
    · rw [if_neg hlong]
      refine ⟨fun _ => ⟨by omega, by omega, by omega⟩, fun _ => rfl⟩

end Aecram
end TjTools
