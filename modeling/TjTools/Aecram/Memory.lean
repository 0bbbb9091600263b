/-
# The driver is an array of bytes

What `src/aecram/driver/driver.c` is for: an array of 65536 bytes and, for each open
session, whether its type was set.  `Memory.call` says what a call answers and does
there, without ports, registers, a buffer or a mutex.  The driver refines it
(`call_refines`): whatever the controller's registers and the buffer hold, a serial run
of calls gets the same answers, and a call that fails touches no port.

The requests are those of lengths from 1 on that nothing faults on, and no attempt to
take the mutex is interrupted.
-/

import TjTools.Aecram.Transfer
import TjTools.Basis.Runs

namespace TjTools
namespace Aecram

open Runs

/-- The range of a request fits the buffer and the array. -/
def Request.InRange (req : Request) : Prop :=
  req.length.toNat ≤ aecramBufferSize ∧ req.offset.toNat + req.length.toNat ≤ 65536

instance (req : Request) : Decidable req.InRange := inferInstanceAs (Decidable (_ ∧ _))

structure Memory where
  bytes : UInt16 → UInt8
  /-- For each open session, whether its type was set. -/
  sessions : ℕ → Option Bool

namespace Memory

/-- The array with the range of a request replaced by its bytes. -/
def stored (bytes : UInt16 → UInt8) (req : Request) : UInt16 → UInt8 := fun a =>
  if req.offset.toNat ≤ a.toNat ∧ a.toNat < req.offset.toNat + req.length.toNat then
    cell req.buffer (a.toNat - req.offset.toNat)
  else bytes a

/-- The buffer of a request with the bytes of its range. -/
def fetched (bytes : UInt16 → UInt8) (req : Request) : Buffer :=
  Vector.ofFn fun i =>
    if i.val < req.length.toNat then bytes (req.offset + UInt16.ofNat i.val)
    else cell req.buffer i.val

theorem cell_fetched (bytes : UInt16 → UInt8) (req : Request) {i : ℕ} (h : i < aecramBufferSize) :
    cell (fetched bytes req) i =
      if i < req.length.toNat then bytes (req.offset + UInt16.ofNat i) else cell req.buffer i := by
  rw [cell, fetched, Vector.getElem?_ofFn, dif_pos h]
  rfl

/-- A command of a session that is configured or not: the answer, whether it is configured
then, and the array. -/
def ioctl (command : Ioctl) (configured : Bool) (bytes : UInt16 → UInt8) :
    Reply × Bool × (UInt16 → UInt8) :=
  match command with
  | .setType arg =>
    if arg = aecramTypeAyaneo then (⟨0, none⟩, true, bytes)
    else (⟨-EINVAL, none⟩, configured, bytes)
  | .read u =>
    if configured then
      if u.request.InRange then (⟨0, some (fetched bytes u.request)⟩, true, bytes)
      else (⟨-EINVAL, some u.request.buffer⟩, true, bytes)
    else (⟨-ENODEV, some u.request.buffer⟩, false, bytes)
  | .write u =>
    if configured then
      if u.request.InRange then (⟨0, some u.request.buffer⟩, true, stored bytes u.request)
      else (⟨-EINVAL, some u.request.buffer⟩, true, bytes)
    else (⟨-ENODEV, some u.request.buffer⟩, false, bytes)
  | .invalid => (⟨-EINVAL, none⟩, configured, bytes)

def call (memory : Memory) : Call → Reply × Memory
  | .open fd allocated =>
    match memory.sessions fd with
    | some _ => (⟨-EBADF, none⟩, memory)
    | none =>
      if allocated then
        (⟨0, none⟩, { memory with sessions := Function.update memory.sessions fd (some false) })
      else (⟨-ENOMEM, none⟩, memory)
  | .ioctl fd command =>
    match memory.sessions fd with
    | none => (⟨-EBADF, none⟩, memory)
    | some configured =>
      let (reply, configured, bytes) := ioctl command configured memory.bytes
      (reply, ⟨bytes, Function.update memory.sessions fd (some configured)⟩)
  | .close fd =>
    match memory.sessions fd with
    | none => (⟨-EBADF, none⟩, memory)
    | some _ => (⟨0, none⟩, { memory with sessions := Function.update memory.sessions fd none })

end Memory

/-- A request of length at least one, nothing of which faults. -/
def User.Plain (u : User) : Prop :=
  u.accessOk = true ∧ (u.offsetReadable = true ∧ u.lengthReadable = true) ∧ u.fault = none ∧
    0 < u.request.length.toNat

instance (u : User) : Decidable u.Plain :=
  inferInstanceAs (Decidable (_ ∧ (_ ∧ _) ∧ _ ∧ _))

def Call.Plain : Call → Prop
  | .ioctl _ (.read u) => u.Plain
  | .ioctl _ (.write u) => u.Plain
  | _ => True

/-- Ready for the next call. -/
structure Machine.Ready (m : Machine) : Prop where
  calm : m.Calm
  free : m.mtxHeld = false

theorem isValidParam_eq_inRange {req : Request} (h : 0 < req.length.toNat) :
    isValidParam req.offset req.length = decide req.InRange := by
  by_cases hin : req.InRange
  · rw [decide_eq_true hin, isValidParam_iff]
    exact ⟨hin.1, hin.2, .inr h⟩
  · rw [decide_eq_false hin, ← Bool.not_eq_true, isValidParam_iff]
    exact fun hvalid => hin ⟨hvalid.1, hvalid.2.1⟩

/-! ### What a command transfers -/

/-- The request as the driver reads it. -/
def User.seen (u : User) : Request := ⟨u.getOffset, u.getLength, u.request.buffer⟩

/-- The command gets to its transfer. -/
def User.Transfers (u : User) : Prop :=
  u.accessOk = true ∧ isValidParam u.getOffset u.getLength = true ∧ u.getLength ≠ 0

theorem User.Transfers.inRange {u : User} (h : u.Transfers) : u.seen.InRange := by
  obtain ⟨hlength, hfits, -⟩ := (isValidParam_iff _ _).1 h.2.1
  exact ⟨hlength, hfits⟩

/-- Without a fault the driver reads the request itself. -/
theorem User.Plain.seen {u : User} (hu : u.Plain) : u.seen = u.request := by
  obtain ⟨-, ⟨hoffset, hlength⟩, -, -⟩ := hu
  rw [User.seen, getOffset, getLength, if_pos hoffset, if_pos hlength]

theorem User.Plain.getOffset {u : User} (hu : u.Plain) : u.getOffset = u.request.offset :=
  if_pos hu.2.1.1

theorem User.Plain.getLength {u : User} (hu : u.Plain) : u.getLength = u.request.length :=
  if_pos hu.2.1.2

theorem User.Plain.transfers {u : User} (hu : u.Plain) (hin : u.request.InRange) :
    u.Transfers := by
  have hpos := hu.2.2.2
  refine ⟨hu.1, ?_, ?_⟩
  · rw [hu.getOffset, hu.getLength, isValidParam_eq_inRange hpos, decide_eq_true hin]
  · rw [hu.getLength]
    intro h
    rw [h] at hpos
    exact absurd hpos (by decide)

/-- An empty request that is valid succeeds, and touches nothing. -/
theorem ioctl_empty {u : User} (haccess : u.accessOk = true)
    (hvalid : isValidParam u.getOffset u.getLength = true) (hlength : u.getLength = 0)
    (m : Machine) :
    ioctlRead u ⟨some configDefault⟩ m = (⟨0, some u.request.buffer⟩, m) ∧
      ioctlWrite u ⟨some configDefault⟩ m = (⟨0, some u.request.buffer⟩, m) := by
  unfold ioctlRead ioctlWrite
  rw [hlength] at hvalid
  simp only [haccess, hvalid, hlength]
  exact ⟨rfl, rfl⟩

/-- A command that does not get to its transfer touches nothing. -/
theorem ioctl_idle {u : User} (h : ¬u.Transfers) (m : Machine) :
    (ioctlRead u ⟨some configDefault⟩ m).2 = m ∧ (ioctlWrite u ⟨some configDefault⟩ m).2 = m := by
  by_cases haccess : u.accessOk = true
  · by_cases hvalid : isValidParam u.getOffset u.getLength = true
    · have hlength : u.getLength = 0 := by
        by_contra hlength
        exact h ⟨haccess, hvalid, hlength⟩
      obtain ⟨hread, hwrite⟩ := ioctl_empty haccess hvalid hlength m
      rw [hread, hwrite]
      exact ⟨rfl, rfl⟩
    · rw [Bool.not_eq_true] at hvalid
      unfold ioctlRead ioctlWrite
      simp only [haccess, hvalid]
      exact ⟨rfl, rfl⟩
  · rw [Bool.not_eq_true] at haccess
    unfold ioctlRead ioctlWrite
    simp only [haccess]
    exact ⟨rfl, rfl⟩

/-- A command that reads runs the loop over the range of its request. -/
theorem ioctlRead_transfers {u : User} (h : u.Transfers) {m : Machine} {r : ℤ × Machine}
    (hr : r = m.aecramReadBufferFrom configDefault u.getOffset 0 u.getLength.toNat) :
    ioctlRead u ⟨some configDefault⟩ m =
      if r.1 = 0 then
        (⟨if (u.copyTo r.2.buffer u.getLength.toNat).2 then -EFAULT else 0,
          some (u.copyTo r.2.buffer u.getLength.toNat).1⟩, r.2)
      else (⟨r.1, some u.request.buffer⟩, r.2) := by
  obtain ⟨haccess, hvalid, hlength⟩ := h
  have hn : u.getLength.toUInt16.toNat = u.getLength.toNat := UInt8.toNat_toUInt16 _
  unfold ioctlRead
  simp only [haccess, hvalid, hlength, ne_eq, not_false_eq_true, if_true, Bool.not_true,
    Bool.false_eq_true, if_false]
  simp only [Machine.aecramReadBuffer, hn, hr]

/-- A command that writes copies the request, and then runs the loop over its range. -/
theorem ioctlWrite_transfers {u : User} (h : u.Transfers) {m m₁ : Machine} {r : ℤ × Machine}
    (hm₁ : m₁ = m.withBuffer (u.copyFrom m.buffer u.getLength.toNat).1)
    (hr : r = m₁.aecramWriteBufferFrom configDefault u.getOffset 0 u.getLength.toNat) :
    ioctlWrite u ⟨some configDefault⟩ m =
      if (u.copyFrom m.buffer u.getLength.toNat).2 then
        (⟨-EFAULT, some u.request.buffer⟩, m₁)
      else (⟨r.1, some u.request.buffer⟩, r.2) := by
  obtain ⟨haccess, hvalid, hlength⟩ := h
  have hn : u.getLength.toUInt16.toNat = u.getLength.toNat := UInt8.toNat_toUInt16 _
  unfold ioctlWrite
  simp only [haccess, hvalid, hlength, ne_eq, not_false_eq_true, if_true, Bool.not_true,
    Bool.false_eq_true, if_false]
  simp only [Machine.aecramWriteBuffer, hn, hr, hm₁]

/-- A copy that misses no byte is whole. -/
theorem User.copyFrom_complete (u : User) {dst : Buffer} {n : ℕ}
    (h : ¬(u.copyFrom dst n).2 = true) :
    (u.copyFrom dst n).1 = copyPrefix n u.request.buffer dst := by
  rw [User.copyFrom, decide_eq_true_eq] at h
  have hall : min n (u.fault.getD n) = n := by omega
  rw [User.copyFrom, hall]

/-- Without a fault the request is copied whole. -/
theorem User.Plain.copyFrom {u : User} (hu : u.Plain) (dst : Buffer) (n : ℕ) :
    u.copyFrom dst n = (copyPrefix n u.request.buffer dst, false) := by
  rw [User.copyFrom, hu.2.2.1, Option.getD_none, Nat.min_self, decide_eq_false (Nat.lt_irrefl n)]

theorem User.Plain.copyTo {u : User} (hu : u.Plain) (src : Buffer) (n : ℕ) :
    u.copyTo src n = (copyPrefix n src u.request.buffer, false) := by
  rw [User.copyTo, hu.2.2.1, Option.getD_none, Nat.min_self, decide_eq_false (Nat.lt_irrefl n)]

/-- A request in range is read. -/
theorem ioctlRead_run {u : User} (hu : u.Plain) (hin : u.request.InRange) {m : Machine}
    (hm : m.Ready) :
    ∃ m', ioctlRead u ⟨some configDefault⟩ m
        = (⟨0, some (Memory.fetched m.controller.ram u.request)⟩, m') ∧
      m'.Ready ∧ m'.controller.ram = m.controller.ram := by
  obtain ⟨r, hr⟩ : ∃ r, r = m.aecramReadBufferFrom configDefault u.request.offset 0
    u.request.length.toNat := ⟨_, rfl⟩
  obtain ⟨hret, hram, hcalm, hfree, hbuffer⟩ := Machine.aecramReadBufferFrom_run hm.calm
    u.request.offset 0 u.request.length.toNat (by rw [Nat.zero_add]; exact hin.1)
  rw [← hr] at hret hram hcalm hfree hbuffer
  refine ⟨r.2, ?_, ⟨hcalm, hfree hm.free⟩, hram⟩
  have hcopied : copyPrefix u.request.length.toNat r.2.buffer u.request.buffer
      = Memory.fetched m.controller.ram u.request := by
    apply ext_cell
    intro i hi
    rw [cell_copyPrefix, hbuffer, Memory.cell_fetched _ _ hi]
    by_cases hlt : i < u.request.length.toNat
    · rw [if_pos hlt, if_pos (by omega), if_pos hlt]
    · rw [if_neg hlt, if_neg hlt]
  rw [← hu.getOffset, ← hu.getLength] at hr
  rw [ioctlRead_transfers (hu.transfers hin) hr, if_pos hret, hu.copyTo, hu.getLength, hcopied]
  rfl

/-- A request in range is copied and written. -/
theorem ioctlWrite_plain {u : User} (hu : u.Plain) (hin : u.request.InRange) {m : Machine}
    {r : ℤ × Machine}
    (hr : r = (m.withBuffer (copyPrefix u.request.length.toNat u.request.buffer
      m.buffer)).aecramWriteBufferFrom configDefault u.request.offset 0
        u.request.length.toNat) :
    ioctlWrite u ⟨some configDefault⟩ m = (⟨r.1, some u.request.buffer⟩, r.2) := by
  have hcopied := hu.copyFrom m.buffer u.request.length.toNat
  rw [ioctlWrite_transfers (hu.transfers hin) rfl rfl, hu.getOffset, hu.getLength, hcopied, hr]
  rfl

/-- A request in range is written. -/
theorem ioctlWrite_run {u : User} (hu : u.Plain) (hin : u.request.InRange) {m : Machine}
    (hm : m.Ready) :
    ∃ m', ioctlWrite u ⟨some configDefault⟩ m = (⟨0, some u.request.buffer⟩, m') ∧
      m'.Ready ∧ m'.controller.ram = Memory.stored m.controller.ram u.request := by
  obtain ⟨m₁, hm₁⟩ : ∃ m₁ : Machine, m₁ = m.withBuffer
    (copyPrefix u.request.length.toNat u.request.buffer m.buffer) := ⟨_, rfl⟩
  obtain ⟨r, hr⟩ : ∃ r, r = m₁.aecramWriteBufferFrom configDefault u.request.offset 0
    u.request.length.toNat := ⟨_, rfl⟩
  have hcalm₁ : m₁.Calm := by rw [hm₁, Machine.Calm, Machine.withBuffer_interrupts, hm.calm]
  have hfree₁ : m₁.mtxHeld = false := by rw [hm₁, Machine.withBuffer_mtxHeld, hm.free]
  obtain ⟨hret, -, hcalm, hfree, hram⟩ := Machine.aecramWriteBufferFrom_run hcalm₁
    u.request.offset 0 u.request.length.toNat (by rw [Nat.add_zero]; exact hin.2)
  rw [← hr] at hret hcalm hfree hram
  refine ⟨r.2, ?_, ⟨hcalm, hfree hfree₁⟩, ?_⟩
  · rw [hm₁] at hr
    rw [ioctlWrite_plain hu hin hr, hret]
  · funext a
    rw [hram, Memory.stored, Nat.add_zero]
    by_cases ha : u.request.offset.toNat ≤ a.toNat ∧
        a.toNat < u.request.offset.toNat + u.request.length.toNat
    · rw [if_pos ha, if_pos ha, hm₁, Machine.withBuffer_buffer, cell_copyPrefix,
        if_pos (by omega)]
    · rw [if_neg ha, if_neg ha, hm₁, Machine.withBuffer_controller]

/-- A request out of range is refused before the buffer or a port is touched. -/
theorem ioctl_refused {u : User} (hu : u.Plain) (hin : ¬u.request.InRange) (m : Machine) :
    ioctlRead u ⟨some configDefault⟩ m = (⟨-EINVAL, some u.request.buffer⟩, m) ∧
      ioctlWrite u ⟨some configDefault⟩ m = (⟨-EINVAL, some u.request.buffer⟩, m) := by
  obtain ⟨haccess, -, -, hpos⟩ := id hu
  unfold ioctlRead ioctlWrite
  simp only [haccess, hu.getOffset, hu.getLength, if_true, Bool.not_true,
    Bool.false_eq_true, if_false, isValidParam_eq_inRange hpos, decide_eq_false hin,
    Bool.not_false, and_self]

/-! ### The edges of the range -/

/-- The empty request at zero is refused. -/
theorem ioctl_underflow {request : Request} (hoffset : request.offset = 0)
    (hlength : request.length = 0) (m : Machine) :
    (ioctlRead (.mapped request) ⟨some configDefault⟩ m).1.ret = -EINVAL ∧
      (ioctlWrite (.mapped request) ⟨some configDefault⟩ m).1.ret = -EINVAL := by
  have hinvalid : isValidParam 0 0 = false := by decide
  unfold ioctlRead ioctlWrite
  simp only [User.mapped, User.getOffset, User.getLength, hoffset, hlength, hinvalid, if_true,
    Bool.not_true, Bool.not_false, Bool.false_eq_true, if_false, and_self]

/-- A request for some bytes is accepted exactly in the range. -/
theorem ioctl_ret_iff {u : User} (hu : u.Plain) {m : Machine} (hm : m.Ready) :
    ((ioctlRead u ⟨some configDefault⟩ m).1.ret = 0 ↔ u.request.InRange) ∧
      ((ioctlWrite u ⟨some configDefault⟩ m).1.ret = 0 ↔ u.request.InRange) := by
  by_cases hin : u.request.InRange
  · obtain ⟨_, hread, -⟩ := ioctlRead_run hu hin hm
    obtain ⟨_, hwrite, -⟩ := ioctlWrite_run hu hin hm
    rw [hread, hwrite]
    exact ⟨iff_of_true rfl hin, iff_of_true rfl hin⟩
  · have hEINVAL : -EINVAL ≠ 0 := by decide
    obtain ⟨hread, hwrite⟩ := ioctl_refused hu hin m
    rw [hread, hwrite]
    exact ⟨iff_of_false hEINVAL hin, iff_of_false hEINVAL hin⟩

/-- Any other request is accepted exactly in the range; if it is empty, nothing is touched. -/
theorem ioctl_range {request : Request} (h : ¬(request.offset = 0 ∧ request.length = 0))
    {m : Machine} (hm : m.Ready) :
    ((ioctlRead (.mapped request) ⟨some configDefault⟩ m).1.ret = 0 ↔ request.InRange) ∧
      ((ioctlWrite (.mapped request) ⟨some configDefault⟩ m).1.ret = 0 ↔ request.InRange) ∧
      (request.length = 0 →
        ioctlRead (.mapped request) ⟨some configDefault⟩ m = (⟨0, some request.buffer⟩, m) ∧
          ioctlWrite (.mapped request) ⟨some configDefault⟩ m = (⟨0, some request.buffer⟩, m)) := by
  by_cases hlength : request.length = 0
  · have hoffset : request.offset ≠ 0 := fun hoffset => h ⟨hoffset, hlength⟩
    have hpos : 0 < request.offset.toNat := by
      rw [Nat.pos_iff_ne_zero]
      exact fun hzero => hoffset (UInt16.toNat_inj.1 hzero)
    have hzero : request.length.toNat = 0 := congrArg UInt8.toNat hlength
    have hin : request.InRange := by
      have hlt := request.offset.toNat_lt
      refine ⟨by omega, by omega⟩
    have hvalid : isValidParam request.offset request.length = true :=
      (isValidParam_iff _ _).2 ⟨hin.1, hin.2, .inl hpos⟩
    obtain ⟨hread, hwrite⟩ := @ioctl_empty (.mapped request) rfl hvalid hlength m
    rw [hread, hwrite]
    exact ⟨iff_of_true rfl hin, iff_of_true rfl hin, fun _ => ⟨rfl, rfl⟩⟩
  · have hpos : 0 < request.length.toNat := by
      rw [Nat.pos_iff_ne_zero]
      exact fun hzero => hlength (UInt8.toNat_inj.1 hzero)
    have hplain : (User.mapped request).Plain := ⟨rfl, ⟨rfl, rfl⟩, rfl, hpos⟩
    obtain ⟨hread, hwrite⟩ := ioctl_ret_iff hplain hm
    exact ⟨hread, hwrite, fun hzero => absurd hzero hlength⟩

/-- **The range is checked right for every request but one**, the empty one at zero. -/
theorem ioctl_range_iff (request : Request) {m : Machine} (hm : m.Ready) :
    (((ioctlRead (.mapped request) ⟨some configDefault⟩ m).1.ret = 0 ↔
          request.length.toNat ≤ 64 ∧ request.offset.toNat + request.length.toNat ≤ 65536) ∧
        ((ioctlWrite (.mapped request) ⟨some configDefault⟩ m).1.ret = 0 ↔
          request.length.toNat ≤ 64 ∧ request.offset.toNat + request.length.toNat ≤ 65536) ∧
        (request.length = 0 →
          ioctlRead (.mapped request) ⟨some configDefault⟩ m = (⟨0, some request.buffer⟩, m) ∧
            ioctlWrite (.mapped request) ⟨some configDefault⟩ m =
              (⟨0, some request.buffer⟩, m))) ↔
      ¬(request.offset = 0 ∧ request.length = 0) := by
  constructor
  · rintro ⟨-, -, hempty⟩ ⟨hoffset, hlength⟩
    have hrefused := (ioctl_underflow hoffset hlength m).1
    rw [(hempty hlength).1] at hrefused
    have hEINVAL : (0 : ℤ) ≠ -EINVAL := by decide
    exact hEINVAL hrefused
  · intro h
    exact ioctl_range h hm

/-- The machine after the driver is loaded. -/
def freshMachine : Machine :=
  { controller := ⟨1, 2, 3, 4, fun _ => 5⟩, accesses := [], interrupts := [], mtxHeld := false,
    buffer := Vector.replicate 64 6 }

theorem ready_freshMachine : freshMachine.Ready := ⟨rfl, rfl⟩

def emptyRequest (offset : UInt16) : Request := ⟨offset, 0, Vector.replicate 64 7⟩

theorem ioctl_range_last :
    (((ioctlRead (.mapped (emptyRequest 0xffff)) ⟨some configDefault⟩ freshMachine).1.ret = 0 ↔
          (emptyRequest 0xffff).length.toNat ≤ 64 ∧
            (emptyRequest 0xffff).offset.toNat + (emptyRequest 0xffff).length.toNat ≤ 65536) ∧
        ((ioctlWrite (.mapped (emptyRequest 0xffff)) ⟨some configDefault⟩
            freshMachine).1.ret = 0 ↔
          (emptyRequest 0xffff).length.toNat ≤ 64 ∧
            (emptyRequest 0xffff).offset.toNat + (emptyRequest 0xffff).length.toNat ≤ 65536) ∧
        ((emptyRequest 0xffff).length = 0 →
          ioctlRead (.mapped (emptyRequest 0xffff)) ⟨some configDefault⟩ freshMachine =
              (⟨0, some (emptyRequest 0xffff).buffer⟩, freshMachine) ∧
            ioctlWrite (.mapped (emptyRequest 0xffff)) ⟨some configDefault⟩ freshMachine =
              (⟨0, some (emptyRequest 0xffff).buffer⟩, freshMachine))) ↔
      ¬((emptyRequest 0xffff).offset = 0 ∧ (emptyRequest 0xffff).length = 0) :=
  ioctl_range_iff (emptyRequest 0xffff) ready_freshMachine

/-- `0 + 0 - 1` is more than `0xffff`. -/
theorem ioctl_range_first :
    (emptyRequest 0).length.toNat ≤ 64 ∧
      (emptyRequest 0).offset.toNat + (emptyRequest 0).length.toNat ≤ 65536 ∧
      (ioctlRead (.mapped (emptyRequest 0)) ⟨some configDefault⟩ freshMachine).1.ret = -EINVAL ∧
      (ioctlWrite (.mapped (emptyRequest 0)) ⟨some configDefault⟩ freshMachine).1.ret = -EINVAL :=
  ⟨by decide, by decide, ioctl_underflow rfl rfl freshMachine⟩

/-! ### The refinement -/

/-- A session is configured by default, or not at all. -/
def Session.Default (session : Session) : Prop :=
  session.config = none ∨ session.config = some configDefault

/-- **Every command of a session refines its command on the array.** -/
theorem ioctl_refines {command : Ioctl} (hplain : (Call.ioctl 0 command).Plain) {session : Session}
    (hsession : session.Default) {m : Machine} (hm : m.Ready) :
    let r := aecramUnlockedIoctl command session m
    let a := Memory.ioctl command session.config.isSome m.controller.ram
    r.1 = a.1 ∧ r.2.1.Default ∧ r.2.1.config.isSome = a.2.1 ∧ r.2.2.Ready ∧
      r.2.2.controller.ram = a.2.2 ∧ (r.1.ret ≠ 0 → r.2.2 = m) := by
  cases command with
  | setType arg =>
    unfold aecramUnlockedIoctl Memory.ioctl
    by_cases harg : arg = aecramTypeAyaneo
    · simp only [harg, if_true]
      exact ⟨trivial, .inr rfl, rfl, hm, trivial, fun _ => trivial⟩
    · simp only [harg, if_false]
      exact ⟨trivial, hsession, trivial, hm, trivial, fun _ => trivial⟩
  | invalid => exact ⟨rfl, hsession, rfl, hm, rfl, fun _ => rfl⟩
  | read u =>
    obtain ⟨config⟩ := session
    rcases hsession with hnone | hsome
    · obtain rfl : config = none := hnone
      exact ⟨rfl, .inl rfl, rfl, hm, rfl, fun _ => rfl⟩
    · obtain rfl : config = some configDefault := hsome
      unfold aecramUnlockedIoctl Memory.ioctl
      by_cases hin : u.request.InRange
      · obtain ⟨m', hrun, hready, hram⟩ := ioctlRead_run hplain hin hm
        simp only [hrun, Option.isSome_some, if_true, hin]
        exact ⟨trivial, .inr rfl, trivial, hready, hram, fun h => absurd rfl h⟩
      · simp only [(ioctl_refused hplain hin m).1, Option.isSome_some, if_true, hin, if_false]
        exact ⟨trivial, .inr rfl, trivial, hm, trivial, fun _ => trivial⟩
  | write u =>
    obtain ⟨config⟩ := session
    rcases hsession with hnone | hsome
    · obtain rfl : config = none := hnone
      exact ⟨rfl, .inl rfl, rfl, hm, rfl, fun _ => rfl⟩
    · obtain rfl : config = some configDefault := hsome
      unfold aecramUnlockedIoctl Memory.ioctl
      by_cases hin : u.request.InRange
      · obtain ⟨m', hrun, hready, hram⟩ := ioctlWrite_run hplain hin hm
        simp only [hrun, Option.isSome_some, if_true, hin]
        exact ⟨trivial, .inr rfl, trivial, hready, hram, fun h => absurd rfl h⟩
      · simp only [(ioctl_refused hplain hin m).2, Option.isSome_some, if_true, hin, if_false]
        exact ⟨trivial, .inr rfl, trivial, hm, trivial, fun _ => trivial⟩

namespace Driver

/-- The driver stands for the array and its sessions. -/
structure Refines (d : Driver) (memory : Memory) : Prop where
  ready : d.machine.Ready
  bytes : d.machine.controller.ram = memory.bytes
  default : ∀ fd, ∀ session ∈ d.sessions fd, session.Default
  sessions : ∀ fd, memory.sessions fd = (d.sessions fd).map fun session => session.config.isSome

/-- One session changes. -/
theorem Refines.update {d : Driver} {memory : Memory} (h : d.Refines memory) {m : Machine}
    (hm : m.Ready) (fd : ℕ) (session : Option Session) (hsession : ∀ s ∈ session, s.Default) :
    (Driver.mk m (Function.update d.sessions fd session)).Refines
      ⟨m.controller.ram, Function.update memory.sessions fd
        (session.map fun s => s.config.isSome)⟩ := by
  refine ⟨hm, rfl, ?_, ?_⟩
  · intro fd' s hs
    simp only at hs
    by_cases hfd : fd' = fd
    · subst hfd
      rw [Function.update_self] at hs
      exact hsession s hs
    · rw [Function.update_of_ne hfd] at hs
      exact h.default fd' s hs
  · intro fd'
    simp only
    by_cases hfd : fd' = fd
    · subst hfd
      rw [Function.update_self, Function.update_self]
    · rw [Function.update_of_ne hfd, Function.update_of_ne hfd]
      exact h.sessions fd'

/-- **The driver refines the array**, and touches no port in a call that fails. -/
theorem call_refines {d : Driver} {memory : Memory} (h : d.Refines memory) (c : Call)
    (hc : c.Plain) :
    (d.call c).1 = (memory.call c).1 ∧ (d.call c).2.Refines (memory.call c).2 ∧
      ((d.call c).1.ret ≠ 0 → (d.call c).2.machine.accesses = d.machine.accesses) := by
  cases c with
  | «open» fd allocated =>
    have hfd := h.sessions fd
    unfold call Memory.call
    rcases hs : d.sessions fd with _ | session
    · rw [hs] at hfd
      cases allocated
      · simp only [hs, hfd, Option.map_none, Bool.false_eq_true, if_false]
        exact ⟨trivial, h, fun _ => trivial⟩
      · simp only [hs, hfd, Option.map_none, if_true]
        have hopened := h.update h.ready fd (some ⟨none⟩) fun s hs' => by
          obtain rfl := Option.some.inj hs'
          exact .inl rfl
        rw [h.bytes] at hopened
        exact ⟨trivial, hopened, fun _ => trivial⟩
    · rw [hs] at hfd
      simp only [hs, hfd, Option.map_some]
      exact ⟨trivial, h, fun _ => trivial⟩
  | close fd =>
    have hfd := h.sessions fd
    unfold call Memory.call
    rcases hs : d.sessions fd with _ | session
    · rw [hs] at hfd
      simp only [hs, hfd, Option.map_none]
      exact ⟨trivial, h, fun _ => trivial⟩
    · rw [hs] at hfd
      simp only [hs, hfd, Option.map_some]
      have hclosed := h.update h.ready fd none fun s hs' => by cases hs'
      rw [h.bytes] at hclosed
      exact ⟨trivial, hclosed, fun _ => trivial⟩
  | ioctl fd command =>
    have hfd := h.sessions fd
    unfold call Memory.call
    rcases hs : d.sessions fd with _ | session
    · rw [hs] at hfd
      simp only [hs, hfd, Option.map_none]
      exact ⟨trivial, h, fun _ => trivial⟩
    · rw [hs] at hfd
      simp only [hs, hfd, Option.map_some]
      have hplain : (Call.ioctl 0 command).Plain := by cases command <;> exact hc
      obtain ⟨hreply, hdefault, hconfigured, hready, hram, hfails⟩ :=
        ioctl_refines hplain (h.default fd session hs) h.ready
      rw [h.bytes] at hreply hconfigured hram
      have hupdated := h.update hready fd (some (aecramUnlockedIoctl command session d.machine).2.1)
        fun s hs' => by
          obtain rfl := Option.some.inj hs'
          exact hdefault
      rw [hram, Option.map_some, hconfigured] at hupdated
      exact ⟨hreply, hupdated, fun hret => congrArg Machine.accesses (hfails hret)⟩

/-- The driver once it is loaded: no session is open, and the controller and the buffer hold
anything. -/
def loaded (controller : Controller) (buffer : Buffer) : Driver :=
  { machine :=
      { controller := controller, accesses := [], interrupts := [], mtxHeld := false,
        buffer := buffer }
    sessions := fun _ => none }

theorem refines_loaded (controller : Controller) (buffer : Buffer) :
    (loaded controller buffer).Refines ⟨controller.ram, fun _ => none⟩ where
  ready := ⟨rfl, rfl⟩
  bytes := rfl
  default _ _ hs := nomatch hs
  sessions _ := rfl

/-- **A serial run of calls is a run on the array.**  For every content of the memory, the
registers and the buffer the answers are those of the array and the memory ends as the array
does; and no call that fails touches a port. -/
theorem replies_eq_memory (controller : Controller) (buffer : Buffer) (calls : List Call)
    (hcalls : ∀ c ∈ calls, c.Plain) :
    replies call (loaded controller buffer) calls
        = replies Memory.call ⟨controller.ram, fun _ => none⟩ calls ∧
      (after call (loaded controller buffer) calls).machine.controller.ram
        = (after Memory.call ⟨controller.ram, fun _ => none⟩ calls).bytes ∧
      ∀ before c, before ++ [c] <+: calls →
        ((after call (loaded controller buffer) before).call c).1.ret ≠ 0 →
          (after call (loaded controller buffer) (before ++ [c])).machine.accesses
            = (after call (loaded controller buffer) before).machine.accesses := by
  have hsimulates : ∀ cs : List Call, (∀ c ∈ cs, c.Plain) →
      replies call (loaded controller buffer) cs
          = replies Memory.call ⟨controller.ram, fun _ => none⟩ cs ∧
        (after call (loaded controller buffer) cs).Refines
          (after Memory.call ⟨controller.ram, fun _ => none⟩ cs) := by
    intro cs hcs
    refine replies_simulates Refines ?_ (refines_loaded controller buffer) cs
      (along_of_forall hcs _)
    intro d memory c hc hd
    obtain ⟨hreply, hrefines, -⟩ := call_refines hd c hc
    exact ⟨hreply, hrefines⟩
  obtain ⟨hreplies, hafter⟩ := hsimulates calls hcalls
  refine ⟨hreplies, hafter.bytes, ?_⟩
  intro before c hprefix hret
  obtain ⟨rest, hrest⟩ := hprefix
  have hmem : ∀ c' ∈ before ++ [c], c'.Plain := fun c' hc' =>
    hcalls c' (by rw [← hrest]; exact List.mem_append_left rest hc')
  obtain ⟨-, hbefore⟩ := hsimulates before fun c' hc' =>
    hmem c' (List.mem_append_left [c] hc')
  have hc := hmem c (List.mem_append_right before List.mem_cons_self)
  rw [after, run_append]
  exact (call_refines hbefore c hc).2.2 hret

/-- A request for the last two bytes of the memory. -/
def sampleRequest : Request := ⟨0xfffe, 2, (Vector.replicate 64 7).set 1 9⟩

/-- Two sessions: a write before the type is set, then a write and a read of the last two
bytes, and a read that would run over the end. -/
def sampleCalls : List Call :=
  [.open 3 true, .open 4 true, .ioctl 3 (.write (.mapped sampleRequest)), .ioctl 3 (.setType 1),
    .ioctl 3 (.write (.mapped sampleRequest)), .ioctl 4 (.setType 1),
    .ioctl 4 (.read (.mapped { sampleRequest with buffer := Vector.replicate 64 0 })),
    .ioctl 4 (.read (.mapped { sampleRequest with length := 3 })), .close 3]

theorem replies_eq_memory_sampleCalls :
    (replies call (loaded ⟨1, 2, 3, 4, fun _ => 5⟩ (Vector.replicate 64 6)) sampleCalls).map
        Reply.ret = [0, 0, -ENODEV, 0, 0, 0, 0, -EINVAL, 0] ∧
      (after call (loaded ⟨1, 2, 3, 4, fun _ => 5⟩ (Vector.replicate 64 6))
        sampleCalls).machine.controller.ram 0xffff = 9 := by
  have hplain : ∀ c ∈ sampleCalls, c.Plain := by
    intro c hc
    simp only [sampleCalls, List.mem_cons, List.not_mem_nil, or_false] at hc
    rcases hc with rfl | rfl | rfl | rfl | rfl | rfl | rfl | rfl | rfl
    all_goals trivial
  obtain ⟨hreplies, hram, -⟩ := replies_eq_memory ⟨1, 2, 3, 4, fun _ => 5⟩
    (Vector.replicate 64 6) sampleCalls hplain
  rw [hreplies, hram]
  decide +kernel

end Driver

end Aecram
end TjTools
