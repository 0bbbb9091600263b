/-
# The driver

`src/aecram/driver/driver.c` (lines 43-334) and the request of
`src/aecram/include/aecram.h`, function by function.  A machine is what the functions
share: the controller behind the ports, the staging buffer and the mutex of
`struct aecram_data`.  It records every port access, and says which of the next
attempts to take the mutex are interrupted by a signal.

A request lies in user memory, where every access may fault.  The driver ignores the
result of `__get_user`, which leaves zero where it faults.  The `reserved` byte of a
request, which nothing reads, is left out.
-/

import TjTools.Aecram.Controller
import Mathlib.Data.Int.Notation

namespace TjTools
namespace Aecram

def aecramBufferSize : ℕ := 64
def aecramTypeAyaneo : UInt64 := 1

def EINTR : ℤ := 4
def EBADF : ℤ := 9
def ENOMEM : ℤ := 12
def EFAULT : ℤ := 14
def ENODEV : ℤ := 19
def EINVAL : ℤ := 22

abbrev Buffer := Vector UInt8 aecramBufferSize

/-- `buffer[i]` -/
def cell (b : Buffer) (i : ℕ) : UInt8 := b[i]?.getD 0

/-- The first `n` bytes of one buffer over those of another. -/
def copyPrefix (n : ℕ) (src dst : Buffer) : Buffer :=
  Vector.ofFn fun i => if i.val < n then cell src i else cell dst i

inductive PortAccess where
  | outb (value port : UInt8)
  | inb (port : UInt8)
  deriving DecidableEq, Repr

/-- `struct aecram_data`, and what it works on. -/
structure Machine where
  controller : Controller
  /-- Every port access so far, the oldest first. -/
  accesses : List PortAccess
  /-- Whether a signal interrupts the next attempts to take the mutex. -/
  interrupts : List Bool
  mtxHeld : Bool
  buffer : Buffer

def Machine.withBuffer (m : Machine) (buffer : Buffer) : Machine := { m with buffer := buffer }

def Machine.withInterrupts (m : Machine) (interrupts : List Bool) : Machine :=
  { m with interrupts := interrupts }

/-- `struct aec_cmd` -/
structure AecCmd where
  cmdType : UInt8
  cmdArg : UInt8
  deriving DecidableEq, Repr

namespace Machine

def outb (value port : UInt8) (m : Machine) : Machine :=
  { m with
    controller := m.controller.outb value port
    accesses := m.accesses ++ [.outb value port] }

def inb (port : UInt8) (m : Machine) : UInt8 × Machine :=
  (m.controller.inb port, { m with accesses := m.accesses ++ [.inb port] })

/-- `mutex_lock_interruptible`, once the mutex is free. -/
def mutexLockInterruptible (m : Machine) : ℤ × Machine :=
  match m.interrupts with
  | true :: rest => (-EINTR, { m with interrupts := rest })
  | false :: rest => (0, { m with interrupts := rest, mtxHeld := true })
  | [] => (0, { m with mtxHeld := true })

def mutexUnlock (m : Machine) : Machine := { m with mtxHeld := false }

/-- `cmd_out` -/
def cmdOut (cfg : Config) (cmd : AecCmd) (m : Machine) : Machine :=
  let m := m.outb (cfg.cmdReg + 0) cfg.addrPort
  let m := m.outb cmd.cmdType cfg.dataPort
  let m := m.outb (cfg.cmdReg + 1) cfg.addrPort
  m.outb cmd.cmdArg cfg.dataPort

/-- `cmd_in` -/
def cmdIn (cfg : Config) (cmd : AecCmd) (m : Machine) : UInt8 × Machine :=
  let m := m.outb (cfg.cmdReg + 0) cfg.addrPort
  let m := m.outb cmd.cmdType cfg.dataPort
  let m := m.outb (cfg.cmdReg + 1) cfg.addrPort
  m.inb cfg.dataPort

/-- `offset_high` -/
def offsetHigh (cfg : Config) (offset : UInt16) (m : Machine) : Machine :=
  m.cmdOut cfg ⟨cmdTypeOffsetHigh, ((offset >>> 8) &&& 0xff).toUInt8⟩

/-- `offset_low` -/
def offsetLow (cfg : Config) (offset : UInt16) (m : Machine) : Machine :=
  m.cmdOut cfg ⟨cmdTypeOffsetLow, (offset &&& 0xff).toUInt8⟩

/-- `write_value` -/
def writeValue (cfg : Config) (val : UInt8) (m : Machine) : Machine :=
  m.cmdOut cfg ⟨cmdTypeSelectValue, val⟩

/-- `read_value` -/
def readValue (cfg : Config) (m : Machine) : UInt8 × Machine :=
  m.cmdIn cfg ⟨cmdTypeSelectValue, 0⟩

/-- `aecram_write` -/
def aecramWrite (cfg : Config) (offset : UInt16) (val : UInt8) (m : Machine) : ℤ × Machine :=
  let (ret, m) := m.mutexLockInterruptible
  if ret ≠ 0 then (ret, m)
  else
    let m := m.offsetHigh cfg offset
    let m := m.offsetLow cfg offset
    let m := m.writeValue cfg val
    (0, m.mutexUnlock)

/-- `aecram_read`, where `val` points to `buffer[i]`. -/
def aecramRead (cfg : Config) (offset : UInt16) (i : ℕ) (m : Machine) : ℤ × Machine :=
  let (ret, m) := m.mutexLockInterruptible
  if ret < 0 then (ret, m)
  else
    let m := m.offsetHigh cfg offset
    let m := m.offsetLow cfg offset
    let (val, m) := m.readValue cfg
    (0, { m with buffer := m.buffer.setIfInBounds i val }.mutexUnlock)

/-- The loop of `aecram_write_buffer`, from `i` on. -/
def aecramWriteBufferFrom (cfg : Config) (offset : UInt16) (i : ℕ) : ℕ → Machine → ℤ × Machine
  | 0, m => (0, m)
  | n + 1, m =>
    let (ret, m) := m.aecramWrite cfg (offset + UInt16.ofNat i) (cell m.buffer i)
    if ret < 0 then (ret, m) else aecramWriteBufferFrom cfg offset (i + 1) n m

/-- `aecram_write_buffer` -/
def aecramWriteBuffer (cfg : Config) (offset length : UInt16) (m : Machine) : ℤ × Machine :=
  aecramWriteBufferFrom cfg offset 0 length.toNat m

/-- The loop of `aecram_read_buffer`, from `i` on. -/
def aecramReadBufferFrom (cfg : Config) (offset : UInt16) (i : ℕ) : ℕ → Machine → ℤ × Machine
  | 0, m => (0, m)
  | n + 1, m =>
    let (ret, m) := m.aecramRead cfg (offset + UInt16.ofNat i) i
    if ret < 0 then (ret, m) else aecramReadBufferFrom cfg offset (i + 1) n m

/-- `aecram_read_buffer` -/
def aecramReadBuffer (cfg : Config) (offset length : UInt16) (m : Machine) : ℤ × Machine :=
  aecramReadBufferFrom cfg offset 0 length.toNat m

end Machine

/-- `is_valid_param` -/
def isValidParam (offset : UInt16) (length : UInt8) : Bool :=
  if offset.toUInt32 + length.toUInt32 - 1 > 0xffff then false
  else if length.toNat > aecramBufferSize then false
  else true

/-- `struct aecram_request` -/
structure Request where
  offset : UInt16
  length : UInt8
  buffer : Buffer
  deriving DecidableEq

/-- A request in user memory, and the faults on the way to it. -/
structure User where
  request : Request
  accessOk : Bool
  /-- `__get_user` of the offset does not fault. -/
  offsetReadable : Bool
  /-- That of the length does not. -/
  lengthReadable : Bool
  /-- The bytes a copy gets through before it faults; none where it does not. -/
  fault : Option ℕ

namespace User

/-- A request that nothing faults on. -/
def mapped (request : Request) : User := ⟨request, true, true, true, none⟩

/-- `__get_user(offset, &req->offset)` -/
def getOffset (u : User) : UInt16 := if u.offsetReadable then u.request.offset else 0

/-- `__get_user(length, &req->length)` -/
def getLength (u : User) : UInt8 := if u.lengthReadable then u.request.length else 0

/-- `__copy_from_user` into the staging buffer; whether bytes are missing. -/
def copyFrom (u : User) (dst : Buffer) (n : ℕ) : Buffer × Bool :=
  (copyPrefix (min n (u.fault.getD n)) u.request.buffer dst, decide (u.fault.getD n < n))

/-- `__copy_to_user` from the staging buffer. -/
def copyTo (u : User) (src : Buffer) (n : ℕ) : Buffer × Bool :=
  (copyPrefix (min n (u.fault.getD n)) src u.request.buffer, decide (u.fault.getD n < n))

end User

/-- `struct aecram_session` -/
structure Session where
  config : Option Config
  deriving DecidableEq, Repr

/-- The commands of `aecram_unlocked_ioctl`, with what their argument points to. -/
inductive Ioctl where
  | setType (arg : UInt64)
  | read (u : User)
  | write (u : User)
  | invalid

/-- What a call gives back: the return value, and `req->buffer` as it is then. -/
structure Reply where
  ret : ℤ
  buffer : Option Buffer
  deriving DecidableEq

/-- `IOCTL_AECRAM_READ` -/
def ioctlRead (u : User) (session : Session) (m : Machine) : Reply × Machine :=
  let unchanged := some u.request.buffer
  match session.config with
  | none => (⟨-ENODEV, unchanged⟩, m)
  | some config =>
    if !u.accessOk then (⟨-EFAULT, unchanged⟩, m)
    else
      let offset := u.getOffset
      let length := u.getLength
      if !isValidParam offset length then (⟨-EINVAL, unchanged⟩, m)
      else if length ≠ 0 then
        let (ret, m) := m.aecramReadBuffer config offset length.toUInt16
        if ret = 0 then
          let (buffer, missing) := u.copyTo m.buffer length.toNat
          (⟨if missing then -EFAULT else 0, some buffer⟩, m)
        else (⟨ret, unchanged⟩, m)
      else (⟨0, unchanged⟩, m)

/-- `IOCTL_AECRAM_WRITE` -/
def ioctlWrite (u : User) (session : Session) (m : Machine) : Reply × Machine :=
  let unchanged := some u.request.buffer
  match session.config with
  | none => (⟨-ENODEV, unchanged⟩, m)
  | some config =>
    if !u.accessOk then (⟨-EFAULT, unchanged⟩, m)
    else
      let offset := u.getOffset
      let length := u.getLength
      if !isValidParam offset length then (⟨-EINVAL, unchanged⟩, m)
      else if length ≠ 0 then
        let (buffer, missing) := u.copyFrom m.buffer length.toNat
        let m := m.withBuffer buffer
        if missing then (⟨-EFAULT, unchanged⟩, m)
        else
          let (ret, m) := m.aecramWriteBuffer config offset length.toUInt16
          (⟨ret, unchanged⟩, m)
      else (⟨0, unchanged⟩, m)

/-- `aecram_unlocked_ioctl` -/
def aecramUnlockedIoctl (ioctl : Ioctl) (session : Session) (m : Machine) :
    Reply × Session × Machine :=
  match ioctl with
  | .setType arg =>
    if arg = aecramTypeAyaneo then (⟨0, none⟩, ⟨some configDefault⟩, m)
    else (⟨-EINVAL, none⟩, session, m)
  | .read u =>
    let (reply, m) := ioctlRead u session m
    (reply, session, m)
  | .write u =>
    let (reply, m) := ioctlWrite u session m
    (reply, session, m)
  | .invalid => (⟨-EINVAL, none⟩, session, m)

/-- The driver with its open sessions, by file descriptor. -/
structure Driver where
  machine : Machine
  sessions : ℕ → Option Session

inductive Call where
  /-- The kernel opens the device under a descriptor that is free; the allocation of the
  session may fail. -/
  | open (fd : ℕ) (allocated : Bool)
  | ioctl (fd : ℕ) (ioctl : Ioctl)
  | close (fd : ℕ)

namespace Driver

/-- One call.  What concerns a descriptor that is not open, or opens one that is, does not
reach the driver. -/
def call (d : Driver) : Call → Reply × Driver
  | .open fd allocated =>
    match d.sessions fd with
    | some _ => (⟨-EBADF, none⟩, d)
    | none =>
      if allocated then
        (⟨0, none⟩, { d with sessions := Function.update d.sessions fd (some ⟨none⟩) })
      else (⟨-ENOMEM, none⟩, d)
  | .ioctl fd ioctl =>
    match d.sessions fd with
    | none => (⟨-EBADF, none⟩, d)
    | some session =>
      let (reply, session, m) := aecramUnlockedIoctl ioctl session d.machine
      (reply, ⟨m, Function.update d.sessions fd (some session)⟩)
  | .close fd =>
    match d.sessions fd with
    | none => (⟨-EBADF, none⟩, d)
    | some _ => (⟨0, none⟩, { d with sessions := Function.update d.sessions fd none })

end Driver
end Aecram
end TjTools
