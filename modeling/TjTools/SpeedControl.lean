/-
# The speed of a drive

`src/src/speedcontrolpp.cpp`: `setStreaming` (lines 65-99) fills a SET_STREAMING command and
its performance descriptor, and `issue` (lines 101-128) sends them to the drive, or the speed
alone if the drive refuses them.

| offset | bytes | field of the descriptor |
| --- | ---: | --- |
| 0 | 1 | random access, exact, restore defaults, rotation control, 3 reserved bits |
| 1 | 3 | reserved |
| 4 | 4 | start LBA |
| 8 | 4 | end LBA |
| 12 | 4 | read size, in kilobytes |
| 16 | 4 | read time, in milliseconds |
| 20 | 4 | write size |
| 24 | 4 | write time |

The compiler puts the first bit field in the lowest bit, and the numbers are little-endian in
memory, so they are swapped before they are stored; the drive reads them big-endian
(`Streaming.decode`).  An object may be used again: what a call leaves is the same whatever the
calls before it left (`setStreaming_run`), so every accepted call asks for its own speed and
nothing else (`setStreaming_requests`).

The lines on `stdout` and `stderr` are left out.
-/

import TjTools.Basis.LittleEndian
import TjTools.Basis.Runs
import TjTools.Basis.Triple

namespace TjTools
namespace SpeedControl

open LittleEndian Runs

def kReadSizeMultiplier : UInt32 := 177
def kMaxSpeed : UInt32 := 0xffffffff / (kReadSizeMultiplier + 1)

/-- `GPCMD_SET_STREAMING` -/
def gpcmdSetStreaming : UInt8 := 0xb6

/-- `CGC_DATA_WRITE` -/
def cgcDataWrite : UInt8 := 1

structure PerformanceDescriptor where
  randomAccess : BitVec 1
  exact : BitVec 1
  restoreLogicalUnitDefaults : BitVec 1
  writeRotationControl : BitVec 2
  reserved0 : BitVec 3
  reserved1 : Vector UInt8 3
  startLba : UInt32
  endLba : UInt32
  readSize : UInt32
  readTime : UInt32
  writeSize : UInt32
  writeTime : UInt32
  deriving DecidableEq

namespace PerformanceDescriptor

/-- After `memset`. -/
def zero : PerformanceDescriptor :=
  ⟨0, 0, 0, 0, 0, Vector.replicate 3 0, 0, 0, 0, 0, 0, 0⟩

def flags (d : PerformanceDescriptor) : UInt8 :=
  .ofBitVec (d.reserved0 ++ d.writeRotationControl ++ d.restoreLogicalUnitDefaults ++ d.exact
    ++ d.randomAccess)

/-- The descriptor in memory. -/
def bytes (d : PerformanceDescriptor) : List UInt8 :=
  d.flags :: (d.reserved1.toList ++ (ofU32 d.startLba ++ (ofU32 d.endLba ++ (ofU32 d.readSize
    ++ (ofU32 d.readTime ++ (ofU32 d.writeSize ++ ofU32 d.writeTime))))))

/-- `sizeof(PerformanceDescriptor)` -/
theorem length_bytes (d : PerformanceDescriptor) : d.bytes.length = 28 := by
  simp [bytes]

end PerformanceDescriptor

/-- `cdrom_generic_command`; its two pointers are to the members of the object. -/
structure GenericCommand where
  cmd : Vector UInt8 12
  buflen : UInt32
  stat : UInt32
  dataDirection : UInt8
  quiet : UInt32
  timeout : UInt32
  deriving DecidableEq

abbrev RequestSense := Vector UInt8 64

structure CommandContext where
  genericCommand : GenericCommand
  sense : RequestSense
  perfDesc : PerformanceDescriptor
  speed : UInt32
  deriving DecidableEq

/-- The exceptions are `std::runtime_error` with a text. -/
abbrev CommandM := EStateM String CommandContext

namespace CommandContext

/-- The constructor.  Two members hold what was in memory. -/
def new (sense : RequestSense) (perfDesc : PerformanceDescriptor) : CommandContext :=
  ⟨⟨Vector.replicate 12 0, 28, 0, 0, 0, 0⟩, sense, perfDesc, 0⟩

/-- `cmd[i] = value` -/
def putCmd (i : ℕ) (value : UInt8) (c : CommandContext) : CommandContext :=
  { c with genericCommand.cmd := c.genericCommand.cmd.setIfInBounds i value }

end CommandContext

/-- `setStreaming` -/
def setStreaming (speed : UInt32) : CommandM Unit := do
  if kMaxSpeed ≤ speed then throw "invalid speed"
  modify (.putCmd 0 gpcmdSetStreaming)
  modify (.putCmd 10 28)
  modify fun c =>
    { c with genericCommand.dataDirection := cgcDataWrite, genericCommand.quiet := 1 }
  modify fun c => { c with sense := Vector.replicate 64 0, perfDesc := .zero }
  if speed = 0 then
    modify fun c => { c with perfDesc.restoreLogicalUnitDefaults := 1 }
  modify fun c => { c with perfDesc.endLba := bswap32 0xffffffff }
  let rwSize := speed * kReadSizeMultiplier
  modify fun c =>
    { c with perfDesc.readSize := bswap32 rwSize, perfDesc.readTime := bswap32 1000 }
  modify fun c =>
    { c with perfDesc.writeSize := bswap32 rwSize, perfDesc.writeTime := bswap32 1000 }
  modify fun c => { c with speed := speed }

/-- What a drive is asked for. -/
inductive Request where
  /-- `CDROM_SEND_PACKET`, with the command block and the bytes of the buffer. -/
  | sendPacket (cmd : Vector UInt8 12) (buffer : List UInt8)
  /-- `CDROM_SELECT_SPEED` -/
  | selectSpeed (speed : UInt32)
  deriving DecidableEq

/-- The device of a path: the text of the error where it cannot be opened, whether it accepts a
packet and what the kernel writes back then. -/
structure Drive where
  opened : Except String Unit
  sendPacket : CommandContext → Bool × GenericCommand × RequestSense

/-- `issue`, with what was asked of the drive. -/
def issue (drive : Drive) : CommandM (List Request) := do
  match drive.opened with
  | .error what => throw ("open(): " ++ what)
  | .ok () =>
    let c ← get
    let packet := Request.sendPacket c.genericCommand.cmd (c.perfDesc.bytes.take
      c.genericCommand.buflen.toNat)
    let (accepted, genericCommand, sense) := drive.sendPacket c
    set { c with genericCommand := genericCommand, sense := sense }
    if accepted then return [packet]
    else
      let c ← get
      return [packet, .selectSpeed c.speed]

/-! ### What a drive reads -/

/-- The descriptor as a drive reads it. -/
structure Streaming where
  randomAccess : Bool
  exact : Bool
  restoreDefaults : Bool
  rotationControl : ℕ
  reserved : ℕ × List UInt8
  startLba : ℕ
  endLba : ℕ
  readSize : ℕ
  readTime : ℕ
  writeSize : ℕ
  writeTime : ℕ
  deriving DecidableEq, Repr

namespace Streaming

def decode (bs : List UInt8) : Streaming where
  randomAccess := (bs.headD 0).toNat.testBit 0
  exact := (bs.headD 0).toNat.testBit 1
  restoreDefaults := (bs.headD 0).toNat.testBit 2
  rotationControl := (bs.headD 0).toNat / 8 % 4
  reserved := ((bs.headD 0).toNat / 32, (bs.drop 1).take 3)
  startLba := bigEndian (bs.drop 4)
  endLba := bigEndian (bs.drop 8)
  readSize := bigEndian (bs.drop 12)
  readTime := bigEndian (bs.drop 16)
  writeSize := bigEndian (bs.drop 20)
  writeTime := bigEndian (bs.drop 24)

/-- The whole disc at a speed. -/
def ofSpeed (speed : UInt32) : Streaming where
  randomAccess := false
  exact := false
  restoreDefaults := decide (speed = 0)
  rotationControl := 0
  reserved := (0, [0, 0, 0])
  startLba := 0
  endLba := 0xffffffff
  readSize := 177 * speed.toNat
  readTime := 1000
  writeSize := 177 * speed.toNat
  writeTime := 1000

end Streaming

/-- The parameter list length of a command block. -/
def parameterLength (cmd : Vector UInt8 12) : ℕ := bigEndian (0 :: 0 :: (cmd.toList.drop 9).take 2)

/-! ### One call -/

/-- The descriptor for a speed. -/
def filled (speed : UInt32) : PerformanceDescriptor :=
  { PerformanceDescriptor.zero with
    restoreLogicalUnitDefaults := if speed = 0 then 1 else 0
    endLba := bswap32 0xffffffff
    readSize := bswap32 (speed * kReadSizeMultiplier)
    readTime := bswap32 1000
    writeSize := bswap32 (speed * kReadSizeMultiplier)
    writeTime := bswap32 1000 }

/-- The object after a call that was accepted. -/
def prepared (speed : UInt32) : CommandContext :=
  ⟨⟨((Vector.replicate 12 0).setIfInBounds 0 gpcmdSetStreaming).setIfInBounds 10 28, 28, 0,
    cgcDataWrite, 1, 0⟩, Vector.replicate 64 0, filled speed, speed⟩

/-- The object as the constructor or a call left it. -/
def Reached (c : CommandContext) : Prop :=
  (∃ sense perfDesc, c = .new sense perfDesc) ∨ ∃ speed, c = prepared speed

theorem setStreaming_throws {speed : UInt32} (h : kMaxSpeed ≤ speed) (c : CommandContext) :
    (setStreaming speed).run c = .error "invalid speed" c := by
  unfold setStreaming
  rw [if_pos h]
  rfl

/-- **Every accepted call leaves the same**, whatever was there before. -/
theorem setStreaming_run {speed : UInt32} (h : speed < kMaxSpeed) {c : CommandContext}
    (hc : Reached c) : (setStreaming speed).run c = .ok () (prepared speed) := by
  unfold setStreaming
  rw [if_neg (UInt32.not_le.2 h)]
  rcases hc with ⟨sense, perfDesc, rfl⟩ | ⟨before, rfl⟩
  · by_cases hzero : speed = 0
    · rw [if_pos hzero, hzero]
      rfl
    · rw [if_neg hzero]
      simp only [prepared, filled, if_neg hzero]
      rfl
  · by_cases hzero : speed = 0
    · rw [if_pos hzero, hzero]
      rfl
    · rw [if_neg hzero]
      simp only [prepared, filled, if_neg hzero]
      rfl

/-! ### What it asks for -/

/-- An accepted speed is converted without wrapping. -/
theorem toNat_rwSize {speed : UInt32} (h : speed < kMaxSpeed) :
    177 * speed.toNat < 2 ^ 32 ∧ (speed * kReadSizeMultiplier).toNat = 177 * speed.toNat := by
  have hmax : kMaxSpeed.toNat = 24129029 := by decide
  have hlt : speed.toNat < 24129029 := by
    rw [← hmax]
    exact UInt32.lt_iff_toNat_lt.1 h
  have hmultiplier : kReadSizeMultiplier.toNat = 177 := rfl
  refine ⟨by omega, ?_⟩
  rw [UInt32.toNat_mul, hmultiplier]
  omega

theorem flags_filled (speed : UInt32) : (filled speed).flags = if speed = 0 then 4 else 0 := by
  have hflags : ∀ restore : BitVec 1,
      (filled speed).restoreLogicalUnitDefaults = restore →
        (filled speed).flags = .ofBitVec ((0 : BitVec 3) ++ (0 : BitVec 2) ++ restore
          ++ (0 : BitVec 1) ++ (0 : BitVec 1)) := by
    rintro _ rfl
    rfl
  by_cases hzero : speed = 0
  · rw [if_pos hzero, hflags 1 (if_pos hzero)]
    decide
  · rw [if_neg hzero, hflags 0 (if_neg hzero)]
    decide

theorem bytes_filled (speed : UInt32) : (filled speed).bytes =
    (filled speed).flags :: 0 :: 0 :: 0 :: (ofU32 (bswap32 0) ++ (ofU32 (bswap32 0xffffffff)
      ++ (ofU32 (bswap32 (speed * kReadSizeMultiplier)) ++ (ofU32 (bswap32 1000)
        ++ (ofU32 (bswap32 (speed * kReadSizeMultiplier)) ++ ofU32 (bswap32 1000)))))) := by
  have hzero : bswap32 0 = 0 := by decide
  rw [hzero]
  rfl

/-- **The drive reads what was asked for.** -/
theorem decode_filled {speed : UInt32} (h : speed < kMaxSpeed) :
    Streaming.decode (filled speed).bytes = .ofSpeed speed := by
  have hsize := (toNat_rwSize h).2
  have hlast : bigEndian (ofU32 (bswap32 1000)) = 1000 := by
    simpa using bigEndian_bswap32_append 1000 []
  rw [bytes_filled, flags_filled]
  by_cases hzero : speed = 0
  · subst hzero
    simp [Streaming.decode, Streaming.ofSpeed, hlast]
    decide
  · simp [Streaming.decode, Streaming.ofSpeed, hsize, hlast, hzero]

theorem parameterLength_prepared (speed : UInt32) :
    parameterLength (prepared speed).genericCommand.cmd = 28 := by
  rfl

/-! ### Sequences of calls -/

/-- One call, whether it was accepted or not. -/
def call (c : CommandContext) (speed : UInt32) : CommandContext :=
  final ((setStreaming speed).run c)

theorem Reached.call {c : CommandContext} (hc : Reached c) (speed : UInt32) :
    Reached (call c speed) := by
  unfold SpeedControl.call
  by_cases h : speed < kMaxSpeed
  · rw [setStreaming_run h hc]
    exact .inr ⟨speed, rfl⟩
  · rw [setStreaming_throws (UInt32.not_lt.1 h)]
    exact hc

/-- The state the calls of any sequence are made in. -/
theorem reached_run (sense : RequestSense) (perfDesc : PerformanceDescriptor)
    (speeds : List UInt32) : Reached (run call (.new sense perfDesc) speeds) := by
  have hnew : Reached (.new sense perfDesc) := .inl ⟨sense, perfDesc, rfl⟩
  exact inv_run (fun c speed hc => hc.call speed) hnew speeds

/-- What a drive is asked for after a call that was accepted. -/
theorem issue_prepared (speed : UInt32) {drive : Drive} (hopened : drive.opened = .ok ()) :
    ∃ c, (issue drive).run (prepared speed) =
      .ok (.sendPacket (prepared speed).genericCommand.cmd (filled speed).bytes ::
        if (drive.sendPacket (prepared speed)).1 then [] else [.selectSpeed speed]) c := by
  have hbuffer : (filled speed).bytes.take 28 = (filled speed).bytes :=
    List.take_of_length_le (PerformanceDescriptor.length_bytes _).le
  have hbuflen : (prepared speed).genericCommand.buflen.toNat = 28 := rfl
  unfold issue
  rw [hopened]
  rcases hsent : drive.sendPacket (prepared speed) with ⟨accepted, genericCommand, sense⟩
  simp only [EStateM.run_bind, EStateM.run_get, EStateM.run_set, hsent, hbuflen]
  rw [show List.take 28 (prepared speed).perfDesc.bytes = (filled speed).bytes from hbuffer]
  cases accepted
  · exact ⟨_, rfl⟩
  · exact ⟨_, rfl⟩

/-- **A call that is accepted asks for its own speed**, whatever calls came before it; one that is
not changes nothing. -/
theorem setStreaming_requests (sense : RequestSense) (perfDesc : PerformanceDescriptor)
    (speeds : List UInt32) (speed : UInt32) :
    let c := run call (.new sense perfDesc) speeds
    (kMaxSpeed ≤ speed → (setStreaming speed).run c = .error "invalid speed" c) ∧
      (speed < kMaxSpeed →
        177 * speed.toNat < 2 ^ 32 ∧
          ∃ c', (setStreaming speed).run c = .ok () c' ∧
            c'.perfDesc.bytes.length = 28 ∧
            Streaming.decode c'.perfDesc.bytes = .ofSpeed speed ∧
            parameterLength c'.genericCommand.cmd = 28 ∧
            (∀ drive : Drive, drive.opened = .ok () → ∃ c'', (issue drive).run c' =
              .ok (.sendPacket c'.genericCommand.cmd c'.perfDesc.bytes ::
                if (drive.sendPacket c').1 then [] else [.selectSpeed speed]) c'') ∧
            ∀ sense' perfDesc', (setStreaming speed).run (.new sense' perfDesc') = .ok () c') := by
  intro c
  have hc : Reached c := reached_run sense perfDesc speeds
  constructor
  · intro h
    exact setStreaming_throws h c
  · intro h
    refine ⟨(toNat_rwSize h).1, prepared speed, setStreaming_run h hc,
      PerformanceDescriptor.length_bytes _, decode_filled h, parameterLength_prepared speed, ?_, ?_⟩
    · intro drive hopened
      exact issue_prepared speed hopened
    · intro sense' perfDesc'
      exact setStreaming_run h (.inl ⟨sense', perfDesc', rfl⟩)

end SpeedControl
end TjTools
