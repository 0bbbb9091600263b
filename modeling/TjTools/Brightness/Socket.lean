/-
# `SocketContext`

The datagram socket of `src/src/brightness_daemon.cpp` (lines 258-400): a receive
is armed with a cleared buffer of 64 bytes, the kernel puts one datagram there,
cut off at the buffer's end, and the handler reads a `CommandFrame` off the buffer,
calls the backlight object and arms the next receive.

`calls` records which commands the object was asked to perform; the journal holds
what the handler printed.
-/

import TjTools.Brightness.Panel

namespace TjTools
namespace Brightness

open Iostream

def kBufferSize : ℕ := 64
def kCommandFrameLenMax : ℕ := 32
def kCommandFrameSizeMin : ℕ := 2

/-- `CommandType`, below `Count`. -/
inductive CommandType where
  | setState
  | modifyState
  | saveState
  | restoreState
  | setPowersave
  deriving DecidableEq, Repr

/-- The type a byte stands for; none from `Count` on. -/
def CommandType.ofByte? (b : UInt8) : Option CommandType :=
  match b.toNat with
  | 0 => some .setState
  | 1 => some .modifyState
  | 2 => some .saveState
  | 3 => some .restoreState
  | 4 => some .setPowersave
  | _ => none

/-- `to_string(const CommandType &)`, of `kCommandTypeStrings`. -/
def CommandType.toString : CommandType → String
  | .setState => "SetState"
  | .modifyState => "ModifyState"
  | .saveState => "SaveState"
  | .restoreState => "RestoreState"
  | .setPowersave => "SetPowersave"

/-- `CommandFrame`, as it lies in the buffer. -/
structure CommandFrame where
  type : UInt8
  len : UInt8
  value : List UInt8

/-- The buffer read as a frame. -/
def CommandFrame.ofBuffer (buffer : List UInt8) : CommandFrame :=
  ⟨buffer.getD 0 0, buffer.getD 1 0, buffer.drop 2⟩

/-- `LOG_ERR`, `LOG_WARNING`, `LOG_NOTICE` -/
inductive Priority where
  | err
  | warning
  | notice
  deriving DecidableEq, Repr

structure SocketContext where
  blCtx : BacklightContext
  verbose : Bool
  buffer : List UInt8
  /-- A receive is pending. -/
  armed : Bool
  journal : List (Priority × String)
  calls : List Command

abbrev Socket := EStateM Exception SocketContext

namespace SocketContext

/-- A call on `*bl_ctx_`. -/
def onBacklight {α : Type} (m : Backlight α) : Socket α :=
  focus (·.blCtx) (fun s c => { s with blCtx := c }) id m

theorem onBacklight_ok {α : Type} {m : Backlight α} {s : SocketContext} {a : α}
    {c : BacklightContext} (h : m.run s.blCtx = .ok a c) :
    (onBacklight m).run s = .ok a { s with blCtx := c } :=
  run_focus_ok h

theorem onBacklight_error {α : Type} {m : Backlight α} {s : SocketContext} {e : Exception}
    {c : BacklightContext} (h : m.run s.blCtx = .error e c) :
    (onBacklight m).run s = .error e { s with blCtx := c } :=
  run_focus_error h

/-- `sd_journal_print` -/
def journalPrint (priority : Priority) (text : String) : Socket Unit :=
  modify fun s => { s with journal := s.journal ++ [(priority, text)] }

/-- The call a frame leads to. -/
def call (cmd : Command) : Socket Unit := do
  modify fun s => { s with calls := s.calls ++ [cmd] }
  onBacklight cmd.perform

/-- `handleFrame` -/
def handleFrame (frame : CommandFrame) : Socket Unit := do
  match CommandType.ofByte? frame.type with
  | none =>
    journalPrint .warning ("invalid command frame type: " ++ ToString.toString frame.type.toNat)
  | some type =>
    if (← get).verbose then
      journalPrint .notice ("handling command type: " ++ type.toString)
    match type with
    | .setState =>
      if frame.len ≠ 4 then throw (.runtimeError "malformed set state")
      call (.setState (LittleEndian.u32 frame.value))
    | .modifyState =>
      if frame.len ≠ 4 then throw (.runtimeError "malformed modify state")
      call (.modifyState (LittleEndian.i32 frame.value))
    | .saveState =>
      if frame.len ≠ 0 then throw (.runtimeError "malformed save state")
      call .saveState
    | .restoreState =>
      if frame.len ≠ 0 then throw (.runtimeError "malformed restore state")
      call .restoreState
    | .setPowersave =>
      if frame.len ≠ 0 then throw (.runtimeError "malformed set powerstate")
      call .setPowersave

/-- `process`: clear the buffer and arm the receive. -/
def process : Socket Unit :=
  modify fun s => { s with buffer := List.replicate kBufferSize 0, armed := true }

/-- The handler of `async_receive`.  `failed` is its error code. -/
def onReceive (failed : Bool) (bytesTransferred : ℕ) : Socket Unit := do
  if !failed then
    if bytesTransferred < kCommandFrameSizeMin then
      journalPrint .warning "short command frame"
    else
      let frame := CommandFrame.ofBuffer (← get).buffer
      if frame.len.toNat > kCommandFrameLenMax
          ∨ frame.len.toNat + kCommandFrameSizeMin ≠ bytesTransferred then
        journalPrint .warning "malformed command frame"
      else
        tryCatch (handleFrame frame) fun err =>
          if err.isRuntimeError then journalPrint .err ("error handling frame: " ++ err.what)
          else throw err
    process

/-- The kernel puts a datagram into the buffer, cut off at its end, and completes the
pending receive. -/
def deliver (d : List UInt8) (s : SocketContext) : SocketContext :=
  { s with
    buffer := d.take kBufferSize ++ s.buffer.drop (d.take kBufferSize).length
    armed := false }

/-- A datagram arrives, and its handler runs. -/
def receive (d : List UInt8) : Socket Unit := do
  modify (deliver d)
  onReceive false (min kBufferSize d.length)

end SocketContext

end Brightness
end TjTools
