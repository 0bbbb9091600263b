/-
# `BacklightContext`

The class of `src/src/brightness_daemon.cpp` (lines 112-256): the brightness it
believes to be set, the two streams, and the five operations a command can ask
for.  A method is a computation on the object that may stop with an exception;
the object keeps what the method did before it stopped.

`set` is the only way to the node.  From an object whose brightness stream is
`Sound` it ends in one of four ways (`set_tooLarge`, `set_broken`, `set_took`,
`set_refused`), and nothing else is ever unfolded to reason about it.
-/

import TjTools.Basis.Triple
import TjTools.Brightness.Files

namespace TjTools
namespace Brightness

open Iostream

/-- `Config`: what the backlight operations read of it. -/
structure Config where
  powersaveValue : UInt32
  deriving DecidableEq, Repr

/-- The exceptions that can leave a method. -/
inductive Exception where
  | runtimeError (what : String)
  | iosFailure
  | logicError (e : Numerals.StoiError)
  deriving DecidableEq, Repr

/-- What `catch (const std::runtime_error &)` catches: `std::ios_base::failure` is a
`std::system_error`, hence a `std::runtime_error`; `std::invalid_argument` and
`std::out_of_range` are not. -/
def Exception.isRuntimeError : Exception → Bool
  | .runtimeError _ => true
  | .iosFailure => true
  | .logicError _ => false

def Exception.what : Exception → String
  | .runtimeError what => what
  | .iosFailure => "basic_ios::clear: iostream error"
  | .logicError _ => "stoi"

/-- The mask `init` gives the brightness stream. -/
def streamMask : Iostate := ⟨false, true, true⟩

structure BacklightContext where
  cfg : Config
  currentBrightness : UInt32
  maxBrightness : UInt32
  brightnessStream : Fstream Node Char
  storageStream : Fstream DiskFile UInt8

abbrev Backlight := EStateM Exception BacklightContext

namespace BacklightContext

/-- A call on `brightness_stream_`. -/
def onBrightness {α : Type} (m : StreamM Node Char α) : Backlight α :=
  focus (·.brightnessStream) (fun c s => { c with brightnessStream := s }) (fun _ => .iosFailure) m

/-- A call on `storage_stream_`. -/
def onStorage {α : Type} (m : StreamM DiskFile UInt8 α) : Backlight α :=
  focus (·.storageStream) (fun c s => { c with storageStream := s }) (fun _ => .iosFailure) m

/-- The node behind the brightness stream. -/
def node (c : BacklightContext) : Node := c.brightnessStream.buf.file

/-- The state file behind the storage stream. -/
def storage (c : BacklightContext) : DiskFile := c.storageStream.buf.file

/-- `truncate(storage_stream_, length)`: on the descriptor, past the buffer. -/
def truncate (length : ℕ) : Backlight Unit := do
  let (file, done) := (← get).storage.ftruncate length
  modify fun c => { c with storageStream.buf.file := file }
  if !done then throw (.runtimeError "ftruncate() failed: ")

/-- `set` -/
def set (value : UInt32) : Backlight Unit := do
  if value > (← get).maxBrightness then
    throw (.runtimeError "value too large")
  onBrightness (Fstream.insert (Numerals.toString value.toNat))
  modify fun c => { c with currentBrightness := value }
  onBrightness Fstream.flush

/-- `setState` -/
def setState (value : UInt32) : Backlight Unit := set value

/-- The value `modifyState` computes before it calls `set`: the sum in `int`,
clamped from below and from above. -/
def modified (current max : UInt32) (value : Int32) : UInt32 :=
  let tmp := current.toInt32 + value
  let tmp := if tmp < 0 then 0 else tmp
  let tmp := if tmp > max.toInt32 then max.toInt32 else tmp
  tmp.toUInt32

/-- `modifyState` -/
def modifyState (value : Int32) : Backlight Unit := do
  let c ← get
  set (modified c.currentBrightness c.maxBrightness value)

/-- `saveState` -/
def saveState : Backlight Unit := do
  onStorage (Fstream.insert (LittleEndian.ofU32 (← get).currentBrightness))
  onStorage Fstream.flush
  if !(← onStorage Fstream.isGood) then
    throw (.runtimeError "failed to save brightness state")
  onStorage (Fstream.seekp 0)

/-- The first half of `restoreState`: read the stored value if it is there whole, go
back to the start of the file and empty it. -/
def takeStored : Backlight (Option UInt32) := do
  let tmp ← onStorage (Fstream.read 4)
  let goodRead ← onStorage Fstream.isGood
  onStorage (do Fstream.clear; Fstream.seekg 0)
  truncate 0
  return if goodRead then some (LittleEndian.u32 tmp) else none

/-- `restoreState` -/
def restoreState : Backlight Unit := do
  match ← takeStored with
  | none => return
  | some tmp =>
    tryCatch (set tmp) fun err => if err.isRuntimeError then pure () else throw err

/-- `setPowersave` -/
def setPowersave : Backlight Unit := do
  set (← get).cfg.powersaveValue

/-- `sync` -/
def sync : Backlight Unit := do
  let tmp ← onBrightness Fstream.extractWord
  match Numerals.stoi tmp with
  | .error e => throw (.logicError e)
  | .ok z => modify fun c => { c with currentBrightness := UInt32.ofInt z }
  onBrightness (do Fstream.clear; Fstream.seekg 0)

theorem onBrightness_ok {α : Type} {m : StreamM Node Char α} {c : BacklightContext} {a : α}
    {s : Fstream Node Char} (h : m.run c.brightnessStream = .ok a s) :
    (onBrightness m).run c = .ok a { c with brightnessStream := s } :=
  run_focus_ok h

theorem onBrightness_error {α : Type} {m : StreamM Node Char α} {c : BacklightContext}
    {e : Failure} {s : Fstream Node Char} (h : m.run c.brightnessStream = .error e s) :
    (onBrightness m).run c = .error .iosFailure { c with brightnessStream := s } :=
  run_focus_error h

theorem onStorage_ok {α : Type} {m : StreamM DiskFile UInt8 α} {c : BacklightContext} {a : α}
    {s : Fstream DiskFile UInt8} (h : m.run c.storageStream = .ok a s) :
    (onStorage m).run c = .ok a { c with storageStream := s } :=
  run_focus_ok h

/-- The brightness stream as `init` leaves it and every operation keeps it: idle, or
broken with the digits of a value in range still pending. -/
structure Sound (c : BacklightContext) : Prop where
  mask : c.brightnessStream.mask = streamMask
  stream : c.brightnessStream.Idle ∨
    ∃ v ≤ c.maxBrightness, c.brightnessStream.Broken (Numerals.toString v.toNat)

theorem Sound.idle {c : BacklightContext} (h : c.Sound) (hw : c.brightnessStream.state = .good) :
    c.brightnessStream.Idle := by
  rcases h.stream with h | ⟨v, -, hbad, -⟩
  · exact h
  · simp [hw, Iostate.good] at hbad

theorem Sound.bad {c : BacklightContext} (h : c.Sound) (hw : c.brightnessStream.state ≠ .good) :
    c.brightnessStream.state.bad = true ∧
      ∃ v ≤ c.maxBrightness, c.brightnessStream.Broken (Numerals.toString v.toNat) := by
  rcases h.stream with h | ⟨v, hv, h⟩
  · exact absurd h.1 hw
  · exact ⟨h.1, v, hv, h⟩

theorem set_tooLarge {c : BacklightContext} {v : UInt32} (h : c.maxBrightness < v) :
    (set v).run c = .error (.runtimeError "value too large") c := by
  simp [set, h]

/-- A stream that was broken refuses the digits, and the cached value is not reached. -/
theorem set_broken {c : BacklightContext} {v : UInt32}
    (hmask : c.brightnessStream.mask = streamMask) (hv : v ≤ c.maxBrightness)
    (hbad : c.brightnessStream.state.bad = true) :
    (set v).run c
      = .error .iosFailure
          { c with brightnessStream.state := c.brightnessStream.state.or .failbit } := by
  have hins := onBrightness_error (Fstream.insert_of_bad hbad (by simp [hmask, streamMask])
    (Numerals.toString v.toNat))
  have hlt : ¬v > c.maxBrightness := by simpa using hv
  simp [set, hlt, hins]

/-- The put area after the digits of `v` went in, with `v` cached already. -/
def pendingSet (c : BacklightContext) (v : UInt32) : BacklightContext :=
  { c with
    currentBrightness := v
    brightnessStream.buf.area := .put (Numerals.toString v.toNat) }

/-- On a working stream `set` comes down to the flush. -/
theorem set_eq_flush {c : BacklightContext} {v : UInt32} (hv : v ≤ c.maxBrightness)
    (hidle : c.brightnessStream.Idle) :
    (set v).run c = (onBrightness Fstream.flush).run (c.pendingSet v) := by
  have hins := onBrightness_ok (Fstream.insert_of_idle hidle (Numerals.toString v.toNat))
  have hlt : ¬v > c.maxBrightness := by simpa using hv
  simp [set, hlt, hins, pendingSet]

/-- The node takes the value. -/
theorem set_took {c : BacklightContext} {v : UInt32} (hv : v ≤ c.maxBrightness)
    (hidle : c.brightnessStream.Idle) (hacc : c.node.accepts = true) :
    (set v).run c
      = .ok () { c with
          currentBrightness := v
          brightnessStream.buf :=
            ⟨c.node.took v, c.brightnessStream.buf.offset + (Numerals.toString v.toNat).length,
              .put []⟩ } := by
  rw [set_eq_flush hv hidle]
  exact onBrightness_ok (Fstream.flush_of_written (s := (c.pendingSet v).brightnessStream) hidle.1
    rfl (Numerals.toString_ne_nil _) (Node.store_of_accepts hacc v))

/-- The node refuses the value: it is cached all the same, and badbit is set. -/
theorem set_refused {c : BacklightContext} {v : UInt32}
    (hmask : c.brightnessStream.mask = streamMask) (hv : v ≤ c.maxBrightness)
    (hidle : c.brightnessStream.Idle) (hacc : c.node.accepts = false) :
    (set v).run c
      = .error .iosFailure { c with
          currentBrightness := v
          brightnessStream.buf.file := c.node.refused v
          brightnessStream.buf.area := .put (Numerals.toString v.toNat)
          brightnessStream.state := .badbit } := by
  rw [set_eq_flush hv hidle]
  exact onBrightness_error (Fstream.flush_of_refused (s := (c.pendingSet v).brightnessStream)
    hidle.1 rfl (Numerals.toString_ne_nil _) (by simp [pendingSet, hmask, streamMask])
    (Node.store_of_refuses hacc v))

/-! ### The exceptions a method can throw -/

/-- Every exception of the method is a runtime error. -/
def ThrowsRuntime {α : Type} (m : Backlight α) : Prop :=
  ∀ c e c', m.run c = .error e c' → e.isRuntimeError = true

namespace ThrowsRuntime

variable {α β : Type}

theorem pure (a : α) : ThrowsRuntime (Pure.pure a : Backlight α) :=
  fun _ _ _ h => by simp at h

theorem get : ThrowsRuntime (MonadState.get : Backlight BacklightContext) :=
  fun _ _ _ h => by simp at h

theorem modify (f : BacklightContext → BacklightContext) :
    ThrowsRuntime (MonadState.modifyGet fun c => ((), f c) : Backlight Unit) :=
  fun _ _ _ h => by simp at h

theorem runtimeError (what : String) :
    ThrowsRuntime (throw (.runtimeError what) : Backlight Unit) := fun _ _ _ h => by
  obtain ⟨rfl, -⟩ := EStateM.Result.error.inj h
  rfl

theorem onBrightness (m : StreamM Node Char α) : ThrowsRuntime (onBrightness m) :=
  fun c _ _ h => by
    cases hm : m.run c.brightnessStream with
    | ok a s => rw [onBrightness_ok hm] at h; cases h
    | error e s => rw [onBrightness_error hm] at h; cases h; rfl

theorem onStorage (m : StreamM DiskFile UInt8 α) : ThrowsRuntime (onStorage m) :=
  fun c _ _ h => by
    cases hm : m.run c.storageStream with
    | ok a s => rw [onStorage_ok hm] at h; cases h
    | error e s => rw [BacklightContext.onStorage, run_focus_error hm] at h; cases h; rfl

theorem bind {m : Backlight α} {f : α → Backlight β} (hm : ThrowsRuntime m)
    (hf : ∀ a, ThrowsRuntime (f a)) : ThrowsRuntime (m >>= f) := fun c e c' h => by
  rw [EStateM.run_bind] at h
  cases hr : m.run c with
  | ok a s => rw [hr] at h; exact hf a s e c' h
  | error e' s => rw [hr] at h; cases h; exact hm c e c' hr

theorem ite {p : Prop} [Decidable p] {m n : Backlight α} (hm : ThrowsRuntime m)
    (hn : ThrowsRuntime n) : ThrowsRuntime (if p then m else n) := by
  split
  · exact hm
  · exact hn

end ThrowsRuntime

theorem throwsRuntime_set (v : UInt32) : ThrowsRuntime (set v) := by
  have hrest : ThrowsRuntime (do
      onBrightness (Fstream.insert (Numerals.toString v.toNat))
      modify fun c => { c with currentBrightness := v }
      onBrightness Fstream.flush) :=
    .bind (.onBrightness _) fun _ => .bind (.modify _) fun _ => .onBrightness _
  exact .bind .get fun _ => .ite (.bind (.runtimeError _) fun _ => hrest) hrest

theorem throwsRuntime_saveState : ThrowsRuntime saveState :=
  .bind .get fun _ => .bind (.onStorage _) fun _ => .bind (.onStorage _) fun _ =>
    .bind (.onStorage _) fun _ => .ite (.bind (.runtimeError _) fun _ => .onStorage _)
      (.onStorage _)

theorem throwsRuntime_truncate (length : ℕ) : ThrowsRuntime (truncate length) :=
  .bind .get fun _ => .bind (.modify _) fun _ => .ite (.runtimeError _) (.pure _)

theorem throwsRuntime_takeStored : ThrowsRuntime takeStored :=
  .bind (.onStorage _) fun _ => .bind (.onStorage _) fun _ => .bind (.onStorage _) fun _ =>
    .bind (throwsRuntime_truncate 0) fun _ => .pure _

theorem modifyState_run (value : Int32) (c : BacklightContext) :
    (modifyState value).run c
      = (set (modified c.currentBrightness c.maxBrightness value)).run c := by
  rw [modifyState, EStateM.run_bind, EStateM.run_get]

theorem setPowersave_run (c : BacklightContext) :
    setPowersave.run c = (set c.cfg.powersaveValue).run c := by
  rw [setPowersave, EStateM.run_bind, EStateM.run_get]

/-- What `restoreState` does with what it took: nothing, or `set` without its
exceptions. -/
theorem restoreState_run (c : BacklightContext) :
    restoreState.run c =
      match takeStored.run c with
      | .ok (some v) c' => .ok () (final ((set v).run c'))
      | .ok none c' => .ok () c'
      | .error e c' => .error e c' := by
  unfold restoreState
  rw [EStateM.run_bind]
  rcases h : takeStored.run c with ⟨_ | v, c'⟩ | ⟨e, c'⟩
  · rfl
  · simp only [run_tryCatch]
    rcases hs : (set v).run c' with ⟨_, d⟩ | ⟨e, d⟩
    · rfl
    · simp [throwsRuntime_set v c' e d hs, final]
  · rfl

theorem throwsRuntime_restoreState : ThrowsRuntime restoreState := fun c e c' h => by
  rw [restoreState_run] at h
  split at h <;> cases h
  exact throwsRuntime_takeStored c e c' (by assumption)

end BacklightContext

/-- What the lookup found: the text of `max_brightness`, if it can be opened, and the
attribute `brightness`, if it can be opened. -/
structure BacklightNode where
  maxBrightness : Option (List Char)
  brightness : Option Node

/-- The object once its streams are open, before `sync`. -/
def BacklightContext.fresh (cfg : Config) (max : ℤ) (node : Node) (stored : Option DiskFile) :
    BacklightContext :=
  { cfg := cfg
    currentBrightness := 0
    maxBrightness := UInt32.ofInt max
    brightnessStream := .opened node streamMask
    storageStream := .opened (stored.getD .empty) .good }

/-- `init`, given what `lookup_backlight_node` found and the state file, if it exists.
(`read_sysfs` strips nothing: a word has no space in it.) -/
def init (cfg : Config) (found : Option BacklightNode) (stored : Option DiskFile) :
    Except Exception BacklightContext := do
  let some blNode := found | throw (.runtimeError "failed to lookup backlight node")
  let some tmp := blNode.maxBrightness | throw (.runtimeError "failed to query maximum brightness")
  let max ← (Numerals.stoi (Numerals.firstWord tmp)).mapError .logicError
  let some brightness := blNode.brightness | throw .iosFailure
  match BacklightContext.sync.run (.fresh cfg max brightness stored) with
  | .ok _ c => return c
  | .error e _ => throw e

end Brightness
end TjTools
