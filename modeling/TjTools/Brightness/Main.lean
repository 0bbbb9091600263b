/-
# The daemon's life

`main` of `src/src/brightness_daemon.cpp` (lines 404-440): the backlight object is
initialised, the socket armed, the stored brightness restored; then datagrams are
handled one at a time until SIGTERM or SIGINT ends the loop, the brightness is
saved and the streams are closed.  An exception that leaves `main` aborts the
process, and nothing is closed.

Between two starts the attribute and the state file stay.  What the attribute shows
at a start is the environment's choice, and so are the outcomes of the system calls
during every event.  The removal and creation of the socket file and the change of
user are left out.
-/

import TjTools.Brightness.Socket

namespace TjTools
namespace Brightness

open Iostream

def Node.withOutcomes (n : Node) (o : Outcomes) : Node := { n with accepts := o.node }

def DiskFile.withOutcomes (f : DiskFile) (o : Outcomes) : DiskFile :=
  { f with readable := o.read, writable := o.write, truncatable := o.truncate }

/-- The object at the beginning of an event. -/
def BacklightContext.withOutcomes (c : BacklightContext) (o : Outcomes) : BacklightContext :=
  { c with
    brightnessStream.buf.file := c.node.withOutcomes o
    storageStream.buf.file := c.storage.withOutcomes o }

def SocketContext.withOutcomes (s : SocketContext) (o : Outcomes) : SocketContext :=
  { s with blCtx := s.blCtx.withOutcomes o }

/-- What calls the backlight object while the daemon runs: `main`, once, to restore the
stored brightness, and the handler. -/
inductive Request where
  | restore
  | datagram (d : List UInt8)
  deriving DecidableEq, Repr

namespace SocketContext

def handle : Request → Socket Unit
  | .restore => onBacklight BacklightContext.restoreState
  | .datagram d => receive d

/-- One request, with the outcomes of its system calls. -/
def serve (s : SocketContext) (r : Request × Outcomes) : SocketContext :=
  final ((handle r.1).run (s.withOutcomes r.2))

/-- `start`, of `main` with `verbose` false. -/
def started (blCtx : BacklightContext) : SocketContext :=
  final (process.run
    { blCtx := blCtx, verbose := false, buffer := [], armed := false, journal := [], calls := [] })

end SocketContext

/-- What does not change from one start to the next. -/
structure Device where
  cfg : Config
  /-- The text of `max_brightness`, if it can be read. -/
  maxBrightness : Option (List Char)

/-- The daemon runs, or the attribute and the state file, if there is one, are as it
left them. -/
inductive System where
  | stopped (node : Node) (stored : Option DiskFile)
  | running (s : SocketContext)

inductive Event where
  /-- The daemon is started while the attribute shows this text. -/
  | start (shown : List Char)
  | datagram (d : List UInt8)
  /-- SIGTERM or SIGINT -/
  | signal
  deriving DecidableEq, Repr

namespace System

/-- `main` up to the loop. -/
def boot (device : Device) (node : Node) (stored : Option DiskFile) : System :=
  match init device.cfg (some ⟨device.maxBrightness, some node⟩) stored with
  | .error _ => .stopped node stored
  | .ok c =>
    match (SocketContext.handle .restore).run (SocketContext.started c) with
    | .ok _ s => .running s
    | .error _ s => .stopped s.blCtx.node (some s.blCtx.storage)

/-- `main` after the loop. -/
def shutdown (s : SocketContext) : System :=
  match (SocketContext.onBacklight BacklightContext.saveState).run s with
  | .ok _ s =>
    .stopped s.blCtx.brightnessStream.buf.close (some s.blCtx.storageStream.buf.close)
  | .error _ s => .stopped s.blCtx.node (some s.blCtx.storage)

/-- One event.  An event that the state has no use for changes nothing. -/
def step (device : Device) : System → Event × Outcomes → System
  | .stopped node stored, (.start shown, o) =>
    boot device ({ node with text := shown }.withOutcomes o) (stored.map (·.withOutcomes o))
  | .running s, (.datagram d, o) => .running (s.serve (.datagram d, o))
  | .running s, (.signal, o) => shutdown (s.withOutcomes o)
  | system, _ => system

/-- Before the first start: nothing was ever handed to the attribute, and the state file
holds whatever it holds, or does not exist. -/
def initial (content : Option (List UInt8)) : System :=
  .stopped ⟨[], true, []⟩ (content.map fun content => ⟨content, [], true, true, true⟩)

end System

/-! ### `init` -/

/-- The number an attribute with this text shows, as `sync` reads it. -/
def shownNumber (text : List Char) : Except Numerals.StoiError ℤ :=
  Numerals.stoi (Numerals.firstWord (text.take bufferLength))

theorem Node.value_of_shown {n : Node} {z : ℤ} (h : shownNumber n.text = .ok z) :
    n.value = some (UInt32.ofInt z) := by
  unfold shownNumber Numerals.stoi at h
  unfold Node.value
  split at h
  · cases h
  · rename_i z' hz'
    split_ifs at h
    obtain rfl := Except.ok.inj h
    rw [hz']
    rfl

/-- The object after `sync` read a number. -/
def BacklightContext.synced (c : BacklightContext) (z : ℤ) : BacklightContext :=
  { c with
    currentBrightness := UInt32.ofInt z
    brightnessStream := ⟨⟨c.node, 0, .uncommitted⟩, .good, streamMask⟩ }

/-- After a word was extracted the number in it decides. -/
theorem BacklightContext.sync_of_word {c : BacklightContext} {node : Node}
    (hopen : c.brightnessStream = .opened node streamMask) {s : Fstream Node Char}
    (hs : Fstream.extractWord.run c.brightnessStream =
      .ok (Numerals.firstWord (node.text.take bufferLength)) s) :
    (∀ e, shownNumber node.text = .error e →
      sync.run c = .error (.logicError e) { c with brightnessStream := s }) ∧
      ∀ z, shownNumber node.text = .ok z → sync.run c = .ok () (c.synced z) := by
  have hnode : c.node = node := by rw [BacklightContext.node, hopen]; rfl
  have hs' := hs
  rw [hopen] at hs'
  obtain ⟨hfile, hmask, hterm, -⟩ := Fstream.extractWord_run rfl rfl hs'
  have hrewind := Fstream.rewind_run hterm 0
  rw [sync, EStateM.run_bind, onBrightness_ok hs, shownNumber]
  constructor
  · intro e hstoi
    simp only [hstoi]
    rfl
  · intro z hstoi
    have hrest := onBrightness_ok (c := { c with
      brightnessStream := s, currentBrightness := UInt32.ofInt z }) hrewind
    simp only [hstoi, EStateM.run_bind, EStateM.run_modify]
    rw [hrest]
    simp [synced, hnode, hfile, hmask]

/-- On a freshly opened stream `sync` returns if the attribute shows a number, and only
then. -/
theorem BacklightContext.sync_run {c : BacklightContext} {node : Node}
    (hopen : c.brightnessStream = .opened node streamMask) :
    (∀ z, shownNumber node.text = .ok z → sync.run c = .ok () (c.synced z)) ∧
      ∀ c', sync.run c = .ok () c' → ∃ z, shownNumber node.text = .ok z ∧ c' = c.synced z := by
  have hread : File.read node 0 bufferLength = some (node.text.take bufferLength) := rfl
  constructor
  · intro z hz
    have hword : Numerals.firstWord (node.text.take bufferLength) ≠ [] := by
      intro hnil
      rw [shownNumber, hnil] at hz
      cases hz
    obtain ⟨s, hs⟩ := Fstream.extractWord_of_word streamMask rfl hread hword
    exact (sync_of_word hopen (by rw [hopen]; exact hs)).2 z hz
  · intro c' hc'
    rcases hs : Fstream.extractWord.run c.brightnessStream with ⟨word, s⟩ | ⟨e, s⟩
    · have hs' := hs
      rw [hopen] at hs'
      obtain ⟨-, -, -, text, htext, rfl⟩ := Fstream.extractWord_run rfl rfl hs'
      obtain rfl := Option.some.inj (hread.symm.trans htext)
      rcases hshown : shownNumber node.text with e | z
      · rw [(sync_of_word hopen hs).1 e hshown] at hc'
        cases hc'
      · rw [(sync_of_word hopen hs).2 z hshown] at hc'
        obtain ⟨-, rfl⟩ := EStateM.Result.ok.inj hc'
        exact ⟨z, rfl, rfl⟩
    · simp only [sync, EStateM.run_bind, onBrightness_error hs] at hc'
      cases hc'

/-- With everything found, `init` comes down to `sync`. -/
theorem init_found (cfg : Config) {text : List Char} {max : ℤ} (node : Node)
    (stored : Option DiskFile) (hmax : Numerals.stoi (Numerals.firstWord text) = .ok max) :
    init cfg (some ⟨some text, some node⟩) stored =
      match BacklightContext.sync.run (.fresh cfg max node stored) with
      | .ok _ c => .ok c
      | .error e _ => .error e := by
  unfold init
  simp only [hmax, Except.mapError]
  rfl

/-- **When `init` returns, and what.**  Both numbers have to be there; the cached
brightness is the one the attribute shows, and both streams are at the start of their
files. -/
theorem init_ok_iff {cfg : Config} {found : Option BacklightNode} {stored : Option DiskFile}
    {c : BacklightContext} :
    init cfg found stored = .ok c ↔ ∃ text node max z,
      found = some ⟨some text, some node⟩ ∧
      Numerals.stoi (Numerals.firstWord text) = .ok max ∧ shownNumber node.text = .ok z ∧
      c = (BacklightContext.fresh cfg max node stored).synced z := by
  constructor
  · intro h
    rcases found with _ | ⟨_ | text, node⟩
    · cases h
    · cases h
    rcases hmax : Numerals.stoi (Numerals.firstWord text) with e | max
    · unfold init at h
      simp only [hmax] at h
      cases h
    rcases node with _ | node
    · unfold init at h
      simp only [hmax] at h
      cases h
    rw [init_found cfg node stored hmax] at h
    rcases hsync : BacklightContext.sync.run (.fresh cfg max node stored) with ⟨_, c'⟩ | ⟨e, c'⟩
    · obtain ⟨z, hz, rfl⟩ := (BacklightContext.sync_run rfl).2 c' hsync
      rw [hsync] at h
      obtain rfl := Except.ok.inj h
      exact ⟨text, node, max, z, rfl, hmax, hz, rfl⟩
    · rw [hsync] at h
      cases h
  · rintro ⟨text, node, max, z, rfl, hmax, hz, rfl⟩
    have hsync := (BacklightContext.sync_run (c := .fresh cfg max node stored) rfl).1 z hz
    rw [init_found cfg node stored hmax, hsync]

@[simp] theorem Node.accepts_withOutcomes (n : Node) (o : Outcomes) :
    (n.withOutcomes o).accepts = o.node := rfl

@[simp] theorem Node.handed_withOutcomes (n : Node) (o : Outcomes) :
    (n.withOutcomes o).handed = n.handed := rfl

@[simp] theorem Node.value_withOutcomes (n : Node) (o : Outcomes) :
    (n.withOutcomes o).value = n.value := rfl

namespace BacklightContext

variable (c : BacklightContext) (o : Outcomes)

@[simp] theorem currentBrightness_withOutcomes :
    (c.withOutcomes o).currentBrightness = c.currentBrightness := rfl

@[simp] theorem maxBrightness_withOutcomes :
    (c.withOutcomes o).maxBrightness = c.maxBrightness := rfl

@[simp] theorem state_withOutcomes :
    (c.withOutcomes o).brightnessStream.state = c.brightnessStream.state := rfl

@[simp] theorem node_withOutcomes : (c.withOutcomes o).node = c.node.withOutcomes o := rfl

variable {c}

theorem Sound.withOutcomes (h : c.Sound) : (c.withOutcomes o).Sound := ⟨h.mask, h.stream⟩

theorem sound_synced (z : ℤ) : (c.synced z).Sound := ⟨rfl, .inl ⟨rfl, .inl rfl⟩⟩

end BacklightContext

end Brightness
end TjTools
