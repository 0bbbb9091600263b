/-
# The stored brightness is a one-slot cell

With the system calls succeeding, the state file of `src/src/brightness_daemon.cpp` is
a cell with one slot: saving puts the brightness there, whatever was there before, and
restoring takes it out.  `Cell` says this apart from files: a running daemon has a
brightness and a slot, a stopped one leaves the bytes of the file.  `Cell.step` is what
an event does to it, and the daemon refines it (`refines_step`), from any content of the
file on: what an older file held is gone with the first restore.

The attribute is assumed to show a number from zero to the maximum at a start, as the
kernel documents it.  A brightness above the maximum could be saved, but `set` would
refuse to restore it.
-/

import TjTools.Basis.Runs
import TjTools.Brightness.Serve
import TjTools.Brightness.Storage

namespace TjTools
namespace Brightness

open Iostream Runs

/-- The daemon as its user knows it. -/
inductive Cell where
  /-- Not running; the file has this content. -/
  | off (content : List UInt8)
  /-- Running at a brightness, with a brightness saved or none. -/
  | on (brightness : UInt32) (slot : Option UInt32)
  deriving DecidableEq, Repr

namespace Cell

/-- Setting a value above the maximum does nothing. -/
def attempt (max current v : UInt32) : UInt32 := if v ≤ max then v else current

/-- Setting what was saved, if anything was. -/
def restored (max current : UInt32) (slot : Option UInt32) : UInt32 :=
  slot.elim current (attempt max current)

/-- The bytes of the file. -/
def content : Cell → List UInt8
  | .off content => content
  | .on _ slot => slot.elim [] LittleEndian.ofU32

def isOn : Cell → Bool
  | .off _ => false
  | .on _ _ => true

def command (max powersave current : UInt32) (slot : Option UInt32) : Command → Cell
  | .setState v => .on (attempt max current v) slot
  | .modifyState v => .on (attempt max current (BacklightContext.modified current max v)) slot
  | .saveState => .on current (some current)
  | .restoreState => .on (restored max current slot) none
  | .setPowersave => .on (attempt max current powersave) slot

def step (max powersave : UInt32) : Cell → Event → Cell
  | .off content, .start shown =>
    match shownNumber shown with
    | .error _ => .off content
    | .ok z => .on (restored max (UInt32.ofInt z) (storedValue content)) none
  | .on current slot, .datagram d =>
    (decode d).elim (.on current slot) (command max powersave current slot)
  | .on current _, .signal => .off (LittleEndian.ofU32 current)
  | cell, _ => cell

theorem storedValue_content (current : UInt32) (slot : Option UInt32) :
    storedValue (content (.on current slot)) = slot := by
  cases slot with
  | none => rfl
  | some v => exact storedValue_ofU32 v

end Cell

namespace BacklightContext

/-- The object while everything succeeds. -/
structure Healthy (max : UInt32) (c : BacklightContext) : Prop where
  sound : c.Sound
  max_eq : c.maxBrightness = max
  working : c.brightnessStream.state = .good
  accepts : c.node.accepts = true
  agrees : c.node.value = some c.currentBrightness
  current : c.currentBrightness ≤ max
  storage : Rested c.storageStream

theorem Healthy.withOutcomes {max : UInt32} {c : BacklightContext} (h : c.Healthy max) :
    (c.withOutcomes .good).Healthy max :=
  ⟨h.sound.withOutcomes .good, h.max_eq, h.working, rfl, h.agrees, h.current,
    ⟨h.storage.state, h.storage.mask, h.storage.clean, h.storage.offset, rfl, rfl, rfl⟩⟩

/-- What `set` does there. -/
theorem healthy_set {max : UInt32} {c : BacklightContext} (h : c.Healthy max) (v : UInt32) :
    (final ((set v).run c)).Healthy max ∧
      (final ((set v).run c)).cfg = c.cfg ∧
      (final ((set v).run c)).currentBrightness = Cell.attempt max c.currentBrightness v ∧
      (final ((set v).run c)).storage = c.storage := by
  obtain ⟨hsound, hpanel, hcfg, hstorage, -⟩ := set_refines h.sound v
  have hworking := (panel_working c).2 h.working
  have hstorage' : (final ((set v).run c)).storage = c.storage := by
    unfold storage
    rw [hstorage]
  have hrested : Rested (final ((set v).run c)).storageStream := by
    rw [hstorage]
    exact h.storage
  rcases UInt32.lt_or_le max v with hv | hv
  · have hidle : c.panel.set v = c.panel :=
      Panel.set_of_idle (.inl (by rw [panel_max, h.max_eq]; exact hv))
    rw [hidle] at hpanel
    have hcurrent : (final ((set v).run c)).currentBrightness = c.currentBrightness :=
      congrArg Panel.current hpanel
    have hnode : (final ((set v).run c)).node = c.node := congrArg Panel.node hpanel
    refine ⟨⟨hsound, (congrArg Panel.max hpanel).trans h.max_eq, ?_, ?_, ?_, ?_, hrested⟩, hcfg,
      ?_, hstorage'⟩
    · rw [← panel_working, hpanel, panel_working]
      exact h.working
    · rw [hnode]
      exact h.accepts
    · rw [hnode, hcurrent]
      exact h.agrees
    · rw [hcurrent]
      exact h.current
    · rw [hcurrent, Cell.attempt, if_neg (UInt32.not_le.2 hv)]
  · rw [Panel.set_of_accepts (by rw [panel_max, h.max_eq]; exact hv) hworking h.accepts] at hpanel
    have hcurrent : (final ((set v).run c)).currentBrightness = v := congrArg Panel.current hpanel
    have hnode : (final ((set v).run c)).node = c.node.took v := congrArg Panel.node hpanel
    refine ⟨⟨hsound, (congrArg Panel.max hpanel).trans h.max_eq, ?_, ?_, ?_, ?_, hrested⟩, hcfg,
      ?_, hstorage'⟩
    · rw [← panel_working, hpanel]
      exact hworking
    · rw [hnode]
      exact h.accepts
    · rw [hnode, hcurrent, Node.value_took]
    · rw [hcurrent]
      exact hv
    · rw [hcurrent, Cell.attempt, if_pos hv]

/-- The object stands for a cell. -/
def Carries (device : Device) (max : UInt32) (c : BacklightContext) : Cell → Prop
  | .off _ => False
  | .on current slot =>
    c.Healthy max ∧ c.cfg = device.cfg ∧ c.currentBrightness = current ∧
      c.storage.content = Cell.content (.on current slot)

theorem carries_set {device : Device} {max : UInt32} {c : BacklightContext} {current : UInt32}
    {slot : Option UInt32} (h : c.Carries device max (.on current slot)) (v : UInt32) :
    (final ((set v).run c)).Carries device max (.on (Cell.attempt max current v) slot) := by
  obtain ⟨hhealthy, hcfg, rfl, hcontent⟩ := h
  obtain ⟨hhealthy', hcfg', hcurrent, hstorage⟩ := healthy_set hhealthy v
  refine ⟨hhealthy', hcfg'.trans hcfg, hcurrent, ?_⟩
  rw [hstorage]
  exact hcontent

/-- **Every command refines its cell command.** -/
theorem carries_perform {device : Device} {max : UInt32} {c : BacklightContext}
    {current : UInt32} {slot : Option UInt32} (h : c.Carries device max (.on current slot))
    (cmd : Command) :
    (final (cmd.perform.run c)).Carries device max
      (Cell.command max device.cfg.powersaveValue current slot cmd) := by
  have hparts := h
  obtain ⟨hhealthy, hcfg, rfl, hcontent⟩ := hparts
  cases cmd with
  | setState v => exact carries_set h v
  | modifyState v =>
    rw [Command.perform, modifyState_run, hhealthy.max_eq]
    exact carries_set h _
  | setPowersave =>
    rw [Command.perform, setPowersave_run, hcfg]
    exact carries_set h _
  | saveState =>
    obtain ⟨s, hrun, hrested, hsaved⟩ := saveState_run hhealthy.storage
    have hdrop : c.storage.content.drop 4 = [] := by
      rw [hcontent]
      cases slot with
      | none => rfl
      | some v => exact List.drop_of_length_le (LittleEndian.length_ofU32 v).le
    rw [Command.perform, hrun]
    refine ⟨⟨⟨hhealthy.sound.mask, hhealthy.sound.stream⟩, hhealthy.max_eq, hhealthy.working,
      hhealthy.accepts, hhealthy.agrees, hhealthy.current, hrested⟩, hcfg, rfl, ?_⟩
    rw [hdrop, List.append_nil] at hsaved
    exact hsaved
  | restoreState =>
    obtain ⟨s, hrun, hrested, hempty⟩ := takeStored_run hhealthy.storage
    rw [hcontent, Cell.storedValue_content] at hrun
    have htaken : BacklightContext.Carries device max { c with storageStream := s }
        (.on c.currentBrightness none) :=
      ⟨⟨⟨hhealthy.sound.mask, hhealthy.sound.stream⟩, hhealthy.max_eq, hhealthy.working,
        hhealthy.accepts, hhealthy.agrees, hhealthy.current, hrested⟩, hcfg, rfl, hempty⟩
    rw [Command.perform, restoreState_run, hrun]
    cases slot with
    | none => exact htaken
    | some v => exact carries_set htaken v

end BacklightContext

/-- At a start the attribute shows a number up to the maximum. -/
def Event.ShowsInRange (max : UInt32) : Event → Prop
  | .start shown => ∃ z, shownNumber shown = .ok z ∧ UInt32.ofInt z ≤ max
  | _ => True

namespace System

/-- An event during which every system call succeeds. -/
def goodStep (device : Device) (system : System) (e : Event) : System :=
  system.step device (e, .good)

/-- The bytes of the state file. -/
def content : System → List UInt8
  | .stopped _ stored => stored.elim [] (·.content)
  | .running s => s.blCtx.storage.content

/-- The daemon stands for a cell. -/
def Refines (device : Device) (max : UInt32) : System → Cell → Prop
  | .stopped node stored, .off content => System.content (.stopped node stored) = content
  | .running s, cell => s.blCtx.Carries device max cell
  | _, _ => False

variable {device : Device} {text : List Char} {max : ℤ}

/-- A start that finds both numbers restores what the file holds. -/
theorem refines_boot (htext : device.maxBrightness = some text)
    (hmax : Numerals.stoi (Numerals.firstWord text) = .ok max) (node : Node)
    (stored : Option DiskFile) {z : ℤ} (hz : shownNumber node.text = .ok z)
    (hle : UInt32.ofInt z ≤ UInt32.ofInt max) (haccepts : node.accepts = true)
    (hstored : ∀ f ∈ stored, f.readable = true ∧ f.writable = true ∧ f.truncatable = true) :
    ∃ s, boot device node stored = .running s ∧
      s.blCtx.Carries device (UInt32.ofInt max)
        (.on (Cell.restored (UInt32.ofInt max) (UInt32.ofInt z)
          (storedValue (System.content (.stopped node stored)))) none) := by
  obtain ⟨c, hc⟩ : ∃ c, c = (BacklightContext.fresh device.cfg max node stored).synced z :=
    ⟨_, rfl⟩
  have hinit : init device.cfg (some ⟨device.maxBrightness, some node⟩) stored = .ok c :=
    init_ok_iff.2 ⟨text, node, max, z, by rw [htext], hmax, hz, hc⟩
  have hcontent : c.storage.content = System.content (.stopped node stored) := by
    rw [hc]
    cases stored <;> rfl
  have hrested : Rested c.storageStream := by
    have hflags : c.storage.readable = true ∧ c.storage.writable = true ∧
        c.storage.truncatable = true := by
      rw [hc]
      cases stored with
      | none => exact ⟨rfl, rfl, rfl⟩
      | some f => exact hstored f rfl
    rw [hc] at hflags ⊢
    exact ⟨rfl, rfl, .inl rfl, rfl, hflags.1, hflags.2.1, hflags.2.2⟩
  obtain ⟨s, hrun, hrested', hempty⟩ := BacklightContext.takeStored_run hrested
  rw [hcontent] at hrun
  have htaken : BacklightContext.Carries device (UInt32.ofInt max) { c with storageStream := s }
      (.on (UInt32.ofInt z) none) := by
    rw [hc]
    exact ⟨⟨⟨rfl, (BacklightContext.sound_synced z).stream⟩, rfl, rfl, haccepts,
      Node.value_of_shown hz, hle, hrested'⟩, rfl, rfl, hempty⟩
  have hrestore : ∃ c', BacklightContext.restoreState.run c = .ok () c' ∧
      c'.Carries device (UInt32.ofInt max) (.on (Cell.restored (UInt32.ofInt max)
        (UInt32.ofInt z) (storedValue (System.content (.stopped node stored)))) none) := by
    rw [BacklightContext.restoreState_run, hrun]
    rcases storedValue (System.content (.stopped node stored)) with _ | v
    · exact ⟨_, rfl, htaken⟩
    · exact ⟨_, rfl, BacklightContext.carries_set htaken v⟩
  obtain ⟨c', hrestore, hcarries⟩ := hrestore
  have hhandle : (SocketContext.handle .restore).run (SocketContext.started c)
      = .ok () { SocketContext.started c with blCtx := c' } :=
    SocketContext.onBacklight_ok (s := SocketContext.started c) hrestore
  refine ⟨{ SocketContext.started c with blCtx := c' }, ?_, hcarries⟩
  unfold boot
  simp only [hinit, hhandle]

/-- The end of the daemon saves its brightness. -/
theorem refines_shutdown {m : UInt32} {s : SocketContext} {current : UInt32}
    {slot : Option UInt32} (h : s.blCtx.Carries device m (.on current slot)) :
    (shutdown s).Refines device m (.off (LittleEndian.ofU32 current)) := by
  have hsaved := BacklightContext.carries_perform h .saveState
  obtain ⟨hhealthy, -, -, -⟩ := h
  obtain ⟨stream, hrun, hrested, -⟩ := BacklightContext.saveState_run hhealthy.storage
  rw [Command.perform, hrun] at hsaved
  obtain ⟨-, -, -, hcontent⟩ := hsaved
  unfold shutdown
  rw [SocketContext.onBacklight_ok hrun]
  have hclose : stream.buf.close = stream.buf.file := hrested.clean.close
  exact (congrArg DiskFile.content hclose).trans hcontent

/-- **The daemon refines the cell.** -/
theorem refines_step (htext : device.maxBrightness = some text)
    (hmax : Numerals.stoi (Numerals.firstWord text) = .ok max) {system : System} {cell : Cell}
    (h : system.Refines device (UInt32.ofInt max) cell) (e : Event)
    (he : e.ShowsInRange (UInt32.ofInt max)) :
    (system.goodStep device e).Refines device (UInt32.ofInt max)
      (cell.step (UInt32.ofInt max) device.cfg.powersaveValue e) := by
  cases system with
  | stopped node stored =>
    cases cell with
    | on current slot => exact h.elim
    | off content =>
      cases e with
      | datagram d => exact h
      | signal => exact h
      | start shown =>
        obtain ⟨z, hz, hle⟩ := he
        have hflags : ∀ f ∈ stored.map (·.withOutcomes .good),
            f.readable = true ∧ f.writable = true ∧ f.truncatable = true := by
          intro f hf
          obtain ⟨f', -, rfl⟩ := Option.mem_map.1 hf
          exact ⟨rfl, rfl, rfl⟩
        obtain ⟨s, hboot, hcarries⟩ := refines_boot htext hmax
          ({ node with text := shown }.withOutcomes .good) (stored.map (·.withOutcomes .good))
          hz hle rfl hflags
        have hcontent : System.content (.stopped ({ node with text := shown }.withOutcomes .good)
            (stored.map (·.withOutcomes .good))) = content := by
          rw [← show System.content (.stopped node stored) = content from h]
          cases stored <;> rfl
        rw [hcontent] at hcarries
        unfold goodStep System.step Cell.step
        simp only [hboot, hz]
        exact hcarries
  | running s =>
    cases cell with
    | off content => exact h.elim
    | on current slot =>
      have hgood : (s.blCtx.withOutcomes .good).Carries device (UInt32.ofInt max)
          (.on current slot) := by
        obtain ⟨hhealthy, hcfg, hcurrent, hcontent⟩ := h
        exact ⟨hhealthy.withOutcomes, hcfg, hcurrent, hcontent⟩
      cases e with
      | start shown => exact h
      | signal => exact refines_shutdown hgood
      | datagram d =>
        have hserve := SocketContext.serve_blCtx s (.datagram d) .good
        unfold goodStep System.step Cell.step Refines
        simp only
        rw [hserve, Request.command]
        cases decode d with
        | none => exact hgood
        | some cmd => exact BacklightContext.carries_perform hgood cmd

/-! ### Histories -/

/-- The event makes the daemon save its brightness. -/
def Saves : System → Event → Prop
  | .running _, .datagram d => Denotes d .saveState
  | .running _, .signal => True
  | _, _ => False

/-- The event makes the daemon restore its brightness. -/
def Restores : System → Event → Prop
  | .running _, .datagram d => Denotes d .restoreState
  | .stopped _ _, .start _ => True
  | _, _ => False

instance : (system : System) → (e : Event) → Decidable (system.Saves e)
  | .running _, .datagram d => inferInstanceAs (Decidable (Denotes d .saveState))
  | .running _, .signal => .isTrue trivial
  | .running _, .start _ => .isFalse id
  | .stopped _ _, .datagram _ => .isFalse id
  | .stopped _ _, .signal => .isFalse id
  | .stopped _ _, .start _ => .isFalse id

instance : (system : System) → (e : Event) → Decidable (system.Restores e)
  | .running _, .datagram d => inferInstanceAs (Decidable (Denotes d .restoreState))
  | .running _, .signal => .isFalse id
  | .running _, .start _ => .isFalse id
  | .stopped _ _, .datagram _ => .isFalse id
  | .stopped _ _, .signal => .isFalse id
  | .stopped _ _, .start _ => .isTrue trivial

/-- The daemon runs at a brightness, cached and shown by the attribute. -/
def IsAt (b : UInt32) : System → Prop
  | .running s => s.blCtx.currentBrightness = b ∧ s.blCtx.node.value = some b
  | .stopped _ _ => False

/-- The event neither saves nor restores. -/
def Quiet (system : System) (e : Event) : Prop := ¬system.Saves e ∧ ¬system.Restores e

theorem Refines.isAt {system : System} {m current : UInt32} {slot : Option UInt32}
    (h : system.Refines device m (.on current slot)) : system.IsAt current ∧ current ≤ m := by
  cases system with
  | stopped node stored => exact h.elim
  | running s =>
    obtain ⟨hhealthy, -, rfl, -⟩ := h
    exact ⟨⟨rfl, hhealthy.agrees⟩, hhealthy.current⟩

theorem IsAt.unique {system : System} {b b' : UInt32} (h : system.IsAt b) (h' : system.IsAt b') :
    b = b' := by
  cases system with
  | stopped node stored => exact h.elim
  | running s => exact h.1.symm.trans h'.1

theorem Refines.content {system : System} {m : UInt32} {cell : Cell}
    (h : system.Refines device m cell) : system.content = cell.content := by
  cases system with
  | stopped node stored =>
    cases cell with
    | off content => exact h
    | on current slot => exact h.elim
  | running s =>
    cases cell with
    | off content => exact h.elim
    | on current slot => exact h.2.2.2

/-- A quiet event leaves the slot alone, and the daemon running or not. -/
theorem Quiet.step_cell (powersave : UInt32) {system : System} {m : UInt32} {cell : Cell}
    {e : Event} (h : system.Refines device m cell) (he : system.Quiet e) :
    (cell.step m powersave e).content = cell.content ∧
      (cell.step m powersave e).isOn = cell.isOn := by
  cases system with
  | stopped node stored =>
    cases cell with
    | on current slot => exact h.elim
    | off content =>
      cases e with
      | start shown => exact absurd trivial he.2
      | datagram d => exact ⟨rfl, rfl⟩
      | signal => exact ⟨rfl, rfl⟩
  | running s =>
    cases cell with
    | off content => exact h.elim
    | on current slot =>
      cases e with
      | start shown => exact ⟨rfl, rfl⟩
      | signal => exact absurd trivial he.1
      | datagram d =>
        rw [Cell.step]
        rcases hd : decode d with _ | cmd
        · exact ⟨rfl, rfl⟩
        · cases cmd with
          | setState v => exact ⟨rfl, rfl⟩
          | modifyState v => exact ⟨rfl, rfl⟩
          | setPowersave => exact ⟨rfl, rfl⟩
          | saveState => exact absurd ((denotes_iff_decode _ _).2 hd) he.1
          | restoreState => exact absurd ((denotes_iff_decode _ _).2 hd) he.2

/-- An event that saves fills the slot. -/
theorem Saves.step_cell (powersave : UInt32) {system : System} {m : UInt32} {cell : Cell}
    {e : Event} (h : system.Refines device m cell) (he : system.Saves e) :
    ∃ current, system.IsAt current ∧ current ≤ m ∧
      (cell.step m powersave e).content = LittleEndian.ofU32 current := by
  cases system with
  | stopped node stored => cases e <;> exact he.elim
  | running s =>
    cases cell with
    | off content => exact h.elim
    | on current slot =>
      obtain ⟨hat, hle⟩ := h.isAt
      refine ⟨current, hat, hle, ?_⟩
      cases e with
      | start shown => exact he.elim
      | signal => rfl
      | datagram d =>
        have hd : Denotes d .saveState := he
        rw [Cell.step, (denotes_iff_decode _ _).1 hd]
        rfl

/-- An event that restores empties the slot, and sets what was there. -/
theorem Restores.step_cell (powersave : UInt32) {system : System} {m : UInt32} {cell : Cell}
    {e : Event} (h : system.Refines device m cell) (he : system.Restores e)
    (hshows : e.ShowsInRange m) :
    ∃ current, (cell.isOn = true → system.IsAt current) ∧
      cell.step m powersave e
        = .on (Cell.restored m current (storedValue cell.content)) none := by
  cases system with
  | stopped node stored =>
    cases cell with
    | on current slot => exact h.elim
    | off content =>
      cases e with
      | datagram d => exact he.elim
      | signal => exact he.elim
      | start shown =>
        obtain ⟨z, hz, -⟩ := hshows
        refine ⟨UInt32.ofInt z, fun hon => by simp [Cell.isOn] at hon, ?_⟩
        simp only [Cell.step, hz]
        rfl
  | running s =>
    cases cell with
    | off content => exact h.elim
    | on current slot =>
      cases e with
      | start shown => exact he.elim
      | signal => exact he.elim
      | datagram d =>
        have hd : Denotes d .restoreState := he
        refine ⟨current, fun _ => h.isAt.1, ?_⟩
        rw [Cell.step, (denotes_iff_decode _ _).1 hd, Cell.storedValue_content]
        rfl

/-- The state after a run refines some cell. -/
theorem exists_refines_run (htext : device.maxBrightness = some text)
    (hmax : Numerals.stoi (Numerals.firstWord text) = .ok max) {system : System} {cell : Cell}
    (h : system.Refines device (UInt32.ofInt max) cell) (es : List Event)
    (hes : ∀ e ∈ es, e.ShowsInRange (UInt32.ofInt max)) :
    ∃ cell', (run (goodStep device) system es).Refines device (UInt32.ofInt max) cell' := by
  induction es generalizing system cell with
  | nil => exact ⟨cell, h⟩
  | cons e es ih =>
    exact ih (refines_step htext hmax h e (hes e List.mem_cons_self))
      fun e' he' => hes e' (List.mem_cons_of_mem e he')

/-- And over quiet events the slot stays. -/
theorem refines_run_quiet (htext : device.maxBrightness = some text)
    (hmax : Numerals.stoi (Numerals.firstWord text) = .ok max) {system : System} {cell : Cell}
    (h : system.Refines device (UInt32.ofInt max) cell) (es : List Event)
    (hes : ∀ e ∈ es, e.ShowsInRange (UInt32.ofInt max))
    (hquiet : Along (goodStep device) Quiet system es) :
    ∃ cell', (run (goodStep device) system es).Refines device (UInt32.ofInt max) cell' ∧
      cell'.content = cell.content ∧ cell'.isOn = cell.isOn := by
  induction es generalizing system cell with
  | nil => exact ⟨cell, h, rfl, rfl⟩
  | cons e es ih =>
    obtain ⟨hcontent, hon⟩ := Quiet.step_cell device.cfg.powersaveValue h hquiet.1
    obtain ⟨cell', hrefines, hcontent', hon'⟩ :=
      ih (refines_step htext hmax h e (hes e List.mem_cons_self))
        (fun e' he' => hes e' (List.mem_cons_of_mem e he')) hquiet.2
    exact ⟨cell', hrefines, hcontent'.trans hcontent, hon'.trans hon⟩

/-- From a save to the next restore. -/
theorem restores_saved (htext : device.maxBrightness = some text)
    (hmax : Numerals.stoi (Numerals.firstWord text) = .ok max) {system : System} {cell : Cell}
    (h : system.Refines device (UInt32.ofInt max) cell) {e f : Event} {between : List Event}
    (hshows : ∀ i ∈ e :: f :: between, i.ShowsInRange (UInt32.ofInt max))
    (hquiet : Along (goodStep device) Quiet (system.goodStep device e) between)
    (hsaves : system.Saves e)
    (hrestores : (run (goodStep device) (system.goodStep device e) between).Restores f) :
    ∃ b, system.IsAt b ∧
      (run (goodStep device) (system.goodStep device e) between).content
        = LittleEndian.ofU32 b ∧
      ((run (goodStep device) (system.goodStep device e) between).goodStep device f).IsAt b ∧
      ((run (goodStep device) (system.goodStep device e) between).goodStep device f).content
        = [] := by
  have he := hshows e List.mem_cons_self
  have hf := hshows f (List.mem_cons_of_mem e List.mem_cons_self)
  have hbetween : ∀ i ∈ between, i.ShowsInRange (UInt32.ofInt max) :=
    fun i hi => hshows i (List.mem_cons_of_mem e (List.mem_cons_of_mem f hi))
  obtain ⟨b, hat, hle, hsaved⟩ :=
    Saves.step_cell device.cfg.powersaveValue h hsaves
  obtain ⟨cell', hrefines, hcontent, -⟩ := refines_run_quiet htext hmax
    (refines_step htext hmax h e he) between hbetween hquiet
  obtain ⟨current, -, hstep⟩ :=
    Restores.step_cell device.cfg.powersaveValue hrefines hrestores hf
  have hlast := refines_step htext hmax hrefines f hf
  have hb : Cell.restored (UInt32.ofInt max) current (storedValue cell'.content) = b := by
    rw [hcontent, hsaved, storedValue_ofU32]
    exact if_pos hle
  rw [hstep, hb] at hlast
  refine ⟨b, hat, ?_, hlast.isAt.1, hlast.content⟩
  rw [hrefines.content, hcontent, hsaved]

/-- From a restore to the next one. -/
theorem restores_restored (htext : device.maxBrightness = some text)
    (hmax : Numerals.stoi (Numerals.firstWord text) = .ok max) {system : System} {cell : Cell}
    (h : system.Refines device (UInt32.ofInt max) cell) {e f : Event} {between : List Event}
    (hshows : ∀ i ∈ e :: f :: between, i.ShowsInRange (UInt32.ofInt max))
    (hquiet : Along (goodStep device) Quiet (system.goodStep device e) between)
    (hfirst : system.Restores e)
    (hsecond : (run (goodStep device) (system.goodStep device e) between).Restores f) :
    ∃ b, (run (goodStep device) (system.goodStep device e) between).IsAt b ∧
      (run (goodStep device) (system.goodStep device e) between).content = [] ∧
      ((run (goodStep device) (system.goodStep device e) between).goodStep device f).IsAt b ∧
      ((run (goodStep device) (system.goodStep device e) between).goodStep device f).content
        = [] := by
  have he := hshows e List.mem_cons_self
  have hf := hshows f (List.mem_cons_of_mem e List.mem_cons_self)
  have hbetween : ∀ i ∈ between, i.ShowsInRange (UInt32.ofInt max) :=
    fun i hi => hshows i (List.mem_cons_of_mem e (List.mem_cons_of_mem f hi))
  obtain ⟨first, -, hstep₁⟩ :=
    Restores.step_cell device.cfg.powersaveValue h hfirst he
  obtain ⟨cell', hrefines, hcontent, hon⟩ := refines_run_quiet htext hmax
    (refines_step htext hmax h e he) between hbetween hquiet
  rw [hstep₁] at hcontent hon
  obtain ⟨current, hat, hstep₂⟩ :=
    Restores.step_cell device.cfg.powersaveValue hrefines hsecond hf
  have hlast := refines_step htext hmax hrefines f hf
  rw [hstep₂, hcontent] at hlast
  refine ⟨current, hat hon, hrefines.content.trans hcontent, hlast.isAt.1, hlast.content⟩

/-- A running daemon saves when it is stopped, and restores when it is started again. -/
theorem restart_of_isAt (htext : device.maxBrightness = some text)
    (hmax : Numerals.stoi (Numerals.firstWord text) = .ok max) {system : System} {cell : Cell}
    (h : system.Refines device (UInt32.ofInt max) cell) {b : UInt32} (hat : system.IsAt b)
    (shown : List Char) :
    system.Saves .signal ∧ (system.goodStep device .signal).Restores (.start shown) := by
  have hstopped := refines_step htext hmax h .signal trivial
  cases system with
  | stopped node stored => exact hat.elim
  | running s =>
    refine ⟨trivial, ?_⟩
    cases cell with
    | off content => exact h.elim
    | on current slot =>
      cases hs : (System.running s).goodStep device .signal with
      | stopped node stored => trivial
      | running s' =>
        rw [hs] at hstopped
        exact hstopped.elim

/-- **The state file is a one-slot cell that restoring empties.**  Take any history, from
any content of the file, and after it an event, then quiet events, then one that
restores.  If the first event saved, at a brightness `b`, the file holds `b` and nothing
else until the restore, which sets exactly `b`; if it restored, the file stays empty and
the second restore changes nothing.  A shutdown and a start keep the brightness. -/
theorem one_slot_cell (htext : device.maxBrightness = some text)
    (hmax : Numerals.stoi (Numerals.firstWord text) = .ok max) (content : Option (List UInt8))
    (before : List Event) (hbefore : ∀ e ∈ before, e.ShowsInRange (UInt32.ofInt max)) :
    let s₀ := run (goodStep device) (initial content) before
    (∀ e between f, (∀ i ∈ e :: f :: between, i.ShowsInRange (UInt32.ofInt max)) →
      let s₁ := s₀.goodStep device e
      let s₂ := run (goodStep device) s₁ between
      let s₃ := s₂.goodStep device f
      Along (goodStep device) Quiet s₁ between → s₂.Restores f →
        (s₀.Saves e →
          ∃ b, s₀.IsAt b ∧ s₂.content = LittleEndian.ofU32 b ∧ s₃.IsAt b ∧ s₃.content = []) ∧
        (s₀.Restores e → ∃ b, s₂.IsAt b ∧ s₂.content = [] ∧ s₃.IsAt b ∧ s₃.content = [])) ∧
    ∀ b shown, s₀.IsAt b → (Event.start shown).ShowsInRange (UInt32.ofInt max) →
      ((s₀.goodStep device .signal).goodStep device (.start shown)).IsAt b := by
  have hinitial : (initial content).Refines device (UInt32.ofInt max) (.off (content.getD [])) := by
    cases content <;> rfl
  obtain ⟨cell, hcell⟩ := exists_refines_run htext hmax hinitial before hbefore
  constructor
  · intro e between f hshows s₁ s₂ s₃ hquiet hf
    exact ⟨fun he => restores_saved htext hmax hcell hshows hquiet he hf,
      fun he => restores_restored htext hmax hcell hshows hquiet he hf⟩
  · intro b shown hat hshown
    obtain ⟨hsaves, hrestores⟩ := restart_of_isAt htext hmax hcell hat shown
    have hshows : ∀ i ∈ [Event.signal, .start shown], i.ShowsInRange (UInt32.ofInt max) := by
      intro i hi
      simp only [List.mem_cons, List.not_mem_nil, or_false] at hi
      rcases hi with rfl | rfl
      · trivial
      · exact hshown
    obtain ⟨b', hat', -, hafter, -⟩ := @restores_saved _ _ _ htext hmax _ _ hcell _ _ [] hshows
      trivial hsaves hrestores
    rw [hat.unique hat']
    exact hafter

/-- A start over a file that holds 200 and a byte more, a save, a change to 60 and a
restore. -/
theorem one_slot_cell_save_set_restore :
    let device : Device := ⟨⟨10⟩, some ['1', '0', '0', '\n']⟩
    let s₀ := run (goodStep device) (initial (some [200, 0, 0, 0, 7])) [.start ['5', '0', '\n']]
    let s₂ := run (goodStep device) s₀ [.datagram [2, 0], .datagram [0, 4, 60, 0, 0, 0]]
    let s₃ := s₂.goodStep device (.datagram [3, 0])
    ∃ b, s₀.IsAt b ∧ s₂.content = LittleEndian.ofU32 b ∧ s₃.IsAt b ∧ s₃.content = [] := by
  have hstart : (Event.start ['5', '0', '\n']).ShowsInRange (UInt32.ofInt 100) :=
    ⟨50, by decide, by decide⟩
  have hcell := @one_slot_cell ⟨⟨10⟩, some ['1', '0', '0', '\n']⟩ _ 100 rfl
    (by decide) (some [200, 0, 0, 0, 7]) [.start ['5', '0', '\n']] fun e he => by
      rw [List.mem_singleton.1 he]
      exact hstart
  refine (hcell.1 (.datagram [2, 0]) [.datagram [0, 4, 60, 0, 0, 0]] (.datagram [3, 0])
    (fun i hi => ?_) ⟨⟨by decide +kernel, by decide +kernel⟩, trivial⟩ (by decide +kernel)).1
    (by decide +kernel)
  simp only [List.mem_cons, List.not_mem_nil, or_false] at hi
  rcases hi with rfl | rfl | rfl <;> trivial

end System

end Brightness
end TjTools
