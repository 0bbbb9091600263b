/-
# Range safety

Everything the daemon hands to the attribute, caches or saves is at most the maximum
that `init` read, whatever the configuration, the state file, the datagrams and the
outcomes of the system calls are.  What carries this is the guard of `set`: the value
of a frame, the clamped sum of `modifyState`, the bytes of the state file and the
powersave value all go through it, and what it lets through is the only thing that is
ever inserted into the brightness stream.  A refused value stays pending there and is
handed over once more when the stream is closed; the state file never gets anything
but the cached brightness.
-/

import TjTools.Basis.Runs
import TjTools.Brightness.Serve
import TjTools.Iostream.Handed

namespace TjTools
namespace Brightness

open Iostream Runs

/-- The decimal text of a value up to `max`. -/
def InRangeText (max : UInt32) (text : List Char) : Prop :=
  ∃ v ≤ max, text = Numerals.toString v.toNat

/-- The four bytes of a value up to `max`. -/
def InRangeBytes (max : UInt32) (bs : List UInt8) : Prop :=
  ∃ v ≤ max, bs = LittleEndian.ofU32 v

/-- Every text handed to the attribute is that of a value in range. -/
def Node.InRange (max : UInt32) (n : Node) : Prop := ∀ text ∈ n.handed, InRangeText max text

/-- Every string handed to the state file is that of a value in range. -/
def DiskFile.InRange (max : UInt32) (f : DiskFile) : Prop :=
  ∀ bs ∈ f.handed, InRangeBytes max bs

theorem Node.InRange.append {max : UInt32} {n : Node} (h : n.InRange max) {text : List Char}
    (htext : InRangeText max text) : ∀ t ∈ n.handed ++ [text], InRangeText max t := by
  intro t ht
  rcases List.mem_append.1 ht with ht | ht
  · exact h t ht
  · rw [List.mem_singleton.1 ht]
    exact htext

theorem admits_node (max : UInt32) :
    Admits (β := Char) (Node.InRange max) (InRangeText max) := by
  intro n offset text hn htext
  have hhanded : (File.write n offset text).1.handed = n.handed ++ [text] := by
    simp only [File.write, Node.store]
    split_ifs <;> rfl
  unfold Node.InRange
  rw [hhanded]
  exact hn.append htext

theorem admits_diskFile (max : UInt32) :
    Admits (β := UInt8) (DiskFile.InRange max) (InRangeBytes max) := by
  intro f offset bs hf hbs
  have hhanded : (File.write f offset bs).1.handed = f.handed ++ [bs] := by
    simp only [File.write]
    split_ifs <;> rfl
  unfold DiskFile.InRange
  rw [hhanded]
  intro bs' hbs'
  rcases List.mem_append.1 hbs' with h | h
  · exact hf bs' h
  · rw [List.mem_singleton.1 h]
    exact hbs

theorem Panel.inRange_set {p : Panel} (hcurrent : p.current ≤ p.max) (hnode : p.node.InRange p.max)
    (v : UInt32) : (p.set v).current ≤ p.max ∧ (p.set v).node.InRange p.max := by
  rcases UInt32.lt_or_le p.max v with hv | hv
  · rw [set_of_idle (.inl hv)]
    exact ⟨hcurrent, hnode⟩
  cases hw : p.working
  · rw [set_of_idle (.inr hw)]
    exact ⟨hcurrent, hnode⟩
  cases ha : p.node.accepts
  · rw [set_of_refuses hv hw ha]
    exact ⟨hv, hnode.append ⟨v, hv, rfl⟩⟩
  · rw [set_of_accepts hv hw ha]
    exact ⟨hv, hnode.append ⟨v, hv, rfl⟩⟩

namespace BacklightContext

/-! ### The state file -/

/-- The storage stream is settled, and its file was handed values in range only. -/
def Stores (max : UInt32) (c : BacklightContext) : Prop :=
  c.storageStream.Settled (DiskFile.InRange max) (InRangeBytes max)

/-- A call on the storage stream, and what it says about that stream. -/
theorem triple_onStorage {α : Type} (max : UInt32) {m : StreamM DiskFile UInt8 α}
    {R : Fstream DiskFile UInt8 → Prop} {S : α → Fstream DiskFile UInt8 → Prop}
    (h : Triple R m S fun _ => Fstream.Settled (DiskFile.InRange max) (InRangeBytes max)) :
    Triple (fun c => R c.storageStream) (onStorage m) (fun a c => S a c.storageStream)
      fun _ => Stores max :=
  h.focus (fun _ hc => hc) (fun _ _ _ _ hs => hs) fun _ _ _ _ hs => hs

theorem saveState_stores (max : UInt32) :
    Triple (fun c => c.currentBrightness ≤ max ∧ Stores max c) saveState (fun _ => Stores max)
      fun _ => Stores max := by
  refine .get_bind fun c hc => ?_
  have hinsert := triple_onStorage max (Fstream.insert_loosens (A := InRangeBytes max)
    (I := DiskFile.InRange max) ⟨c.currentBrightness, hc.1, rfl⟩)
  have hflush := triple_onStorage max (Fstream.flush_settles (admits_diskFile max))
  have hgood := triple_onStorage max (Fstream.keeps_isGood
    (Fstream.Settled (DiskFile.InRange max) (InRangeBytes max)))
  have hseek := triple_onStorage max (Fstream.seekp_settles (admits_diskFile max) 0)
  refine .bind (hinsert.mono ?_ (fun _ _ h => h) fun _ _ h => h) fun _ =>
    .bind hflush fun _ => .bind hgood fun good => ?_
  · rintro _ rfl
    exact hc.2
  · have hrest : Triple (Stores max) (onStorage (Fstream.seekp 0)) (fun _ => Stores max)
        fun _ => Stores max :=
      hseek.mono (fun _ h => h.loose) (fun _ _ h => h) fun _ _ h => h
    exact .ite (fun _ => .bind (Q := fun _ => Stores max) (.throw fun _ h => h) fun _ => hrest)
      fun _ => hrest

theorem truncate_stores (max : UInt32) (length : ℕ) : Keeps (Stores max) (truncate length) := by
  refine .get_bind fun c hc => ?_
  have hfile : (c.storage.ftruncate length).1.InRange max := by
    have hhanded : (c.storage.ftruncate length).1.handed = c.storage.handed := by
      unfold DiskFile.ftruncate
      split_ifs <;> rfl
    unfold DiskFile.InRange
    rw [hhanded]
    exact hc.loose.file
  refine .bind (Q := fun _ => Stores max) (.modify ?_) fun _ =>
    .ite (fun _ => .throw fun _ h => h) fun _ => .pure fun _ h => h
  rintro _ rfl
  exact ⟨⟨hfile, hc.loose.pending⟩, hc.drained⟩

theorem takeStored_stores (max : UInt32) : Keeps (Stores max) takeStored := by
  have hread := triple_onStorage max (Fstream.read_settled (I := DiskFile.InRange max)
    (A := InRangeBytes max) 4)
  have hgood := triple_onStorage max (Fstream.keeps_isGood
    (Fstream.Settled (DiskFile.InRange max) (InRangeBytes max)))
  have hrewind := triple_onStorage max (Triple.bind (Fstream.keeps_loose_clear
    (I := DiskFile.InRange max) (A := InRangeBytes max))
    fun _ => Fstream.seekg_settles (admits_diskFile max) 0)
  exact .bind hread fun _ => .bind hgood fun _ =>
    .bind (hrewind.mono (fun _ h => h.loose) (fun _ _ h => h) fun _ _ h => h) fun _ =>
      .bind (truncate_stores max 0) fun _ => .pure fun _ h => h

/-! ### The invariant -/

/-- What every method keeps. -/
structure InRange (max : UInt32) (c : BacklightContext) : Prop where
  sound : c.Sound
  max_eq : c.maxBrightness = max
  current : c.currentBrightness ≤ max
  node : c.node.InRange max
  storage : c.Stores max

theorem InRange.withOutcomes {max : UInt32} {c : BacklightContext} (h : c.InRange max)
    (o : Outcomes) : (c.withOutcomes o).InRange max :=
  ⟨h.sound.withOutcomes o, h.max_eq, h.current, h.node,
    ⟨⟨h.storage.loose.file, h.storage.loose.pending⟩, h.storage.drained⟩⟩

theorem stores_perform {max : UInt32} {c : BacklightContext} (h : c.InRange max) (cmd : Command) :
    (final (cmd.perform.run c)).Stores max := by
  have hset : ∀ v, (final ((set v).run c)).Stores max := by
    intro v
    obtain ⟨-, -, -, hstorage, -⟩ := set_refines h.sound v
    unfold Stores
    rw [hstorage]
    exact h.storage
  cases cmd with
  | setState v => exact hset v
  | modifyState v =>
    rw [Command.perform, modifyState_run]
    exact hset _
  | setPowersave =>
    rw [Command.perform, setPowersave_run]
    exact hset _
  | saveState =>
    have hsave := saveState_stores max
    rcases hrun : saveState.run c with ⟨a, c'⟩ | ⟨e, c'⟩
    · rw [Command.perform, hrun]
      exact hsave.ok ⟨h.current, h.storage⟩ hrun
    · rw [Command.perform, hrun]
      exact hsave.error ⟨h.current, h.storage⟩ hrun
  | restoreState =>
    obtain ⟨s, hs⟩ := storageOnly_takeStored c
    rw [Command.perform, restoreState_run]
    rcases hrun : takeStored.run c with ⟨_ | v, c'⟩ | ⟨e, c'⟩
    · exact (takeStored_stores max).ok h.storage hrun
    · have hstored := (takeStored_stores max).ok h.storage hrun
      rw [hrun] at hs
      have hsound : c'.Sound := by
        rw [show c' = { c with storageStream := s } from hs]
        exact ⟨h.sound.mask, h.sound.stream⟩
      obtain ⟨-, -, -, hstorage, -⟩ := set_refines hsound v
      have hfinal : (final ((set v).run c')).Stores max := by
        unfold Stores
        rw [hstorage]
        exact hstored
      exact hfinal
    · exact (takeStored_stores max).error h.storage hrun

/-- **Every command keeps the range.** -/
theorem inRange_perform {max : UInt32} {c : BacklightContext} (h : c.InRange max)
    (cmd : Command) : (final (cmd.perform.run c)).InRange max := by
  obtain ⟨hsound, -, hpanel, -⟩ := perform_refines h.sound cmd
  have hset : ∀ v, (c.panel.set v).current ≤ max ∧ (c.panel.set v).node.InRange max := by
    intro v
    have hcurrent : c.panel.current ≤ c.panel.max := by
      rw [panel_current, panel_max, h.max_eq]
      exact h.current
    have hnode : c.panel.node.InRange c.panel.max := by
      rw [panel_node, panel_max, h.max_eq]
      exact h.node
    have hrange := Panel.inRange_set hcurrent hnode v
    rwa [panel_max, h.max_eq] at hrange
  have hparts : (final (cmd.perform.run c)).panel.max = max ∧
      (final (cmd.perform.run c)).panel.current ≤ max ∧
      (final (cmd.perform.run c)).panel.node.InRange max := by
    rw [hpanel]
    rcases cmd.target c with _ | v
    · exact ⟨h.max_eq, h.current, h.node⟩
    · exact ⟨(Panel.set_max _ v).trans h.max_eq, hset v⟩
  exact ⟨hsound, hparts.1, hparts.2.1, hparts.2.2, stores_perform h cmd⟩

/-- Closing the brightness stream hands over what is pending. -/
theorem inRange_close {max : UInt32} {c : BacklightContext} (h : c.InRange max) :
    c.brightnessStream.buf.close.InRange max := by
  have hholds : c.brightnessStream.buf.Holds (Node.InRange max) (InRangeText max) := by
    refine ⟨h.node, fun text htext => ?_⟩
    rcases h.sound.stream with ⟨-, harea | harea⟩ | ⟨v, hv, -, harea⟩
    · rw [harea] at htext
      cases htext
    · rw [harea] at htext
      obtain rfl := Area.put.inj htext
      exact .inl rfl
    · rw [harea] at htext
      obtain rfl := Area.put.inj htext
      exact .inr ⟨v, h.max_eq ▸ hv, rfl⟩
  exact hholds.close (admits_node max)

end BacklightContext

/-! ### Runs of the daemon -/

/-- At a start the attribute shows a number up to the maximum, if it shows a number. -/
def Event.ShowsAtMost (max : UInt32) : Event → Prop
  | .start shown => ∀ z, shownNumber shown = .ok z → UInt32.ofInt z ≤ max
  | _ => True

namespace System

/-- Nothing out of range is cached, was handed to the attribute, or was handed to the
state file. -/
def InRange (max : UInt32) : System → Prop
  | .stopped node stored => node.InRange max ∧ ∀ f ∈ stored, f.InRange max
  | .running s =>
    s.blCtx.maxBrightness = max ∧ s.blCtx.currentBrightness ≤ max ∧ s.blCtx.node.InRange max ∧
      s.blCtx.storage.InRange max

/-- The invariant behind it. -/
def Ranged (max : UInt32) : System → Prop
  | .stopped node stored => node.InRange max ∧ ∀ f ∈ stored, f.InRange max
  | .running s => s.blCtx.InRange max

theorem Ranged.inRange {max : UInt32} {system : System} (h : system.Ranged max) :
    system.InRange max := by
  cases system with
  | stopped node stored => exact h
  | running s => exact ⟨h.max_eq, h.current, h.node, h.storage.loose.file⟩

theorem ranged_aborted {max : UInt32} {c : BacklightContext} (h : c.InRange max) :
    (System.stopped c.node (some c.storage)).Ranged max := by
  refine ⟨h.node, fun f hf => ?_⟩
  obtain rfl := Option.some.inj hf
  exact h.storage.loose.file

theorem ranged_boot {device : Device} {text : List Char} {max : ℤ}
    (htext : device.maxBrightness = some text)
    (hmax : Numerals.stoi (Numerals.firstWord text) = .ok max) {node : Node}
    {stored : Option DiskFile}
    (hshown : ∀ z, shownNumber node.text = .ok z → UInt32.ofInt z ≤ UInt32.ofInt max)
    (h : (System.stopped node stored).Ranged (UInt32.ofInt max)) :
    (boot device node stored).Ranged (UInt32.ofInt max) := by
  obtain ⟨hnode, hstored⟩ := h
  unfold boot
  rcases hinit : init device.cfg (some ⟨device.maxBrightness, some node⟩) stored with e | c
  · exact ⟨hnode, hstored⟩
  · obtain ⟨text', node', max', z, hfound, hmax', hz, rfl⟩ := init_ok_iff.1 hinit
    obtain ⟨hdevice, hnode'⟩ := BacklightNode.mk.inj (Option.some.inj hfound)
    obtain rfl := Option.some.inj hnode'
    obtain rfl := Option.some.inj (htext.symm.trans hdevice)
    obtain rfl := Except.ok.inj (hmax.symm.trans hmax')
    have hfile : (stored.getD .empty).InRange (UInt32.ofInt max) := by
      rcases stored with _ | f
      · intro bs hbs
        cases hbs
      · exact hstored f rfl
    have hstart : ((BacklightContext.fresh device.cfg max node stored).synced z).InRange
        (UInt32.ofInt max) :=
      ⟨BacklightContext.sound_synced z, rfl, hshown z hz, hnode, Fstream.settled_opened hfile _⟩
    have hrestored := BacklightContext.inRange_perform hstart .restoreState
    have hblCtx := SocketContext.blCtx_handle_restore
      (SocketContext.started ((BacklightContext.fresh device.cfg max node stored).synced z))
    rcases hrun : (SocketContext.handle .restore).run (SocketContext.started
        ((BacklightContext.fresh device.cfg max node stored).synced z)) with ⟨a, s⟩ | ⟨e, s⟩
    · rw [hrun] at hblCtx
      have hs : s.blCtx.InRange (UInt32.ofInt max) := by
        rw [show s.blCtx = _ from hblCtx]
        exact hrestored
      simp only [hrun]
      exact hs
    · rw [hrun] at hblCtx
      have hs : s.blCtx.InRange (UInt32.ofInt max) := by
        rw [show s.blCtx = _ from hblCtx]
        exact hrestored
      simp only [hrun]
      exact ranged_aborted hs

theorem ranged_shutdown {max : UInt32} {s : SocketContext} (h : s.blCtx.InRange max) :
    (shutdown s).Ranged max := by
  have hsaved := BacklightContext.inRange_perform h .saveState
  unfold shutdown
  rw [Command.perform] at hsaved
  rcases hrun : BacklightContext.saveState.run s.blCtx with ⟨a, c⟩ | ⟨e, c⟩
  · rw [hrun] at hsaved
    rw [SocketContext.onBacklight_ok hrun]
    refine ⟨BacklightContext.inRange_close hsaved, fun f hf => ?_⟩
    obtain rfl := Option.some.inj hf
    exact hsaved.storage.loose.close (admits_diskFile max)
  · rw [hrun] at hsaved
    rw [SocketContext.onBacklight_error hrun]
    exact ranged_aborted hsaved

theorem ranged_step {device : Device} {text : List Char} {max : ℤ}
    (htext : device.maxBrightness = some text)
    (hmax : Numerals.stoi (Numerals.firstWord text) = .ok max) {system : System}
    (h : system.Ranged (UInt32.ofInt max)) (e : Event × Outcomes)
    (he : e.1.ShowsAtMost (UInt32.ofInt max)) :
    (system.step device e).Ranged (UInt32.ofInt max) := by
  obtain ⟨event, o⟩ := e
  cases system with
  | stopped node stored =>
    cases event with
    | start shown =>
      refine ranged_boot htext hmax he ⟨h.1, ?_⟩
      intro f hf
      obtain ⟨f', hf', rfl⟩ := Option.mem_map.1 hf
      exact h.2 f' hf'
    | datagram d => exact h
    | signal => exact h
  | running s =>
    cases event with
    | start shown => exact h
    | datagram d =>
      have hcommand := SocketContext.serve_blCtx s (.datagram d) o
      have hs : s.blCtx.InRange (UInt32.ofInt max) := h
      have hserved : (s.serve (.datagram d, o)).blCtx.InRange (UInt32.ofInt max) := by
        rw [hcommand]
        rcases (Request.datagram d).command with _ | cmd
        · exact hs.withOutcomes o
        · exact BacklightContext.inRange_perform (hs.withOutcomes o) cmd
      exact hserved
    | signal => exact ranged_shutdown (BacklightContext.InRange.withOutcomes h o)

/-- **Range safety.**  In every state of every run from every content of the state file,
where the attribute never shows more than its maximum at a start, every value that was
ever handed to the attribute, that is cached, or that was ever saved is at most the
maximum. -/
theorem always_inRange {device : Device} {text : List Char} {max : ℤ}
    (htext : device.maxBrightness = some text)
    (hmax : Numerals.stoi (Numerals.firstWord text) = .ok max) (content : Option (List UInt8))
    (events : List (Event × Outcomes))
    (hstarts : ∀ e ∈ events, e.1.ShowsAtMost (UInt32.ofInt max)) :
    Always (step device) (InRange (UInt32.ofInt max)) (initial content) events := by
  have hinitial : (initial content).Ranged (UInt32.ofInt max) := by
    refine ⟨fun t ht => absurd ht List.not_mem_nil, fun f hf => ?_⟩
    obtain ⟨bs, -, rfl⟩ := Option.mem_map.1 hf
    exact fun w hw => absurd hw List.not_mem_nil
  have hranged := always_of_inv (Ranged (UInt32.ofInt max))
    (fun _ e => e.1.ShowsAtMost (UInt32.ofInt max))
    (fun system e h he => ranged_step htext hmax h e he) hinitial
    (along_of_forall hstarts (initial content))
  exact hranged.mono fun system h => h.inRange

/-- A start at 50 of 100 over a state file that holds 200 and a byte more, a change by the
largest number of type `int` that the node refuses, and the end. -/
theorem always_inRange_overflow :
    Always (step ⟨⟨10⟩, some ['1', '0', '0', '\n']⟩) (InRange (UInt32.ofInt 100))
      (initial (some [200, 0, 0, 0, 7]))
      [(.start ['5', '0', '\n'], .good),
        (.datagram [1, 4, 255, 255, 255, 127], { Outcomes.good with node := false }),
        (.signal, .good)] := by
  refine always_inRange rfl (by decide) _ _ fun e he => ?_
  simp only [List.mem_cons, List.not_mem_nil, or_false] at he
  rcases he with rfl | rfl | rfl
  · intro z hz
    have hfifty : shownNumber ['5', '0', '\n'] = .ok 50 := by decide
    obtain rfl := Except.ok.inj (hz.symm.trans hfifty)
    decide
  · trivial
  · trivial

end System

end Brightness
end TjTools
