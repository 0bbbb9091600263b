/-
# Commands, and what they do to the panel

The five commands a frame can carry, each performed by one method of
`BacklightContext`, and an abstract model of what they are about: the `Panel`,
which is the cached brightness, the node, and whether the brightness stream still
takes anything.  On the panel every command is at most one attempt to set one
value, its `target`, and a command that throws is one whose attempt the panel
refuses, if it made any (`perform_refines`).
-/

import TjTools.Brightness.Backlight

namespace TjTools
namespace Brightness

open Iostream

/-- A command with its argument. -/
inductive Command where
  | setState (value : UInt32)
  | modifyState (value : Int32)
  | saveState
  | restoreState
  | setPowersave
  deriving DecidableEq, Repr

/-- The method that a command calls. -/
def Command.perform : Command → Backlight Unit
  | .setState value => BacklightContext.setState value
  | .modifyState value => BacklightContext.modifyState value
  | .saveState => BacklightContext.saveState
  | .restoreState => BacklightContext.restoreState
  | .setPowersave => BacklightContext.setPowersave

/-- The value a command passes to `set`, if it gets that far. -/
def Command.target (c : BacklightContext) : Command → Option UInt32
  | .setState value => some value
  | .modifyState value =>
    some (BacklightContext.modified c.currentBrightness c.maxBrightness value)
  | .saveState => none
  | .restoreState =>
    match BacklightContext.takeStored.run c with
    | .ok stored _ => stored
    | .error _ _ => none
  | .setPowersave => some c.cfg.powersaveValue

/-- The daemon's idea of the brightness, the node, and whether the stream between them
works. -/
structure Panel where
  current : UInt32
  max : UInt32
  node : Node
  working : Bool
  deriving DecidableEq, Repr

namespace Panel

/-- An attempt to set a value. -/
def set (p : Panel) (v : UInt32) : Panel :=
  if p.max < v ∨ p.working = false then p
  else if p.node.accepts then { p with current := v, node := p.node.took v }
  else { p with current := v, node := p.node.refused v, working := false }

/-- The attempt does not reach the hardware, or the hardware refuses it. -/
def refuses (p : Panel) (v : UInt32) : Bool :=
  decide (p.max < v) || !p.working || !p.node.accepts

@[simp] theorem set_max (p : Panel) (v : UInt32) : (p.set v).max = p.max := by
  unfold set; split_ifs <;> rfl

theorem set_of_idle {p : Panel} {v : UInt32} (h : p.max < v ∨ p.working = false) : p.set v = p :=
  if_pos h

theorem set_of_accepts {p : Panel} {v : UInt32} (hv : v ≤ p.max) (hw : p.working = true)
    (ha : p.node.accepts = true) : p.set v = { p with current := v, node := p.node.took v } := by
  simp [set, hw, ha, UInt32.not_lt.2 hv]

theorem set_of_refuses {p : Panel} {v : UInt32} (hv : v ≤ p.max) (hw : p.working = true)
    (ha : p.node.accepts = false) :
    p.set v = { p with current := v, node := p.node.refused v, working := false } := by
  simp [set, hw, ha, UInt32.not_lt.2 hv]

end Panel

namespace BacklightContext

def panel (c : BacklightContext) : Panel :=
  ⟨c.currentBrightness, c.maxBrightness, c.node, decide (c.brightnessStream.state = .good)⟩

@[simp] theorem panel_current (c : BacklightContext) : c.panel.current = c.currentBrightness := rfl

@[simp] theorem panel_max (c : BacklightContext) : c.panel.max = c.maxBrightness := rfl

@[simp] theorem panel_node (c : BacklightContext) : c.panel.node = c.node := rfl

@[simp] theorem panel_working (c : BacklightContext) :
    c.panel.working = true ↔ c.brightnessStream.state = .good :=
  decide_eq_true_iff

@[simp] theorem panel_not_working (c : BacklightContext) :
    c.panel.working = false ↔ c.brightnessStream.state ≠ .good :=
  decide_eq_false_iff_not

/-! ### What touches the state file only -/

/-- A method that changes nothing but the storage stream. -/
def StorageOnly {α : Type} (m : Backlight α) : Prop :=
  ∀ c, ∃ s, final (m.run c) = { c with storageStream := s }

theorem StorageOnly.pure {α : Type} (a : α) : StorageOnly (Pure.pure a : Backlight α) :=
  fun c => ⟨c.storageStream, rfl⟩

theorem StorageOnly.throw {α : Type} (e : Exception) :
    StorageOnly (MonadExcept.throw e : Backlight α) :=
  fun c => ⟨c.storageStream, rfl⟩

theorem StorageOnly.get : StorageOnly (MonadState.get : Backlight BacklightContext) :=
  fun c => ⟨c.storageStream, rfl⟩

theorem StorageOnly.onStorage {α : Type} (m : StreamM DiskFile UInt8 α) :
    StorageOnly (onStorage m) := fun c => by
  cases h : m.run c.storageStream with
  | ok a s => exact ⟨s, by rw [onStorage_ok h]; rfl⟩
  | error e s => exact ⟨s, by rw [BacklightContext.onStorage, run_focus_error h]; rfl⟩

theorem StorageOnly.bind {α β : Type} {m : Backlight α} {f : α → Backlight β}
    (hm : StorageOnly m) (hf : ∀ a, StorageOnly (f a)) : StorageOnly (m >>= f) := fun c => by
  obtain ⟨s, hs⟩ := hm c
  cases h : m.run c with
  | ok a c' =>
    rw [h] at hs
    obtain ⟨s', hs'⟩ := hf a c'
    refine ⟨s', ?_⟩
    rw [EStateM.run_bind, h]
    simp only [final] at hs hs' ⊢
    rw [hs', hs]
  | error e c' => exact ⟨s, by rw [EStateM.run_bind, h, ← hs, h]; rfl⟩

theorem storageOnly_truncate (length : ℕ) : StorageOnly (truncate length) := fun c => by
  cases h : (c.storage.ftruncate length).2 <;> exact ⟨_, by simp [truncate, h, final]; rfl⟩

theorem storageOnly_saveState : StorageOnly saveState := by
  refine .bind .get fun _ => .bind (.onStorage _) fun _ => .bind (.onStorage _) fun _ =>
    .bind (.onStorage _) fun good => ?_
  cases good
  · exact .bind (.throw _) fun _ => .onStorage _
  · exact .bind (.pure _) fun _ => .onStorage _

theorem storageOnly_takeStored : StorageOnly takeStored :=
  .bind (.onStorage _) fun _ => .bind (.onStorage _) fun _ => .bind (.onStorage _) fun _ =>
    .bind (storageOnly_truncate 0) fun _ => .pure _

/-! ### The refinement -/

/-- **`set` is `Panel.set`.**  It keeps the stream sound, touches neither the state
file nor the configuration, and throws exactly where the panel refuses. -/
theorem set_refines {c : BacklightContext} (h : c.Sound) (v : UInt32) :
    (final ((set v).run c)).Sound ∧ (final ((set v).run c)).panel = c.panel.set v ∧
      (final ((set v).run c)).cfg = c.cfg ∧
      (final ((set v).run c)).storageStream = c.storageStream ∧
      threw ((set v).run c) = c.panel.refuses v := by
  rcases UInt32.lt_or_le c.maxBrightness v with hv | hv
  · rw [set_tooLarge hv]
    refine ⟨h, ?_, rfl, rfl, ?_⟩
    · rw [Panel.set_of_idle (.inl hv)]; rfl
    · simp [threw, Panel.refuses, panel, hv]
  by_cases hw : c.brightnessStream.state = .good
  · have hidle := h.idle hw
    cases hacc : c.node.accepts
    · rw [set_refused h.mask hv hidle hacc]
      refine ⟨⟨h.mask, .inr ⟨v, hv, rfl, rfl⟩⟩, ?_, rfl, rfl, ?_⟩
      · rw [Panel.set_of_refuses hv (by simp [panel, hw]) hacc]; rfl
      · simp [threw, Panel.refuses, panel, hacc]
    · rw [set_took hv hidle hacc]
      refine ⟨⟨h.mask, .inl ⟨hw, .inr rfl⟩⟩, ?_, rfl, rfl, ?_⟩
      · rw [Panel.set_of_accepts hv (by simp [panel, hw]) hacc]
        simp [final, panel, node, hw]
      · simp [threw, Panel.refuses, panel, hacc, hw, UInt32.not_lt.2 hv]
  · obtain ⟨hbad, u, hu, -, harea⟩ := h.bad hw
    have hstill : c.brightnessStream.state.or .failbit ≠ .good := fun he => by
      simp [Iostate.or, Iostate.failbit, Iostate.good] at he
    rw [set_broken h.mask hv hbad]
    refine ⟨⟨h.mask, .inr ⟨u, hu, by simp [final, Iostate.or, hbad], harea⟩⟩, ?_, rfl, rfl, ?_⟩
    · rw [Panel.set_of_idle (.inr (by simp [panel, hw]))]
      simp [final, panel, node, hstill, hw]
    · simp [threw, Panel.refuses, panel, hw]

end BacklightContext

/-- Every command throws runtime errors only. -/
theorem throwsRuntime_perform (cmd : Command) : BacklightContext.ThrowsRuntime cmd.perform := by
  cases cmd with
  | setState v => exact BacklightContext.throwsRuntime_set v
  | modifyState v => exact .bind .get fun _ => BacklightContext.throwsRuntime_set _
  | saveState => exact BacklightContext.throwsRuntime_saveState
  | restoreState => exact BacklightContext.throwsRuntime_restoreState
  | setPowersave => exact .bind .get fun _ => BacklightContext.throwsRuntime_set _

/-- **A command is at most one attempt to set its target**, and where it throws the
panel refused that attempt. -/
theorem perform_refines {c : BacklightContext} (h : c.Sound) (cmd : Command) :
    (final (cmd.perform.run c)).Sound ∧ (final (cmd.perform.run c)).cfg = c.cfg ∧
      (final (cmd.perform.run c)).panel = (cmd.target c).elim c.panel c.panel.set ∧
      (threw (cmd.perform.run c) = true → ∀ v ∈ cmd.target c, c.panel.refuses v = true) := by
  have hset : ∀ v, (final ((BacklightContext.set v).run c)).Sound ∧
      (final ((BacklightContext.set v).run c)).cfg = c.cfg ∧
      (final ((BacklightContext.set v).run c)).panel = c.panel.set v ∧
      (threw ((BacklightContext.set v).run c) = true → ∀ u ∈ some v, c.panel.refuses u = true) := by
    intro v
    obtain ⟨hsound, hpanel, hcfg, -, hthrew⟩ := BacklightContext.set_refines h v
    exact ⟨hsound, hcfg, hpanel, fun ht u hu => by rw [← Option.mem_some.1 hu, ← hthrew, ht]⟩
  cases cmd with
  | setState v => exact hset v
  | modifyState v =>
    rw [Command.perform, BacklightContext.modifyState_run]
    exact hset _
  | setPowersave =>
    rw [Command.perform, BacklightContext.setPowersave_run]
    exact hset _
  | saveState =>
    obtain ⟨s, hs⟩ := BacklightContext.storageOnly_saveState c
    rw [Command.perform, hs]
    exact ⟨⟨h.mask, h.stream⟩, rfl, rfl, fun _ v hv => by simp [Command.target] at hv⟩
  | restoreState =>
    obtain ⟨s, hs⟩ := BacklightContext.storageOnly_takeStored c
    have hsound : BacklightContext.Sound { c with storageStream := s } := ⟨h.mask, h.stream⟩
    rw [Command.perform, Command.target, BacklightContext.restoreState_run]
    rcases ht : BacklightContext.takeStored.run c with ⟨_ | v, c'⟩ | ⟨e, c'⟩
    all_goals
      rw [ht] at hs
      obtain rfl : c' = { c with storageStream := s } := hs
    · exact ⟨hsound, rfl, rfl, fun hthrew => by simp [threw] at hthrew⟩
    · obtain ⟨hsound', hpanel, hcfg, -⟩ := BacklightContext.set_refines hsound v
      exact ⟨hsound', hcfg, hpanel, fun hthrew => by simp [threw] at hthrew⟩
    · exact ⟨hsound, rfl, rfl, fun _ v hv => by simp at hv⟩

end Brightness
end TjTools
