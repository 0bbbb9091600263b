/-
# The cached brightness and the hardware

`set` of `src/src/brightness_daemon.cpp` (lines 238-246) caches the value before the
flush that hands it to the node, and nothing ever clears the flags of the brightness
stream after `init`.  Both show when the node refuses a write:

* the cached brightness is then the refused value, so it agrees with the hardware in
  every state exactly if no value but the cached one is ever refused
  (`always_agrees_iff`);
* the stream is broken for good, so a later `SetState` is obeyed exactly if no write
  was refused before (`obeys_run_iff`).
-/

import TjTools.Basis.Runs
import TjTools.Brightness.Serve

namespace TjTools
namespace Brightness

open Runs SocketContext

namespace Panel

/-- What the node shows is what is cached. -/
def Agrees (p : Panel) : Prop := p.node.value = some p.current

/-- **An attempt keeps the agreement exactly if** it does not reach the node, or the
node accepts it, or it changes nothing. -/
theorem agrees_set_iff {p : Panel} (h : p.Agrees) (v : UInt32) :
    (p.set v).Agrees ↔
      (v ≤ p.max → p.working = true → p.node.accepts = true ∨ v = p.current) := by
  unfold Agrees at h ⊢
  rcases UInt32.lt_or_le p.max v with hv | hv
  · rw [set_of_idle (.inl hv)]
    exact ⟨fun _ hle => absurd hv (UInt32.not_lt.2 hle), fun _ => h⟩
  cases hw : p.working
  · rw [set_of_idle (.inr hw)]
    exact ⟨fun _ _ hfalse => by simp at hfalse, fun _ => h⟩
  cases ha : p.node.accepts
  · rw [set_of_refuses hv hw ha]
    simp only [Node.value_refused]
    constructor
    · intro heq _ _
      exact .inr (Option.some.inj (heq.symm.trans h))
    · intro hok
      obtain rfl := (hok hv trivial).resolve_left (by simp)
      exact h
  · rw [set_of_accepts hv hw ha]
    simp

/-- The stream keeps working exactly if it did and the node refuses nothing. -/
theorem working_set_iff (p : Panel) (v : UInt32) :
    (p.set v).working = true ↔ p.working = true ∧ (v ≤ p.max → p.node.accepts = true) := by
  rcases UInt32.lt_or_le p.max v with hv | hv
  · rw [set_of_idle (.inl hv)]
    exact ⟨fun h => ⟨h, fun hle => absurd hv (UInt32.not_lt.2 hle)⟩, fun h => h.1⟩
  cases hw : p.working
  · rw [set_of_idle (.inr hw), hw]
    simp
  cases ha : p.node.accepts
  · rw [set_of_refuses hv hw ha]
    simp [hv]
  · rw [set_of_accepts hv hw ha]
    simp [hw]

/-- A refused attempt that keeps the agreement leaves the cached value alone. -/
theorem current_set_of_refuses {p : Panel} {v : UInt32} (h : p.refuses v = true)
    (hok : v ≤ p.max → p.working = true → p.node.accepts = true ∨ v = p.current) :
    (p.set v).current = p.current := by
  rcases UInt32.lt_or_le p.max v with hv | hv
  · rw [set_of_idle (.inl hv)]
  cases hw : p.working
  · rw [set_of_idle (.inr hw)]
  cases ha : p.node.accepts
  · rw [set_of_refuses hv hw ha]
    exact (hok hv hw).resolve_left (by simp [ha])
  · simp [refuses, hw, ha, UInt32.not_lt.2 hv] at h

end Panel

namespace SocketContext

/-- The cached brightness is the last value that the hardware accepted. -/
def Agrees (s : SocketContext) : Prop := s.blCtx.node.value = some s.blCtx.currentBrightness

/-- A value in range that reaches the node while the stream works is accepted, or is the
cached one. -/
def Harmless (s : SocketContext) (r : Request × Outcomes) : Prop :=
  ∀ v ∈ r.1.target (s.blCtx.withOutcomes r.2), v ≤ s.blCtx.maxBrightness →
    s.blCtx.brightnessStream.state = .good → r.2.node = true ∨ v = s.blCtx.currentBrightness

/-- A request that fails leaves the cached brightness as it was. -/
def KeepsOnFailure (s : SocketContext) (r : Request × Outcomes) : Prop :=
  r.1.fails (s.blCtx.withOutcomes r.2) →
    (s.serve r).blCtx.currentBrightness = s.blCtx.currentBrightness

theorem agrees_serve_iff {s : SocketContext} (h : s.blCtx.Sound) (hs : s.Agrees)
    (r : Request × Outcomes) : (s.serve r).Agrees ↔ s.Harmless r := by
  obtain ⟨-, -, hpanel, -⟩ := serve_refines h r.1 r.2
  have hagrees : (s.serve r).Agrees ↔ (s.serve r).blCtx.panel.Agrees := Iff.rfl
  rw [hagrees, show s.serve r = s.serve (r.1, r.2) from rfl, hpanel]
  unfold Harmless
  rcases r.1.target (s.blCtx.withOutcomes r.2) with _ | v
  · exact ⟨fun _ v hv => by simp at hv, fun _ => hs⟩
  · have hset := Panel.agrees_set_iff (p := (s.blCtx.withOutcomes r.2).panel) hs v
    rw [Option.elim_some, hset]
    simp

theorem keepsOnFailure_of_harmless {s : SocketContext} (h : s.blCtx.Sound)
    (r : Request × Outcomes) (hr : s.Harmless r) : s.KeepsOnFailure r := by
  intro hfails
  obtain ⟨-, -, hpanel, hrefuses⟩ := serve_refines h r.1 r.2
  have hcurrent : (s.serve r).blCtx.currentBrightness = (s.serve (r.1, r.2)).blCtx.panel.current :=
    rfl
  rw [hcurrent, hpanel]
  have hrefused := hrefuses hfails
  unfold Harmless at hr
  rcases htarget : r.1.target (s.blCtx.withOutcomes r.2) with _ | v
  · rfl
  · rw [htarget] at hr hrefused
    refine Panel.current_set_of_refuses (hrefused v rfl) fun hv hw => ?_
    exact hr v rfl hv (by simpa using hw)

/-- What `init` returns, with the socket armed. -/
theorem started_of_init {cfg : Config} {found : Option BacklightNode} {stored : Option DiskFile}
    {c : BacklightContext} (hinit : init cfg found stored = .ok c) :
    (started c).blCtx.Sound ∧ (started c).Agrees ∧
      (started c).blCtx.brightnessStream.state = .good := by
  obtain ⟨text, node, max, z, -, -, hz, rfl⟩ := init_ok_iff.1 hinit
  exact ⟨BacklightContext.sound_synced z, Node.value_of_shown hz, rfl⟩

/-- **The cached value agrees with the hardware in every state of a run, and every
failing request leaves it alone, exactly if** no request has the node refuse a value
that is not cached already. -/
theorem always_agrees_iff {cfg : Config} {found : Option BacklightNode}
    {stored : Option DiskFile} {c : BacklightContext} (hinit : init cfg found stored = .ok c)
    (rs : List (Request × Outcomes)) :
    Always serve Agrees (started c) rs ∧ Along serve KeepsOnFailure (started c) rs ↔
      Along serve Harmless (started c) rs := by
  obtain ⟨hsound, hagrees, -⟩ := started_of_init hinit
  have halways : Always serve Agrees (started c) rs ↔ Along serve Harmless (started c) rs := by
    refine always_iff_along (fun s => s.blCtx.Sound ∧ s.Agrees) ?_ ?_ ?_
      ⟨hsound, hagrees⟩ rs
    · rintro s r ⟨h, hs⟩ hr
      exact ⟨(serve_refines h r.1 r.2).1, (agrees_serve_iff h hs r).2 hr⟩
    · rintro s ⟨-, hs⟩
      exact hs
    · rintro s r ⟨h, hs⟩ hagrees'
      exact (agrees_serve_iff h hs r).1 hagrees'
  rw [halways]
  refine ⟨fun h => h.1, fun h => ⟨h, ?_⟩⟩
  refine h.mono_of_inv (fun s => s.blCtx.Sound) ?_ ?_ hsound
  · intro s r hs
    exact (serve_refines hs r.1 r.2).1
  · intro s r hs hr
    exact keepsOnFailure_of_harmless hs r hr

/-- A panel with a maximum of 100 that shows 50 at the start. -/
def sampleContext : BacklightContext :=
  (BacklightContext.fresh ⟨10⟩ 100 ⟨['5', '0', '\n'], true, []⟩ none).synced 50

theorem init_sampleContext :
    init ⟨10⟩ (some ⟨some ['1', '0', '0', '\n'], some ⟨['5', '0', '\n'], true, []⟩⟩) none
      = .ok sampleContext :=
  init_ok_iff.2 ⟨_, _, 100, 50, rfl, by decide, by decide, rfl⟩

/-- Setting 60, with the write accepted, and then the powersave value 10. -/
theorem always_agrees_sampleContext :
    Always serve Agrees (started sampleContext)
        [(.datagram [0, 4, 60, 0, 0, 0], .good), (.datagram [4, 0], .good)] ∧
      Along serve KeepsOnFailure (started sampleContext)
        [(.datagram [0, 4, 60, 0, 0, 0], .good), (.datagram [4, 0], .good)] :=
  (always_agrees_iff init_sampleContext _).2
    ⟨fun _ _ _ _ => .inl rfl, fun _ _ _ _ => .inl rfl, trivial⟩

/-- Setting 60 while the node refuses it caches 60, and the node still shows 50. -/
theorem not_always_agrees :
    ¬∀ (cfg : Config) (found : Option BacklightNode) (stored : Option DiskFile)
      (c : BacklightContext), init cfg found stored = .ok c →
      ∀ rs, Always serve Agrees (started c) rs := by
  intro h
  have hlast := (h _ _ _ _ init_sampleContext
    [(.datagram [0, 4, 60, 0, 0, 0], { Outcomes.good with node := false })]).last
  unfold Agrees at hlast
  revert hlast
  decide +kernel

/-! ### After a refused write -/

/-- No value in range was refused by the node. -/
def Unrefused (s : SocketContext) (r : Request × Outcomes) : Prop :=
  ∀ v ∈ r.1.target (s.blCtx.withOutcomes r.2), v ≤ s.blCtx.maxBrightness → r.2.node = true

/-- Every `SetState` in range whose own write the node would accept is obeyed: its value is
handed to the node, and is then shown by the node and cached. -/
def Obeys (s : SocketContext) : Prop :=
  ∀ v o, v ≤ s.blCtx.maxBrightness → o.node = true →
    let s' := s.serve (.datagram (Command.setState v).encode, o)
    s'.blCtx.node.handed = s.blCtx.node.handed ++ [Numerals.toString v.toNat] ∧
      s'.blCtx.node.value = some v ∧ s'.blCtx.currentBrightness = v

/-- The brightness stream works. -/
def Working (s : SocketContext) : Prop := s.blCtx.brightnessStream.state = .good

theorem working_serve_iff {s : SocketContext} (h : s.blCtx.Sound) (r : Request × Outcomes) :
    (s.serve r).Working ↔ s.Working ∧ s.Unrefused r := by
  obtain ⟨-, -, hpanel, -⟩ := serve_refines h r.1 r.2
  have hworking : (s.serve r).Working ↔ (s.serve r).blCtx.panel.working = true := by
    simp [Working]
  rw [hworking, show s.serve r = s.serve (r.1, r.2) from rfl, hpanel]
  unfold Working Unrefused
  rcases r.1.target (s.blCtx.withOutcomes r.2) with _ | v
  · simp
  · rw [Option.elim_some, Panel.working_set_iff]
    simp

/-- A `SetState` is obeyed exactly while the stream works. -/
theorem obeys_iff_working {s : SocketContext} (h : s.blCtx.Sound) : s.Obeys ↔ s.Working := by
  have hpanel : ∀ v o, (s.serve (.datagram (Command.setState v).encode, o)).blCtx.panel
      = (s.blCtx.withOutcomes o).panel.set v := by
    intro v o
    have hdecode := (denotes_iff_decode _ _).1 (denotes_encode (.setState v))
    obtain ⟨-, -, hpanel, -⟩ := serve_refines h (.datagram (Command.setState v).encode) o
    rw [hpanel, Request.target, Request.command, hdecode]
    rfl
  constructor
  · intro hobeys
    by_contra hbroken
    -- a broken stream does not even hand the value zero over
    have hzero := (hobeys 0 .good (UInt32.zero_le) rfl).1
    have hset := hpanel 0 .good
    rw [Panel.set_of_idle (.inr (by simpa [Working] using hbroken))] at hset
    have hnode := congrArg (fun p : Panel => p.node.handed) hset
    have hlength := congrArg List.length (hzero.symm.trans hnode)
    simp at hlength
  · intro hworking v o hv ho
    have hset := hpanel v o
    rw [Panel.set_of_accepts hv (by simpa [Working] using hworking) ho] at hset
    have hnode := congrArg Panel.node hset
    have hcurrent := congrArg Panel.current hset
    simp only [BacklightContext.panel_node, BacklightContext.panel_current] at hnode hcurrent
    refine ⟨?_, ?_, hcurrent⟩
    · rw [hnode]
      rfl
    · rw [hnode, Node.value_took]

/-- **After a run every `SetState` in range whose own write would be accepted is obeyed
exactly if** the node refused no write during the run. -/
theorem obeys_run_iff {cfg : Config} {found : Option BacklightNode}
    {stored : Option DiskFile} {c : BacklightContext} (hinit : init cfg found stored = .ok c)
    (rs : List (Request × Outcomes)) :
    (run serve (started c) rs).Obeys ↔ Along serve Unrefused (started c) rs := by
  obtain ⟨hsound, -, hworking⟩ := started_of_init hinit
  have hstep : ∀ s r, s.blCtx.Sound → (serve s r).blCtx.Sound :=
    fun s r h => (serve_refines h r.1 r.2).1
  have hrun := run_iff_along (P := Working) hstep (fun s r h => working_serve_iff h r) hsound rs
  rw [obeys_iff_working (inv_run hstep hsound rs), hrun]
  exact ⟨fun h => h.2, fun h => ⟨hworking, h⟩⟩

/-- After 60 was set, 70 can be. -/
theorem obeys_run_sampleContext :
    (run serve (started sampleContext) [(.datagram [0, 4, 60, 0, 0, 0], .good)]).Obeys :=
  (obeys_run_iff init_sampleContext _).2 ⟨fun _ _ _ => rfl, trivial⟩

/-- After the node refused 60, setting 70 is refused although the node would accept it. -/
theorem not_obeys_run :
    ¬∀ (cfg : Config) (found : Option BacklightNode) (stored : Option DiskFile)
      (c : BacklightContext), init cfg found stored = .ok c →
      ∀ rs, (run serve (started c) rs).Obeys := by
  intro h
  have hobeys := h _ _ _ _ init_sampleContext
    [(.datagram [0, 4, 60, 0, 0, 0], { Outcomes.good with node := false })]
  have hcurrent := (hobeys 70 .good (by decide +kernel) rfl).2.2
  revert hcurrent
  decide +kernel

end SocketContext

end Brightness
end TjTools
