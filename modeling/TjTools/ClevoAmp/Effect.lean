/-
# Effects of the amplifier

The amplifier of `src/src/clevo_amp_control.c` as a register file on an SMBus whose
transactions may fail, and what `main` programs it with (lines 63-99 and 122-292).

Every operation is the prolog, which writes one register and rewrites two with what they
hold, and then some pakets.  The functions give up at the first transaction that fails and
tell it from the index at which their loop ends.  So an operation is a `Script`
(`paketsWrite_plays`), and what is known about those makes the rest: an effect is programmed
to the end or the run ends with the transaction that failed, and no register of the effect
changes while the output is enabled (`ampEffect_sets`).

The messages to `stderr` are left out.
-/

import TjTools.Basis.Script
import Mathlib.Data.Int.Notation
import Mathlib.Logic.Function.Basic
import Mathlib.Tactic.SplitIfs

namespace TjTools
namespace ClevoAmp

open Script

/-- `struct amplifier_paket` -/
structure AmplifierPaket where
  cmd : UInt8
  val : UInt8
  deriving DecidableEq, Repr

/-- `output_disable_pkt` -/
def outputDisablePkt : AmplifierPaket := ⟨0x00, 0x86⟩

/-- `output_enable_pkt` -/
def outputEnablePkt : AmplifierPaket := ⟨0x00, 0x82⟩

/-- `effects_cmds` -/
def effectsCmds : List UInt8 := [0x04, 0x05, 0x07, 0x08, 0x09]

/-- `enum e_effects` -/
inductive Effect where
  | noChange
  | bassBoost
  | unknown1
  | unknown2
  | boostAll
  | unknown3
  | unknown4
  deriving DecidableEq, Repr

/-- `effects_vals` -/
def effectsVals : Effect → List UInt8
  | .noChange => [0x11, 0x02, 0x22, 0x82, 0x22]
  | .bassBoost => [0xee, 0x03, 0x40, 0x84, 0xff]
  | .unknown1 => [0xaa, 0x23, 0x40, 0x84, 0x00]
  | .unknown2 => [0xaa, 0x22, 0x33, 0x84, 0x00]
  | .boostAll => [0x88, 0x03, 0x23, 0x82, 0x22]
  | .unknown3 => [0xaa, 0x23, 0x41, 0x84, 0x00]
  | .unknown4 => [0xaa, 0x02, 0x43, 0x82, 0x00]

/-- `recovery_pkts` -/
def recoveryPkts : List AmplifierPaket := [⟨0x0b, 0x82⟩, ⟨0x0b, 0x92⟩]

/-! ### The bus -/

abbrev Registers := UInt8 → UInt8

/-- A transaction of one byte. -/
inductive Request where
  | read (cmd : UInt8)
  | write (cmd val : UInt8)
  deriving DecidableEq, Repr

namespace Request

/-- What a transaction that does not fail makes of the registers. -/
def effect : Request → Registers → Registers
  | .read _, regs => regs
  | .write cmd val, regs => Function.update regs cmd val

end Request

/-- The registers, with the transactions and the register files so far. -/
abbrev Bus := Log Request Registers

abbrev BusM := StateM Bus

section

variable (fails : ℕ → Bool)

/-- `ioctl(slv->fd, I2C_SMBUS, &req)` -/
def ioctl (request : Request) : BusM ℤ := do
  let bus ← get
  set (bus.issue Request.effect fails request)
  return if fails bus.issued.length then -1 else 0

/-- `i2c_write` -/
def i2cWrite (cmd val : UInt8) : BusM ℤ := ioctl fails (.write cmd val)

/-- `i2c_read`, with the byte it stores, which nobody looks at if it fails. -/
def i2cRead (cmd : UInt8) : BusM (ℤ × UInt8) := do
  let ret ← ioctl fails (.read cmd)
  let bus ← get
  return (ret, bus.state cmd)

/-! ### The prolog and the pakets -/

/-- The loop of `prolog_write` from index `i` on, and the index at which it ends. -/
def prologLoop : List UInt8 → ℕ → BusM ℕ
  | [], i => return i
  | cmd :: cmds, i => do
    let (ret, val) ← i2cRead fails cmd
    if ret < 0 then return i
    else
      let ret ← i2cWrite fails cmd val
      if ret < 0 then return i
      else prologLoop cmds (i + 1)

/-- `prolog_pkt` -/
def prologPkt : AmplifierPaket := ⟨0x0a, 0x41⟩

/-- `cmds` of `prolog_write` -/
def prologCmds : List UInt8 := [0x04, 0x09]

/-- `prolog_write` -/
def prologWrite : BusM ℤ := do
  let ret ← i2cWrite fails prologPkt.cmd prologPkt.val
  if ret < 0 then return -1
  else
    let i ← prologLoop fails prologCmds 0
    if i ≠ prologCmds.length then return -2
    else return 0

/-- The loop of `pakets_write` from index `i` on, and the index at which it ends. -/
def paketsLoop : List AmplifierPaket → ℕ → BusM ℕ
  | [], i => return i
  | pkt :: pkts, i => do
    let ret ← i2cWrite fails pkt.cmd pkt.val
    if ret < 0 then return i
    else paketsLoop pkts (i + 1)

/-- `pakets_write` -/
def paketsWrite (pkts : List AmplifierPaket) : BusM ℤ := do
  let ret ← prologWrite fails
  if ret < 0 then return -1
  else
    let i ← paketsLoop fails pkts 0
    if i ≠ pkts.length then return -2
    else return 0

/-- `gen_effect` -/
def genEffect (effect : Effect) : List AmplifierPaket :=
  effectsCmds.zipWith (fun cmd val => ⟨cmd, val⟩) (effectsVals effect)

/-- `amp_effect` -/
def ampEffect (effect : Effect) : BusM ℤ :=
  paketsWrite fails (outputDisablePkt :: (genEffect effect ++ [outputEnablePkt]))

/-- `amp_mute` -/
def ampMute (state : Bool) : BusM ℤ :=
  paketsWrite fails [if state then outputDisablePkt else outputEnablePkt]

/-- `amp_init` -/
def ampInit : BusM ℤ := ampEffect fails .bassBoost

/-- `amp_recovery` -/
def ampRecovery : BusM ℤ := paketsWrite fails recoveryPkts

end

/-! ### Calls that play a script -/

variable {fails : ℕ → Bool} {α β : Type}

/-- A call issues the requests of the script up to the first that fails, and its result says
whether none did. -/
structure Plays (fails : ℕ → Bool) (m : BusM α) (bus : Bus) (script : List Request)
    (ok : α → Prop) : Prop where
  state : (m.run bus).2 = (play Request.effect fails script bus).2
  done : ok (m.run bus).1 ↔ (play Request.effect fails script bus).1 = true

/-- **Sequencing.**  The second call is made if the first one was successful, and else
nothing more is issued. -/
theorem Plays.bind {m : BusM α} {f : α → BusM β} {bus : Bus} {first second : List Request}
    {ok : α → Prop} {ok' : β → Prop} (hm : Plays fails m bus first ok)
    (hok : ok (m.run bus).1 → Plays fails (f (m.run bus).1) (m.run bus).2 second ok')
    (hnot : ¬ok (m.run bus).1 → ∃ b, f (m.run bus).1 = pure b ∧ ¬ok' b) :
    Plays fails (m >>= f) bus (first ++ second) ok' := by
  have hrun : (m >>= f).run bus = (f (m.run bus).1).run (m.run bus).2 := rfl
  obtain ⟨hstate, hdone⟩ := hm
  by_cases h : ok (m.run bus).1
  · obtain ⟨hstate', hdone'⟩ := hok h
    have hplay : play Request.effect fails (first ++ second) bus
        = play Request.effect fails second (m.run bus).2 := by
      have hfirst := hdone.1 h
      rw [play_append, hstate]
      rcases hp : play Request.effect fails first bus with ⟨_ | _, bus'⟩
      · rw [hp] at hfirst
        cases hfirst
      · rfl
    constructor
    · rw [hrun, hplay, hstate']
    · rw [hrun, hplay, hdone']
  · obtain ⟨b, hpure, hb⟩ := hnot h
    have hplay : play Request.effect fails (first ++ second) bus = (false, (m.run bus).2) := by
      have hfirst := fun hdone' => h (hdone.2 hdone')
      rw [play_append, hstate]
      rcases hp : play Request.effect fails first bus with ⟨_ | _, bus'⟩
      · rfl
      · rw [hp] at hfirst
        exact absurd rfl hfirst
    rw [hpure] at hrun
    constructor
    · rw [hrun, hplay]
      rfl
    · rw [hrun, hplay]
      exact iff_of_false hb Bool.false_ne_true

/-- A verdict on the result of a call issues nothing. -/
theorem Plays.verdict {m : BusM α} {f : α → BusM β} {bus : Bus} {script : List Request}
    {ok : α → Prop} {ok' : β → Prop} (hm : Plays fails m bus script ok)
    (hf : ∀ a, ∃ b, f a = pure b ∧ (ok' b ↔ ok a)) : Plays fails (m >>= f) bus script ok' := by
  obtain ⟨b, hpure, hb⟩ := hf (m.run bus).1
  have hrun : (m >>= f).run bus = (b, (m.run bus).2) := by
    show (f (m.run bus).1).run (m.run bus).2 = _
    rw [hpure]
    rfl
  constructor
  · rw [hrun]
    exact hm.state
  · rw [hrun, ← hm.done]
    exact hb

/-- A call that was successful leaves what the script makes of the registers. -/
theorem Plays.registers {m : BusM α} {bus : Bus} {script : List Request} {ok : α → Prop}
    (h : Plays fails m bus script ok) (hok : ok (m.run bus).1) :
    (m.run bus).2.state = perform Request.effect script bus.state := by
  rw [h.state]
  exact play_state (h.done.1 hok)

theorem ioctl_plays (request : Request) (bus : Bus) :
    Plays fails (ioctl fails request) bus [request] fun ret => ¬ret < 0 := by
  have hrun : (ioctl fails request).run bus
      = (if fails bus.issued.length then -1 else 0, bus.issue Request.effect fails request) := rfl
  constructor
  · rw [hrun, play]
    split_ifs
    · rfl
    · rfl
  · rw [hrun, play]
    split_ifs
    · simp
    · simp [play]

theorem i2cWrite_plays (cmd val : UInt8) (bus : Bus) :
    Plays fails (i2cWrite fails cmd val) bus [.write cmd val] fun ret => ¬ret < 0 :=
  ioctl_plays (.write cmd val) bus

theorem i2cRead_plays (cmd : UInt8) (bus : Bus) :
    Plays fails (i2cRead fails cmd) bus [.read cmd] fun read => ¬read.1 < 0 := by
  obtain ⟨hstate, hdone⟩ := @ioctl_plays fails (.read cmd) bus
  exact ⟨hstate, hdone⟩

/-- A transaction that reads leaves the registers alone. -/
theorem i2cRead_val (cmd : UInt8) (bus : Bus) :
    ((i2cRead fails cmd).run bus).2.state = bus.state ∧
      ((i2cRead fails cmd).run bus).1.2 = bus.state cmd := by
  have hstate : ((i2cRead fails cmd).run bus).2.state = bus.state := by
    show (bus.issue Request.effect fails (.read cmd)).state = bus.state
    simp [Log.issue, Request.effect]
  refine ⟨hstate, ?_⟩
  show ((i2cRead fails cmd).run bus).2.state cmd = bus.state cmd
  rw [hstate]

/-- Registers that are written with what they hold. -/
def rewrites (cmds : List UInt8) (regs : Registers) : List Request :=
  cmds.flatMap fun cmd => [.read cmd, .write cmd (regs cmd)]

theorem prologLoop_plays (cmds : List UInt8) (i : ℕ) (bus : Bus) :
    Plays fails (prologLoop fails cmds i) bus (rewrites cmds bus.state)
      fun k => k = i + cmds.length := by
  induction cmds generalizing i bus with
  | nil => exact ⟨rfl, iff_of_true rfl rfl⟩
  | cons cmd cmds ih =>
    obtain ⟨hread, hval⟩ := @i2cRead_val fails cmd bus
    show Plays fails _ bus
      ([.read cmd] ++ .write cmd (bus.state cmd) :: rewrites cmds bus.state) _
    refine (i2cRead_plays cmd bus).bind ?_ ?_
    · intro hok
      simp only [if_neg hok]
      have hwrite := @i2cWrite_plays fails cmd (bus.state cmd)
        ((i2cRead fails cmd).run bus).2
      rw [hval]
      refine hwrite.bind ?_ ?_
      · intro hok'
        have hsame := hwrite.registers hok'
        simp only [perform, List.foldl_cons, List.foldl_nil, Request.effect, hread,
          Function.update_eq_self] at hsame
        have hrest := ih (i + 1) ((i2cWrite fails cmd (bus.state cmd)).run
          ((i2cRead fails cmd).run bus).2).2
        rw [hsame] at hrest
        simp only [if_neg hok', List.length_cons]
        rw [show i + (cmds.length + 1) = i + 1 + cmds.length by omega]
        exact hrest
      · intro hnot
        refine ⟨i, if_pos (not_not.1 hnot), ?_⟩
        rw [List.length_cons]
        omega
    · intro hnot
      refine ⟨i, if_pos (not_not.1 hnot), ?_⟩
      rw [List.length_cons]
      omega

/-- What the prolog issues. -/
def prologScript (regs : Registers) : List Request :=
  .write prologPkt.cmd prologPkt.val ::
    rewrites prologCmds (Function.update regs prologPkt.cmd prologPkt.val)

theorem prologWrite_plays (bus : Bus) :
    Plays fails (prologWrite fails) bus (prologScript bus.state) fun ret => ¬ret < 0 := by
  have hwrite := @i2cWrite_plays fails prologPkt.cmd prologPkt.val bus
  refine hwrite.bind ?_ ?_
  · intro hok
    have hloop := @prologLoop_plays fails prologCmds 0
      ((i2cWrite fails prologPkt.cmd prologPkt.val).run bus).2
    rw [hwrite.registers hok] at hloop
    simp only [if_neg hok]
    refine hloop.verdict fun i => ?_
    rw [Nat.zero_add]
    by_cases hend : i = prologCmds.length
    · exact ⟨0, if_neg (not_not.2 hend), iff_of_true (by decide) hend⟩
    · exact ⟨-2, if_pos hend, iff_of_false (by decide) hend⟩
  · intro hnot
    exact ⟨-1, if_pos (not_not.1 hnot), by decide⟩

/-- The transaction that writes a paket. -/
def AmplifierPaket.request (pkt : AmplifierPaket) : Request := .write pkt.cmd pkt.val

theorem paketsLoop_plays (pkts : List AmplifierPaket) (i : ℕ) (bus : Bus) :
    Plays fails (paketsLoop fails pkts i) bus (pkts.map AmplifierPaket.request)
      fun k => k = i + pkts.length := by
  induction pkts generalizing i bus with
  | nil => exact ⟨rfl, iff_of_true rfl rfl⟩
  | cons pkt pkts ih =>
    show Plays fails _ bus ([pkt.request] ++ pkts.map AmplifierPaket.request) _
    refine (i2cWrite_plays pkt.cmd pkt.val bus).bind ?_ ?_
    · intro hok
      simp only [if_neg hok, List.length_cons]
      rw [show i + (pkts.length + 1) = i + 1 + pkts.length by omega]
      exact ih (i + 1) _
    · intro hnot
      refine ⟨i, if_pos (not_not.1 hnot), ?_⟩
      rw [List.length_cons]
      omega

/-- **Every operation is a script**: the prolog and then the pakets. -/
theorem paketsWrite_plays (pkts : List AmplifierPaket) (bus : Bus) :
    Plays fails (paketsWrite fails pkts) bus
      (prologScript bus.state ++ pkts.map AmplifierPaket.request) fun ret => ret = 0 := by
  refine (prologWrite_plays bus).bind ?_ ?_
  · intro hok
    simp only [if_neg hok]
    refine (paketsLoop_plays pkts 0 _).verdict fun i => ?_
    rw [Nat.zero_add]
    by_cases hend : i = pkts.length
    · exact ⟨0, if_neg (not_not.2 hend), iff_of_true rfl hend⟩
    · exact ⟨-2, if_pos hend, iff_of_false (by decide) hend⟩
  · intro hnot
    exact ⟨-1, if_pos (not_not.1 hnot), by decide⟩

theorem paketsWrite_nonpos (pkts : List AmplifierPaket) (bus : Bus) :
    ((paketsWrite fails pkts).run bus).1 ≤ 0 := by
  have hrun : (paketsWrite fails pkts).run bus
      = (if ((prologWrite fails).run bus).1 < 0 then (pure (-1) : BusM ℤ)
        else paketsLoop fails pkts 0 >>= fun i => if i ≠ pkts.length then pure (-2) else pure 0).run
          ((prologWrite fails).run bus).2 := rfl
  rw [hrun]
  by_cases hprolog : ((prologWrite fails).run bus).1 < 0
  · rw [if_pos hprolog]
    show (-1 : ℤ) ≤ 0
    omega
  rw [if_neg hprolog]
  show ((if ((paketsLoop fails pkts 0).run ((prologWrite fails).run bus).2).1 ≠ pkts.length
    then (pure (-2) : BusM ℤ) else pure 0).run _).1 ≤ 0
  split_ifs
  · show (-2 : ℤ) ≤ 0
    omega
  · show (0 : ℤ) ≤ 0
    omega

/-! ### What an operation does -/

/-- The result is 0 if no transaction failed; else the one that failed is the last and the
result is negative. -/
structure GivesUp (ret : ℤ) (bus : Bus) : Prop where
  zero_iff : ret = 0 ↔ ∀ transaction ∈ bus.issued, transaction.2 = false
  stops : ∀ before request after, bus.issued = before ++ (request, true) :: after →
    after = [] ∧ ret < 0

/-- **Every operation gives up at the first failure.** -/
theorem paketsWrite_givesUp (pkts : List AmplifierPaket) (regs : Registers) :
    GivesUp ((paketsWrite fails pkts).run (.fresh regs)).1
      ((paketsWrite fails pkts).run (.fresh regs)).2 := by
  obtain ⟨hstate, hdone⟩ := @paketsWrite_plays fails pkts (.fresh regs)
  have hnonpos := @paketsWrite_nonpos fails pkts (.fresh regs)
  have hends := @play_ends _ _ Request.effect fails _ (Log.clean_fresh regs)
    (prologScript regs ++ pkts.map AmplifierPaket.request)
  rw [show (Log.fresh regs : Bus).state = regs from rfl] at hstate hdone
  rw [← hstate] at hends
  by_cases h : ((paketsWrite fails pkts).run (.fresh regs)).1 = 0
  · rw [if_pos (hdone.1 h)] at hends
    refine ⟨iff_of_true h hends, ?_⟩
    intro before request after hissued
    have hfailed := hends (request, true) (by rw [hissued]; simp)
    exact Bool.noConfusion hfailed
  · rw [if_neg (mt hdone.2 h)] at hends
    refine ⟨iff_of_false h hends.not_clean, ?_⟩
    intro before request after hissued
    exact ⟨hends.eq_nil hissued, by omega⟩

/-- An effect register changes only if the output is not enabled, neither before nor after. -/
def Guarded (regs regs' : Registers) : Prop :=
  regs outputEnablePkt.cmd = outputEnablePkt.val ∨
      regs' outputEnablePkt.cmd = outputEnablePkt.val →
    ∀ cmd ∈ effectsCmds, regs' cmd = regs cmd

/-- **What is expected of programming an effect.** -/
structure Sets (effect : Effect) (regs : Registers) (ret : ℤ) (bus : Bus) : Prop
    extends GivesUp ret bus where
  values : ret = 0 → effectsCmds.map bus.state = effectsVals effect ∧ bus.state 0x0a = 0x41 ∧
    bus.state 0x00 = 0x82 ∧ ∀ cmd, cmd ∉ 0x00 :: 0x0a :: effectsCmds → bus.state cmd = regs cmd
  guarded : bus.Chained Guarded

/-- There are five values for each effect. -/
theorem exists_effectsVals (effect : Effect) :
    ∃ v₀ v₁ v₂ v₃ v₄, effectsVals effect = [v₀, v₁, v₂, v₃, v₄] := by
  cases effect
  all_goals exact ⟨_, _, _, _, _, rfl⟩

/-- What programming an effect issues. -/
def effectScript (effect : Effect) (regs : Registers) : List Request :=
  prologScript regs ++
    (outputDisablePkt :: (genEffect effect ++ [outputEnablePkt])).map AmplifierPaket.request

theorem perform_effectScript (effect : Effect) (regs : Registers) (cmd : UInt8) :
    effectsCmds.map (perform Request.effect (effectScript effect regs) regs) = effectsVals effect ∧
      perform Request.effect (effectScript effect regs) regs 0x0a = 0x41 ∧
        perform Request.effect (effectScript effect regs) regs 0x00 = 0x82 ∧
          (cmd ∉ 0x00 :: 0x0a :: effectsCmds →
            perform Request.effect (effectScript effect regs) regs cmd = regs cmd) := by
  obtain ⟨v₀, v₁, v₂, v₃, v₄, hvals⟩ := exists_effectsVals effect
  simp only [effectScript, prologScript, rewrites, prologCmds, prologPkt, genEffect, hvals,
    effectsCmds, outputDisablePkt, outputEnablePkt, AmplifierPaket.request, perform,
    Request.effect, List.flatMap_cons, List.flatMap_nil, List.cons_append, List.nil_append,
    List.zipWith_cons_cons, List.zipWith_nil_left, List.map_cons, List.map_nil, List.foldl_cons,
    List.foldl_nil]
  refine ⟨?_, ?_, ?_, ?_⟩
  · simp
  · simp
  · simp
  · intro hcmd
    simp only [List.mem_cons, List.not_mem_nil, or_false, not_or] at hcmd
    simp [hcmd]

theorem maintains_effectScript (effect : Effect) (regs : Registers) :
    Maintains Guarded Request.effect (effectScript effect regs) regs := by
  obtain ⟨v₀, v₁, v₂, v₃, v₄, hvals⟩ := exists_effectsVals effect
  simp only [effectScript, prologScript, rewrites, prologCmds, prologPkt, genEffect, hvals,
    effectsCmds, outputDisablePkt, outputEnablePkt, AmplifierPaket.request,
    Request.effect, List.flatMap_cons, List.flatMap_nil, List.cons_append, List.nil_append,
    List.zipWith_cons_cons, List.zipWith_nil_left, List.map_cons, List.map_nil, Maintains]
  simp [Guarded, effectsCmds, outputEnablePkt, Function.update_apply]

/-- **Effects are programmed with the output disabled**, completely, or up to the transaction
that failed. -/
theorem ampEffect_sets (fails : ℕ → Bool) (effect : Effect) (regs : Registers) :
    Sets effect regs ((ampEffect fails effect).run (.fresh regs)).1
      ((ampEffect fails effect).run (.fresh regs)).2 := by
  have hplays : Plays fails (ampEffect fails effect) (.fresh regs) (effectScript effect regs)
      fun ret => ret = 0 := paketsWrite_plays _ (.fresh regs)
  refine ⟨paketsWrite_givesUp _ regs, ?_, ?_⟩
  · intro hzero
    rw [hplays.registers hzero]
    have hperform := perform_effectScript effect regs
    exact ⟨(hperform 0).1, (hperform 0).2.1, (hperform 0).2.2.1, fun cmd => (hperform cmd).2.2.2⟩
  · rw [hplays.state]
    exact play_chained (fun _ _ _ _ => rfl) (Log.chained_fresh Guarded regs)
      (maintains_effectScript effect regs)

end ClevoAmp
end TjTools
