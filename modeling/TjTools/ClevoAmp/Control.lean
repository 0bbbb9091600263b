/-
# The program around the amplifier

`main`, `unfmt_modes` and `parse_effect` of `src/src/clevo_amp_control.c` (lines 102-119 and
404-494), and what any history of invocations makes of the registers, each invocation
given up wherever a transaction fails.

An effect that is given up in the middle leaves the output disabled and registers that hold the
values of no effect.  The output is enabled over such registers, whether an effect left them or
they were so at first, by an `unmute` and by nothing else (`always_heard_iff`).  Whatever fails, a
register is written with values that the tables have for it only, and the eight registers of the
tables are the only ones (`registers_known`).

`%u` is `strtoul` cut off to `unsigned`, as the C library has it, so that indices count
modulo 2^32.  An index of the adapter that was never assigned counts as no amplifier.  The
messages are left out.
-/

import TjTools.Basis.Runs
import TjTools.ClevoAmp.Adapter
import TjTools.ClevoAmp.Effect

namespace TjTools
namespace ClevoAmp

open Script
open Numerals (strtol)

/-- `enum e_modes` -/
inductive Mode where
  | invalid
  | init
  | effect
  | mute
  | unmute
  | recovery
  deriving DecidableEq, Repr

/-- `unfmt_modes` -/
def unfmtModes (m : List Char) : Mode :=
  if m = "init".toList then .init
  else if m = "effect".toList then .effect
  else if m = "init".toList then .init
  else if m = "mute".toList then .mute
  else if m = "unmute".toList then .unmute
  else if m = "recovery".toList then .recovery
  else .invalid

/-- `%u` of a number that `strtol` read: clipped to `unsigned long`, then cut off to
`unsigned`. -/
def toUnsigned (z : ℤ) : ℕ := if z.natAbs < 2 ^ 64 then (z % 2 ^ 32).toNat else 2 ^ 32 - 1

/-- The enumerators below `num_effects`. -/
def Effect.ofIndex : ℕ → Option Effect
  | 0 => some .noChange
  | 1 => some .bassBoost
  | 2 => some .unknown1
  | 3 => some .unknown2
  | 4 => some .boostAll
  | 5 => some .unknown3
  | 6 => some .unknown4
  | _ => none

/-- `parse_effect`, given what follows the mode. -/
def parseEffect : List (List Char) → Option Effect
  | [] => none
  | arg :: _ => (strtol arg).bind fun z => Effect.ofIndex (toUnsigned z)

/-- `clevo_amp != NULL` -/
def Outcome.amplifier : Outcome → Bool
  | .tried _ _ .opened => true
  | _ => false

/-- `main`, given what follows the program's name and how `open_amplifier` ends. -/
def main (fails : ℕ → Bool) (args : List (List Char)) (outcome : Outcome) : BusM ℤ :=
  match args with
  | [] => return 0
  | arg :: rest =>
    if !outcome.amplifier then return -1
    else do
      let mode := unfmtModes arg
      if mode = .invalid then return -2
      else
        let ret ←
          match mode with
          | .init => ampInit fails
          | .effect =>
            match parseEffect rest with
            | none => pure (-1)
            | some ef => ampEffect fails ef
          | .mute => ampMute fails true
          | .unmute => ampMute fails false
          | _ => ampRecovery fails
        return if ret < 0 then -2 else ret

/-! ### Operations -/

/-- The pakets of an operation. -/
def pakets : Mode → List (List Char) → Option (List AmplifierPaket)
  | .invalid, _ => none
  | .init, _ => some (outputDisablePkt :: (genEffect .bassBoost ++ [outputEnablePkt]))
  | .effect, rest => (parseEffect rest).map fun ef =>
      outputDisablePkt :: (genEffect ef ++ [outputEnablePkt])
  | .mute, _ => some [outputDisablePkt]
  | .unmute, _ => some [outputEnablePkt]
  | .recovery, _ => some recoveryPkts

/-- The pakets that an invocation writes, if it comes to that. -/
def requested (args : List (List Char)) (outcome : Outcome) : Option (List AmplifierPaket) :=
  match args with
  | [] => none
  | arg :: rest => if outcome.amplifier then pakets (unfmtModes arg) rest else none

variable {fails : ℕ → Bool}

/-- An invocation that comes to an operation writes its pakets. -/
theorem main_of_requested {args : List (List Char)} {outcome : Outcome}
    {pkts : List AmplifierPaket} (h : requested args outcome = some pkts) :
    main fails args outcome = do
      let ret ← paketsWrite fails pkts
      return if ret < 0 then -2 else ret := by
  cases args with
  | nil => cases h
  | cons arg rest =>
    simp only [requested] at h
    split_ifs at h with hamplifier
    simp only [main, hamplifier, Bool.not_true, Bool.false_eq_true, if_false]
    cases hmode : unfmtModes arg with
    | invalid =>
      rw [hmode] at h
      cases h
    | effect =>
      rw [hmode] at h
      obtain ⟨ef, hef, rfl⟩ := Option.map_eq_some_iff.1 h
      simp only [hef]
      rfl
    | _ =>
      rw [hmode] at h
      cases h
      rfl

/-- A mode without an operation. -/
theorem pakets_eq_none_iff {mode : Mode} {rest : List (List Char)} :
    pakets mode rest = none ↔ mode = .invalid ∨ mode = .effect ∧ parseEffect rest = none := by
  cases mode with
  | effect => simp [pakets]
  | _ => simp [pakets]

/-- An invocation that comes to no operation issues nothing. -/
theorem main_of_not_requested {args : List (List Char)} {outcome : Outcome}
    (h : requested args outcome = none) (bus : Bus) :
    ((main fails args outcome).run bus).2 = bus ∧
      (((main fails args outcome).run bus).1 = 0 ↔ args = []) := by
  cases args with
  | nil => exact ⟨rfl, iff_of_true rfl rfl⟩
  | cons arg rest =>
    have hone : (-1 : ℤ) ≠ 0 := by decide
    have htwo : (-2 : ℤ) ≠ 0 := by decide
    simp only [requested] at h
    simp only [main]
    cases hamplifier : outcome.amplifier with
    | false => exact ⟨rfl, iff_of_false hone (List.cons_ne_nil _ _)⟩
    | true =>
      rw [if_pos hamplifier, pakets_eq_none_iff] at h
      rcases h with hmode | ⟨hmode, hef⟩
      · rw [hmode]
        exact ⟨rfl, iff_of_false htwo (List.cons_ne_nil _ _)⟩
      · simp only [hmode, hef]
        exact ⟨rfl, iff_of_false htwo (List.cons_ne_nil _ _)⟩

/-- What an invocation does to the bus is the script of its pakets. -/
theorem main_bus {args : List (List Char)} {outcome : Outcome} {pkts : List AmplifierPaket}
    (h : requested args outcome = some pkts) (regs : Registers) :
    ((main fails args outcome).run (.fresh regs)).2
      = (play Request.effect fails (prologScript regs ++ pkts.map AmplifierPaket.request)
          (.fresh regs)).2 := by
  rw [main_of_requested h]
  exact (paketsWrite_plays pkts (.fresh regs)).state

/-- **The exit status tells.**  It is 0 for a call without arguments, and else exactly if the
invocation comes to an operation and no transaction of it fails; and where it is not 0,
nothing was issued or the last transaction is the one that failed. -/
theorem main_exit (fails : ℕ → Bool) (args : List (List Char)) (outcome : Outcome)
    (regs : Registers) :
    let r := (main fails args outcome).run (.fresh regs)
    (r.1 = 0 ↔ args = [] ∨ (requested args outcome).isSome = true ∧
      ∀ transaction ∈ r.2.issued, transaction.2 = false) ∧
      (r.1 ≠ 0 → r.2.issued = [] ∨ r.2.Stopped) := by
  cases h : requested args outcome with
  | none =>
    obtain ⟨hbus, hzero⟩ := @main_of_not_requested fails args outcome h (.fresh regs)
    refine ⟨?_, fun _ => .inl ?_⟩
    · rw [hzero]
      simp
    · rw [hbus]
      rfl
  | some pkts =>
    have hnil : args ≠ [] := by
      rintro rfl
      cases h
    have hends := @play_ends _ _ Request.effect fails _ (Log.clean_fresh regs)
      (prologScript regs ++ pkts.map AmplifierPaket.request)
    have hdone := (@paketsWrite_plays fails pkts (.fresh regs)).done
    have hnonpos := @paketsWrite_nonpos fails pkts (.fresh regs)
    have hret : ((main fails args outcome).run (.fresh regs)).1 = 0 ↔
        ((paketsWrite fails pkts).run (.fresh regs)).1 = 0 := by
      rw [main_of_requested h]
      show (if ((paketsWrite fails pkts).run (.fresh regs)).1 < 0 then (-2 : ℤ)
        else ((paketsWrite fails pkts).run (.fresh regs)).1) = 0 ↔ _
      split_ifs with hneg
      · exact iff_of_false (by decide) (by omega)
      · rfl
    simp only [main_bus h, ne_eq, hret, hdone]
    by_cases hplay : (play Request.effect fails
        (prologScript regs ++ pkts.map AmplifierPaket.request) (.fresh regs)).1 = true
    · rw [if_pos hplay] at hends
      refine ⟨iff_of_true hplay (.inr ⟨rfl, hends⟩), fun hne => absurd hplay hne⟩
    · rw [if_neg hplay] at hends
      refine ⟨iff_of_false hplay ?_, fun _ => .inr hends⟩
      rintro (hargs | ⟨-, hclean⟩)
      · exact hnil hargs
      · exact hends.not_clean hclean

/-! ### Histories -/

/-- One run of the program. -/
structure Invocation where
  args : List (List Char)
  outcome : Outcome
  /-- The transactions that fail. -/
  fails : ℕ → Bool

/-- The registers after an invocation, with the transactions of that invocation. -/
def step (bus : Bus) (inv : Invocation) : Bus :=
  ((main inv.fails inv.args inv.outcome).run (.fresh bus.state)).2

/-- The registers of the effect hold the values of one. -/
def Whole (regs : Registers) : Prop := ∃ ef, effectsCmds.map regs = effectsVals ef

/-- While the output is enabled, the registers of the effect are whole. -/
def Heard (regs : Registers) : Prop := regs outputEnablePkt.cmd = outputEnablePkt.val → Whole regs

/-- No `unmute` gets to its paket, the sixth transaction, while the registers of the effect hold
the values of none. -/
def Sane (bus : Bus) (inv : Invocation) : Prop :=
  inv.args.head? = some "unmute".toList → inv.outcome.amplifier = true →
    (∀ k < 6, inv.fails k = false) → Whole bus.state

/-- The prolog, of a property that does not depend on the register it writes. -/
theorem throughout_prolog {P : Registers → Prop} {regs : Registers} (hregs : P regs)
    (hprolog : P (Function.update regs prologPkt.cmd prologPkt.val)) :
    Throughout P Request.effect (prologScript regs) regs := by
  simpa [prologScript, rewrites, prologCmds, Throughout, Request.effect] using ⟨hregs, hprolog⟩

theorem perform_prolog (regs : Registers) :
    perform Request.effect (prologScript regs) regs
      = Function.update regs prologPkt.cmd prologPkt.val := by
  simp [prologScript, rewrites, prologCmds, perform, Request.effect]

/-- A register that is not one of the effect does not matter to it. -/
theorem whole_update {regs : Registers} {cmd : UInt8} (h : cmd ∉ effectsCmds) (val : UInt8) :
    Whole (Function.update regs cmd val) ↔ Whole regs := by
  have hsame : effectsCmds.map (Function.update regs cmd val) = effectsCmds.map regs := by
    refine List.map_congr_left fun c hc => ?_
    have hne : c ≠ cmd := fun heq => h (heq ▸ hc)
    exact Function.update_of_ne hne _ _
  rw [Whole, Whole, hsame]

theorem heard_update {regs : Registers} {cmd : UInt8}
    (h : cmd ∉ outputEnablePkt.cmd :: effectsCmds) (val : UInt8) :
    Heard (Function.update regs cmd val) ↔ Heard regs := by
  rw [List.mem_cons, not_or] at h
  rw [Heard, Heard, whole_update h.2, Function.update_of_ne (Ne.symm h.1)]

/-- While the output is disabled, nothing is heard. -/
theorem heard_of_disabled {regs : Registers}
    (h : regs outputDisablePkt.cmd = outputDisablePkt.val) : Heard regs := by
  intro henabled
  rw [show outputEnablePkt.cmd = outputDisablePkt.cmd from rfl, h] at henabled
  cases henabled

/-- Programming an effect is heard only when it is done. -/
theorem heard_effect (ef : Effect) {regs : Registers} (h : Heard regs) :
    Throughout Heard Request.effect
      ((outputDisablePkt :: (genEffect ef ++ [outputEnablePkt])).map AmplifierPaket.request)
      regs := by
  obtain ⟨v₀, v₁, v₂, v₃, v₄, hvals⟩ := exists_effectsVals ef
  simp only [genEffect, hvals, effectsCmds, outputDisablePkt, outputEnablePkt,
    AmplifierPaket.request, List.zipWith_cons_cons, List.zipWith_nil_left, List.map_cons,
    List.map_nil, List.cons_append, List.nil_append, Throughout, Request.effect]
  refine ⟨h, ?_, ?_, ?_, ?_, ?_, ?_, fun _ => ⟨ef, ?_⟩⟩
  case refine_7 => simp [hvals, effectsCmds]
  -- in between the output is disabled
  all_goals
    refine heard_of_disabled ?_
    simp [outputDisablePkt]

theorem unfmtModes_eq_unmute_iff (m : List Char) : unfmtModes m = .unmute ↔ m = "unmute".toList := by
  unfold unfmtModes
  constructor
  · intro h
    split_ifs at h
    assumption
  · rintro rfl
    decide

/-- The pakets of an operation, from registers of which the effect is heard. -/
theorem heard_pakets {args : List (List Char)} {outcome : Outcome} {pkts : List AmplifierPaket}
    (h : requested args outcome = some pkts) {regs : Registers} (hregs : Heard regs)
    (hunmute : args.head? = some "unmute".toList → Whole regs) :
    Throughout Heard Request.effect (pkts.map AmplifierPaket.request) regs := by
  cases args with
  | nil => cases h
  | cons arg rest =>
    simp only [requested] at h
    split_ifs at h
    cases hmode : unfmtModes arg with
    | invalid =>
      rw [hmode] at h
      cases h
    | init =>
      rw [hmode] at h
      cases h
      exact heard_effect .bassBoost hregs
    | effect =>
      rw [hmode] at h
      obtain ⟨ef, -, rfl⟩ := Option.map_eq_some_iff.1 h
      exact heard_effect ef hregs
    | mute =>
      rw [hmode] at h
      cases h
      refine ⟨hregs, heard_of_disabled ?_⟩
      exact Function.update_self outputDisablePkt.cmd outputDisablePkt.val regs
    | unmute =>
      rw [hmode] at h
      cases h
      have hwhole := hunmute (by rw [(unfmtModes_eq_unmute_iff arg).1 hmode, List.head?_cons])
      exact ⟨hregs, fun _ => (whole_update (by decide) _).2 hwhole⟩
    | recovery =>
      rw [hmode] at h
      cases h
      have hcmd : (0x0b : UInt8) ∉ outputEnablePkt.cmd :: effectsCmds := by decide
      have hfirst := (heard_update hcmd 0x82).2 hregs
      exact ⟨hregs, hfirst, (heard_update hcmd 0x92).2 hfirst⟩

/-- An `unmute` that comes to an operation writes one paket. -/
theorem unmute_of_requested {args : List (List Char)} {outcome : Outcome}
    {pkts : List AmplifierPaket} (h : requested args outcome = some pkts)
    (hhead : args.head? = some "unmute".toList) :
    pkts = [outputEnablePkt] ∧ outcome.amplifier = true := by
  obtain ⟨rest, rfl⟩ := List.head?_eq_some_iff.1 hhead
  simp only [requested] at h
  split_ifs at h with hamplifier
  rw [(unfmtModes_eq_unmute_iff _).2 rfl] at h
  cases h
  exact ⟨rfl, hamplifier⟩

/-- What a bus has gone through is heard. -/
def Audible (bus : Bus) : Prop := ∀ regs ∈ bus.trail, Heard regs

theorem audible_step {bus : Bus} (h : Heard bus.state) {inv : Invocation} (hsane : Sane bus inv) :
    Audible (step bus inv) := by
  cases hrequested : requested inv.args inv.outcome with
  | none =>
    rw [step, (main_of_not_requested hrequested _).1]
    intro regs hregs
    rw [List.mem_singleton.1 hregs]
    exact h
  | some pkts =>
    rw [step, main_bus hrequested]
    have hfresh : ∀ regs ∈ (Log.fresh bus.state : Bus).trail, Heard regs := by
      intro regs hregs
      rw [List.mem_singleton.1 hregs]
      exact h
    have hprolog : Heard (Function.update bus.state prologPkt.cmd prologPkt.val) :=
      (heard_update (by decide) _).2 h
    by_cases hwhole : inv.args.head? = some "unmute".toList → Whole bus.state
    · refine play_throughout hfresh (throughout_append.2 ⟨throughout_prolog h hprolog, ?_⟩)
      rw [show (Log.fresh bus.state : Bus).state = bus.state from rfl, perform_prolog]
      exact heard_pakets hrequested hprolog fun hhead => (whole_update (by decide) _).2 (hwhole hhead)
    · -- an `unmute` over values of no effect, which does not get to its paket
      rw [Classical.not_imp] at hwhole
      obtain ⟨hhead, hnotWhole⟩ := hwhole
      obtain ⟨rfl, hamplifier⟩ := unmute_of_requested hrequested hhead
      have hfailed : (play Request.effect inv.fails
          (prologScript bus.state ++ [outputEnablePkt.request]) (.fresh bus.state)).1 = false := by
        rw [Bool.eq_false_iff, ne_eq, play_eq_true_iff]
        intro hnone
        refine hnotWhole (hsane hhead hamplifier fun k hk => ?_)
        have hk' := hnone k hk
        rwa [show (Log.fresh bus.state : Bus).issued.length = 0 from rfl, Nat.zero_add] at hk'
      exact play_throughout_failed hfresh (throughout_prolog h hprolog) hfailed

theorem state_mem_step {bus : Bus} (inv : Invocation) :
    (step bus inv).state ∈ (step bus inv).trail := by
  have hfresh : (Log.fresh bus.state : Bus).state ∈ (Log.fresh bus.state : Bus).trail :=
    List.mem_singleton_self _
  cases hrequested : requested inv.args inv.outcome with
  | none =>
    rw [step, (main_of_not_requested hrequested _).1]
    exact hfresh
  | some pkts =>
    rw [step, main_bus hrequested]
    exact state_mem_trail hfresh

/-- An `unmute` that gets to its paket is heard, and so should be the effect. -/
theorem sane_of_audible {bus : Bus} {inv : Invocation} (h : Audible (step bus inv)) :
    Sane bus inv := by
  intro hhead hamplifier hnone
  obtain ⟨rest, hargs⟩ := List.head?_eq_some_iff.1 hhead
  have hrequested : requested inv.args inv.outcome = some [outputEnablePkt] := by
    rw [hargs, requested, if_pos hamplifier, (unfmtModes_eq_unmute_iff _).2 rfl]
    rfl
  have hdone : (play Request.effect inv.fails (prologScript bus.state ++
      [outputEnablePkt].map AmplifierPaket.request) (.fresh bus.state)).1 = true := by
    rw [play_eq_true_iff]
    intro k hk
    rw [show (Log.fresh bus.state : Bus).issued.length = 0 from rfl, Nat.zero_add]
    exact hnone k hk
  have hstate : (step bus inv).state = Function.update
      (Function.update bus.state prologPkt.cmd prologPkt.val) outputEnablePkt.cmd
        outputEnablePkt.val := by
    rw [step, main_bus hrequested, play_state hdone, perform, List.foldl_append]
    exact congrArg (fun regs => Function.update regs _ _) (perform_prolog bus.state)
  have hheard := h _ (state_mem_step inv)
  rw [hstate] at hheard
  have hwhole := hheard (Function.update_self _ _ _)
  rwa [whole_update (by decide), whole_update (by decide)] at hwhole

/-- **What is heard is one effect, in exactly the sane histories.**  From registers of which
that holds, through every transaction of every invocation, whatever fails: the output is
enabled only while the registers hold the values of one effect, if and only if no `unmute`
gets to its paket while they hold those of none. -/
theorem always_heard_iff {regs : Registers} (h : Heard regs) (invs : List Invocation) :
    Runs.Always step Audible (.fresh regs) invs ↔ Runs.Along step Sane (.fresh regs) invs := by
  refine Runs.always_iff_along (fun bus => Audible bus ∧ bus.state ∈ bus.trail) ?_
    (fun _ hbus => hbus.1) (fun _ _ _ hafter => sane_of_audible hafter) ?_ invs
  · intro bus inv hbus hsane
    exact ⟨audible_step (hbus.1 _ hbus.2) hsane, state_mem_step inv⟩
  · refine ⟨fun regs' hmem => ?_, List.mem_singleton_self _⟩
    rw [List.mem_singleton.1 hmem]
    exact h

/-- The adapter was found, opened and addressed. -/
def sampleOutcome : Outcome := .tried 0 none .opened

/-- An effect that is given up in the middle, a mute, and another effect. -/
def sampleInvocations : List Invocation :=
  [⟨["effect".toList, "2".toList], sampleOutcome, fun k => k = 8⟩,
    ⟨["mute".toList], sampleOutcome, fun _ => false⟩,
    ⟨["init".toList], sampleOutcome, fun _ => false⟩,
    ⟨["unmute".toList], sampleOutcome, fun _ => false⟩]

theorem always_heard_sampleInvocations :
    Runs.Always step Audible (.fresh fun _ => 0) sampleInvocations := by
  have hmuted : Heard fun _ => 0 := by
    intro henabled
    cases henabled
  refine (always_heard_iff hmuted _).2 ?_
  refine ⟨?_, ?_, ?_, ?_, trivial⟩
  · intro hhead
    cases hhead
  · intro hhead
    cases hhead
  · intro hhead
    cases hhead
  · intro _ _ _
    exact ⟨.bassBoost, by decide +kernel⟩

/-! ### Registers and their values -/

/-- Everything that can be written, but for registers written with what they hold. -/
def tables : List AmplifierPaket :=
  prologPkt :: outputDisablePkt :: outputEnablePkt :: recoveryPkts ++
    [.noChange, .bassBoost, .unknown1, .unknown2, .boostAll, .unknown3, .unknown4].flatMap genEffect

/-- Every register holds what it held at first, or a value that the tables have for it. -/
def Known (first regs : Registers) : Prop :=
  ∀ cmd, regs cmd = first cmd ∨ ⟨cmd, regs cmd⟩ ∈ tables

theorem known_update {first regs : Registers} (h : Known first regs) {pkt : AmplifierPaket}
    (hpkt : pkt ∈ tables) : Known first (Function.update regs pkt.cmd pkt.val) := by
  intro cmd
  by_cases hcmd : cmd = pkt.cmd
  · rw [hcmd, Function.update_self]
    exact .inr hpkt
  · rw [Function.update_of_ne hcmd]
    exact h cmd

theorem mem_tables_of_effect (ef : Effect) :
    ∀ pkt ∈ outputDisablePkt :: (genEffect ef ++ [outputEnablePkt]), pkt ∈ tables := by
  cases ef
  all_goals decide

theorem mem_tables {args : List (List Char)} {outcome : Outcome} {pkts : List AmplifierPaket}
    (h : requested args outcome = some pkts) : ∀ pkt ∈ pkts, pkt ∈ tables := by
  cases args with
  | nil => cases h
  | cons arg rest =>
    simp only [requested] at h
    split_ifs at h
    cases hmode : unfmtModes arg with
    | invalid =>
      rw [hmode] at h
      cases h
    | effect =>
      rw [hmode] at h
      obtain ⟨ef, -, rfl⟩ := Option.map_eq_some_iff.1 h
      exact mem_tables_of_effect ef
    | init =>
      rw [hmode] at h
      cases h
      exact mem_tables_of_effect .bassBoost
    | _ =>
      rw [hmode] at h
      cases h
      decide

theorem known_step {first : Registers} {bus : Bus} (h : Known first bus.state)
    (inv : Invocation) : ∀ regs ∈ (step bus inv).trail, Known first regs := by
  have hfresh : ∀ regs ∈ (Log.fresh bus.state : Bus).trail, Known first regs := by
    intro regs hregs
    rw [List.mem_singleton.1 hregs]
    exact h
  cases hrequested : requested inv.args inv.outcome with
  | none =>
    rw [step, (main_of_not_requested hrequested _).1]
    exact hfresh
  | some pkts =>
    rw [step, main_bus hrequested]
    have hprolog : Known first (Function.update bus.state prologPkt.cmd prologPkt.val) :=
      known_update h (by decide)
    refine play_throughout hfresh (throughout_append.2 ⟨throughout_prolog h hprolog, ?_⟩)
    rw [show (Log.fresh bus.state : Bus).state = bus.state from rfl, perform_prolog]
    refine throughout_of_forall ?_ hprolog
    intro request hrequest regs hregs
    obtain ⟨pkt, hpkt, rfl⟩ := List.mem_map.1 hrequest
    exact known_update hregs (mem_tables hrequested pkt hpkt)

/-- **Registers hold what the tables have for them.**  Through every transaction of every
history, whatever fails, each register holds what it held at first or a value of the tables
for that register, and one that the tables do not name never changes. -/
theorem registers_known (first : Registers) (invs : List Invocation) :
    Runs.Always step (fun bus => ∀ regs ∈ bus.trail, Known first regs) (.fresh first) invs := by
  have hfirst : ∀ regs ∈ (Log.fresh first : Bus).trail, Known first regs := by
    intro regs hregs cmd
    rw [List.mem_singleton.1 hregs]
    exact .inl rfl
  have hboth : Runs.Always step
      (fun bus => (∀ regs ∈ bus.trail, Known first regs) ∧ bus.state ∈ bus.trail)
      (.fresh first) invs :=
    Runs.always_of_inv _ (fun _ _ => True)
      (fun _ inv h _ => ⟨known_step (h.1 _ h.2) inv, state_mem_step inv⟩)
      ⟨hfirst, List.mem_singleton_self _⟩ (Runs.along_of_forall (fun _ _ => trivial) _)
  exact hboth.mono fun _ h => h.1

/-- The registers that the tables name. -/
example : (tables.map AmplifierPaket.cmd).dedup
    = [0x0a, 0x00, 0x0b, 0x04, 0x05, 0x07, 0x08, 0x09] := by decide

end ClevoAmp
end TjTools
