/-
# One limit at a time

The processes of `Processes`, with a `ryzenadj` that sets its limits one at a time: in any
order, each in a step of its own, between which everything else can happen.  It can succeed
when it has set them all, and fail at any time.

Where no signal kills a process that waits for its `ryzenadj`, and none of these fails with its
work half done, the lock makes up for it: the run is one of those in which they set their limits
at once (`AsAtOnce`), and no two profiles are mixed (`always_unmixed`).
-/

import Mathlib.Data.List.Nodup
import Mathlib.Data.List.Perm.Basic
import TjTools.Basis.Simulation
import TjTools.Powerlimit.Recovery

namespace TjTools
namespace Powerlimit

open Runs

/-! ### The order in which limits are set -/

theorem Limits.set_append (limits : Limits) (xs ys : List (Limit × ℕ)) :
    limits.set (xs ++ ys) = (limits.set xs).set ys := by
  simp [Limits.set]

theorem LimitProfile.nodup_settings (p : LimitProfile) : (p.settings.map Prod.fst).Nodup := by
  rcases p with ⟨stapmLimit, fastLimit, slowLimit, _ | tctlTemp⟩
  all_goals simp [LimitProfile.settings]

/-- Different limits can be set in any order. -/
theorem Limits.set_perm (limits : Limits) {xs ys : List (Limit × ℕ)} (h : xs.Perm ys)
    (hdistinct : (ys.map Prod.fst).Nodup) : limits.set xs = limits.set ys := by
  have hnodup : (xs.map Prod.fst).Nodup := (h.map Prod.fst).nodup_iff.2 hdistinct
  refine h.foldl_eq' (fun x hx y hy before => ?_) limits
  by_cases hkeys : x.1 = y.1
  · rw [List.inj_on_of_nodup_map hnodup hx hy hkeys]
  · exact Function.update_comm hkeys _ _ _

theorem Limits.set_apply (limits : Limits) (setting : Limit × ℕ) (limit : Limit) :
    limits.set [setting] limit = if limit = setting.1 then setting.2 else limits limit := by
  simp [Limits.set, Function.update_apply]

/-- A profile that `main` can apply sets this limit so. -/
def LimitConfig.Sets (cfg : LimitConfig) (setting : Limit × ℕ) : Prop :=
  ∃ p, cfg.Allows p ∧ setting ∈ p.settings

namespace State

variable {ι : Type} [DecidableEq ι]

def withLimits (s : State ι) (limits : Limits) : State ι := { s with limits := limits }

/-- The profile that a `ryzenadj` of the process is setting. -/
def runningOf (s : State ι) (w : ι) : Option LimitProfile := (s.procs w).bind Process.running

theorem runningOf_put (s : State ι) (who : ι) (proc : Option Process) (w : ι) :
    (s.put who proc).runningOf w =
      if w = who then proc.bind Process.running else s.runningOf w := by
  by_cases hw : w = who
  all_goals simp [runningOf, put, hw]

omit [DecidableEq ι] in
theorem runningOf_eq {s : State ι} {w : ι} {p : Process} (hp : s.procs w = some p) :
    s.runningOf w = p.running := by
  simp [runningOf, hp]

omit [DecidableEq ι] in
theorem inside_of_runningOf {s : State ι} {w : ι} {profile : LimitProfile}
    (h : s.runningOf w = some profile) : s.Inside w := by
  obtain ⟨p, hp, hrunning⟩ := Option.bind_eq_some_iff.1 h
  exact ⟨p, hp, locked_of_running (by rw [hrunning]; rfl)⟩

/-- The step ends the `ryzenadj` of a process, with success or without. -/
def Ends (s after : State ι) (act : Action ι) : Prop :=
  ∃ who success profile, act = .next who success ∧ s.runningOf who = some profile ∧
    after.limits = (if success then s.limits.set profile.settings else s.limits) ∧
    ∀ w, after.runningOf w = if w = who then none else s.runningOf w

/-- It ends none, and one that it starts is that of a process inside. -/
def Goes (s after : State ι) : Prop :=
  after.limits = s.limits ∧
    ∀ w, after.runningOf w = s.runningOf w ∨ s.runningOf w = none ∧ s.Inside w

theorem goes_put {s : State ι} {who : ι} {p : Process} {proc : Option Process}
    (hp : s.procs who = some p) (hrunning : p.running = none)
    (hproc : proc.bind Process.running = none ∨ p.point.Locked) : s.Goes (s.put who proc) := by
  refine ⟨rfl, fun w => ?_⟩
  rw [runningOf_put]
  split_ifs with hw
  · subst hw
    rw [runningOf_eq hp, hrunning]
    rcases hproc with hproc | hlocked
    · exact .inl hproc
    · exact .inr ⟨rfl, p, hp, hlocked⟩
  · exact .inl rfl

theorem ends_put {s t : State ι} {who : ι} {success : Bool} {profile : LimitProfile}
    {proc : Option Process} (hrunning : s.runningOf who = some profile)
    (hproc : proc.bind Process.running = none) (hprocs : t.procs = s.procs)
    (hlimits : t.limits = (if success then s.limits.set profile.settings else s.limits)) :
    s.Ends (t.put who proc) (.next who success) := by
  refine ⟨who, success, profile, rfl, hrunning, hlimits, fun w => ?_⟩
  rw [runningOf_put, hproc]
  simp only [runningOf, hprocs]

/-- What a step does to the limits and to who runs `ryzenadj`, where there are no orphans and none
comes up. -/
theorem step_cases (file : ConfigFile) {s : State ι} (hnone : s.orphans = []) (act : Action ι)
    (hkill : ∀ who sig p, act = .signal who sig → s.procs who = some p →
      p.handles sig = false → p.running = none) :
    (s.step file act).orphans = [] ∧
      (s.Ends (s.step file act) act ∨ s.Goes (s.step file act)) := by
  have hstay : s.Goes s := ⟨rfl, fun _ => .inl rfl⟩
  cases act with
  | start who args =>
    simp only [step]
    rcases hp : s.procs who with _ | p
    · rcases prologue file args with e | job
      · exact ⟨hnone, .inr hstay⟩
      · refine ⟨hnone, .inr ⟨rfl, fun w => .inl ?_⟩⟩
        rw [runningOf_put]
        split_ifs with hw
        · subst hw
          simp [runningOf, hp, Process.running]
        · rfl
    · exact ⟨hnone, .inr hstay⟩
  | next who success =>
    simp only [step]
    rcases hp : s.procs who with _ | ⟨job, point⟩
    · exact ⟨hnone, .inr hstay⟩
    · unfold advance
      cases point with
      | tryLock =>
        simp only
        split_ifs
        · exact ⟨hnone, .inr (goes_put hp rfl (.inl rfl))⟩
        · exact ⟨hnone, .inr (goes_put hp rfl (.inl rfl))⟩
      | apply => exact ⟨hnone, .inr (goes_put hp rfl (.inr trivial))⟩
      | applying =>
        cases success with
        | true =>
          refine ⟨hnone, .inl (ends_put (runningOf_eq hp) ?_ rfl rfl)⟩
          cases hinit : job.isInit
          all_goals simp [Process.goto, Process.running]
        | false => exact ⟨hnone, .inl (ends_put (runningOf_eq hp) rfl rfl rfl)⟩
      | signalInt => exact ⟨hnone, .inr (goes_put hp rfl (.inl rfl))⟩
      | signalTerm => exact ⟨hnone, .inr (goes_put hp rfl (.inl rfl))⟩
      | pause => exact ⟨hnone, .inr (goes_put hp rfl (.inl rfl))⟩
      | paused => exact ⟨hnone, .inr hstay⟩
      | restore => exact ⟨hnone, .inr (goes_put hp rfl (.inr trivial))⟩
      | restoring =>
        cases success with
        | true => exact ⟨hnone, .inl (ends_put (runningOf_eq hp) rfl rfl rfl)⟩
        | false => exact ⟨hnone, .inl (ends_put (runningOf_eq hp) rfl rfl rfl)⟩
      | unlock => exact ⟨hnone, .inr (goes_put hp rfl (.inl rfl))⟩
      | exit => exact ⟨hnone, .inr (goes_put hp rfl (.inl rfl))⟩
  | signal who sig =>
    simp only [step]
    rcases hp : s.procs who with _ | p
    · exact ⟨hnone, .inr hstay⟩
    · simp only [deliver]
      split_ifs with hhandles hpaused
      · refine ⟨hnone, .inr (goes_put hp ?_ (.inl rfl))⟩
        simp [Process.running, hpaused]
      · exact ⟨hnone, .inr hstay⟩
      · have hrunning := hkill who sig p rfl hp (by simpa using hhandles)
        refine ⟨?_, .inr (goes_put hp hrunning (.inl rfl))⟩
        simp [kill, hnone, hrunning]
  | orphan k success =>
    have hstep : s.step file (.orphan k success) = s := by simp [step, hnone]
    rw [hstep]
    exact ⟨hnone, .inr hstay⟩

/-- No process looks at the limits. -/
theorem step_withLimits (file : ConfigFile) (s : State ι) (limits after : Limits)
    (act : Action ι) :
    ((s.withLimits limits).step file act).withLimits after
      = (s.step file act).withLimits after := by
  cases act with
  | start who args =>
    simp only [step, withLimits]
    rcases s.procs who with _ | p
    · rcases prologue file args with e | job
      all_goals rfl
    · rfl
  | next who success =>
    simp only [step, withLimits]
    rcases s.procs who with _ | ⟨job, point⟩
    · rfl
    · cases point with
      | tryLock =>
        simp only [advance]
        split_ifs
        all_goals rfl
      | applying =>
        cases success
        all_goals rfl
      | restoring =>
        cases success
        all_goals rfl
      | _ => rfl
  | signal who sig =>
    simp only [step, withLimits]
    rcases s.procs who with _ | p
    · rfl
    · simp only [deliver]
      split_ifs
      all_goals rfl
  | orphan k success =>
    simp only [step, withLimits]
    rcases s.orphans[k]? with _ | profile
    · rfl
    · cases success
      all_goals rfl

end State

namespace Gradual

open State (withLimits runningOf sampleConfig sampleFile read_sampleFile)

structure State (ι : Type) where
  /-- All but how far the `ryzenadj` are. -/
  whole : Powerlimit.State ι
  /-- What the `ryzenadj` of a process has still to set. -/
  left : ι → List (Limit × ℕ)
  /-- What those without parent have. -/
  orphansLeft : List (List (Limit × ℕ))

inductive Action (ι : Type) where
  /-- A step other than that a limit is set. -/
  | main (act : Powerlimit.Action ι)
  /-- The `ryzenadj` of a process sets one of the limits that are left. -/
  | set (who : ι) (k : ℕ)
  /-- One without parent does. -/
  | orphanSet (orphan k : ℕ)

namespace State

variable {ι : Type} [DecidableEq ι]

/-- A `ryzenadj` that has limits left does not succeed. -/
def Early (s : State ι) : Powerlimit.Action ι → Prop
  | .next who true => (s.whole.runningOf who).isSome = true ∧ s.left who ≠ []
  | .orphan k true => s.orphansLeft.getD k [] ≠ []
  | _ => False

instance (s : State ι) (act : Powerlimit.Action ι) : Decidable (s.Early act) :=
  match act with
  | .next who true => inferInstanceAs (Decidable ((s.whole.runningOf who).isSome = true ∧ _))
  | .orphan k true => inferInstanceAs (Decidable (s.orphansLeft.getD k [] ≠ []))
  | .next _ false | .orphan _ false | .start _ _ | .signal _ _ => .isFalse fun h => h

/-- A `ryzenadj` that has just been started has everything left. -/
def leftIn (s : State ι) (after : Powerlimit.State ι) (w : ι) : List (Limit × ℕ) :=
  match after.runningOf w with
  | none => []
  | some profile => if (s.whole.runningOf w).isSome then s.left w else profile.settings

/-- One that loses its parent goes on with what it has left, and one that ends is gone. -/
def orphansLeftAfter (s : State ι) : Powerlimit.Action ι → List (List (Limit × ℕ))
  | .signal who sig =>
    match s.whole.procs who with
    | some p =>
      if p.handles sig then s.orphansLeft
      else s.orphansLeft ++ (p.running.map fun _ => s.left who).toList
    | none => s.orphansLeft
  | .orphan k _ => s.orphansLeft.eraseIdx k
  | .start _ _ | .next _ _ => s.orphansLeft

def step (file : ConfigFile) (s : State ι) : Action ι → State ι
  | .main act =>
    if s.Early act then s
    else
      let whole := (s.whole.step file act).withLimits s.whole.limits
      ⟨whole, s.leftIn whole, s.orphansLeftAfter act⟩
  | .set who k =>
    match (s.left who)[k]? with
    | some setting =>
      { s with
        whole := s.whole.withLimits (s.whole.limits.set [setting])
        left := Function.update s.left who ((s.left who).eraseIdx k) }
    | none => s
  | .orphanSet orphan k =>
    match (s.orphansLeft.getD orphan [])[k]? with
    | some setting =>
      { s with
        whole := s.whole.withLimits (s.whole.limits.set [setting])
        orphansLeft := s.orphansLeft.set orphan ((s.orphansLeft.getD orphan []).eraseIdx k) }
    | none => s

def booted (limits : Limits) : State ι := ⟨.booted limits, fun _ => [], []⟩

/-- No `ryzenadj` runs. -/
def Quiet (s : State ι) : Prop := s.whole.orphans = [] ∧ ∀ w, s.whole.runningOf w = none

/-- No signal kills a process that waits for its `ryzenadj`, and one of these that fails has set
no limit. -/
def Undisturbed (s : State ι) : Action ι → Prop
  | .main (.signal who sig) =>
    ∀ p, s.whole.procs who = some p → p.handles sig = false → p.running = none
  | .main (.next who false) =>
    ∀ profile, s.whole.runningOf who = some profile → s.left who = profile.settings
  | _ => True

/-! ### What holds in every run -/

/-- What holds however `ryzenadj` and the processes end. -/
structure Inv (cfg : LimitConfig) (before : Limits) (s : State ι) : Prop where
  whole : (s.whole.withLimits before).AnyInv cfg before
  left : ∀ w, ∀ setting ∈ s.left w, cfg.Sets setting
  orphansLeft : ∀ left ∈ s.orphansLeft, ∀ setting ∈ left, cfg.Sets setting
  limits : ∀ limit, s.whole.limits limit = before limit ∨
    cfg.Sets (limit, s.whole.limits limit)

omit [DecidableEq ι] in
theorem inv_booted (cfg : LimitConfig) (limits : Limits) :
    (booted limits : State ι).Inv cfg limits := by
  refine ⟨Powerlimit.State.anyInv_booted cfg limits, ?_, ?_, fun _ => .inl rfl⟩
  · intro w setting hmem
    exact absurd hmem List.not_mem_nil
  · intro left hmem
    exact absurd hmem List.not_mem_nil

omit [DecidableEq ι] in
theorem Inv.running {cfg : LimitConfig} {before : Limits} {s : State ι} (h : s.Inv cfg before)
    {w : ι} {profile : LimitProfile} (hrunning : s.whole.runningOf w = some profile) :
    cfg.Allows profile := by
  obtain ⟨p, hp, hrunning⟩ := Option.bind_eq_some_iff.1 hrunning
  exact (h.whole.known w p hp).running profile hrunning

omit [DecidableEq ι] in
/-- A limit is set to what the `ryzenadj` of an allowed profile has left. -/
theorem limits_set {cfg : LimitConfig} {before limits : Limits} {setting : Limit × ℕ}
    (h : ∀ limit, limits limit = before limit ∨ cfg.Sets (limit, limits limit))
    (hsetting : cfg.Sets setting) (limit : Limit) :
    limits.set [setting] limit = before limit ∨
      cfg.Sets (limit, limits.set [setting] limit) := by
  rw [Limits.set_apply]
  split_ifs with hlimit
  · rw [hlimit]
    exact .inr hsetting
  · exact h limit

/-- A limit is set. -/
theorem Inv.set {cfg : LimitConfig} {before : Limits} {s : State ι} (h : s.Inv cfg before)
    (file : ConfigFile) (who : ι) (k : ℕ) : (s.step file (.set who k)).Inv cfg before := by
  simp only [step]
  rcases hk : (s.left who)[k]? with _ | setting
  · exact h
  · have hsetting := h.left who setting (List.mem_of_getElem? hk)
    refine ⟨h.whole, fun w other hmem => ?_, h.orphansLeft, limits_set h.limits hsetting⟩
    simp only at hmem
    by_cases hw : w = who
    · subst hw
      rw [Function.update_self] at hmem
      exact h.left w other (List.mem_of_mem_eraseIdx hmem)
    · rw [Function.update_of_ne hw] at hmem
      exact h.left w other hmem

theorem Inv.orphanSet {cfg : LimitConfig} {before : Limits} {s : State ι} (h : s.Inv cfg before)
    (file : ConfigFile) (orphan k : ℕ) :
    (s.step file (.orphanSet orphan k)).Inv cfg before := by
  simp only [step]
  have hleft : ∀ setting ∈ s.orphansLeft.getD orphan [], cfg.Sets setting := by
    rw [List.getD_eq_getElem?_getD]
    rcases horphan : s.orphansLeft[orphan]? with _ | left
    · exact fun setting hmem => absurd hmem List.not_mem_nil
    · exact h.orphansLeft left (List.mem_of_getElem? horphan)
  rcases hk : (s.orphansLeft.getD orphan [])[k]? with _ | setting
  · exact h
  · have hsetting := hleft setting (List.mem_of_getElem? hk)
    refine ⟨h.whole, h.left, fun left hmem => ?_, limits_set h.limits hsetting⟩
    rcases List.mem_or_eq_of_mem_set hmem with hmem | rfl
    · exact h.orphansLeft left hmem
    · exact fun other hmem => hleft other (List.mem_of_mem_eraseIdx hmem)

omit [DecidableEq ι] in
/-- What is left to set is what allowed profiles set. -/
theorem Inv.leftIn {cfg : LimitConfig} {before : Limits} {s : State ι} (h : s.Inv cfg before)
    {after : Powerlimit.State ι} (hafter : (after.withLimits before).AnyInv cfg before) (w : ι) :
    ∀ setting ∈ s.leftIn after w, cfg.Sets setting := by
  intro setting hmem
  simp only [State.leftIn] at hmem
  split at hmem
  · exact absurd hmem List.not_mem_nil
  · next profile hrunning =>
    split_ifs at hmem
    · exact h.left w setting hmem
    · obtain ⟨p, hp, hrunning⟩ := Option.bind_eq_some_iff.1 hrunning
      exact ⟨profile, (hafter.known w p hp).running profile hrunning, hmem⟩

omit [DecidableEq ι] in
theorem Inv.orphansLeftAfter {cfg : LimitConfig} {before : Limits} {s : State ι}
    (h : s.Inv cfg before) (act : Powerlimit.Action ι) :
    ∀ left ∈ s.orphansLeftAfter act, ∀ setting ∈ left, cfg.Sets setting := by
  cases act with
  | start who args => exact h.orphansLeft
  | next who success => exact h.orphansLeft
  | orphan k success =>
    exact fun left hmem => h.orphansLeft left (List.mem_of_mem_eraseIdx hmem)
  | signal who sig =>
    simp only [State.orphansLeftAfter]
    rcases s.whole.procs who with _ | p
    · exact h.orphansLeft
    · simp only
      split_ifs
      · exact h.orphansLeft
      · intro left hmem
        rcases List.mem_append.1 hmem with hmem | hmem
        · exact h.orphansLeft left hmem
        · obtain ⟨-, -, rfl⟩ := Option.map_eq_some_iff.1 (Option.mem_toList.1 hmem)
          exact h.left who

/-- **Every step keeps it.** -/
theorem inv_step {file : ConfigFile} {cfg : LimitConfig} (hread : LimitConfig.read file = .ok cfg)
    {before : Limits} {s : State ι} (h : s.Inv cfg before) (act : Action ι) :
    (s.step file act).Inv cfg before := by
  cases act with
  | main act =>
    simp only [step]
    split_ifs
    · exact h
    have hwhole : ((s.whole.step file act).withLimits before).AnyInv cfg before := by
      have hstep := Powerlimit.State.anyInv_step hread h.whole act
      rw [← Powerlimit.State.step_withLimits file s.whole before before act]
      exact ⟨hstep.guards, hstep.known, hstep.orphans, coherent_refl cfg before⟩
    exact ⟨hwhole, h.leftIn hwhole, h.orphansLeftAfter act, h.limits⟩
  | set who k => exact h.set file who k
  | orphanSet orphan k => exact h.orphanSet file orphan k

/-! ### All at once -/

/-- The processes and the lock are those of `t`.  Each `ryzenadj` has done some of its settings,
and where none runs, the limits are those of `t` too. -/
structure Matches (cfg : LimitConfig) (before : Limits) (s : State ι) (t : Powerlimit.State ι) :
    Prop where
  inv : t.AnyInv cfg before
  whole : s.whole = t.withLimits s.whole.limits
  noOrphans : t.orphans = []
  noOrphansLeft : s.orphansLeft = []
  idle : ∀ w, t.runningOf w = none → s.left w = []
  quiet : (∀ w, t.runningOf w = none) → s.whole.limits = t.limits
  running : ∀ w profile, t.runningOf w = some profile →
    ∃ done, (done ++ s.left w).Perm profile.settings ∧ s.whole.limits = t.limits.set done

omit [DecidableEq ι] in
theorem matches_booted (cfg : LimitConfig) (limits : Limits) :
    Matches cfg limits (booted limits : State ι) (.booted limits) := by
  refine ⟨Powerlimit.State.anyInv_booted cfg limits, rfl, rfl, rfl, fun _ _ => rfl,
    fun _ => rfl, ?_⟩
  rintro w profile ⟨⟩

omit [DecidableEq ι] in
theorem Matches.procs_eq {cfg : LimitConfig} {before : Limits} {s : State ι}
    {t : Powerlimit.State ι} (h : Matches cfg before s t) : s.whole.procs = t.procs := by
  rw [h.whole]
  rfl

omit [DecidableEq ι] in
theorem Matches.runningOf_eq {cfg : LimitConfig} {before : Limits} {s : State ι}
    {t : Powerlimit.State ι} (h : Matches cfg before s t) (w : ι) :
    s.whole.runningOf w = t.runningOf w := by
  simp only [runningOf, h.procs_eq]

omit [DecidableEq ι] in
/-- One process at a time runs `ryzenadj`. -/
theorem Matches.exclusive {cfg : LimitConfig} {before : Limits} {s : State ι}
    {t : Powerlimit.State ι} (h : Matches cfg before s t) {v w : ι} (hv : t.Inside v)
    (hw : w ≠ v) : t.runningOf w = none := by
  by_contra hrunning
  obtain ⟨profile, hrunning⟩ := Option.ne_none_iff_exists'.1 hrunning
  exact hw (h.inv.guards.exclusive (Powerlimit.State.inside_of_runningOf hrunning) hv)

/-- A limit is set. -/
theorem Matches.set {cfg : LimitConfig} {before : Limits} {s : State ι} {t : Powerlimit.State ι}
    (h : Matches cfg before s t) {who : ι} {k : ℕ} {setting : Limit × ℕ}
    (hk : (s.left who)[k]? = some setting) (file : ConfigFile) :
    Matches cfg before (s.step file (.set who k)) t := by
  have hstep : s.step file (.set who k) =
      { s with
        whole := s.whole.withLimits (s.whole.limits.set [setting])
        left := Function.update s.left who ((s.left who).eraseIdx k) } := by
    simp only [step, hk]
  have hsome : t.runningOf who ≠ none := by
    intro hnone
    rw [h.idle who hnone] at hk
    cases hk
  rw [hstep]
  refine ⟨h.inv, ?_, h.noOrphans, h.noOrphansLeft, fun w hnone => ?_, fun hnone => ?_, ?_⟩
  · rw [h.whole]
    rfl
  · have hw : w ≠ who := fun heq => hsome (heq ▸ hnone)
    simp only [Function.update_of_ne hw]
    exact h.idle w hnone
  · exact absurd (hnone who) hsome
  · intro w profile hrunning
    have hw : w = who := by
      by_contra hw
      exact hsome (h.exclusive (Powerlimit.State.inside_of_runningOf hrunning) (Ne.symm hw))
    subst hw
    obtain ⟨hlt, hget⟩ := List.getElem?_eq_some_iff.1 hk
    obtain ⟨done, hperm, hlimits⟩ := h.running w profile hrunning
    refine ⟨done ++ [setting], ?_, ?_⟩
    · simp only [Function.update_self, List.append_assoc, List.singleton_append]
      rw [← hget]
      exact ((List.getElem_cons_eraseIdx_perm hlt).append_left done).trans hperm
    · rw [Limits.set_append, ← hlimits]
      rfl

omit [DecidableEq ι] in
/-- When the `ryzenadj` ends, it has set all its limits, or none. -/
theorem Matches.ended {cfg : LimitConfig} {before : Limits} {s : State ι}
    {t : Powerlimit.State ι} (h : Matches cfg before s t) {who : ι} {success : Bool}
    {profile : LimitProfile} (hrunning : t.runningOf who = some profile)
    (hearly : ¬s.Early (.next who success)) (hok : s.Undisturbed (.main (.next who success))) :
    s.whole.limits = if success then t.limits.set profile.settings else t.limits := by
  have hsame := h.runningOf_eq who
  rw [hrunning] at hsame
  obtain ⟨done, hperm, hlimits⟩ := h.running who profile hrunning
  cases success with
  | true =>
    have hleft : s.left who = [] := by
      by_contra hleft
      exact hearly ⟨by rw [hsame]; rfl, hleft⟩
    rw [hleft, List.append_nil] at hperm
    rw [hlimits, Limits.set_perm _ hperm profile.nodup_settings]
    rfl
  | false =>
    rw [hok profile hsame] at hperm
    have hlength := hperm.length_eq
    have hdone : done = [] := by simpa using hlength
    rw [hlimits, hdone]
    rfl

omit [DecidableEq ι] in
/-- None loses its parent. -/
theorem Matches.orphansLeftAfter {cfg : LimitConfig} {before : Limits} {s : State ι}
    {t : Powerlimit.State ι} (h : Matches cfg before s t) {act : Powerlimit.Action ι}
    (hkill : ∀ who sig p, act = .signal who sig → t.procs who = some p →
      p.handles sig = false → p.running = none) : s.orphansLeftAfter act = [] := by
  cases act with
  | start who args => exact h.noOrphansLeft
  | next who success => exact h.noOrphansLeft
  | orphan k success =>
    simp only [State.orphansLeftAfter, h.noOrphansLeft]
    rfl
  | signal who sig =>
    simp only [State.orphansLeftAfter, h.procs_eq, h.noOrphansLeft, List.nil_append]
    rcases hp : t.procs who with _ | p
    · rfl
    · simp only
      split_ifs with hhandles
      · rfl
      · rw [hkill who sig p rfl hp (by simpa using hhandles)]
        rfl

/-- Any other step. -/
theorem Matches.main {file : ConfigFile} {cfg : LimitConfig}
    (hread : LimitConfig.read file = .ok cfg) {before : Limits} {s : State ι}
    {t : Powerlimit.State ι} (h : Matches cfg before s t) {act : Powerlimit.Action ι}
    (hearly : ¬s.Early act) (hok : s.Undisturbed (.main act)) :
    Matches cfg before (s.step file (.main act)) (t.step file act) := by
  have hwhole : (s.whole.step file act).withLimits s.whole.limits
      = (t.step file act).withLimits s.whole.limits := by
    conv_lhs => rw [h.whole]
    exact Powerlimit.State.step_withLimits file t _ _ act
  have hstep : s.step file (.main act) = ⟨(t.step file act).withLimits s.whole.limits,
      s.leftIn (t.step file act), s.orphansLeftAfter act⟩ := by
    simp only [step, if_neg hearly, hwhole]
    rfl
  have hkill : ∀ who sig p, act = .signal who sig → t.procs who = some p →
      p.handles sig = false → p.running = none := by
    rintro who sig p rfl hp hhandles
    exact hok p (by rw [h.procs_eq, hp]) hhandles
  obtain ⟨hnone, hcases⟩ := Powerlimit.State.step_cases file h.noOrphans act hkill
  rw [hstep]
  refine ⟨Powerlimit.State.anyInv_step hread h.inv act, rfl, hnone, ?_, fun w hw => ?_, ?_, ?_⟩
  · exact h.orphansLeftAfter hkill
  · simp only [leftIn, hw]
  · -- nobody runs `ryzenadj` any more
    intro hquiet
    rcases hcases with ⟨who, success, profile, rfl, hrunning, hlimits, -⟩ | ⟨hlimits, hgoes⟩
    · rw [hlimits]
      exact h.ended hrunning hearly hok
    · rw [hlimits]
      refine h.quiet fun w => ?_
      rcases hgoes w with hsame | ⟨hnone, -⟩
      · rw [← hsame, hquiet]
      · exact hnone
  · intro w profile hw
    rcases hcases with ⟨who, success, profile', rfl, hrunning, -, hother⟩ | ⟨hlimits, hgoes⟩
    · -- it has ended, and nobody else runs one
      rw [hother] at hw
      split_ifs at hw with heq
      cases (h.exclusive (Powerlimit.State.inside_of_runningOf hrunning) heq).symm.trans hw
    · rw [hlimits]
      simp only [leftIn, hw]
      rcases hgoes w with hsame | ⟨hidle, hinside⟩
      · rw [hsame] at hw
        rw [if_pos (by rw [h.runningOf_eq, hw]; rfl)]
        exact h.running w profile hw
      · rw [if_neg (by rw [h.runningOf_eq, hidle]; exact Bool.false_ne_true)]
        refine ⟨[], List.Perm.refl _, h.quiet fun v => ?_⟩
        by_cases hv : v = w
        · rw [hv, hidle]
        · exact h.exclusive hinside hv

/-- **Every undisturbed step is a step at once, or none.** -/
theorem simulates {file : ConfigFile} {cfg : LimitConfig} (hread : LimitConfig.read file = .ok cfg)
    (before : Limits) : Simulates (step file) (Powerlimit.State.step file) Undisturbed
      (fun _ _ => True) (Matches cfg before : State ι → Powerlimit.State ι → Prop) := by
  intro s t act h hok
  cases act with
  | main act =>
    by_cases hearly : s.Early act
    · refine ⟨[], trivial, ?_⟩
      simpa only [step, if_pos hearly, run_nil] using h
    · exact ⟨[act], ⟨trivial, trivial⟩, h.main hread hearly hok⟩
  | set who k =>
    refine ⟨[], trivial, ?_⟩
    rcases hk : (s.left who)[k]? with _ | setting
    · simpa only [step, hk, run_nil] using h
    · exact h.set hk file
  | orphanSet orphan k =>
    refine ⟨[], trivial, ?_⟩
    simpa [step, h.noOrphansLeft] using h

/-- A run of `Processes` leads to the same processes and the same lock, and where no `ryzenadj`
runs, to the same limits. -/
def AsAtOnce (file : ConfigFile) (before : Limits) (s : State ι) : Prop :=
  ∃ acts limits,
    s.whole = (run (Powerlimit.State.step file) (.booted before) acts).withLimits limits ∧
      (s.Quiet → s.whole = run (Powerlimit.State.step file) (.booted before) acts)

/-- **No run mixes two profiles** unless it is disturbed.  Whatever happens, each limit is as before
or as some profile has it. -/
theorem always_unmixed {file : ConfigFile} {cfg : LimitConfig}
    (hread : LimitConfig.read file = .ok cfg) (before : Limits) (acts : List (Action ι)) :
    Always (step file)
        (fun s => Powerlimit.State.Exclusive s.whole ∧
          ∀ limit, s.whole.limits limit = before limit ∨ cfg.Sets (limit, s.whole.limits limit))
        (booted before) acts ∧
      (Along (step file) Undisturbed (booted before) acts →
        Always (step file)
          (fun s => AsAtOnce file before s ∧ (s.Quiet → Coherent cfg before s.whole.limits))
          (booted before) acts) := by
  constructor
  · intro pre _
    have hstep : ∀ (s : State ι) act, s.Inv cfg before → (s.step file act).Inv cfg before :=
      fun _ act h => inv_step hread h act
    have h := inv_run hstep (inv_booted cfg before) pre
    have hexclusive := h.whole.exclusive
    exact ⟨⟨hexclusive.inside, hexclusive.holder, hexclusive.runner⟩, h.limits⟩
  · rintro hok pre ⟨rest, rfl⟩
    obtain ⟨acts', -, h⟩ := run_simulates (simulates hread before) (matches_booted cfg before) pre
      (along_append.1 hok).1
    have hquiet : (run (step file) (booted before) pre).Quiet →
        (run (step file) (booted before) pre).whole.limits
          = (run (Powerlimit.State.step file) (.booted before) acts').limits :=
      fun hs => h.quiet fun w => by rw [← h.runningOf_eq, hs.2]
    refine ⟨⟨acts', _, h.whole, fun hs => ?_⟩, fun hs => ?_⟩
    · rw [h.whole, hquiet hs]
      rfl
    · rw [hquiet hs]
      exact h.inv.coherent

instance (s : State ι) (act : Action ι) : Decidable (s.Undisturbed act) :=
  match act with
  | .main (.signal who sig) =>
    inferInstanceAs (Decidable (∀ p ∈ s.whole.procs who, p.handles sig = false → _))
  | .main (.next who false) =>
    inferInstanceAs (Decidable (∀ profile ∈ s.whole.runningOf who, s.left who = profile.settings))
  | .main (.start _ _) | .main (.next _ true) | .main (.orphan _ _) | .set _ _ | .orphanSet _ _ =>
    .isTrue trivial

/-- A process is stopped when it has set its limits, the last one first, and sets the default ones,
the first one first. -/
def sampleSteps : List (Action Bool) :=
  [.main (.start true { profile := some "games" }), .main (.next true true),
    .main (.next true true), .set true 3, .set true 2, .set true 1, .main (.next true true),
    .set true 0] ++ List.replicate 5 (.main (.next true true)) ++
    [.main (.signal true .term), .main (.next true true), .set true 0, .set true 0, .set true 0,
      .set true 0, .main (.next true true)]

theorem always_unmixed_sampleSteps :
    (run (step sampleFile) (booted fun _ => 0) sampleSteps).whole.limits .fast = 20000 ∧
    Along (step sampleFile) Undisturbed (booted fun _ => 0) sampleSteps ∧
    Always (step sampleFile)
      (fun s => Powerlimit.State.Exclusive s.whole ∧
        ∀ limit, s.whole.limits limit = 0 ∨ sampleConfig.Sets (limit, s.whole.limits limit))
      (booted fun _ => 0) sampleSteps ∧
    Always (step sampleFile)
      (fun s => AsAtOnce sampleFile (fun _ => 0) s ∧
        (s.Quiet → Coherent sampleConfig (fun _ => 0) s.whole.limits))
      (booted fun _ => 0) sampleSteps := by
  obtain ⟨hany, hundisturbed⟩ := always_unmixed read_sampleFile (fun _ => 0) sampleSteps
  have hok : Along (step sampleFile) Undisturbed (booted fun _ => 0) sampleSteps := by
    decide +kernel
  exact ⟨by decide +kernel, hok, hany, hundisturbed hok⟩

/-- A `ryzenadj` without parent and that of the next holder leave a mixture. -/
example :
    let s := run (step sampleFile) (booted fun _ => 0)
      ((sampleSteps.take 3 ++ [.main (.signal true .term), .orphanSet 0 0,
        .main (.start false { profile := some "default" }), .main (.next false true),
        .main (.next false true)]) ++ List.replicate 4 (.set false 0) ++
        [.orphanSet 0 0, .orphanSet 0 0, .orphanSet 0 0, .main (.orphan 0 true),
          .main (.next false true)])
    s.whole.orphans = [] ∧ s.whole.runningOf false = none ∧ s.whole.limits .stapm = 15000 ∧
      s.whole.limits .fast = 30000 := by
  decide +kernel

end State
end Gradual
end Powerlimit
end TjTools
