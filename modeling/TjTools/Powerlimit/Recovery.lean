/-
# Whatever goes wrong

What holds of the processes of `Processes` in every run, careful or not: signals may kill
them anywhere and every `ryzenadj` may fail.  At most one process is between the lock and
its release, and it is the holder (`always_exclusive`).  The power limits in force are
those of one profile, configured or never set, or the ones before any process
(`AnyInv.coherent`); `Gradual` says what becomes of that where a `ryzenadj` does not set its limits
at once.  And no run is beyond repair: once the orphans are gone and the holder has been stopped,
a `--init` that succeeds restores the defaults, and from there on every careful run keeps them
(`recovers`).
-/

import TjTools.Powerlimit.Processes

namespace TjTools
namespace Powerlimit

open Runs

/-- A profile of the configuration, or one that was never set, as `--tdp` has it. -/
def LimitConfig.Allows (cfg : LimitConfig) (profile : LimitProfile) : Prop :=
  profile = {} ∨ ∃ name, cfg.profileAt name = .ok profile

theorem LimitConfig.allows_defProfile (cfg : LimitConfig) : cfg.Allows cfg.defProfile :=
  .inr ⟨"default", cfg.profileAt_default⟩

/-- `main` applies a profile of the configuration, or one that was never set. -/
theorem prologue_allows {file : ConfigFile} {cfg : LimitConfig} {args : Args} {job : Job}
    (hread : LimitConfig.read file = .ok cfg) (h : prologue file args = .ok job) :
    cfg.Allows job.limitProfile := by
  by_cases hinit : job.isInit = true
  · rw [(prologue_spec hread h).2 hinit]
    exact cfg.allows_defProfile
  · obtain ⟨help, init, profile, tdp⟩ := args
    unfold prologue at h
    rw [hread] at h
    simp only [Exit.ofExcept, cfg.profileAt_default, bind, Except.bind, pure, Except.pure] at h
    cases help with
    | true => cases h
    | false =>
    cases init with
    | true =>
      cases h
      exact absurd rfl hinit
    | false =>
    cases profile with
    | some profile =>
      rcases hat : cfg.profileAt profile with e | p
      all_goals
        simp only [hat, Bool.false_eq_true, if_false] at h
        cases h
      exact .inr ⟨profile, hat⟩
    | none =>
    cases tdp with
    | none => cases h
    | some tdp =>
      rcases hfrom : LimitProfile.fromTDP tdp cfg.fastMultiplier cfg.slowMultiplier {} with e | p
      all_goals
        simp only [hfrom, Bool.false_eq_true, if_false] at h
        cases h
      refine .inl ?_
      unfold LimitProfile.fromTDP at hfrom
      simp only at hfrom
      split_ifs at hfrom
      exact (Except.ok.inj hfrom).symm

/-- The limits that a profile sets are its own, and the temperature stays where it sets none. -/
theorem LimitProfile.set_settings (p : LimitProfile) (limits : Limits) :
    limits.set p.settings .stapm = limitScale p.stapmLimit ∧
      limits.set p.settings .fast = limitScale p.fastLimit ∧
      limits.set p.settings .slow = limitScale p.slowLimit ∧
      limits.set p.settings .tctl = (p.tctlTemp.map limitScale).getD (limits .tctl) := by
  rcases p with ⟨stapmLimit, fastLimit, slowLimit, _ | tctlTemp⟩
  all_goals
    simp [LimitProfile.settings, Limits.set]

/-- The power limits are all as before, or all those of one profile; and the temperature limit
is as before, or that of a profile. -/
structure Coherent (cfg : LimitConfig) (before limits : Limits) : Prop where
  power : (∀ limit, limit ≠ .tctl → limits limit = before limit) ∨
    ∃ p, cfg.Allows p ∧ limits .stapm = limitScale p.stapmLimit ∧
      limits .fast = limitScale p.fastLimit ∧ limits .slow = limitScale p.slowLimit
  temperature : limits .tctl = before .tctl ∨
    ∃ p tctlTemp, cfg.Allows p ∧ p.tctlTemp = some tctlTemp ∧ limits .tctl = limitScale tctlTemp

theorem coherent_refl (cfg : LimitConfig) (limits : Limits) : Coherent cfg limits limits :=
  ⟨.inl fun _ _ => rfl, .inl rfl⟩

theorem Coherent.set {cfg : LimitConfig} {before limits : Limits} (h : Coherent cfg before limits)
    {p : LimitProfile} (hp : cfg.Allows p) : Coherent cfg before (limits.set p.settings) := by
  obtain ⟨hstapm, hfast, hslow, htctl⟩ := p.set_settings limits
  refine ⟨.inr ⟨p, hp, hstapm, hfast, hslow⟩, ?_⟩
  rw [htctl]
  cases htemp : p.tctlTemp with
  | none => exact h.temperature
  | some tctlTemp => exact .inr ⟨p, tctlTemp, hp, htemp, rfl⟩

namespace State

variable {ι : Type} [DecidableEq ι]

/-- What holds of a process in any run. -/
structure Known (cfg : LimitConfig) (p : Process) : Prop where
  defProfile : p.job.defProfile = cfg.defProfile
  init : p.job.isInit = true → p.job.limitProfile = cfg.defProfile
  allows : cfg.Allows p.job.limitProfile

/-- What holds in any run after the limits were `before`. -/
structure AnyInv (cfg : LimitConfig) (before : Limits) (s : State ι) : Prop where
  guards : Guards s.holder s.Inside
  known : ∀ w p, s.procs w = some p → Known cfg p
  orphans : ∀ p ∈ s.orphans, cfg.Allows p
  coherent : Coherent cfg before s.limits

omit [DecidableEq ι] in
theorem anyInv_booted (cfg : LimitConfig) (limits : Limits) :
    (booted limits : State ι).AnyInv cfg limits := by
  refine ⟨?_, ?_, ?_, coherent_refl cfg limits⟩
  · intro w
    simp [Inside, booted]
  · intro w p hp
    simp [booted] at hp
  · intro p hp
    simp [booted] at hp

theorem known_put {cfg : LimitConfig} {s : State ι} {who : ι} {proc : Option Process}
    (h : ∀ w p, s.procs w = some p → Known cfg p) (hproc : ∀ p, proc = some p → Known cfg p)
    (w : ι) (p : Process) (hp : (s.put who proc).procs w = some p) : Known cfg p := by
  by_cases hw : w = who
  · subst hw
    exact hproc p (by simpa [put] using hp)
  · exact h w p (by simpa [put, hw] using hp)

theorem known_goto {cfg : LimitConfig} {p : Process} (h : Known cfg p) (point : Point) :
    Known cfg (p.goto point) := ⟨h.defProfile, h.init, h.allows⟩

theorem Known.running {cfg : LimitConfig} {p : Process} (h : Known cfg p) :
    ∀ profile, p.running = some profile → cfg.Allows profile := by
  rcases p with ⟨job, point⟩
  intro profile hrunning
  cases point with
  | applying =>
    cases hrunning
    exact h.allows
  | restoring =>
    cases hrunning
    have hdef : job.defProfile = cfg.defProfile := h.defProfile
    rw [hdef]
    exact cfg.allows_defProfile
  | _ => cases hrunning

/-- A process moves on, and stays inside or outside. -/
theorem anyInv_put {cfg : LimitConfig} {before : Limits} {s : State ι} (h : s.AnyInv cfg before)
    {who : ι} {p p' : Process} (hp : s.procs who = some p) (hknown : Known cfg p')
    (hlocked : p'.point.Locked ↔ p.point.Locked) : (s.put who (some p')).AnyInv cfg before := by
  refine ⟨?_, known_put h.known ?_, h.orphans, h.coherent⟩
  · refine h.guards.keep ?_ fun w hw => inside_put_other s hw _
    rw [inside_put_self, hlocked]
    simp [Inside, hp]
  · rintro _ ⟨⟩
    exact hknown

/-- A process is gone, or outside, and does not hold the lock any more. -/
theorem anyInv_leave {cfg : LimitConfig} {before : Limits} {s : State ι}
    (h : s.AnyInv cfg before) {who : ι} {proc : Option Process}
    (hknown : ∀ p, proc = some p → Known cfg p) (houtside : ∀ p, proc = some p → ¬p.point.Locked) :
    ((s.release who).put who proc).AnyInv cfg before := by
  refine ⟨?_, known_put h.known hknown, h.orphans, h.coherent⟩
  refine h.guards.leave ?_ fun w hw => inside_put_other _ hw _
  rintro ⟨p, hp, hlocked⟩
  exact houtside p (by simpa [put] using hp) hlocked

theorem anyInv_die {cfg : LimitConfig} {before : Limits} {s : State ι} (h : s.AnyInv cfg before)
    (who : ι) : (s.die who).AnyInv cfg before := by
  refine anyInv_leave h ?_ ?_
  · rintro p ⟨⟩
  · rintro p ⟨⟩

omit [DecidableEq ι] in
theorem anyInv_applied {cfg : LimitConfig} {before : Limits} {s : State ι}
    (h : s.AnyInv cfg before) {profile : LimitProfile} (hprofile : cfg.Allows profile) :
    (s.applied profile).AnyInv cfg before :=
  ⟨h.guards, h.known, h.orphans, h.coherent.set hprofile⟩

theorem anyInv_advance {cfg : LimitConfig} {before : Limits} {s : State ι}
    (h : s.AnyInv cfg before) {who : ι} {p : Process} (hp : s.procs who = some p)
    (success : Bool) : (s.advance who p success).AnyInv cfg before := by
  have hknown := h.known who p hp
  have hdie := anyInv_die h who
  rcases p with ⟨job, point⟩
  unfold advance
  cases point with
  | tryLock =>
    simp only
    split_ifs with hfree
    · refine ⟨?_, known_put h.known ?_, h.orphans, h.coherent⟩
      · have hguards := h.guards
        rw [hfree] at hguards
        refine hguards.acquire ?_ fun w hw => inside_put_other _ hw _
        rw [inside_put_self]
        trivial
      · rintro _ ⟨⟩
        exact known_goto hknown .apply
    · exact hdie
  | apply => exact anyInv_put h hp (known_goto hknown .applying) Iff.rfl
  | applying =>
    cases success with
    | true =>
      refine anyInv_put (anyInv_applied h hknown.allows) hp (known_goto hknown _) ?_
      cases hinit : job.isInit
      all_goals exact Iff.rfl
    | false => exact hdie
  | signalInt => exact anyInv_put h hp (known_goto hknown .signalTerm) Iff.rfl
  | signalTerm => exact anyInv_put h hp (known_goto hknown .pause) Iff.rfl
  | pause => exact anyInv_put h hp (known_goto hknown .paused) Iff.rfl
  | paused => exact h
  | restore => exact anyInv_put h hp (known_goto hknown .restoring) Iff.rfl
  | restoring =>
    cases success with
    | true =>
      have hallows : cfg.Allows job.defProfile := hknown.running job.defProfile rfl
      exact anyInv_put (anyInv_applied h hallows) hp (known_goto hknown .unlock) Iff.rfl
    | false => exact hdie
  | unlock =>
    refine anyInv_leave h ?_ ?_
    · rintro _ ⟨⟩
      exact known_goto hknown .exit
    · rintro _ ⟨⟩ hlocked
      exact hlocked
  | exit => exact hdie

theorem anyInv_kill {cfg : LimitConfig} {before : Limits} {s : State ι}
    (h : s.AnyInv cfg before) {who : ι} {p : Process} (hp : s.procs who = some p) :
    (s.kill who p).AnyInv cfg before := by
  have hdie := anyInv_die h who
  refine ⟨hdie.guards, hdie.known, fun profile hmem => ?_, hdie.coherent⟩
  rcases List.mem_append.1 hmem with hmem | hmem
  · exact h.orphans profile hmem
  · exact (h.known who p hp).running profile (Option.mem_toList.1 hmem)

/-- **Every step keeps it**, whatever fails and whatever is killed. -/
theorem anyInv_step {file : ConfigFile} {cfg : LimitConfig}
    (hread : LimitConfig.read file = .ok cfg) {before : Limits} {s : State ι}
    (h : s.AnyInv cfg before) (act : Action ι) : (s.step file act).AnyInv cfg before := by
  cases act with
  | start who args =>
    simp only [step]
    rcases hp : s.procs who with _ | p
    · rcases hprologue : prologue file args with e | job
      · exact h
      · obtain ⟨hdefProfile, hinit⟩ := prologue_spec hread hprologue
        refine ⟨?_, known_put h.known ?_, h.orphans, h.coherent⟩
        · refine h.guards.keep ?_ fun w hw => inside_put_other s hw _
          rw [inside_put_self]
          simp [Inside, hp, Point.Locked]
        · rintro _ ⟨⟩
          exact ⟨hdefProfile, hinit, prologue_allows hread hprologue⟩
    · exact h
  | next who success =>
    simp only [step]
    rcases hp : s.procs who with _ | p
    · exact h
    · exact anyInv_advance h hp success
  | signal who sig =>
    simp only [step]
    rcases hp : s.procs who with _ | p
    · exact h
    · simp only [deliver]
      split_ifs with hhandles hpause
      · refine anyInv_put h hp (known_goto (h.known who p hp) .restore) ?_
        rw [hpause]
        exact Iff.rfl
      · exact h
      · exact anyInv_kill h hp
  | orphan k success =>
    simp only [step]
    rcases hprofile : s.orphans[k]? with _ | profile
    · exact h
    · have hallows := h.orphans profile (List.mem_of_getElem? hprofile)
      have hrest : ∀ q ∈ s.orphans.eraseIdx k, cfg.Allows q :=
        fun q hq => h.orphans q (List.mem_of_mem_eraseIdx hq)
      cases success with
      | true => exact ⟨h.guards, h.known, hrest, h.coherent.set hallows⟩
      | false => exact ⟨h.guards, h.known, hrest, h.coherent⟩

/-- At most one process is past the lock and has not released it, it is the holder, and nobody
else waits for a `ryzenadj` of its own. -/
structure Exclusive (s : State ι) : Prop where
  inside : ∀ v w, s.Inside v → s.Inside w → v = w
  holder : ∀ w, s.holder = some w ↔ s.Inside w
  runner : ∀ w p, s.procs w = some p → p.running.isSome = true → s.holder = some w

omit [DecidableEq ι] in
theorem AnyInv.exclusive {cfg : LimitConfig} {before : Limits} {s : State ι}
    (h : s.AnyInv cfg before) : s.Exclusive := by
  refine ⟨fun v w hv hw => h.guards.exclusive hv hw, fun w => (h.guards w).symm, ?_⟩
  intro w p hp hrunning
  exact (h.guards w).1 ⟨p, hp, locked_of_running hrunning⟩

/-- **Every run keeps it.** -/
theorem anyInv_run {file : ConfigFile} {cfg : LimitConfig}
    (hread : LimitConfig.read file = .ok cfg) {before : Limits} {s : State ι}
    (h : s.AnyInv cfg before) (acts : List (Action ι)) :
    (run (step file) s acts).AnyInv cfg before := by
  have hstep : ∀ (s : State ι) act, s.AnyInv cfg before → (s.step file act).AnyInv cfg before :=
    fun _ act h => anyInv_step hread h act
  exact inv_run hstep h acts

/-- **Only one process at a time**, in every run, whatever is killed and whatever fails. -/
theorem always_exclusive {file : ConfigFile} {cfg : LimitConfig}
    (hread : LimitConfig.read file = .ok cfg) (limits : Limits) (acts : List (Action ι)) :
    Always (step file) Exclusive (booted limits) acts := by
  intro pre _
  exact (anyInv_run hread (anyInv_booted cfg limits) pre).exclusive

/-! ### Repair -/

/-- What repairs a state: orphans end, the holder is stopped and goes on, and a new process
initializes the limits. -/
def Repairs (s : State ι) (who : ι) : Action ι → Prop
  | .orphan _ _ => True
  | .signal w sig => s.holder = some w ∧ sig = .term
  | .next w success => (s.holder = some w ∨ w = who) ∧ success = true
  | .start w args => w = who ∧ args = { init := true }

/-- The holder, stopped, lets the lock go. -/
theorem exists_released {cfg : LimitConfig} {before : Limits} (file : ConfigFile) {s : State ι}
    (h : s.AnyInv cfg before) {w : ι} (hheld : s.holder = some w) {who : ι} (hwho : w ≠ who) :
    ∃ rest : List (Action ι), (∀ act ∈ rest, s.Repairs who act) ∧
      (run (step file) s rest).holder = none ∧
      (run (step file) s rest).procs who = s.procs who := by
  obtain ⟨⟨job, point⟩, hp, hlocked⟩ := (h.guards w).2 hheld
  have hterm : s.Repairs who (.signal w .term) := ⟨hheld, rfl⟩
  have hnext : s.Repairs who (.next w true) := ⟨.inl hheld, rfl⟩
  have hkilled : ∀ p : Process, s.procs w = some p → p.handles .term = false →
      (run (step file) s [.signal w .term]).holder = none ∧
      (run (step file) s [.signal w .term]).procs who = s.procs who := by
    intro p hp hhandles
    simp [step, hp, deliver, hhandles, kill, die, release, put, hheld, hwho.symm]
  cases point with
  | tryLock => exact hlocked.elim
  | exit => exact hlocked.elim
  | apply => exact ⟨[.signal w .term], by simpa, hkilled _ hp rfl⟩
  | applying => exact ⟨[.signal w .term], by simpa, hkilled _ hp rfl⟩
  | signalInt => exact ⟨[.signal w .term], by simpa, hkilled _ hp rfl⟩
  | signalTerm => exact ⟨[.signal w .term], by simpa, hkilled _ hp rfl⟩
  | pause =>
    -- the signal is sent when the holder sleeps
    refine ⟨.next w true :: .signal w .term :: List.replicate 3 (.next w true), ?_, ?_⟩
    · simp [hterm, hnext]
    · simp [List.replicate, step, hp, deliver, Process.handles, advance, put, applied, release,
        Process.goto, hheld, hwho.symm]
  | paused =>
    refine ⟨.signal w .term :: List.replicate 3 (.next w true), ?_, ?_⟩
    · simp [hterm, hnext]
    · simp [List.replicate, step, hp, deliver, Process.handles, advance, put, applied, release,
        Process.goto, hheld, hwho.symm]
  | restore =>
    refine ⟨List.replicate 3 (.next w true), by simp [hnext], ?_⟩
    simp [List.replicate, step, hp, advance, put, applied, release, Process.goto, hheld, hwho.symm]
  | restoring =>
    refine ⟨List.replicate 2 (.next w true), by simp [hnext], ?_⟩
    simp [List.replicate, step, hp, advance, put, applied, release, Process.goto, hheld, hwho.symm]
  | unlock =>
    refine ⟨[.next w true], by simpa, ?_⟩
    simp [step, hp, advance, put, release, Process.goto, hheld, hwho.symm]

/-- The orphans end, one after the other. -/
theorem exists_orphans_ended (file : ConfigFile) (orphans : List LimitProfile) {s : State ι}
    (hs : s.orphans = orphans) :
    ∃ rest : List (Action ι), (∀ act ∈ rest, act = .orphan 0 true) ∧
      (run (step file) s rest).orphans = [] ∧ (run (step file) s rest).holder = s.holder ∧
      (run (step file) s rest).procs = s.procs := by
  induction orphans generalizing s with
  | nil => exact ⟨[], by simp, hs, rfl, rfl⟩
  | cons profile orphans ih =>
    have hstep : s.step file (.orphan 0 true) = { s.applied profile with orphans := orphans } := by
      simp [step, hs]
    obtain ⟨rest, hrest, hended, hholder, hprocs⟩ := ih
      (show ({ s.applied profile with orphans := orphans } : State ι).orphans = orphans from rfl)
    refine ⟨.orphan 0 true :: rest, by simpa using hrest, ?_⟩
    rw [run_cons, hstep]
    exact ⟨hended, hholder, hprocs⟩

/-- A `--init` that finds the lock free and succeeds. -/
theorem run_init {file : ConfigFile} {cfg : LimitConfig} (hread : LimitConfig.read file = .ok cfg)
    {s : State ι} (hfree : s.holder = none) {who : ι} (hnew : s.procs who = none) :
    run (step file) s (initActions who)
      = { s with limits := s.limits.set cfg.defProfile.settings } := by
  have hprocs : Function.update s.procs who none = s.procs := by
    rw [← hnew, Function.update_eq_self]
  rcases s with ⟨holder, limits, procs, orphans⟩
  obtain rfl : holder = none := hfree
  simp only at hprocs hnew
  simp [initActions, List.replicate, step, prologue_init hread, hnew, advance, put, lock, release,
    applied, die, Process.goto, hprocs]

omit [DecidableEq ι] in
/-- A state that is as it should be but for what went wrong before. -/
theorem AnyInv.inv {cfg : LimitConfig} {before : Limits} {s : State ι} (h : s.AnyInv cfg before)
    (horphans : s.orphans = []) (hfree : s.holder = none)
    (hforce : cfg.defProfile.InForce s.limits) : s.Inv cfg := by
  refine ⟨horphans, h.guards, fun _ => hforce, fun w p hp => ?_⟩
  have hknown := h.known w p hp
  refine ⟨hknown.defProfile, hknown.init, fun hrest => ?_⟩
  have hheld := (h.guards w).1 ⟨p, hp, hrest.locked⟩
  rw [hfree] at hheld
  cases hheld

/-- The lock is let go, whoever holds it. -/
theorem exists_free {cfg : LimitConfig} {before : Limits} (file : ConfigFile) {s : State ι}
    (h : s.AnyInv cfg before) {who : ι} (hnew : s.procs who = none) :
    ∃ rest : List (Action ι), (∀ act ∈ rest, s.Repairs who act) ∧
      (run (step file) s rest).holder = none ∧ (run (step file) s rest).procs who = none := by
  cases hheld : s.holder with
  | none => exact ⟨[], by simp, hheld, hnew⟩
  | some w =>
    have hwho : w ≠ who := by
      rintro rfl
      obtain ⟨p, hp, -⟩ := (h.guards w).2 hheld
      cases hnew.symm.trans hp
    obtain ⟨rest, hrepairs, hfree, hprocs⟩ := exists_released file h hheld hwho
    exact ⟨rest, hrepairs, hfree, hprocs.trans hnew⟩

theorem exists_repaired {file : ConfigFile} {cfg : LimitConfig}
    (hread : LimitConfig.read file = .ok cfg) {before : Limits} {s : State ι}
    (h : s.AnyInv cfg before) {who : ι} (hnew : s.procs who = none) :
    ∃ rest : List (Action ι), (∀ act ∈ rest, s.Repairs who act) ∧
      (run (step file) s rest).Inv cfg := by
  obtain ⟨released, hrepairs, hfree, hgone⟩ := exists_free file h hnew
  -- the orphans end
  obtain ⟨ended, hended, horphans, hholder, hprocs⟩ := exists_orphans_ended file _
    (show (run (step file) s released).orphans = _ from rfl)
  -- the limits are initialized
  have hinit := run_init hread (hholder.trans hfree) (by rw [hprocs, hgone])
  have hany := anyInv_run hread h (released ++ (ended ++ initActions who))
  refine ⟨released ++ (ended ++ initActions who), ?_, ?_⟩
  · intro act hact
    rcases List.mem_append.1 hact with hact | hact
    · exact hrepairs act hact
    · rcases List.mem_append.1 hact with hact | hact
      · rw [hended act hact]
        trivial
      · rcases List.mem_cons.1 hact with rfl | hact
        · exact ⟨rfl, rfl⟩
        · rw [List.eq_of_mem_replicate hact]
          exact ⟨.inr rfl, rfl⟩
  · rw [run_append, run_append, hinit] at hany ⊢
    exact hany.inv horphans (hholder.trans hfree) (cfg.defProfile.inForce_set _)

/-- **No run is beyond repair.**  From every state that any run reaches, the end of the
orphans, a `SIGTERM` to the holder, which then goes on, and a `--init` of a new process
lead to a state from which every careful run keeps the defaults restored. -/
theorem recovers {file : ConfigFile} {cfg : LimitConfig} (hread : LimitConfig.read file = .ok cfg)
    (limits : Limits) (acts : List (Action ι)) {who : ι}
    (hnew : (run (step file) (booted limits) acts).procs who = none) :
    ∃ rest : List (Action ι),
      (∀ act ∈ rest, (run (step file) (booted limits) acts).Repairs who act) ∧
      ∀ more, Along (step file) (Careful cfg) (run (step file) (booted limits) (acts ++ rest)) more →
        Always (step file) (Restored cfg)
          (run (step file) (booted limits) (acts ++ rest)) more := by
  have h := anyInv_run hread (anyInv_booted cfg limits) acts
  obtain ⟨rest, hrepairs, hinv⟩ := exists_repaired hread h hnew
  refine ⟨rest, hrepairs, fun more hmore => ?_⟩
  rw [run_append] at hmore ⊢
  have hkept := always_of_inv (Inv cfg) (Careful cfg)
    (fun s act h hact => inv_step hread h hact) hinv hmore
  exact hkept.mono fun s h => h.restored

/-- A process is killed while it waits for `ryzenadj`, which goes on and sets its limits. -/
def orphanActions : List (Action Bool) :=
  sampleActions.take 3 ++ [.signal true .term, .orphan 0 true]

theorem always_exclusive_orphanActions :
    Always (step sampleFile) Exclusive (booted fun _ => 0) orphanActions :=
  always_exclusive read_sampleFile _ orphanActions

theorem recovers_orphanActions :
    (run (step sampleFile) (booted fun _ => 0) orphanActions).limits .stapm = 25000 ∧
      ∃ rest : List (Action Bool),
        (∀ act ∈ rest,
          (run (step sampleFile) (booted fun _ => 0) orphanActions).Repairs false act) ∧
        ∀ more,
          Along (step sampleFile) (Careful sampleConfig)
            (run (step sampleFile) (booted fun _ => 0) (orphanActions ++ rest)) more →
          Always (step sampleFile) (Restored sampleConfig)
            (run (step sampleFile) (booted fun _ => 0) (orphanActions ++ rest)) more :=
  ⟨by decide +kernel, recovers read_sampleFile _ orphanActions rfl⟩

end State
end Powerlimit
end TjTools
