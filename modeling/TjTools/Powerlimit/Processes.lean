/-
# Processes around one lock

Any number of `cpu_powerlimit` processes: `main` of `src/src/cpu_powerlimit.cpp` from the
lock on (lines 204-230), as `src/systemd/cpu-powerlimit@.service` starts it, cut into the
steps between which another process or a signal can come.  A run of `ryzenadj` takes two
of them, since it is a process of its own: a signal that kills `main` meanwhile leaves it
running without a parent, an orphan.  `pause` takes two steps as well: a signal that is handled
before `main` sleeps there does not wake it later.  The configuration file and the lock file stay
as they are.  `SIGINT` and `SIGTERM` are the only signals, and a `ryzenadj` sets all its limits at
once, or none if it fails.

`always_restored_iff`: only the holder of the lock runs `ryzenadj`, and the default limits
are in force whenever nobody holds it, in exactly those runs all steps of which are
`Careful`.
-/

import TjTools.Basis.Lock
import TjTools.Basis.Runs
import TjTools.Powerlimit.Profile

namespace TjTools
namespace Powerlimit

open Runs

inductive Signal where
  | int
  | term
  deriving DecidableEq, Repr

/-- What `main` is about to do. -/
inductive Point where
  /-- `powerlimit_lock.try_lock()` -/
  | tryLock
  /-- `limit_profile.apply()` -/
  | apply
  /-- It waits for `ryzenadj` there. -/
  | applying
  /-- `std::signal(SIGINT, signal_handler)` -/
  | signalInt
  /-- `std::signal(SIGTERM, signal_handler)` -/
  | signalTerm
  /-- `::pause()` -/
  | pause
  /-- It sleeps there. -/
  | paused
  /-- `def_profile.apply()` -/
  | restore
  /-- It waits for `ryzenadj` there. -/
  | restoring
  /-- `powerlimit_lock.unlock()` -/
  | unlock
  | exit
  deriving DecidableEq, Repr

/-- The points at which the lock is held. -/
def Point.Locked : Point → Prop
  | .tryLock | .exit => False
  | _ => True

structure Process where
  job : Job
  point : Point

namespace Process

def goto (p : Process) (point : Point) : Process := { p with point := point }

/-- The profile that a `ryzenadj` of the process is setting. -/
def running (p : Process) : Option LimitProfile :=
  match p.point with
  | .applying => some p.job.limitProfile
  | .restoring => some p.job.defProfile
  | _ => none

/-- The handler for a signal is installed. -/
def handles (p : Process) (sig : Signal) : Bool :=
  match p.point with
  | .signalTerm => decide (sig = .int)
  | .pause | .paused | .restore | .restoring => true
  | .unlock | .exit => !p.job.isInit
  | _ => false

end Process

structure State (ι : Type) where
  /-- The process that holds the lock. -/
  holder : Option ι
  /-- The limits in force. -/
  limits : Limits
  procs : ι → Option Process
  /-- What those `ryzenadj` are setting that lost their parent. -/
  orphans : List LimitProfile

inductive Action (ι : Type) where
  | start (who : ι) (args : Args)
  /-- The next step of a process; where it waits for `ryzenadj`, whether that succeeded. -/
  | next (who : ι) (success : Bool)
  | signal (who : ι) (sig : Signal)
  /-- A `ryzenadj` without parent ends. -/
  | orphan (k : ℕ) (success : Bool)

namespace State

variable {ι : Type} [DecidableEq ι]

def put (s : State ι) (who : ι) (proc : Option Process) : State ι :=
  { s with procs := Function.update s.procs who proc }

/-- `ryzenadj` sets the limits of a profile. -/
def applied (s : State ι) (profile : LimitProfile) : State ι :=
  { s with limits := s.limits.set profile.settings }

/-- The kernel or the process itself releases the lock. -/
def release (s : State ι) (who : ι) : State ι :=
  { s with holder := if s.holder = some who then none else s.holder }

def lock (s : State ι) (who : ι) : State ι := { s with holder := some who }

/-- The process ends. -/
def die (s : State ι) (who : ι) : State ι := (s.release who).put who none

/-- A signal ends the process. -/
def kill (s : State ι) (who : ι) (p : Process) : State ι :=
  { s.die who with orphans := s.orphans ++ p.running.toList }

/-- The next step of a process. -/
def advance (s : State ι) (who : ι) (p : Process) (success : Bool) : State ι :=
  match p.point with
  | .tryLock =>
    if s.holder = none then (s.lock who).put who (p.goto .apply) else s.die who
  | .apply => s.put who (p.goto .applying)
  | .applying =>
    if success then
      (s.applied p.job.limitProfile).put who
        (p.goto (if p.job.isInit then .unlock else .signalInt))
    else s.die who
  | .signalInt => s.put who (p.goto .signalTerm)
  | .signalTerm => s.put who (p.goto .pause)
  | .pause => s.put who (p.goto .paused)
  | .paused => s
  | .restore => s.put who (p.goto .restoring)
  | .restoring =>
    if success then (s.applied p.job.defProfile).put who (p.goto .unlock) else s.die who
  | .unlock => (s.release who).put who (p.goto .exit)
  | .exit => s.die who

/-- A signal that arrives at a process. -/
def deliver (s : State ι) (who : ι) (p : Process) (sig : Signal) : State ι :=
  if p.handles sig then
    if p.point = .paused then s.put who (p.goto .restore) else s
  else s.kill who p

def step (file : ConfigFile) (s : State ι) : Action ι → State ι
  | .start who args =>
    match s.procs who with
    | some _ => s
    | none =>
      match prologue file args with
      | .ok job => s.put who (some ⟨job, .tryLock⟩)
      | .error _ => s
  | .next who success =>
    match s.procs who with
    | some p => s.advance who p success
    | none => s
  | .signal who sig =>
    match s.procs who with
    | some p => s.deliver who p sig
    | none => s
  | .orphan k success =>
    match s.orphans[k]? with
    | some profile =>
      { (if success then s.applied profile else s) with orphans := s.orphans.eraseIdx k }
    | none => s

/-- No process, a free lock, and any limits. -/
def booted (limits : Limits) : State ι := ⟨none, limits, fun _ => none, []⟩

/-- A `--init` that succeeds. -/
def initActions (who : ι) : List (Action ι) :=
  .start who { init := true } :: List.replicate 5 (.next who true)

/-! ### The property, and which steps keep it -/

/-- Only the holder of the lock runs `ryzenadj`, and the default limits are in force whenever
nobody holds it. -/
structure Restored (cfg : LimitConfig) (s : State ι) : Prop where
  noOrphans : s.orphans = []
  runner : ∀ w p, s.procs w = some p → p.running.isSome = true → s.holder = some w
  default : s.holder = none → cfg.defProfile.InForce s.limits

/-- No signal kills a process that waits for `ryzenadj`, or one without handlers yet whose
limits differ from the default ones, and no `ryzenadj` fails to restore such limits. -/
def Careful (cfg : LimitConfig) (s : State ι) : Action ι → Prop
  | .signal who sig =>
    ∀ p, s.procs who = some p → p.handles sig = false →
      p.point ≠ .applying ∧
        (p.point = .signalInt ∨ p.point = .signalTerm → cfg.defProfile.InForce s.limits)
  | .next who success =>
    ∀ p, s.procs who = some p → p.point = .restoring → success = false →
      cfg.defProfile.InForce s.limits
  | _ => True

/-! ### The invariant -/

/-- The default limits are in force at some of the points at which the lock is held. -/
def AtRest : Point → Prop
  | .apply | .applying | .unlock => True
  | _ => False

theorem AtRest.locked {point : Point} (h : AtRest point) : point.Locked := by
  cases point
  all_goals trivial

theorem locked_of_running {p : Process} (h : p.running.isSome = true) : p.point.Locked := by
  rcases p with ⟨job, point⟩
  cases point
  all_goals trivial

/-- What holds of a process. -/
structure Sound (cfg : LimitConfig) (limits : Limits) (p : Process) : Prop where
  defProfile : p.job.defProfile = cfg.defProfile
  init : p.job.isInit = true → p.job.limitProfile = cfg.defProfile
  atRest : AtRest p.point → cfg.defProfile.InForce limits

/-- A process that is past the lock and has not released it. -/
def Inside (s : State ι) (w : ι) : Prop := ∃ p, s.procs w = some p ∧ p.point.Locked

structure Inv (cfg : LimitConfig) (s : State ι) : Prop where
  noOrphans : s.orphans = []
  guards : Guards s.holder s.Inside
  default : s.holder = none → cfg.defProfile.InForce s.limits
  sound : ∀ w p, s.procs w = some p → Sound cfg s.limits p

omit [DecidableEq ι] in
theorem Inv.restored {cfg : LimitConfig} {s : State ι} (h : s.Inv cfg) : s.Restored cfg := by
  refine ⟨h.noOrphans, fun w p hp hrunning => ?_, h.default⟩
  exact (h.guards w).1 ⟨p, hp, locked_of_running hrunning⟩

theorem inside_put_self (s : State ι) (who : ι) (p : Process) :
    (s.put who (some p)).Inside who ↔ p.point.Locked := by
  simp [Inside, put]

theorem not_inside_put_none (s : State ι) (who : ι) : ¬(s.put who none).Inside who := by
  simp [Inside, put]

theorem inside_put_other (s : State ι) {who w : ι} (hw : w ≠ who) (proc : Option Process) :
    (s.put who proc).Inside w ↔ s.Inside w := by
  simp [Inside, put, hw]

theorem sound_put {cfg : LimitConfig} {s : State ι} {limits : Limits} {who : ι}
    {proc : Option Process} (hothers : ∀ w p, w ≠ who → s.procs w = some p → Sound cfg limits p)
    (hproc : ∀ p, proc = some p → Sound cfg limits p) (w : ι) (p : Process)
    (hp : (s.put who proc).procs w = some p) : Sound cfg limits p := by
  by_cases hw : w = who
  · subst hw
    exact hproc p (by simpa [put] using hp)
  · exact hothers w p hw (by simpa [put, hw] using hp)

/-- A process moves on and stays inside, or outside. -/
theorem inv_put {cfg : LimitConfig} {s : State ι} (h : s.Inv cfg) {who : ι} {p p' : Process}
    (hp : s.procs who = some p) (hlocked : p'.point.Locked ↔ p.point.Locked)
    (hsound : Sound cfg s.limits p') : (s.put who (some p')).Inv cfg := by
  refine ⟨h.noOrphans, ?_, h.default, ?_⟩
  · refine h.guards.keep ?_ fun w hw => inside_put_other s hw _
    rw [inside_put_self, hlocked]
    simp [Inside, hp]
  · refine sound_put (fun w p _ hw => h.sound w p hw) ?_
    rintro _ ⟨⟩
    exact hsound

/-- A process that is not inside, and one that was, can end with the default limits in force. -/
theorem inv_die {cfg : LimitConfig} {s : State ι} (h : s.Inv cfg) (who : ι)
    (hdefault : s.holder = some who → cfg.defProfile.InForce s.limits) : (s.die who).Inv cfg := by
  refine ⟨h.noOrphans, ?_, ?_, ?_⟩
  · exact h.guards.leave (not_inside_put_none _ _) fun w hw => inside_put_other _ hw _
  · intro hfree
    by_cases hheld : s.holder = some who
    · exact hdefault hheld
    · exact h.default (by simpa [die, put, release, hheld] using hfree)
  · refine sound_put (fun w p _ hw => h.sound w p hw) ?_
    rintro _ ⟨⟩

/-- The holder's `ryzenadj` sets limits: nobody else depends on those before. -/
theorem inv_applied {cfg : LimitConfig} {s : State ι} (h : s.Inv cfg) {who : ι} {p p' : Process}
    {profile : LimitProfile} (hp : s.procs who = some p) (hlocked : p.point.Locked)
    (hlocked' : p'.point.Locked) (hsound : Sound cfg (s.limits.set profile.settings) p') :
    ((s.applied profile).put who (some p')).Inv cfg := by
  have hinside : s.Inside who := ⟨p, hp, hlocked⟩
  have hheld : s.holder = some who := (h.guards who).1 hinside
  refine ⟨h.noOrphans, ?_, ?_, ?_⟩
  · refine h.guards.keep ?_ fun w hw => inside_put_other _ hw _
    rw [inside_put_self]
    exact iff_of_true hlocked' hinside
  · intro hfree
    exact absurd (hheld.symm.trans hfree) (by simp)
  · refine sound_put ?_ ?_
    · intro w q hw hq
      have hsoundq := h.sound w q hq
      refine ⟨hsoundq.defProfile, hsoundq.init, fun hrest => ?_⟩
      exact absurd (h.guards.exclusive ⟨q, hq, hrest.locked⟩ hinside) hw
    · rintro _ ⟨⟩
      exact hsound

/-- A process outside locks the free lock: the default limits are in force. -/
theorem inv_lock {cfg : LimitConfig} {s : State ι} (h : s.Inv cfg) {who : ι} {p' : Process}
    (hfree : s.holder = none) (hlocked : p'.point.Locked) (hsound : Sound cfg s.limits p') :
    ((s.lock who).put who (some p')).Inv cfg := by
  refine ⟨h.noOrphans, ?_, fun hnone => absurd hnone (by simp [lock, put]), ?_⟩
  · have hguards := h.guards
    rw [hfree] at hguards
    refine hguards.acquire ?_ fun w hw => inside_put_other _ hw _
    rw [inside_put_self]
    exact hlocked
  · refine sound_put (fun w q _ hq => h.sound w q hq) ?_
    rintro _ ⟨⟩
    exact hsound

/-- A process lets the lock go with the default limits in force. -/
theorem inv_unlock {cfg : LimitConfig} {s : State ι} (h : s.Inv cfg) {who : ι} {p' : Process}
    (hforce : cfg.defProfile.InForce s.limits) (hunlocked : ¬p'.point.Locked)
    (hsound : Sound cfg s.limits p') : ((s.release who).put who (some p')).Inv cfg := by
  refine ⟨h.noOrphans, ?_, fun _ => hforce, ?_⟩
  · refine h.guards.leave ?_ fun w hw => inside_put_other _ hw _
    rw [inside_put_self]
    exact hunlocked
  · refine sound_put (fun w q _ hq => h.sound w q hq) ?_
    rintro _ ⟨⟩
    exact hsound

omit [DecidableEq ι] in
theorem Inv.locked_of_holder {cfg : LimitConfig} {s : State ι} (h : s.Inv cfg) {who : ι}
    {p : Process} (hp : s.procs who = some p) (hheld : s.holder = some who) : p.point.Locked := by
  obtain ⟨q, hq, hlocked⟩ := (h.guards who).2 hheld
  rw [hp] at hq
  cases hq
  exact hlocked

theorem inv_advance {cfg : LimitConfig} {s : State ι} (h : s.Inv cfg) {who : ι} {p : Process}
    (hp : s.procs who = some p) {success : Bool}
    (hcareful : p.point = .restoring → success = false → cfg.defProfile.InForce s.limits) :
    (s.advance who p success).Inv cfg := by
  have hsound := h.sound who p hp
  rcases p with ⟨job, point⟩
  unfold advance
  cases point with
  | tryLock =>
    simp only
    split_ifs with hfree
    · have hforce := h.default hfree
      exact inv_lock h hfree trivial ⟨hsound.defProfile, hsound.init, fun _ => hforce⟩
    · exact inv_die h who fun hheld => (h.locked_of_holder hp hheld).elim
  | apply =>
    exact inv_put h hp Iff.rfl ⟨hsound.defProfile, hsound.init, fun _ => hsound.atRest trivial⟩
  | applying =>
    cases success with
    | true =>
      refine inv_applied h hp trivial ?_ ⟨hsound.defProfile, hsound.init, ?_⟩
      · cases hinit : job.isInit
        all_goals trivial
      · cases hinit : job.isInit with
        | false => exact fun hrest => hrest.elim
        | true =>
          intro _
          rw [hsound.init hinit]
          exact cfg.defProfile.inForce_set s.limits
    | false => exact inv_die h who fun _ => hsound.atRest trivial
  | signalInt =>
    exact inv_put h hp Iff.rfl ⟨hsound.defProfile, hsound.init, fun hrest => hrest.elim⟩
  | signalTerm =>
    exact inv_put h hp Iff.rfl ⟨hsound.defProfile, hsound.init, fun hrest => hrest.elim⟩
  | pause =>
    exact inv_put h hp Iff.rfl ⟨hsound.defProfile, hsound.init, fun hrest => hrest.elim⟩
  | paused => exact h
  | restore =>
    exact inv_put h hp Iff.rfl ⟨hsound.defProfile, hsound.init, fun hrest => hrest.elim⟩
  | restoring =>
    cases success with
    | true =>
      refine inv_applied h hp trivial trivial ⟨hsound.defProfile, hsound.init, fun _ => ?_⟩
      rw [hsound.defProfile]
      exact cfg.defProfile.inForce_set s.limits
    | false => exact inv_die h who fun _ => hcareful rfl rfl
  | unlock =>
    have hforce : cfg.defProfile.InForce s.limits := hsound.atRest trivial
    exact inv_unlock h hforce (fun hlocked => hlocked)
      ⟨hsound.defProfile, hsound.init, fun hrest => hrest.elim⟩
  | exit => exact inv_die h who fun hheld => (h.locked_of_holder hp hheld).elim

omit [DecidableEq ι] in
/-- Only a process that is setting its own profile can be killed with a `ryzenadj`. -/
theorem running_of_handles {p : Process} {sig : Signal} (h : p.handles sig = false) :
    p.running = if p.point = .applying then some p.job.limitProfile else none := by
  rcases p with ⟨job, point⟩
  cases point with
  | restoring => exact Bool.noConfusion h
  | _ => rfl

theorem inv_deliver {cfg : LimitConfig} {s : State ι} (h : s.Inv cfg) {who : ι} {p : Process}
    (hp : s.procs who = some p) {sig : Signal}
    (hcareful : p.handles sig = false → p.point ≠ .applying ∧
      (p.point = .signalInt ∨ p.point = .signalTerm → cfg.defProfile.InForce s.limits)) :
    (s.deliver who p sig).Inv cfg := by
  have hsound := h.sound who p hp
  unfold deliver
  split_ifs with hhandles hpause
  · refine inv_put h hp ?_ ⟨hsound.defProfile, hsound.init, fun hrest => hrest.elim⟩
    rw [hpause]
    exact Iff.rfl
  · exact h
  · have hunhandled : p.handles sig = false := by simpa using hhandles
    obtain ⟨hnotApplying, hforce⟩ := hcareful hunhandled
    have hkill : s.kill who p = s.die who := by
      rw [kill, running_of_handles hunhandled, if_neg hnotApplying, Option.toList_none,
        List.append_nil]
      rfl
    rw [hkill]
    refine inv_die h who fun hheld => ?_
    have hlocked := h.locked_of_holder hp hheld
    rcases p with ⟨job, point⟩
    cases point with
    | tryLock => exact hlocked.elim
    | apply => exact hsound.atRest trivial
    | applying => exact hsound.atRest trivial
    | signalInt => exact hforce (.inl rfl)
    | signalTerm => exact hforce (.inr rfl)
    | pause => exact Bool.noConfusion hunhandled
    | paused => exact Bool.noConfusion hunhandled
    | restore => exact Bool.noConfusion hunhandled
    | restoring => exact Bool.noConfusion hunhandled
    | unlock => exact hsound.atRest trivial
    | exit => exact hlocked.elim

/-- **A careful step keeps the invariant.** -/
theorem inv_step {file : ConfigFile} {cfg : LimitConfig} (hread : LimitConfig.read file = .ok cfg)
    {s : State ι} {act : Action ι} (h : s.Inv cfg) (hact : s.Careful cfg act) :
    (s.step file act).Inv cfg := by
  cases act with
  | start who args =>
    simp only [step]
    rcases hp : s.procs who with _ | p
    · rcases hprologue : prologue file args with e | job
      · exact h
      · obtain ⟨hdefProfile, hinit⟩ := prologue_spec hread hprologue
        refine ⟨h.noOrphans, ?_, h.default, ?_⟩
        · refine h.guards.keep ?_ fun w hw => inside_put_other s hw _
          rw [inside_put_self]
          simp [Inside, hp, Point.Locked]
        · refine sound_put (fun w q _ hq => h.sound w q hq) ?_
          rintro _ ⟨⟩
          exact ⟨hdefProfile, hinit, fun hrest => hrest.elim⟩
    · exact h
  | next who success =>
    simp only [step]
    rcases hp : s.procs who with _ | p
    · exact h
    · exact inv_advance h hp (hact p hp)
  | signal who sig =>
    simp only [step]
    rcases hp : s.procs who with _ | p
    · exact h
    · exact inv_deliver h hp (hact p hp)
  | orphan k success =>
    simp only [step, h.noOrphans, List.getElem?_nil]
    exact h

/-- **A step that is not careful breaks the property.** -/
theorem careful_of_restored {file : ConfigFile} {cfg : LimitConfig} {s : State ι}
    {act : Action ι} (h : s.Inv cfg) (hafter : (s.step file act).Restored cfg) :
    s.Careful cfg act := by
  cases act with
  | start who args => trivial
  | next who success =>
    intro p hp hrestoring hfails
    have hheld : s.holder = some who :=
      (h.guards who).1 ⟨p, hp, by rw [hrestoring]; trivial⟩
    simp only [step, hp, advance, hrestoring, hfails, Bool.false_eq_true, if_false] at hafter
    exact hafter.default (by simp [die, put, release, hheld])
  | signal who sig =>
    intro p hp hunhandled
    simp only [step, hp, deliver, hunhandled, Bool.false_eq_true, if_false] at hafter
    constructor
    · intro happlying
      have hnone := hafter.noOrphans
      rw [kill, running_of_handles hunhandled, if_pos happlying] at hnone
      simp at hnone
    · intro hpoint
      have hheld : s.holder = some who := by
        refine (h.guards who).1 ⟨p, hp, ?_⟩
        rcases hpoint with hpoint | hpoint
        all_goals
          rw [hpoint]
          trivial
      exact hafter.default (by simp [kill, die, put, release, hheld])
  | orphan k success => trivial

/-- A `--init` that succeeds leaves nothing behind but the default limits. -/
theorem run_initActions {file : ConfigFile} {cfg : LimitConfig}
    (hread : LimitConfig.read file = .ok cfg) (limits : Limits) (who : ι) :
    run (step file) (booted limits) (initActions who)
      = booted (limits.set cfg.defProfile.settings) := by
  simp [initActions, List.replicate, step, prologue_init hread, booted, advance, put, lock, release,
    applied, die, Process.goto]

omit [DecidableEq ι] in
theorem inv_booted {cfg : LimitConfig} {limits : Limits}
    (hlimits : cfg.defProfile.InForce limits) : (booted limits : State ι).Inv cfg := by
  refine ⟨rfl, ?_, fun _ => hlimits, ?_⟩
  · intro w
    simp [Inside, booted]
  · intro w p hp
    simp [booted] at hp

/-- **The defaults are always restored, in exactly the careful runs.**  After one completed
`--init`, in every interleaving of the processes and the signals: only the holder of the
lock runs `ryzenadj`, and the default limits are in force whenever nobody holds it, if and
only if every step is careful. -/
theorem always_restored_iff {file : ConfigFile} {cfg : LimitConfig}
    (hread : LimitConfig.read file = .ok cfg) (limits : Limits) (first : ι)
    (acts : List (Action ι)) :
    Always (step file) (Restored cfg) (run (step file) (booted limits) (initActions first)) acts ↔
      Along (step file) (Careful cfg) (run (step file) (booted limits) (initActions first))
        acts := by
  rw [run_initActions hread]
  exact always_iff_along (Inv cfg) (fun _ _ h hact => inv_step hread h hact) (fun _ h => h.restored)
    (fun _ _ h hafter => careful_of_restored h hafter)
    (inv_booted (cfg.defProfile.inForce_set limits)) acts

instance (cfg : LimitConfig) (s : State ι) (act : Action ι) : Decidable (s.Careful cfg act) :=
  match act with
  | .start _ _ => .isTrue trivial
  | .next who success => inferInstanceAs (Decidable (∀ p ∈ s.procs who, _ → success = false → _))
  | .signal who sig => inferInstanceAs (Decidable (∀ p ∈ s.procs who, p.handles sig = false → _))
  | .orphan _ _ => .isTrue trivial

/-- A configuration with two profiles. -/
def sampleConfig : LimitConfig where
  fastMultiplier := 6 / 5
  slowMultiplier := 11 / 10
  profiles := [("default", ⟨15, 20, 18, some 90⟩), ("games", ⟨25, 30, 28, some 95⟩)]
  hasDefault := rfl

def sampleFile : ConfigFile :=
  .parsed (.object [("fast_multiplier", .number (6 / 5)),
    ("profiles", .object
      [("default", .object [("fast_limit", .number 20), ("slow_limit", .number 18),
          ("stapm_limit", .number 15), ("tctl_temp", .number 90)]),
        ("games", .object [("fast_limit", .number 30), ("slow_limit", .number 28),
          ("stapm_limit", .number 25), ("tctl_temp", .number 95)])]),
    ("slow_multiplier", .number (11 / 10))])

theorem read_sampleFile : LimitConfig.read sampleFile = .ok sampleConfig := rfl

/-- A process takes the lock, sets limits, installs its handlers and pauses. -/
def sampleActions : List (Action Bool) :=
  .start true { profile := some "games" } :: List.replicate 6 (.next true true)

/-- Stopped while it pauses, with a second process turned away meanwhile, it restores
the default limits. -/
theorem always_restored_sampleFile :
    Always (step sampleFile) (Restored sampleConfig)
      (run (step sampleFile) (booted fun _ => 0) (initActions false))
      (sampleActions ++ [.start false { profile := some "default" }, .next false true,
        .signal true .term] ++ List.replicate 4 (.next true true)) :=
  (always_restored_iff read_sampleFile _ false _).2 (by decide +kernel)

/-- Stopped before it has its handlers, it leaves its limits in force. -/
theorem not_always_restored :
    ¬∀ (file : ConfigFile) (cfg : LimitConfig), LimitConfig.read file = .ok cfg →
      ∀ (limits : Limits) (first : Bool) (acts : List (Action Bool)),
        Always (step file) (Restored cfg) (run (step file) (booted limits) (initActions first))
          acts := by
  intro h
  have hlast := (h sampleFile sampleConfig read_sampleFile (fun _ => 0) false
    (sampleActions.take 4 ++ [.signal true .term])).last
  have hforce := hlast.default (by decide +kernel)
  revert hforce
  decide +kernel

end State
end Powerlimit
end TjTools
