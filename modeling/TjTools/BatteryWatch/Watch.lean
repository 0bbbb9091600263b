/-
# Watching a battery

`main` of `src/src/battery_watch.cpp` (lines 164-230) checks its options and then polls, suspends
where the battery is critical (`sys_suspend`, lines 54-65), and sleeps, until something throws.

A `Moment` is what a turn of the loop meets: the device, if there is one, what becomes of writing
to `/sys/power/state`, and by how much its sleeps are longer than was asked for.  The clock counts
milliseconds.  What a turn comes to does not depend on those before it (`turn_verdict`), so a run
suspends exactly at its critical readings, up to the first exception, and no sooner after one than
the cooldown and the interval allow (`watch_run`).

A `float` is a rational number, without rounding, as in the rest of the model; so the threshold
`nan`, which `main` takes too, is left out.  So are the texts on `stdout` and `stderr`, and what
boost throws at options it cannot read.
-/

import Mathlib.Data.List.Induction
import TjTools.BatteryWatch
import TjTools.Basis.Runs

namespace TjTools
namespace BatteryWatch

open Runs

def ENOMEM : ℕ := 12

/-- In milliseconds. -/
def kCooldownTime : ℕ := 5000

/-- The options that are given. -/
structure Options where
  help : Bool
  /-- In seconds. -/
  interval : Option ℕ
  treshold : Option ℚ
  device : Option String

inductive Start where
  | exit (code : ℕ)
  | threw (errno : ℕ)
  | watch (interval : ℕ) (treshold : ℚ)

/-- `main`, up to the loop; `udevNew` is whether `udev_new` gives a context. -/
def main (udevNew : Bool) (vm : Options) : Start :=
  if vm.help then .exit 0
  else
    match vm.interval, vm.treshold, vm.device with
    | none, _, _ => .exit 1
    | some _, none, _ => .exit 2
    | some _, some _, none => .exit 3
    | some interval, some treshold, some device =>
      if treshold ≤ 5 ∨ treshold ≥ 95 then .exit 4
      else if ¬udevNew then .threw ENOMEM
      else if device = "" then .threw EINVAL
      else .watch interval treshold

structure Moment where
  device : Option Device
  /-- What writing `mem` to `/sys/power/state` comes to. -/
  wrote : Except ℕ Unit
  late : ℕ

structure Watch where
  clock : ℕ
  context : BatteryContext
  /-- When the battery was polled, and when the system was suspended. -/
  polls : List ℕ
  suspends : List ℕ
  /-- The exception that ended the process. -/
  ended : Option ℕ

namespace Watch

def fresh (clock : ℕ) : Watch := ⟨clock, {}, [], [], none⟩

/-- A turn of the loop. -/
def step (interval : ℕ) (treshold : ℚ) (w : Watch) (m : Moment) : Watch :=
  match w.ended with
  | some _ => w
  | none =>
    let w := { w with polls := w.polls ++ [w.clock] }
    match (turn treshold m.device).run w.context with
    | .error e context => { w with context := context, ended := some e }
    | .ok false context =>
      { w with context := context, clock := w.clock + 1000 * interval + m.late }
    | .ok true context =>
      match m.wrote with
      | .error e => { w with context := context, ended := some e }
      | .ok () =>
        { w with
          context := context
          suspends := w.suspends ++ [w.clock]
          clock := w.clock + kCooldownTime + 1000 * interval + m.late }

end Watch

/-! ### One turn -/

/-- What a turn decides. -/
def verdict (treshold : ℚ) : Option Device → Except ℕ Bool
  | none => .error ENODEV
  | some device =>
    match charges device with
    | .error e => .error e
    | .ok (chargeFull, chargeNow) =>
      if chargeFull = 0 ∨ chargeNow = 0 then .error EINVAL
      else
        let r : Reading := ⟨getSysattrValue device "status", chargeFull, chargeNow⟩
        .ok (r.context.isCritical treshold)

/-- **A turn is not told what was before.** -/
theorem turn_verdict (treshold : ℚ) (device : Option Device) (c : BatteryContext) :
    match verdict treshold device with
    | .error e => ∃ c', (turn treshold device).run c = .error e c'
    | .ok critical => ∃ c', (turn treshold device).run c = .ok critical c' := by
  cases device with
  | none => exact ⟨c, rfl⟩
  | some device =>
    rw [verdict]
    rcases hcharges : charges device with e | ⟨chargeFull, chargeNow⟩
    · refine ⟨{ c with state := .ofStatus (getSysattrValue device "status") }, ?_⟩
      unfold turn poll
      rw [EStateM.run_bind, EStateM.run_bind]
      simp only [EStateM.run_modify, hcharges]
      rfl
    · simp only
      unfold turn poll
      rw [EStateM.run_bind, EStateM.run_bind]
      simp only [EStateM.run_modify, hcharges]
      split_ifs with hempty
      · exact ⟨_, rfl⟩
      · exact ⟨_, rfl⟩

namespace Moment

/-- Whether a turn suspends the system, or the exception it throws. -/
def outcome (treshold : ℚ) (m : Moment) : Except ℕ Bool :=
  match verdict treshold m.device with
  | .error e => .error e
  | .ok false => .ok false
  | .ok true =>
    match m.wrote with
    | .error e => .error e
    | .ok () => .ok true

def threw (treshold : ℚ) (m : Moment) : Option ℕ :=
  match m.outcome treshold with
  | .error e => some e
  | .ok _ => none

def suspends (treshold : ℚ) (m : Moment) : Bool :=
  match m.outcome treshold with
  | .ok true => true
  | _ => false

end Moment

/-- The turns before the first exception. -/
def lived (treshold : ℚ) (ms : List Moment) : List Moment :=
  ms.takeWhile fun m => (m.threw treshold).isNone

/-- The times of the polls, one for each moment, at which the system is suspended. -/
def suspensions (treshold : ℚ) (polls : List ℕ) (ms : List Moment) : List ℕ :=
  ((polls.zip ms).filter fun p => p.2.suspends treshold).map Prod.fst

section

variable {interval : ℕ} {treshold : ℚ} {w : Watch} {m : Moment} {ms : List Moment}

theorem step_of_ended {e : ℕ} (h : w.ended = some e) : w.step interval treshold m = w := by
  rw [Watch.step, h]

/-- What a turn does, but for the object. -/
theorem step_cases (interval : ℕ) (treshold : ℚ) (m : Moment) (h : w.ended = none) :
    (∃ e c, m.threw treshold = some e ∧ m.suspends treshold = false ∧
      w.step interval treshold m =
        { w with polls := w.polls ++ [w.clock], context := c, ended := some e }) ∨
    (∃ c, m.threw treshold = none ∧ m.suspends treshold = false ∧
      w.step interval treshold m =
        { w with
          polls := w.polls ++ [w.clock]
          context := c
          clock := w.clock + 1000 * interval + m.late }) ∨
    ∃ c, m.threw treshold = none ∧ m.suspends treshold = true ∧
      w.step interval treshold m =
        { w with
          polls := w.polls ++ [w.clock]
          context := c
          suspends := w.suspends ++ [w.clock]
          clock := w.clock + kCooldownTime + 1000 * interval + m.late } := by
  have hturn := turn_verdict treshold m.device w.context
  unfold Watch.step Moment.threw Moment.suspends Moment.outcome
  rw [h]
  rcases hverdict : verdict treshold m.device with e | critical
  all_goals rw [hverdict] at hturn
  · obtain ⟨c, hrun⟩ := hturn
    exact .inl ⟨e, c, rfl, rfl, by simp only [hrun]⟩
  · obtain ⟨c, hrun⟩ := hturn
    cases critical with
    | false => exact .inr (.inl ⟨c, rfl, rfl, by simp only [hrun]⟩)
    | true =>
      rcases hwrote : m.wrote with e | ⟨⟩
      · exact .inl ⟨e, c, rfl, rfl, by simp only [hrun]⟩
      · exact .inr (.inr ⟨c, rfl, rfl, by simp only [hrun]⟩)

/-- What a run has come to. -/
structure Watched (interval : ℕ) (treshold : ℚ) (ms : List Moment) (w : Watch) : Prop where
  ended : w.ended = ms.findSome? (Moment.threw treshold)
  polls : w.polls.length = (lived treshold ms).length + if w.ended = none then 0 else 1
  suspends : w.suspends = suspensions treshold w.polls (lived treshold ms)
  paced : w.polls.Pairwise fun a b => a + 1000 * interval ≤ b
  cooled : w.suspends.Pairwise fun a b => a + kCooldownTime + 1000 * interval ≤ b
  polled : w.ended = none → ∀ a ∈ w.polls, a + 1000 * interval ≤ w.clock
  suspended : w.ended = none → ∀ a ∈ w.suspends, a + kCooldownTime + 1000 * interval ≤ w.clock

theorem watched_fresh (clock : ℕ) : Watched interval treshold [] (.fresh clock) where
  ended := rfl
  polls := rfl
  suspends := rfl
  paced := .nil
  cooled := .nil
  polled := fun _ _ ha => absurd ha List.not_mem_nil
  suspended := fun _ _ ha => absurd ha List.not_mem_nil

/-- Nothing after an exception counts. -/
theorem lived_append {e : ℕ} (h : ms.findSome? (Moment.threw treshold) = some e)
    (later : List Moment) : lived treshold (ms ++ later) = lived treshold ms := by
  induction ms with
  | nil => cases h
  | cons m ms ih =>
    rw [lived, List.cons_append, List.takeWhile_cons, lived, List.takeWhile_cons]
    rcases hthrew : m.threw treshold with _ | e'
    · rw [List.findSome?_cons, hthrew] at h
      simpa [lived] using ih h
    · rfl

theorem lived_eq (h : ms.findSome? (Moment.threw treshold) = none) : lived treshold ms = ms := by
  refine List.takeWhile_eq_self_iff.2 fun m hm => ?_
  rw [List.findSome?_eq_none_iff.1 h m hm]
  rfl

theorem lived_concat (h : ms.findSome? (Moment.threw treshold) = none) (m : Moment) :
    lived treshold (ms ++ [m]) = ms ++ if m.threw treshold = none then [m] else [] := by
  have hnone := List.takeWhile_eq_self_iff.1 (lived_eq h)
  rw [lived, List.takeWhile_append_of_pos hnone, List.takeWhile_cons]
  cases m.threw treshold with
  | none => rfl
  | some e => rfl

/-- Every time so far is followed by the clock. -/
theorem pairwise_concat {times : List ℕ} {gap clock : ℕ}
    (h : times.Pairwise fun a b => a + gap ≤ b) (hclock : ∀ a ∈ times, a + gap ≤ clock) :
    (times ++ [clock]).Pairwise fun a b => a + gap ≤ b := by
  refine List.pairwise_append.2 ⟨h, List.pairwise_singleton _ _, fun a ha b hb => ?_⟩
  rw [List.mem_singleton.1 hb]
  exact hclock a ha

theorem followed_concat {times : List ℕ} {gap clock later : ℕ} (h : ∀ a ∈ times, a + gap ≤ clock)
    (hlater : clock + gap ≤ later) : ∀ a ∈ times ++ [clock], a + gap ≤ later := by
  intro a ha
  rcases List.mem_append.1 ha with hold | hnew
  · have hle := h a hold
    omega
  · rw [List.mem_singleton.1 hnew]
    exact hlater

theorem suspensions_concat (treshold : ℚ) (m : Moment) {polls : List ℕ}
    (h : polls.length = ms.length) (time : ℕ) :
    suspensions treshold (polls ++ [time]) ms = suspensions treshold polls ms ∧
      suspensions treshold (polls ++ [time]) (ms ++ [m]) =
        suspensions treshold polls ms ++ if m.suspends treshold then [time] else [] := by
  constructor
  · have hzip : (polls ++ [time]).zip ms = polls.zip ms := by
      have hparts := @List.zip_append _ _ polls [time] ms [] h
      simpa using hparts
    rw [suspensions, hzip, suspensions]
  · rw [suspensions, List.zip_append h, List.filter_append, List.map_append, suspensions]
    cases hsuspends : m.suspends treshold with
    | false => simp [hsuspends]
    | true => simp [hsuspends]

/-- While the process lives, every moment had its poll. -/
theorem Watched.alive (h : Watched interval treshold ms w) (hended : w.ended = none) :
    w.polls.length = ms.length ∧ w.suspends = suspensions treshold w.polls ms := by
  have hms : lived treshold ms = ms := lived_eq (h.ended.symm.trans hended)
  constructor
  · rw [h.polls, hms, hended, if_pos rfl, Nat.add_zero]
  · rw [h.suspends, hms]

/-- The last poll ends the process. -/
theorem Watched.throws (h : Watched interval treshold ms w) (hended : w.ended = none) {e : ℕ}
    (hthrew : m.threw treshold = some e) (c : BatteryContext) :
    Watched interval treshold (ms ++ [m])
      { w with polls := w.polls ++ [w.clock], context := c, ended := some e } := by
  have hfind := h.ended.symm.trans hended
  have hlived := lived_concat hfind m
  rw [hthrew, if_neg (Option.some_ne_none e), List.append_nil] at hlived
  obtain ⟨hpolls, hsuspends⟩ := h.alive hended
  have hpaced := pairwise_concat h.paced (h.polled hended)
  refine ⟨?_, ?_, ?_, hpaced, h.cooled, fun hnone => ?_, fun hnone => ?_⟩
  · simp [List.findSome?_append, hfind, hthrew]
  · simp [hlived, hpolls]
  · rw [hlived, (suspensions_concat treshold m hpolls w.clock).1]
    exact hsuspends
  · cases hnone
  · cases hnone

/-- A moment that is not critical. -/
theorem Watched.waits (h : Watched interval treshold ms w) (hended : w.ended = none)
    (hthrew : m.threw treshold = none) (hquiet : m.suspends treshold = false)
    (c : BatteryContext) :
    Watched interval treshold (ms ++ [m])
      { w with
        polls := w.polls ++ [w.clock]
        context := c
        clock := w.clock + 1000 * interval + m.late } := by
  have hfind := h.ended.symm.trans hended
  have hlived := lived_concat hfind m
  rw [hthrew, if_pos rfl] at hlived
  obtain ⟨hpolls, hsuspends⟩ := h.alive hended
  have hpaced := pairwise_concat h.paced (h.polled hended)
  refine ⟨?_, ?_, ?_, hpaced, h.cooled, fun _ => ?_, fun _ a ha => ?_⟩
  · simp [List.findSome?_append, hfind, hthrew, hended]
  · simp [hlived, hpolls, hended]
  · rw [hlived, (suspensions_concat treshold m hpolls w.clock).2, hquiet]
    simpa using hsuspends
  · exact followed_concat (h.polled hended) (Nat.le_add_right _ _)
  · have hle := h.suspended hended a ha
    exact hle.trans ((Nat.le_add_right _ _).trans (Nat.le_add_right _ _))

/-- A critical moment. -/
theorem Watched.sleeps (h : Watched interval treshold ms w) (hended : w.ended = none)
    (hthrew : m.threw treshold = none) (hcritical : m.suspends treshold = true)
    (c : BatteryContext) :
    Watched interval treshold (ms ++ [m])
      { w with
        polls := w.polls ++ [w.clock]
        context := c
        suspends := w.suspends ++ [w.clock]
        clock := w.clock + kCooldownTime + 1000 * interval + m.late } := by
  have hfind := h.ended.symm.trans hended
  have hlived := lived_concat hfind m
  rw [hthrew, if_pos rfl] at hlived
  obtain ⟨hpolls, hsuspends⟩ := h.alive hended
  have hpaced := pairwise_concat h.paced (h.polled hended)
  have hcooled := h.suspended hended
  simp only [Nat.add_assoc] at hcooled
  refine ⟨?_, ?_, ?_, hpaced, ?_, fun _ => ?_, fun _ => ?_⟩
  · simp [List.findSome?_append, hfind, hthrew, hended]
  · simp [hlived, hpolls, hended]
  · rw [hlived, (suspensions_concat treshold m hpolls w.clock).2, hcritical, if_pos rfl, hsuspends]
  · have hpairwise := h.cooled
    simp only [Nat.add_assoc] at hpairwise ⊢
    exact pairwise_concat hpairwise hcooled
  · refine followed_concat (h.polled hended) ?_
    show w.clock + 1000 * interval ≤ w.clock + kCooldownTime + 1000 * interval + m.late
    omega
  · simp only [Nat.add_assoc]
    exact followed_concat hcooled (by omega)

/-- **One moment.** -/
theorem Watched.step (h : Watched interval treshold ms w) (m : Moment) :
    Watched interval treshold (ms ++ [m]) (w.step interval treshold m) := by
  rcases hended : w.ended with _ | e
  · rcases step_cases interval treshold m hended with
      ⟨e, c, hthrew, -, hstep⟩ | ⟨c, hthrew, hquiet, hstep⟩ | ⟨c, hthrew, hcritical, hstep⟩
    · rw [hstep]
      exact h.throws hended hthrew c
    · rw [hstep]
      exact h.waits hended hthrew hquiet c
    · rw [hstep]
      exact h.sleeps hended hthrew hcritical c
  · -- nothing happens any more
    have hfind := h.ended.symm.trans hended
    rw [step_of_ended hended]
    refine ⟨?_, ?_, ?_, h.paced, h.cooled, h.polled, h.suspended⟩
    · rw [hended, List.findSome?_append, hfind, Option.some_or]
    · rw [lived_append hfind, h.polls]
    · rw [lived_append hfind, ← h.suspends]

end

/-! ### The process -/

/-- The loop of `main`, over what it meets. -/
def watch (interval : ℕ) (treshold : ℚ) (clock : ℕ) (ms : List Moment) : Watch :=
  run (Watch.step interval treshold) (.fresh clock) ms

theorem watched_watch (interval : ℕ) (treshold : ℚ) (clock : ℕ) (ms : List Moment) :
    Watched interval treshold ms (watch interval treshold clock ms) := by
  induction ms using List.reverseRecOn with
  | nil => exact watched_fresh clock
  | append_singleton ms m ih =>
    rw [watch, run_append]
    exact ih.step m

/-- The loop is entered with a threshold strictly between 5 and 95 only. -/
theorem treshold_of_main {udevNew : Bool} {vm : Options} {interval : ℕ} {treshold : ℚ}
    (h : main udevNew vm = .watch interval treshold) : 5 < treshold ∧ treshold < 95 := by
  unfold main at h
  split at h
  · cases h
  split at h
  · cases h
  · cases h
  · cases h
  · split_ifs at h with hrange
    cases h
    rw [not_or, not_le, not_le] at hrange
    exact hrange

theorem suspends_iff {treshold : ℚ} {m : Moment} {device : Device} {r : Reading}
    (hdevice : m.device = some device) (hreads : Reads device r) (hfull : 0 < r.full)
    (hnow : 0 < r.now) :
    m.suspends treshold = true ↔ Critical treshold r ∧ m.wrote = .ok () := by
  have hcharge : ¬(r.full = 0 ∨ r.now = 0) := by omega
  have hverdict : verdict treshold m.device = .ok (r.context.isCritical treshold) := by
    rw [hdevice, verdict, hreads.charges, hreads.status]
    simp only [if_neg hcharge]
  rw [← isCritical_context hfull, Moment.suspends, Moment.outcome, hverdict]
  cases r.context.isCritical treshold with
  | false => simp
  | true =>
    rcases m.wrote with e | ⟨⟩
    · simp
    · simp

/-- **What a watched battery can rely on.**  The process polls once for every moment up to the first
exception, the interval apart, and suspends exactly at the critical ones, the cooldown and the
interval apart.  With the thresholds it takes, a battery that has some charge, but a fortieth of
the full one at most, is critical even while it charges, and one at 95 percent never is. -/
theorem watch_run {udevNew : Bool} {vm : Options} {interval : ℕ} {treshold : ℚ}
    (h : main udevNew vm = .watch interval treshold) (clock : ℕ) (ms : List Moment) :
    (watch interval treshold clock ms).ended = ms.findSome? (Moment.threw treshold) ∧
      (watch interval treshold clock ms).suspends =
        suspensions treshold (watch interval treshold clock ms).polls (lived treshold ms) ∧
      (watch interval treshold clock ms).polls.length = (lived treshold ms).length +
        (if (watch interval treshold clock ms).ended = none then 0 else 1) ∧
      ((watch interval treshold clock ms).polls.Pairwise fun a b => a + 1000 * interval ≤ b) ∧
      ((watch interval treshold clock ms).suspends.Pairwise fun a b =>
        a + kCooldownTime + 1000 * interval ≤ b) ∧
      ∀ (m : Moment) device r, m.device = some device → Reads device r → 0 < r.full → 0 < r.now →
        (m.suspends treshold = true ↔ Critical treshold r ∧ m.wrote = .ok ()) ∧
        (40 * r.now ≤ r.full → Critical treshold r) ∧
        (95 * r.full ≤ 100 * r.now → ¬Critical treshold r) := by
  have hwatched := watched_watch interval treshold clock ms
  obtain ⟨hfive, hninetyFive⟩ := treshold_of_main h
  refine ⟨hwatched.ended, hwatched.suspends, hwatched.polls, hwatched.paced, hwatched.cooled, ?_⟩
  · intro m device r hdevice hreads hfull hnow
    have hpos : (0 : ℚ) < r.full := by exact_mod_cast hfull
    refine ⟨suspends_iff hdevice hreads hfull hnow, fun hlow => .inl ?_, fun hhigh => ?_⟩
    · have hlow' : (40 : ℚ) * r.now ≤ r.full := by exact_mod_cast hlow
      nlinarith
    · have hhigh' : (95 : ℚ) * r.full ≤ 100 * r.now := by exact_mod_cast hhigh
      rintro (hhalf | ⟨-, hbelow⟩)
      · nlinarith
      · nlinarith

def sampleOptions : Options := ⟨false, some 30, some 10, some "BAT0"⟩

/-- 90 of 1000, and writing works. -/
def sampleMoment : Moment := ⟨some (sampleDevice "90\n"), .ok (), 2⟩

theorem watch_run_sampleOptions :
    (watch 30 10 0 [sampleMoment, sampleMoment]).ended = none ∧
      (watch 30 10 0 [sampleMoment, sampleMoment]).suspends.Pairwise fun a b =>
        a + kCooldownTime + 1000 * 30 ≤ b := by
  have hmain : main true sampleOptions = .watch 30 10 := by
    have hrange : ¬((10 : ℚ) ≤ 5 ∨ (10 : ℚ) ≥ 95) := by decide +kernel
    simp only [main, sampleOptions, if_neg hrange]
    rfl
  obtain ⟨hended, -, -, -, hcooled, -⟩ := watch_run hmain 0 [sampleMoment, sampleMoment]
  exact ⟨hended.trans (by decide +kernel), hcooled⟩

end BatteryWatch
end TjTools
