/-
# Limits from a TDP value

`LimitProfile::fromTDP` and `LimitProfile::apply` of `src/src/cpu_powerlimit.cpp` (lines 43-95)
as methods of one object, and the runs of `ryzenadj` they lead to.

`fromTDP` computes the fast and the slow limit, checks all three and stores none of them.
So `apply` runs `ryzenadj` with the limits the profile had before: `setsTDP_iff` says when
that is what was asked for.  The profile `main` calls it on is a fresh one, whose limits
of -1 become 4294966296 as `unsigned` numbers (`settings_fresh`); so in `--tdp` mode every
limit that is set is out of range (`tdpInRange_iff`).
-/

import Mathlib.Algebra.Order.Round
import Mathlib.Data.Rat.Floor
import Mathlib.Tactic.Linarith
import TjTools.Basis.Triple
import TjTools.Powerlimit.Profile

namespace TjTools
namespace Powerlimit

/-! ### Milliwatts -/

/-- The whole number of milliwatts next to a positive number of watts. -/
def milliwatts (watts : ℚ) : ℕ := (round (watts * 1000)).toNat

/-- A number of watts that `kPowerlimitTDPBounds` allows. -/
def Allowed (watts : ℚ) : Prop := 8 ≤ watts ∧ watts ≤ 54

instance (watts : ℚ) : Decidable (Allowed watts) := inferInstanceAs (Decidable (_ ∧ _))

theorem boundsCheck_iff (value : ℚ) : boundsCheck value = true ↔ Allowed value := by
  rw [boundsCheck, Bool.and_eq_true, decide_eq_true_iff, decide_eq_true_iff]
  exact Iff.rfl

theorem round_bounds {watts : ℚ} (h : Allowed watts) :
    8000 ≤ round (watts * 1000) ∧ round (watts * 1000) ≤ 54000 := by
  obtain ⟨hlow, hhigh⟩ := h
  rw [round_eq]
  constructor
  · rw [Int.le_floor]
    push_cast
    linarith
  · rw [← Int.lt_add_one_iff, Int.floor_lt]
    push_cast
    linarith

theorem milliwatts_bounds {watts : ℚ} (h : Allowed watts) :
    8000 ≤ milliwatts watts ∧ milliwatts watts ≤ 54000 := by
  have hround := round_bounds h
  unfold milliwatts
  omega

/-! ### The two methods -/

/-- A profile, and the settings of every run of `ryzenadj` so far. -/
structure Session where
  profile : LimitProfile
  runs : List (List (Limit × ℕ))

abbrev SessionM := EStateM Error Session

namespace Session

/-- `fromTDP` -/
def fromTDP (tdp fastMultiplier slowMultiplier : ℚ) : SessionM Unit := do
  let fast := tdp * fastMultiplier
  let slow := tdp * slowMultiplier
  if !boundsCheck tdp || !boundsCheck fast || !boundsCheck slow then throw (.system EINVAL)

/-- `apply`, with the exit code of `ryzenadj`. -/
def apply (exitCode : ℕ) : SessionM Unit := do
  modify fun s => { s with runs := s.runs ++ [s.profile.settings] }
  if exitCode ≠ 0 then throw (.system EFAULT)

/-- `fromTDP` followed by `apply`. -/
def setTDP (tdp fastMultiplier slowMultiplier : ℚ) (exitCode : ℕ) : SessionM Unit := do
  fromTDP tdp fastMultiplier slowMultiplier
  apply exitCode

/-- The three limits are allowed. -/
def InBounds (tdp fastMultiplier slowMultiplier : ℚ) : Prop :=
  Allowed tdp ∧ Allowed (tdp * fastMultiplier) ∧ Allowed (tdp * slowMultiplier)

instance (tdp fastMultiplier slowMultiplier : ℚ) :
    Decidable (InBounds tdp fastMultiplier slowMultiplier) :=
  inferInstanceAs (Decidable (_ ∧ _ ∧ _))

/-- **What is expected of the two methods.**  Allowed limits are passed to `ryzenadj`, whatever
the profile was before and however `ryzenadj` ends; else `fromTDP` throws and nothing has
changed. -/
def SetsTDP (tdp fastMultiplier slowMultiplier : ℚ) (exitCode : ℕ) (before : Session) : Prop :=
  if InBounds tdp fastMultiplier slowMultiplier then
    ∃ settings, (final ((setTDP tdp fastMultiplier slowMultiplier exitCode).run before)).runs
        = before.runs ++ [settings] ∧
      settings.lookup .stapm = some (milliwatts tdp) ∧
      settings.lookup .fast = some (milliwatts (tdp * fastMultiplier)) ∧
      settings.lookup .slow = some (milliwatts (tdp * slowMultiplier))
  else
    ∃ e, (fromTDP tdp fastMultiplier slowMultiplier).run before = .error e before ∧
      (setTDP tdp fastMultiplier slowMultiplier exitCode).run before = .error e before

/-- The limits that a profile already has are, in milliwatts, those that are asked for. -/
def Holds (p : LimitProfile) (tdp fastMultiplier slowMultiplier : ℚ) : Prop :=
  limitScale p.stapmLimit = milliwatts tdp ∧
    limitScale p.fastLimit = milliwatts (tdp * fastMultiplier) ∧
      limitScale p.slowLimit = milliwatts (tdp * slowMultiplier)

variable {tdp fastMultiplier slowMultiplier : ℚ}

theorem check_iff (tdp fastMultiplier slowMultiplier : ℚ) :
    (!boundsCheck tdp || !boundsCheck (tdp * fastMultiplier)
      || !boundsCheck (tdp * slowMultiplier)) = true
        ↔ ¬InBounds tdp fastMultiplier slowMultiplier := by
  rw [InBounds, ← boundsCheck_iff, ← boundsCheck_iff, ← boundsCheck_iff]
  simp only [Bool.or_eq_true, Bool.not_eq_true']
  grind

/-- Limits that are allowed are checked and forgotten. -/
theorem fromTDP_run (h : InBounds tdp fastMultiplier slowMultiplier) (s : Session) :
    (fromTDP tdp fastMultiplier slowMultiplier).run s = .ok () s := by
  have hcheck := not_iff_not.2 (check_iff tdp fastMultiplier slowMultiplier)
  unfold fromTDP
  simp only [if_neg (hcheck.2 (not_not.2 h))]
  rfl

theorem fromTDP_run_throws (h : ¬InBounds tdp fastMultiplier slowMultiplier) (s : Session) :
    (fromTDP tdp fastMultiplier slowMultiplier).run s = .error (.system EINVAL) s := by
  unfold fromTDP
  simp only [if_pos ((check_iff tdp fastMultiplier slowMultiplier).2 h)]
  rfl

/-- `apply` runs `ryzenadj` once, with what the profile holds. -/
theorem runs_apply (exitCode : ℕ) (s : Session) :
    (final ((apply exitCode).run s)).runs = s.runs ++ [s.profile.settings] := by
  unfold apply
  rw [EStateM.run_bind]
  simp only [EStateM.run_modify]
  split_ifs
  all_goals rfl

theorem lookup_settings (p : LimitProfile) :
    p.settings.lookup .stapm = some (limitScale p.stapmLimit) ∧
      p.settings.lookup .fast = some (limitScale p.fastLimit) ∧
        p.settings.lookup .slow = some (limitScale p.slowLimit) :=
  ⟨rfl, rfl, rfl⟩

/-- **The limits asked for are set if and only if the profile had them before**, or they are
refused. -/
theorem setsTDP_iff (tdp fastMultiplier slowMultiplier : ℚ) (exitCode : ℕ) (before : Session) :
    SetsTDP tdp fastMultiplier slowMultiplier exitCode before ↔
      ¬InBounds tdp fastMultiplier slowMultiplier ∨
        Holds before.profile tdp fastMultiplier slowMultiplier := by
  unfold SetsTDP
  by_cases h : InBounds tdp fastMultiplier slowMultiplier
  · rw [if_pos h, or_iff_right (not_not.2 h), setTDP, EStateM.run_bind, fromTDP_run h]
    simp only
    rw [runs_apply]
    obtain ⟨hstapm, hfast, hslow⟩ := lookup_settings before.profile
    constructor
    · rintro ⟨settings, hruns, hsettings⟩
      obtain rfl : before.profile.settings = settings := by simpa using hruns
      rw [hstapm, hfast, hslow] at hsettings
      simpa only [Holds, Option.some.injEq] using hsettings
    · intro hholds
      refine ⟨before.profile.settings, rfl, ?_⟩
      rw [hstapm, hfast, hslow]
      simpa only [Holds, Option.some.injEq] using hholds
  · rw [if_neg h, setTDP, EStateM.run_bind, fromTDP_run_throws h]
    exact iff_of_true ⟨_, rfl, rfl⟩ (.inl h)

/-- A profile that nothing was stored in does not. -/
theorem not_holds_fresh (h : InBounds tdp fastMultiplier slowMultiplier) :
    ¬Holds {} tdp fastMultiplier slowMultiplier := by
  rintro ⟨hstapm, -⟩
  have hfresh : limitScale ({} : LimitProfile).stapmLimit = 4294966296 := by decide +kernel
  have hbounds := milliwatts_bounds h.1
  omega

end Session

/-! ### The `--tdp` mode -/

/-- What `main` applies in `--tdp` mode, if it comes to that, is in range. -/
def TdpInRange (file : ConfigFile) (tdp : ℚ) : Prop :=
  ∀ job, prologue file { tdp := some tdp } = .ok job →
    ∀ setting ∈ job.limitProfile.settings, 8000 ≤ setting.2 ∧ setting.2 ≤ 54000

/-- The limits of a profile that nothing was stored in. -/
theorem settings_fresh : ({} : LimitProfile).settings
    = [(.stapm, 4294966296), (.fast, 4294966296), (.slow, 4294966296)] := by
  decide +kernel

/-- With a configuration that can be read, `main` applies a fresh profile, or none. -/
theorem prologue_tdp {file : ConfigFile} {cfg : LimitConfig}
    (hread : LimitConfig.read file = .ok cfg) (tdp : ℚ) :
    prologue file { tdp := some tdp } =
      if Session.InBounds tdp cfg.fastMultiplier cfg.slowMultiplier then
        .ok ⟨cfg.defProfile, {}, false⟩
      else .error (.threw (.system EINVAL)) := by
  have hcheck := Session.check_iff tdp cfg.fastMultiplier cfg.slowMultiplier
  unfold prologue
  rw [hread]
  simp only [Exit.ofExcept, cfg.profileAt_default, bind, Except.bind, pure, Except.pure,
    Bool.false_eq_true, if_false, LimitProfile.fromTDP]
  by_cases h : Session.InBounds tdp cfg.fastMultiplier cfg.slowMultiplier
  · rw [if_pos h, if_neg ((not_iff_not.2 hcheck).2 (not_not.2 h))]
  · rw [if_neg h, if_pos (hcheck.2 h)]

theorem prologue_unread {file : ConfigFile} {e : Error}
    (hread : LimitConfig.read file = .error e) (tdp : ℚ) :
    prologue file { tdp := some tdp } = .error (.threw e) := by
  unfold prologue
  rw [hread]
  rfl

/-- **What is applied in `--tdp` mode is in range only where nothing is applied.** -/
theorem tdpInRange_iff (file : ConfigFile) (tdp : ℚ) :
    TdpInRange file tdp ↔ ∀ cfg, LimitConfig.read file = .ok cfg →
      ¬Session.InBounds tdp cfg.fastMultiplier cfg.slowMultiplier := by
  constructor
  · intro hrange cfg hread hbounds
    have hjob := prologue_tdp hread tdp
    rw [if_pos hbounds] at hjob
    have hstapm := hrange _ hjob (.stapm, 4294966296) (by rw [settings_fresh]; simp)
    omega
  · intro hrefused job hjob
    rcases hread : LimitConfig.read file with e | cfg
    · rw [prologue_unread hread] at hjob
      cases hjob
    · rw [prologue_tdp hread, if_neg (hrefused cfg hread)] at hjob
      cases hjob

/-- **The TDP value is lost.**  The methods do what is expected of them if and only if the
limits are refused or were those of the profile before, and `main` passes limits out of range
whenever it does not refuse them. -/
theorem fromTDP_apply_iff (tdp fastMultiplier slowMultiplier : ℚ) (exitCode : ℕ)
    (before : Session) (file : ConfigFile) :
    (Session.SetsTDP tdp fastMultiplier slowMultiplier exitCode before ↔
      ¬Session.InBounds tdp fastMultiplier slowMultiplier ∨
        Session.Holds before.profile tdp fastMultiplier slowMultiplier) ∧
      (TdpInRange file tdp ↔ ∀ cfg, LimitConfig.read file = .ok cfg →
        ¬Session.InBounds tdp cfg.fastMultiplier cfg.slowMultiplier) :=
  ⟨Session.setsTDP_iff tdp fastMultiplier slowMultiplier exitCode before, tdpInRange_iff file tdp⟩

/-- 15 W for each limit are not what a fresh profile has. -/
theorem not_fromTDP_apply :
    ¬∀ tdp fastMultiplier slowMultiplier exitCode before,
      Session.SetsTDP tdp fastMultiplier slowMultiplier exitCode before := by
  intro h
  have hbounds : Session.InBounds 15 1 1 := by decide +kernel
  rcases (Session.setsTDP_iff 15 1 1 0 ⟨{}, []⟩).1 (h 15 1 1 0 ⟨{}, []⟩) with hout | hholds
  · exact hout hbounds
  · exact Session.not_holds_fresh hbounds hholds

end Powerlimit
end TjTools
