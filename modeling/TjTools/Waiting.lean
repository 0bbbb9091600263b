/-
# Scripts that wait

Three scripts wait for something that they ask for again and again, a second between.

`src/kdump/linuxrc` (lines 246-266) pings the receiver, and sends the dump once five pings in a row
were answered (`Linuxrc.dumps_iff`).  `src/scripts/sysfs_write.sh` looks ten times for the file it
is to write (`SysfsWrite.ends`).  `src/scripts/backup_bootstrap.sh` logs in to a target, looks six
times for the device, mounts it, runs the backup there and takes it all down again.  It asks
neither whether the device was mounted nor whether it was unmounted: it keeps to its order exactly
if both succeed, and leaves behind what does not let itself be taken down
(`BackupBootstrap.disciplined`).

What is asked for is a sequence of answers.  The lines on `stdout` are left out.
-/

import TjTools.Basis.Bash
import TjTools.Basis.Polling
import TjTools.Basis.Runs

namespace TjTools

open Loop Polling Runs

namespace Linuxrc

/-- A turn of the loop, before the ping number `sent`. -/
def turn (pings : ℕ → Bool) : ℕ × ℕ → Turn (ℕ × ℕ) ℕ
  | (sent, kdumpReceiverPong) =>
    let kdumpReceiverPong := if pings sent then kdumpReceiverPong + 1 else 0
    if kdumpReceiverPong = 5 then .leave (sent + 1) else .again (sent + 1, kdumpReceiverPong)

/-- The script gets to `makedumpfile`, after `sent` pings. -/
def Dumps (pings : ℕ → Bool) (sent : ℕ) : Prop := Ends (turn pings) (0, 0) sent

/-- The last five of some pings were answered. -/
def FiveInARow (pings : ℕ → Bool) (sent : ℕ) : Prop :=
  5 ≤ sent ∧ ∀ i, sent - 5 ≤ i → i < sent → pings i = true

/-- The counter of the loop. -/
theorem turn_streak (pings : ℕ → Bool) (i : ℕ) :
    turn pings (i, streak pings i) =
      if streak pings (i + 1) = 5 then .leave (i + 1) else .again (i + 1, streak pings (i + 1)) :=
  rfl

/-- **The dump is sent after the first five answers in a row**, and without five in a row it is
never sent. -/
theorem dumps_iff (pings : ℕ → Bool) :
    (∀ sent, Dumps pings sent ↔ IsLeast {n | FiveInARow pings n} sent) ∧
      ((∃ sent, Dumps pings sent) ↔ ∃ n, FiveInARow pings n) := by
  have hfive : {n | 5 ≤ streak pings n} = {n | FiveInARow pings n} :=
    Set.ext fun n => le_streak_iff
  have hdumps : ∀ sent, Dumps pings sent ↔ IsLeast {n | FiveInARow pings n} sent := by
    intro sent
    rw [← hfive, ← isLeast_streak_iff (by omega)]
    have hends := @ends_streak_iff _ _ (turn pings) pings (fun i => (i, streak pings i)) id 5
      (by omega) (fun i hi => by rw [turn_streak, if_pos hi]; rfl)
      (fun i hi => by rw [turn_streak, if_neg hi]) sent
    refine hends.trans ?_
    constructor
    · rintro ⟨n, hleast, rfl⟩
      exact hleast
    · intro hleast
      exact ⟨sent, hleast, rfl⟩
  refine ⟨hdumps, ?_⟩
  constructor
  · rintro ⟨sent, hsent⟩
    exact ⟨sent, ((hdumps sent).1 hsent).1⟩
  · intro hsome
    have hstreak : ∃ n, 5 ≤ streak pings n := hsome.imp fun n hn => le_streak_iff.2 hn
    obtain ⟨n, hleast⟩ := exists_isLeast hstreak
    rw [hfive] at hleast
    exact ⟨n, (hdumps n).2 hleast⟩

end Linuxrc

namespace SysfsWrite

/-- What `echo -n` makes of a value: one that reads as an option prints nothing. -/
def echoN (value : List Char) : List Char := if Bash.isOption value then [] else value

structure Outcome where
  status : ℕ
  sleeps : ℕ
  /-- What is written to the file. -/
  written : Option (List Char)
  deriving DecidableEq

/-- A turn of the loop, where `isFile i` says what look number `i` finds. -/
def turn (isFile : ℕ → Bool) (value : List Char) (retry : ℕ) : Turn ℕ Outcome :=
  if retry < 10 then
    if isFile retry then .leave ⟨0, retry, some (echoN value)⟩ else .again (retry + 1)
  else .leave ⟨1, retry, none⟩

/-- **It writes the value once, as soon as the file is there**, and gives up after ten looks. -/
theorem ends (isFile : ℕ → Bool) (value : List Char) :
    Ends (turn isFile value) 0
      ((first isFile 10).elim ⟨1, 10, none⟩ fun i => ⟨0, i, some (echoN value)⟩) := by
  refine @ends_first _ _ (turn isFile value) isFile id _ _ 10 (by omega) ?_ ?_ ?_
  · intro i hi hfile
    exact .leave (by rw [turn, id, if_pos hi, if_pos hfile])
  · intro i hi hfile
    rw [turn, id, if_pos (by omega), if_neg (by rw [hfile]; exact Bool.false_ne_true), id]
  · intro i hi hfile
    obtain rfl : i = 9 := by omega
    have hagain : turn isFile value 9 = .again 10 := by
      rw [turn, if_pos (by omega), if_neg (by rw [hfile]; exact Bool.false_ne_true)]
    exact .again hagain (.leave (by rw [turn, if_neg (by omega)]))

end SysfsWrite

namespace BackupBootstrap

/-- What the script runs, with what it finds where it looks. -/
inductive Command where
  | isolate
  | startIscsid
  | login (ok : Bool)
  /-- `[[ -e /dev/disk/by-uuid/${uuid} ]]` -/
  | look (found : Bool)
  | sleep
  | startMount (ok : Bool)
  /-- `[[ -f ${mountpoint}/backup.sh ]]` -/
  | lookScript (found : Bool)
  | backup
  | stopMount (ok : Bool)
  | logout (ok : Bool)
  deriving DecidableEq

/-- What the script meets with. -/
structure World where
  login : Bool
  /-- What look number `i` for the device finds. -/
  device : ℕ → Bool
  mount : Bool
  script : Bool
  unmount : Bool
  /-- The status of the logout. -/
  logout : ℕ

/-- A turn of the loop that waits for the device; what is left is whether it was found. -/
def turn (device : ℕ → Bool) :
    ℕ × List Command → Turn (ℕ × List Command) (Bool × List Command)
  | (retry, commands) =>
    if device retry then .leave (true, commands ++ [.look true])
    else
      let commands := commands ++ [.look false]
      if retry = 5 then .leave (false, commands) else .again (retry + 1, commands ++ [.sleep])

/-- What is done with the device. -/
def loaded (mount script unmount : Bool) : List Command :=
  [.startMount mount, .lookScript script] ++ (if script then [.backup] else []) ++
    [.stopMount unmount]

/-- `backup_bootstrap`: its status and all that it runs. -/
inductive Bootstrap (w : World) : ℕ → List Command → Prop
  | refused : w.login = false → Bootstrap w 1 [.isolate, .startIscsid, .login false]
  | waited {found : Bool} {commands : List Command} : w.login = true →
      Ends (turn w.device) (0, [.isolate, .startIscsid, .login true]) (found, commands) →
      Bootstrap w w.logout (commands ++ (if found then loaded w.mount w.script w.unmount else []) ++
        [.logout (w.logout = 0)])

/-! ### What is held -/

/-- What the script has taken, and what it has seen of it.  The backup itself leaves it alone. -/
structure Held where
  loggedIn : Bool
  device : Bool
  mounted : Bool
  script : Bool
  deriving DecidableEq

def Held.nothing : Held := ⟨false, false, false, false⟩

def Held.step (h : Held) : Command → Held
  | .login ok => { h with loggedIn := ok }
  | .look found => { h with device := found }
  | .startMount ok => { h with mounted := ok }
  | .lookScript found => { h with script := found }
  | .stopMount ok => if ok then { h with mounted := false, script := false } else h
  | .logout ok => if ok then { h with loggedIn := false, device := false } else h
  | _ => h

/-- The device is mounted when it was seen and not mounted yet, the backup runs on a mounted
device on which it was seen, and the session ends when nothing is mounted. -/
def Held.Allowed (h : Held) : Command → Prop
  | .login _ => h.loggedIn = false
  | .look _ => h.loggedIn = true
  | .startMount _ => h.loggedIn = true ∧ h.device = true ∧ h.mounted = false
  | .lookScript _ => h.mounted = true
  | .backup => h.mounted = true ∧ h.script = true
  | .stopMount _ => h.mounted = true
  | .logout _ => h.loggedIn = true ∧ h.mounted = false
  | _ => True

instance (h : Held) (c : Command) : Decidable (h.Allowed c) := by
  unfold Held.Allowed
  split <;> infer_instance

/-- Some looks that find nothing, each with a second of sleep. -/
def missed (n : ℕ) : List Command := (List.replicate n [Command.look false, .sleep]).flatten

theorem missed_succ (n : ℕ) : missed (n + 1) = missed n ++ [.look false, .sleep] := by
  rw [missed, List.replicate_succ', List.flatten_append]
  simp [missed]

/-- The looks for the device, and whether the last one found it. -/
def looks (device : ℕ → Bool) : Bool × List Command :=
  (first device 6).elim (false, missed 5 ++ [.look false]) fun i => (true, missed i ++ [.look true])

theorem ends_looks (device : ℕ → Bool) (before : List Command) :
    Ends (turn device) (0, before) ((looks device).1, before ++ (looks device).2) := by
  have hends := @ends_first _ _ (turn device) device (fun i => (i, before ++ missed i))
    (fun i => (true, before ++ missed i ++ [.look true]))
    (false, before ++ missed 5 ++ [.look false]) 6 (by omega) ?_ ?_ ?_
  · rw [missed, List.replicate_zero, List.flatten_nil, List.append_nil] at hends
    unfold looks
    cases hfirst : first device 6 with
    | none =>
      rw [hfirst] at hends
      simpa using hends
    | some i =>
      rw [hfirst] at hends
      simpa using hends
  · intro i hi hfound
    exact .leave (by rw [turn, if_pos hfound])
  · intro i hi hmissed
    have hlast : i ≠ 5 := by omega
    simp [turn, hmissed, hlast, missed_succ]
  · intro i hi hmissed
    obtain rfl : i = 5 := by omega
    exact .leave (by simp [turn, hmissed])

/-- Looks that find nothing are allowed, and change nothing. -/
theorem missed_allowed (n : ℕ) :
    Along Held.step Held.Allowed ⟨true, false, false, false⟩ (missed n) ∧
      run Held.step ⟨true, false, false, false⟩ (missed n) = ⟨true, false, false, false⟩ := by
  induction n with
  | zero => exact ⟨trivial, rfl⟩
  | succ n ih =>
    rw [missed_succ, along_append, run_append, ih.2]
    exact ⟨⟨ih.1, rfl, trivial, trivial⟩, rfl⟩

theorem looks_allowed (device : ℕ → Bool) :
    Along Held.step Held.Allowed ⟨true, false, false, false⟩ (looks device).2 ∧
      run Held.step ⟨true, false, false, false⟩ (looks device).2
        = ⟨true, (looks device).1, false, false⟩ := by
  unfold looks
  cases first device 6 with
  | none =>
    obtain ⟨hallowed, hrun⟩ := missed_allowed 5
    rw [Option.elim, along_append, run_append, hrun]
    exact ⟨⟨hallowed, rfl, trivial⟩, rfl⟩
  | some i =>
    obtain ⟨hallowed, hrun⟩ := missed_allowed i
    rw [Option.elim, along_append, run_append, hrun]
    exact ⟨⟨hallowed, rfl, trivial⟩, rfl⟩

/-- What is done with the device, once it was seen, is allowed if it was mounted. -/
theorem loaded_allowed (mount script unmount : Bool) :
    (Along Held.step Held.Allowed ⟨true, true, false, false⟩ (loaded mount script unmount) ↔
        mount = true) ∧
      (run Held.step ⟨true, true, false, false⟩ (loaded mount script unmount)).loggedIn = true ∧
      (run Held.step ⟨true, true, false, false⟩ (loaded mount script unmount)).mounted
        = (mount && !unmount) := by
  cases mount <;> cases script <;> cases unmount <;> decide

/-- The logout is allowed where nothing is mounted, and ends the session if it succeeds. -/
theorem logout_allowed {h : Held} (hin : h.loggedIn = true) (status : ℕ) :
    (Along Held.step Held.Allowed h [.logout (status = 0)] ↔ h.mounted = false) ∧
      ((run Held.step h [.logout (status = 0)]).loggedIn = true ↔ status ≠ 0) ∧
      (run Held.step h [.logout (status = 0)]).mounted = h.mounted := by
  refine ⟨?_, ?_, ?_⟩
  · simp [Along, Held.Allowed, hin]
  all_goals
    by_cases hstatus : status = 0
    · simp [Held.step, hstatus]
    · simp [Held.step, hstatus, hin]

/-- The whole of what the script runs. -/
def outcome (w : World) : ℕ × List Command :=
  if w.login then
    (w.logout, [.isolate, .startIscsid, .login true] ++ (looks w.device).2
      ++ (if (looks w.device).1 then loaded w.mount w.script w.unmount else [])
      ++ [.logout (w.logout = 0)])
  else (1, [.isolate, .startIscsid, .login false])

theorem bootstrap_iff (w : World) (status : ℕ) (commands : List Command) :
    Bootstrap w status commands ↔ (status, commands) = outcome w := by
  have hends := ends_looks w.device [.isolate, .startIscsid, .login true]
  constructor
  · intro h
    cases h with
    | refused hlogin => simp [outcome, hlogin]
    | waited hlogin hwaited =>
      obtain ⟨rfl, rfl⟩ := Prod.mk.inj (hwaited.unique hends)
      rw [outcome, if_pos hlogin]
  · intro h
    rw [outcome] at h
    cases hlogin : w.login with
    | false =>
      rw [hlogin, if_neg Bool.false_ne_true] at h
      obtain ⟨rfl, rfl⟩ := Prod.mk.inj h
      exact .refused hlogin
    | true =>
      rw [hlogin, if_pos rfl] at h
      obtain ⟨rfl, rfl⟩ := Prod.mk.inj h
      exact .waited hlogin hends

/-- The script gets to the device. -/
def World.Reached (w : World) : Prop := w.login = true ∧ (looks w.device).1 = true

/-- What the script leaves, and whether it keeps to its order. -/
theorem outcome_allowed (w : World) :
    (Along Held.step Held.Allowed .nothing (outcome w).2 ↔
        (w.Reached → w.mount = true ∧ w.unmount = true)) ∧
      ((run Held.step .nothing (outcome w).2).mounted = true ↔
        w.Reached ∧ w.mount = true ∧ w.unmount = false) ∧
      ((run Held.step .nothing (outcome w).2).loggedIn = true ↔
        w.login = true ∧ w.logout ≠ 0) := by
  unfold outcome World.Reached
  cases w.login with
  | false =>
    rw [if_neg Bool.false_ne_true]
    refine ⟨iff_of_true (by decide) (by simp), ?_, ?_⟩
    · exact iff_of_false (by decide) (by simp)
    · exact iff_of_false (by decide) (by simp)
  | true =>
    obtain ⟨hlooks, hlooked⟩ := looks_allowed w.device
    have hlogin : run Held.step .nothing [.isolate, .startIscsid, .login true]
        = ⟨true, false, false, false⟩ := rfl
    have hstart : Along Held.step Held.Allowed .nothing [.isolate, .startIscsid, .login true] := by
      decide
    rw [if_pos rfl]
    simp only [along_append, run_append, hlogin, hlooked, hstart, hlooks, true_and]
    cases (looks w.device).1 with
    | false =>
      obtain ⟨hlogout, hout, hmounted⟩ :=
        @logout_allowed ⟨true, false, false, false⟩ rfl w.logout
      simp only [Bool.false_eq_true, if_false, run_nil]
      rw [hlogout, hout, hmounted]
      simp [Along]
    | true =>
      obtain ⟨hloaded, hin, hheld⟩ := loaded_allowed w.mount w.script w.unmount
      obtain ⟨hlogout, hout, hmounted⟩ := logout_allowed hin w.logout
      simp only [if_true]
      rw [hlogout, hout, hmounted, hloaded, hheld]
      cases w.mount <;> cases w.unmount <;> simp

theorem looks_found (device : ℕ → Bool) :
    (looks device).1 = true ↔ ∃ i < 6, device i = true := by
  unfold looks
  cases hfirst : first device 6 with
  | none =>
    refine iff_of_false Bool.false_ne_true ?_
    rintro ⟨i, hi, hfound⟩
    rw [first_eq_none_iff.1 hfirst i hi] at hfound
    cases hfound
  | some i =>
    obtain ⟨hi, hfound, -⟩ := first_eq_some_iff.1 hfirst
    exact iff_of_true rfl ⟨i, hi, hfound⟩

theorem count_missed (n : ℕ) : (missed n).count .sleep = n ∧ (missed n).count .backup = 0 := by
  induction n with
  | zero => exact ⟨rfl, rfl⟩
  | succ n ih =>
    rw [missed_succ, List.count_append, List.count_append, ih.1, ih.2]
    exact ⟨rfl, rfl⟩

theorem count_looks (device : ℕ → Bool) :
    (looks device).2.count .sleep ≤ 5 ∧ (looks device).2.count .backup = 0 := by
  unfold looks
  cases hfirst : first device 6 with
  | none => decide
  | some i =>
    obtain ⟨hi, -⟩ := first_eq_some_iff.1 hfirst
    obtain ⟨hsleep, hbackup⟩ := count_missed i
    rw [Option.elim, List.count_append, List.count_append, hsleep, hbackup]
    exact ⟨Nat.le_of_lt_succ hi, rfl⟩

theorem count_loaded (mount script unmount : Bool) :
    (loaded mount script unmount).count .sleep = 0 ∧
      (loaded mount script unmount).count .backup = script.toNat := by
  cases mount <;> cases script <;> cases unmount <;> decide

theorem count_outcome (w : World) :
    (outcome w).2.count .sleep ≤ 5 ∧
      (outcome w).2.count .backup = (w.login && (looks w.device).1 && w.script).toNat := by
  obtain ⟨hsleep, hbackup⟩ := count_looks w.device
  obtain ⟨hasleep, hbacked⟩ := count_loaded w.mount w.script w.unmount
  unfold outcome
  cases w.login with
  | false => exact ⟨Nat.zero_le 5, rfl⟩
  | true =>
    rw [if_pos rfl]
    simp only [List.count_append, hbackup]
    cases (looks w.device).1 with
    | false => exact ⟨by simpa using hsleep, rfl⟩
    | true =>
      rw [if_pos rfl, hasleep, hbacked]
      exact ⟨by simpa using hsleep, by simp⟩

end BackupBootstrap
end TjTools
