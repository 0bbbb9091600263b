/-
# Notifications for a user's session

`src/src/notify_wrapper.c` runs `notify-send` for the user it runs as, where that user has a
session of type "wayland".  It asks the same library as `get_active_user`, and goes on with the
next session after a query that fails.

What it runs, and when, is said in one place (`main_execve_iff`): no answer about the other
sessions matters, the directory of the user is never cut off by its buffer, the path of the icon is
after 487 characters.  A user that `get_active_user` names gets the notification.

Characters stand for bytes; `argv` is the vector of arguments, the program's name included.  The
texts on `stderr` are left out.
-/

import TjTools.ActiveUser
import TjTools.Basis.Numerals

namespace TjTools
namespace Notify

open ActiveUser

/-- What is handed to `execve`. -/
structure Image where
  argv : List (List Char)
  envp : List (List Char)
  deriving DecidableEq

inductive Outcome where
  | exits (status : ℤ)
  /-- `main` returns from here only where `execve` fails, and with its result. -/
  | execve (image : Image)
  deriving DecidableEq

/-- `notify_send` -/
def notifySend : List Char := "/usr/bin/notify-send".toList

/-- What `snprintf` leaves of a text in a buffer of `size` bytes. -/
def snprintf (size : ℕ) (text : List Char) : List Char := text.take (size - 1)

/-- `exec_notify` -/
def execNotify (id : UInt32) (summary body : List Char) (icon : Option (List Char)) : Outcome :=
  let xdgRundir :=
    snprintf 64 ("XDG_RUNTIME_DIR=/var/run/user/".toList ++ Numerals.toString id.toNat)
  match icon with
  | some icon =>
    let iconOpt := snprintf 512 ("--icon=/usr/share/icons/".toList ++ icon)
    .execve ⟨[notifySend, iconOpt, summary, body], [xdgRundir]⟩
  | none => .execve ⟨[notifySend, summary, body], [xdgRundir]⟩

/-- The loop over the sessions: what becomes of `euid_found`. -/
def scan (euid : UInt32) : List Session → Bool
  | [] => false
  | session :: sessions =>
    match session.getUid with
    | .failed _ => scan euid sessions
    | .answered _ sessionUid =>
      if sessionUid ≠ euid then scan euid sessions
      else
        match session.getType with
        | .failed _ => scan euid sessions
        | .answered _ sessionType =>
          if sessionType = "wayland" then true else scan euid sessions

/-- `main`, given what `sd_get_sessions` answers. -/
def main (euid : UInt32) (sessions : Except ℕ (List Session)) (argv : List (List Char)) : Outcome :=
  match sessions with
  | .error _ => .exits (-1)
  | .ok sessions =>
    if sessions.length = 0 then .exits 0
    else if !scan euid sessions then .exits 0
    else if argv.length < 3 then .exits (-2)
    else execNotify euid (argv.getD 1 []) (argv.getD 2 []) argv[3]?

/-! ### Whom it notifies -/

/-- A session of the user, of type "wayland". -/
def Graphical (euid : UInt32) (s : Session) : Prop :=
  s.getUid.value? = some euid ∧ s.getType.value? = some "wayland"

theorem scan_cons (euid : UInt32) (s : Session) (sessions : List Session) :
    scan euid (s :: sessions) = true ↔ Graphical euid s ∨ scan euid sessions = true := by
  obtain ⟨isRemote, isActive, getUid, getType⟩ := s
  cases getUid with
  | failed err => simp [scan, Graphical, Answer.value?]
  | answered r uid =>
    by_cases huid : uid = euid
    · cases getType with
      | failed err => simp [scan, Graphical, Answer.value?, huid]
      | answered r' type =>
        by_cases htype : type = "wayland"
        · simp [scan, Graphical, Answer.value?, huid, htype]
        · simp [scan, Graphical, Answer.value?, huid, htype]
    · simp [scan, Graphical, Answer.value?, huid]

/-- **The loop finds the session wherever it stands**, whatever the queries of the others
answer. -/
theorem scan_iff (euid : UInt32) (sessions : List Session) :
    scan euid sessions = true ↔ ∃ s ∈ sessions, Graphical euid s := by
  induction sessions with
  | nil => simp [scan]
  | cons s sessions ih =>
    rw [scan_cons, ih]
    simp

/-- The name of the directory fits its buffer. -/
theorem snprintf_xdgRundir (id : UInt32) :
    snprintf 64 ("XDG_RUNTIME_DIR=/var/run/user/".toList ++ Numerals.toString id.toNat)
      = "XDG_RUNTIME_DIR=/var/run/user/".toList ++ Numerals.toString id.toNat := by
  have hdigits : (Numerals.toString id.toNat).length ≤ 10 := by
    rw [Numerals.toString, Nat.length_toDigits_le_iff (by decide) (by decide)]
    exact Nat.lt_trans id.toNat_lt (by decide)
  have hpre : "XDG_RUNTIME_DIR=/var/run/user/".toList.length = 30 := by decide
  refine List.take_of_length_le ?_
  rw [List.length_append, hpre]
  omega

theorem snprintf_icon (icon : List Char) :
    snprintf 512 ("--icon=/usr/share/icons/".toList ++ icon)
      = "--icon=/usr/share/icons/".toList ++ icon.take 487 := by
  have hpre : "--icon=/usr/share/icons/".toList.length = 24 := by decide
  rw [snprintf, List.take_append, hpre, List.take_of_length_le (by rw [hpre]; decide)]

/-- What is run for the user, where the arguments after the two texts are `rest`. -/
def image (euid : UInt32) (summary body : List Char) (rest : List (List Char)) : Image where
  argv := notifySend :: (rest.head?.map fun icon =>
    "--icon=/usr/share/icons/".toList ++ icon.take 487).toList ++ [summary, body]
  envp := ["XDG_RUNTIME_DIR=/var/run/user/".toList ++ Numerals.toString euid.toNat]

theorem execNotify_eq (euid : UInt32) (summary body : List Char) (rest : List (List Char)) :
    execNotify euid summary body rest.head? = .execve (image euid summary body rest) := by
  unfold execNotify image
  rw [snprintf_xdgRundir]
  cases rest with
  | nil => rfl
  | cons icon rest =>
    simp only [List.head?_cons, snprintf_icon]
    rfl

/-- The user that `get_active_user` names has a session that qualifies. -/
theorem qualifies_of_userId {sessions : List Session} {u : UInt32}
    (h : (getActiveUser (.ok sessions)).userId = some u) :
    ∃ s ∈ sessions, s.Qualifies ∧ s.getUid.value? = some u := by
  by_cases hexists : ∃ s ∈ sessions, s.Qualifies
  · obtain ⟨before, s, after, rfl, hbefore, hs⟩ := exists_first hexists
    rw [getActiveUser, if_neg (by simp), scan_append hbefore hs] at h
    exact ⟨s, by simp, hs, h⟩
  · have hnone : ∀ s ∈ sessions, ¬s.Qualifies := fun s hs hq => hexists ⟨s, hs, hq⟩
    rw [getActiveUser] at h
    split_ifs at h
    rw [scan_none hnone] at h
    cases h

theorem main_eq_execve_iff (euid : UInt32) (sessions : List Session) (argv : List (List Char))
    (i : Image) :
    main euid (.ok sessions) argv = .execve i ↔
      (∃ s ∈ sessions, Graphical euid s) ∧ ∃ program summary body rest,
        argv = program :: summary :: body :: rest ∧ i = image euid summary body rest := by
  rw [← scan_iff, main]
  cases hscan : scan euid sessions with
  | false =>
    refine iff_of_false ?_ (fun h => Bool.false_ne_true h.1)
    rw [Bool.not_false, if_pos rfl, ite_self]
    exact fun h => Outcome.noConfusion h
  | true =>
    have hsome : ¬sessions.length = 0 := by
      intro hnil
      rw [List.length_eq_zero_iff.1 hnil, scan] at hscan
      cases hscan
    rw [if_neg hsome, if_neg (by decide), and_iff_right rfl]
    match argv with
    | [] => simp
    | [_] => simp
    | [_, _] => simp
    | program :: summary :: body :: rest =>
      have hicon : (program :: summary :: body :: rest)[3]? = rest.head? := by
        cases rest <;> rfl
      have hlength : ¬(program :: summary :: body :: rest).length < 3 := by
        simp
      rw [if_neg hlength, hicon]
      show execNotify euid summary body rest.head? = _ ↔ _
      rw [execNotify_eq, Outcome.execve.injEq]
      constructor
      · rintro rfl
        exact ⟨program, summary, body, rest, rfl, rfl⟩
      · rintro ⟨_, _, _, _, heq, rfl⟩
        cases heq
        rfl

/-- **When `notify-send` is run, and with what.**  It is run exactly where the user has a session
of type "wayland" among those listed and both texts are given; so it is for the user that
`get_active_user` names on the same sessions. -/
theorem main_execve_iff (euid : UInt32) (sessions : List Session) (argv : List (List Char)) :
    (∀ i, main euid (.ok sessions) argv = .execve i ↔
        (∃ s ∈ sessions, Graphical euid s) ∧ ∃ program summary body rest,
          argv = program :: summary :: body :: rest ∧ i = image euid summary body rest) ∧
      ((getActiveUser (.ok sessions)).userId = some euid → 3 ≤ argv.length →
        ∃ i, main euid (.ok sessions) argv = .execve i) := by
  refine ⟨main_eq_execve_iff euid sessions argv, fun hactive hlength => ?_⟩
  obtain ⟨s, hs, hqualifies, huid⟩ := qualifies_of_userId hactive
  match argv, hlength with
  | program :: summary :: body :: rest, _ =>
    refine ⟨image euid summary body rest, (main_eq_execve_iff euid sessions _ _).2 ⟨?_, ?_⟩⟩
    · exact ⟨s, hs, huid, hqualifies.2.2.2⟩
    · exact ⟨program, summary, body, rest, rfl, rfl⟩

end Notify
end TjTools
