/-
# Becoming the user of the daemon

`get_uid_gid` and `drop_root_privileges` of `src/src/brightness_utils/common.cpp` look the
configured user and group up in the account database; the first for the owner of the
socket, the second for the process that will serve it.

Every call may fail: a lookup then finds nothing, and a system call returns -1 and changes
nothing (`SystemCall`).  Whatever fails, a process that enters `drop_root_privileges` as
root and returns from it is the user, with the resolved group and with no supplementary
group that the database does not give the user, and `get_uid_gid` finds that very user and
group (`drops_root`).  A failure of `initgroups`, which is not looked at, only leaves groups
out.
-/

import TjTools.Basis.Throwing
import TjTools.Basis.Triple
import Mathlib.Data.Int.Notation
import Mathlib.Tactic.SplitIfs

namespace TjTools
namespace Brightness

/-- An entry of the user database. -/
structure Passwd where
  pwName : String
  pwUid : UInt32
  pwGid : UInt32
  deriving DecidableEq, Repr

/-- An entry of the group database. -/
structure Group where
  grName : String
  grGid : UInt32
  grMem : List String
  deriving DecidableEq, Repr

structure Accounts where
  passwds : List Passwd
  groups : List Group

structure Credentials where
  uid : UInt32
  gid : UInt32
  /-- The supplementary groups. -/
  groups : List UInt32
  /-- The working directory. -/
  cwd : String
  deriving DecidableEq, Repr

/-- The calls that may fail.  No function makes the same one twice. -/
inductive SystemCall where
  | getgrnam
  | getpwnam
  | getgrgid
  | setgid
  | setgroups
  | initgroups
  | chdir
  | setuid
  deriving DecidableEq, Repr

namespace Accounts

variable (db : Accounts)

/-- The entry a name stands for. -/
def passwd (name : String) : Option Passwd := db.passwds.find? fun pwd => pwd.pwName = name

def group (name : String) : Option Group := db.groups.find? fun grp => grp.grName = name

def groupOfGid (gid : UInt32) : Option Group := db.groups.find? fun grp => grp.grGid = gid

/-- The groups that list the user as a member. -/
def groupsOf (name : String) : List UInt32 :=
  (db.groups.filter fun grp => grp.grMem.contains name).map Group.grGid

end Accounts

section Calls

variable (db : Accounts) (fails : SystemCall → Bool)

def getpwnam (name : String) : Option Passwd :=
  if fails .getpwnam then none else db.passwd name

def getgrnam (name : String) : Option Group :=
  if fails .getgrnam then none else db.group name

def getgrgid (gid : UInt32) : Option Group :=
  if fails .getgrgid then none else db.groupOfGid gid

/-- A system call returns 0 and has its effect, or returns -1 and has none. -/
def systemCall (call : SystemCall) (effect : Credentials → Credentials) :
    EStateM String Credentials ℤ := do
  if fails call then
    return -1
  else
    modify effect
    return 0

/-- `setgid`, for root. -/
def setgid (gid : UInt32) : EStateM String Credentials ℤ :=
  systemCall fails .setgid fun c => { c with gid := gid }

def setgroups (groups : List UInt32) : EStateM String Credentials ℤ :=
  systemCall fails .setgroups fun c => { c with groups := groups }

def initgroups (user : String) (group : UInt32) : EStateM String Credentials ℤ :=
  systemCall fails .initgroups fun c => { c with groups := group :: db.groupsOf user }

def chdir (path : String) : EStateM String Credentials ℤ :=
  systemCall fails .chdir fun c => { c with cwd := path }

/-- `setuid`, for root. -/
def setuid (uid : UInt32) : EStateM String Credentials ℤ :=
  systemCall fails .setuid fun c => { c with uid := uid }

/-! ### The two functions -/

/-- The group by name, if a name is given. -/
def findGroup (groupname : Option String) : EStateM String Credentials (Option Group) :=
  match groupname with
  | none => return none
  | some groupname => return some (← orThrow (getgrnam db fails groupname) "failed to find group")

/-- The group already found, or that of the user. -/
def groupOrOf (grp : Option Group) (pwd : Passwd) : EStateM String Credentials Group :=
  match grp with
  | some grp => return grp
  | none => orThrow (getgrgid db fails pwd.pwGid) "failed to find group of user"

/-- `get_uid_gid` -/
def getUidGid (username groupname : Option String) :
    EStateM String Credentials (UInt32 × UInt32) := do
  let grp ← findGroup db fails groupname
  let username ← orThrow username "invalid username"
  let pwd ← orThrow (getpwnam db fails username) "failed to find user"
  let grp ← groupOrOf db fails grp pwd
  return (pwd.pwUid, grp.grGid)

/-- `drop_root_privileges` -/
def dropRootPrivileges (username groupname : Option String) :
    EStateM String Credentials Unit := do
  if (← get).uid ≠ 0 then
    return ()
  else
    let grp ← findGroup db fails groupname
    let username ← orThrow username "invalid username"
    let pwd ← orThrow (getpwnam db fails username) "failed to find user"
    throwIf (pwd.pwUid = 0) "bogus user"
    let grp ← groupOrOf db fails grp pwd
    throwIf (grp.grGid = 0) "bogus group"
    let ret ← setgid fails grp.grGid
    throwIf (ret = -1) "setgid()"
    let ret ← setgroups fails []
    throwIf (ret = -1) "setgroups()"
    let _ ← initgroups db fails username grp.grGid
    let ret ← chdir fails "/"
    throwIf (ret = -1) "chdir()"
    let ret ← setuid fails pwd.pwUid
    throwIf (ret = -1) "setuid()"

end Calls

/-! ### What the names stand for -/

/-- The user and the group the names resolve to in the database. -/
structure Resolved (db : Accounts) (username groupname : Option String) (name : String)
    (pwd : Passwd) (grp : Group) : Prop where
  name_eq : username = some name
  passwd_eq : db.passwd name = some pwd
  group_eq : ∀ groupname', groupname = some groupname' → db.group groupname' = some grp
  groupOf_eq : groupname = none → db.groupOfGid pwd.pwGid = some grp

theorem Resolved.unique {db : Accounts} {username groupname : Option String} {name name' : String}
    {pwd pwd' : Passwd} {grp grp' : Group} (h : Resolved db username groupname name pwd grp)
    (h' : Resolved db username groupname name' pwd' grp') : pwd = pwd' ∧ grp = grp' := by
  obtain rfl : name = name' := Option.some.inj (h.name_eq.symm.trans h'.name_eq)
  obtain rfl : pwd = pwd' := Option.some.inj (h.passwd_eq.symm.trans h'.passwd_eq)
  refine ⟨rfl, ?_⟩
  cases groupname with
  | none => exact Option.some.inj ((h.groupOf_eq rfl).symm.trans (h'.groupOf_eq rfl))
  | some groupname =>
    exact Option.some.inj ((h.group_eq _ rfl).symm.trans (h'.group_eq _ rfl))

variable {db : Accounts} {fails : SystemCall → Bool}

theorem getpwnam_eq_some {name : String} {pwd : Passwd} (h : getpwnam db fails name = some pwd) :
    db.passwd name = some pwd := by
  unfold getpwnam at h
  split_ifs at h
  exact h

theorem getgrnam_eq_some {name : String} {grp : Group} (h : getgrnam db fails name = some grp) :
    db.group name = some grp := by
  unfold getgrnam at h
  split_ifs at h
  exact h

theorem getgrgid_eq_some {gid : UInt32} {grp : Group} (h : getgrgid db fails gid = some grp) :
    db.groupOfGid gid = some grp := by
  unfold getgrgid at h
  split_ifs at h
  exact h

theorem findGroup_eq_ok {groupname : Option String} {s t : Credentials} {grp : Option Group}
    (h : (findGroup db fails groupname).run s = .ok grp t) :
    s = t ∧ grp = groupname.bind (getgrnam db fails) ∧ grp.isSome = groupname.isSome := by
  cases groupname with
  | none =>
    obtain ⟨rfl, rfl⟩ := run_pure_eq_ok.1 h
    exact ⟨rfl, rfl, rfl⟩
  | some groupname =>
    obtain ⟨found, s', hfound, hreturn⟩ := run_bind_eq_ok.1 h
    obtain ⟨hgroup, rfl⟩ := run_orThrow_eq_ok.1 hfound
    obtain ⟨rfl, rfl⟩ := run_pure_eq_ok.1 hreturn
    exact ⟨rfl, hgroup.symm, rfl⟩

/-- The lookups of either function, when they succeed. -/
theorem resolved_of_eq_ok {username groupname : Option String} {name : String} {pwd : Passwd}
    {found : Option Group} {grp : Group} {s s' t t' : Credentials}
    (hgroup : (findGroup db fails groupname).run s = .ok found s') (hname : username = some name)
    (hpwd : getpwnam db fails name = some pwd)
    (hgrp : (groupOrOf db fails found pwd).run t = .ok grp t') :
    Resolved db username groupname name pwd grp ∧ t = t' := by
  obtain ⟨-, hfound, hsome⟩ := findGroup_eq_ok hgroup
  cases groupname with
  | none =>
    obtain rfl : found = none := hfound
    obtain ⟨hgid, rfl⟩ := run_orThrow_eq_ok.1 hgrp
    refine ⟨⟨hname, getpwnam_eq_some hpwd, ?_, fun _ => getgrgid_eq_some hgid⟩, rfl⟩
    intro groupname hsome
    cases hsome
  | some groupname =>
    obtain ⟨grp', rfl⟩ := Option.isSome_iff_exists.1 hsome
    obtain ⟨rfl, rfl⟩ := run_pure_eq_ok.1 hgrp
    refine ⟨⟨hname, getpwnam_eq_some hpwd, ?_, fun hnone => ?_⟩, rfl⟩
    · intro groupname' heq
      cases heq
      exact getgrnam_eq_some hfound.symm
    · cases hnone

/-! ### What the functions return with -/

theorem getUidGid_eq_ok {username groupname : Option String} {ugid : UInt32 × UInt32}
    {s t : Credentials} (h : (getUidGid db fails username groupname).run s = .ok ugid t) :
    ∃ name pwd grp, Resolved db username groupname name pwd grp ∧
      ugid = (pwd.pwUid, grp.grGid) := by
  obtain ⟨found, s₁, hgroup, h⟩ := run_bind_eq_ok.1 h
  obtain ⟨name, s₂, hname, h⟩ := run_bind_eq_ok.1 h
  obtain ⟨pwd, s₃, hpwd, h⟩ := run_bind_eq_ok.1 h
  obtain ⟨grp, s₄, hgrp, h⟩ := run_bind_eq_ok.1 h
  obtain ⟨rfl, -⟩ := run_pure_eq_ok.1 h
  obtain ⟨hname, -⟩ := run_orThrow_eq_ok.1 hname
  obtain ⟨hpwd, -⟩ := run_orThrow_eq_ok.1 hpwd
  exact ⟨name, pwd, grp, (resolved_of_eq_ok hgroup hname hpwd hgrp).1, rfl⟩

/-- A system call that did not return -1 has had its effect. -/
theorem checked_eq_ok {call : SystemCall} {effect : Credentials → Credentials} {what : String}
    {ret : ℤ} {s s' t : Credentials} (hcall : (systemCall fails call effect).run s = .ok ret s')
    (hcheck : (throwIf (ret = -1) what : EStateM String Credentials Unit).run s' = .ok () t) :
    t = effect s := by
  obtain ⟨hret, rfl⟩ := run_throwIf_eq_ok.1 hcheck
  unfold systemCall at hcall
  split_ifs at hcall
  · cases hcall
    exact absurd rfl hret
  · cases hcall
    rfl

/-- A system call has had its effect or none. -/
theorem systemCall_eq_ok {call : SystemCall} {effect : Credentials → Credentials} {ret : ℤ}
    {s t : Credentials} (h : (systemCall fails call effect).run s = .ok ret t) :
    t = s ∨ t = effect s := by
  unfold systemCall at h
  split_ifs at h
  · cases h
    exact .inl rfl
  · cases h
    exact .inr rfl

/-- **A process that enters as root and returns has become the user of the database**, with the
resolved group; its supplementary groups are those of the user, or none. -/
theorem dropRootPrivileges_eq_ok {username groupname : Option String} {s t : Credentials}
    (hroot : s.uid = 0) (h : (dropRootPrivileges db fails username groupname).run s = .ok () t) :
    ∃ name pwd grp, Resolved db username groupname name pwd grp ∧ pwd.pwUid ≠ 0 ∧
      grp.grGid ≠ 0 ∧ t.uid = pwd.pwUid ∧ t.gid = grp.grGid ∧
        (t.groups = [] ∨ t.groups = grp.grGid :: db.groupsOf name) := by
  obtain ⟨s₀, s₁, hget, h⟩ := run_bind_eq_ok.1 h
  cases hget
  rw [if_neg (not_not.2 hroot)] at h
  obtain ⟨found, s₁, hgroup, h⟩ := run_bind_eq_ok.1 h
  obtain ⟨name, s₂, hname, h⟩ := run_bind_eq_ok.1 h
  obtain ⟨pwd, s₃, hpwd, h⟩ := run_bind_eq_ok.1 h
  obtain ⟨⟨⟩, s₄, huid, h⟩ := run_bind_eq_ok.1 h
  obtain ⟨grp, s₅, hgrp, h⟩ := run_bind_eq_ok.1 h
  obtain ⟨⟨⟩, s₆, hgid, h⟩ := run_bind_eq_ok.1 h
  obtain ⟨ret₁, s₇, hsetgid, h⟩ := run_bind_eq_ok.1 h
  obtain ⟨⟨⟩, s₈, hcheck₁, h⟩ := run_bind_eq_ok.1 h
  obtain ⟨ret₂, s₉, hsetgroups, h⟩ := run_bind_eq_ok.1 h
  obtain ⟨⟨⟩, s₁₀, hcheck₂, h⟩ := run_bind_eq_ok.1 h
  obtain ⟨_, s₁₁, hinitgroups, h⟩ := run_bind_eq_ok.1 h
  obtain ⟨ret₃, s₁₂, hchdir, h⟩ := run_bind_eq_ok.1 h
  obtain ⟨⟨⟩, s₁₃, hcheck₃, h⟩ := run_bind_eq_ok.1 h
  obtain ⟨ret₄, s₁₄, hsetuid, hcheck₄⟩ := run_bind_eq_ok.1 h
  obtain ⟨hname, -⟩ := run_orThrow_eq_ok.1 hname
  obtain ⟨hpwd, -⟩ := run_orThrow_eq_ok.1 hpwd
  obtain ⟨huid, -⟩ := run_throwIf_eq_ok.1 huid
  obtain ⟨hresolved, -⟩ := resolved_of_eq_ok hgroup hname hpwd hgrp
  obtain ⟨hgid, -⟩ := run_throwIf_eq_ok.1 hgid
  -- the group and the list of groups before `initgroups`
  obtain rfl := checked_eq_ok hsetgid hcheck₁
  obtain rfl := checked_eq_ok hsetgroups hcheck₂
  obtain rfl := checked_eq_ok hchdir hcheck₃
  obtain rfl := checked_eq_ok hsetuid hcheck₄
  refine ⟨name, pwd, grp, hresolved, huid, hgid, rfl, ?_⟩
  rcases systemCall_eq_ok hinitgroups with rfl | rfl
  · exact ⟨rfl, .inl rfl⟩
  · exact ⟨rfl, .inr rfl⟩

/-- **Root either gets an exception or becomes the user.**  The process ends with the uid of
the user and the gid of the resolved group, neither of them 0, and with no supplementary group
but that one and those the database gives the user; `get_uid_gid`, whenever it returns on the
same names, gives the same two numbers. -/
theorem drops_root (db : Accounts) (fails : SystemCall → Bool) (username groupname : Option String)
    (process : Credentials) (hroot : process.uid = 0) :
    threw ((dropRootPrivileges db fails username groupname).run process) = true ∨
      ∃ process' name pwd grp,
        (dropRootPrivileges db fails username groupname).run process = .ok () process' ∧
          Resolved db username groupname name pwd grp ∧
          process'.uid = pwd.pwUid ∧ process'.uid ≠ 0 ∧
          process'.gid = grp.grGid ∧ process'.gid ≠ 0 ∧
          (∀ gid ∈ process'.groups, gid = process'.gid ∨ gid ∈ db.groupsOf name) ∧
          ∀ fails' ugid s s', (getUidGid db fails' username groupname).run s = .ok ugid s' →
            ugid = (process'.uid, process'.gid) := by
  rcases hrun : (dropRootPrivileges db fails username groupname).run process with ⟨⟨⟩, t⟩ | ⟨e, t⟩
  · right
    obtain ⟨name, pwd, grp, hresolved, huid, hgid, hu, hg, hgroups⟩ :=
      dropRootPrivileges_eq_ok hroot hrun
    refine ⟨t, name, pwd, grp, rfl, hresolved, hu, hu ▸ huid, hg, hg ▸ hgid, ?_, ?_⟩
    · intro gid hmem
      rcases hgroups with hnone | hsome
      · rw [hnone] at hmem
        cases hmem
      · rw [hsome] at hmem
        rw [hg]
        exact List.mem_cons.1 hmem
    · intro fails' ugid s s' hget
      obtain ⟨name', pwd', grp', hresolved', rfl⟩ := getUidGid_eq_ok hget
      obtain ⟨rfl, rfl⟩ := hresolved.unique hresolved'
      rw [hu, hg]
  · exact .inl rfl

/-- A user with a group of its own, and a member of another one. -/
def sampleAccounts : Accounts where
  passwds := [⟨"root", 0, 0⟩, ⟨"backlight", 104, 105⟩]
  groups := [⟨"root", 0, []⟩, ⟨"backlight", 105, []⟩, ⟨"video", 27, ["backlight"]⟩]

/-- With a failing `initgroups` root still becomes the user. -/
theorem drops_root_backlight :
    ∃ process', (dropRootPrivileges sampleAccounts (fun call => call = .initgroups)
        (some "backlight") none).run ⟨0, 0, [0, 27], "/root"⟩ = .ok () process' ∧
      process'.uid ≠ 0 ∧ process'.gid ≠ 0 := by
  rcases drops_root sampleAccounts (fun call => call = .initgroups) (some "backlight") none
    ⟨0, 0, [0, 27], "/root"⟩ rfl with hthrew | ⟨process', _, _, _, hrun, _, _, huid, _, hgid, _⟩
  · exact absurd hthrew (by decide)
  · exact ⟨process', hrun, huid, hgid⟩

end Brightness
end TjTools
