/-
# The user and the group of the daemon

How the names in the configuration file come to the functions of
`TjTools.Brightness.Privileges`: `Config::read` of `src/src/brightness_utils/config.h`
(lines 42-70) and `SocketContext::init` and `start` of `src/src/brightness_daemon.cpp`
(lines 268-296), `start` up to `process()`.

A name that is missing is three things on the way.  It is a key the file does not have,
then an empty `std::string`, and then what `data()` points to, an empty text and never a
null pointer.  `get_uid_gid` and `drop_root_privileges` take the group of the user for a
null pointer only (`dropRootPrivileges_optional`); they look the empty name up, and throw
(`start_fails`).  So the group is optional for them, but not for the daemon
(`not_runsAs_optional`).
-/

import TjTools.Brightness.Backlight
import TjTools.Brightness.Privileges
import TjTools.Powerlimit.Profile

namespace TjTools
namespace Brightness

open Powerlimit (Json ConfigFile)

/-! ### The configuration -/

/-- The exceptions of `Config::read`. -/
inductive ConfigError where
  /-- `std::system_error`, or an exception of the JSON library. -/
  | file (e : Powerlimit.Error)
  /-- An exception of `std::stoi`. -/
  | stoi (e : Numerals.StoiError)
  deriving DecidableEq, Repr

/-- `contains(key)` -/
def contains (key : String) : Json → Bool
  | .object fields => (fields.lookup key).isSome
  | _ => false

/-- `at(key)` -/
def atKey (key : String) (data : Json) : Except ConfigError Json :=
  match data.atKey key with
  | .ok value => .ok value
  | .error e => .error (.file e)

/-- `get_to` of a `std::string` or a `fs::path`. -/
def getString : Json → Except ConfigError String
  | .string s => .ok s
  | _ => .error (.file .json)

/-- `get_to` of an `unsigned`: a number loses its fraction. -/
def getUnsigned : Json → Except ConfigError UInt32
  | .number value => .ok (UInt32.ofInt (if 0 ≤ value then value.floor else value.ceil))
  | .boolean b => .ok (if b then 1 else 0)
  | _ => .error (.file .json)

/-- The value of a hexadecimal digit. -/
def hexDigit (c : Char) : Option ℕ :=
  if c.isDigit then some (c.toNat - '0'.toNat)
  else if 'a' ≤ c ∧ c ≤ 'f' then some (c.toNat - 'a'.toNat + 10)
  else if 'A' ≤ c ∧ c ≤ 'F' then some (c.toNat - 'A'.toNat + 10)
  else none

/-- The number that the hexadecimal digits at the front of a text denote. -/
def leadingHexDigits (text : List Char) : Option ℕ :=
  let digits := (text.takeWhile fun c => (hexDigit c).isSome).filterMap hexDigit
  if digits = [] then none else some (digits.foldl (fun n d => 16 * n + d) 0)

/-- `0x` in front of a hexadecimal digit. -/
def skipBase : List Char → List Char
  | '0' :: x :: d :: rest =>
    if (x = 'x' ∨ x = 'X') ∧ (hexDigit d).isSome then d :: rest else '0' :: x :: d :: rest
  | text => text

/-- `std::stoi(text, nullptr, 16)` -/
def stoiHex (text : String) : Except ConfigError ℤ :=
  let number : Option ℤ :=
    match text.toList.dropWhile Numerals.isspace with
    | '-' :: rest => (leadingHexDigits (skipBase rest)).map fun n => -(n : ℤ)
    | '+' :: rest => (leadingHexDigits (skipBase rest)).map fun n => (n : ℤ)
    | rest => (leadingHexDigits (skipBase rest)).map fun n => (n : ℤ)
  match number with
  | none => .error (.stoi .invalidArgument)
  | some z => if -2 ^ 31 ≤ z ∧ z < 2 ^ 31 then .ok z else .error (.stoi .outOfRange)

structure BacklightIdentifier where
  backlightPrefix : String
  vendorId : UInt16
  deviceId : UInt16
  deriving DecidableEq, Repr

/-- `BacklightIdentifier::parse` -/
def BacklightIdentifier.parse (data : Json) : Except ConfigError BacklightIdentifier := do
  let backlightPrefix ← getString (← atKey "prefix" data)
  let vendorId ← stoiHex (← getString (← atKey "vendor-id" data))
  let deviceId ← stoiHex (← getString (← atKey "device-id" data))
  return ⟨backlightPrefix, UInt16.ofInt vendorId, UInt16.ofInt deviceId⟩

/-- `Config`, with what the backlight object does not look at. -/
structure DaemonConfig extends Config where
  user : String
  group : String
  identifier : BacklightIdentifier
  statePath : String
  socketPath : String
  deriving DecidableEq, Repr

namespace DaemonConfig

/-- A name that may be missing. -/
def name (key : String) (data : Json) : Except ConfigError String :=
  if contains key data then do getString (← atKey key data) else return ""

/-- `read` -/
def read : ConfigFile → Except ConfigError DaemonConfig
  | .missing => .error (.file (.system Powerlimit.ENOENT))
  | .unreadable => .error (.file (.system Powerlimit.EACCES))
  | .malformed => .error (.file .json)
  | .parsed configData => do
    let user ← name "user" configData
    let group ← name "group" configData
    let identifier ← BacklightIdentifier.parse (← atKey "backlight-identifier" configData)
    let statePath ← getString (← atKey "state-path" configData)
    let socketPath ← getString (← atKey "socket-path" configData)
    let powersaveValue ← getUnsigned (← atKey "powersave-value" configData)
    return ⟨⟨powersaveValue⟩, user, group, identifier, statePath, socketPath⟩

/-- A missing group is an empty one. -/
theorem group_of_read {configData : Json} {cfg : DaemonConfig}
    (h : read (.parsed configData) = .ok cfg) (habsent : contains "group" configData = false) :
    cfg.group = "" := by
  obtain ⟨user, -, h⟩ := bind_eq_ok.1 h
  obtain ⟨group, hgroup, h⟩ := bind_eq_ok.1 h
  obtain ⟨_, -, h⟩ := bind_eq_ok.1 h
  obtain ⟨identifier, -, h⟩ := bind_eq_ok.1 h
  obtain ⟨_, -, h⟩ := bind_eq_ok.1 h
  obtain ⟨statePath, -, h⟩ := bind_eq_ok.1 h
  obtain ⟨_, -, h⟩ := bind_eq_ok.1 h
  obtain ⟨socketPath, -, h⟩ := bind_eq_ok.1 h
  obtain ⟨_, -, h⟩ := bind_eq_ok.1 h
  obtain ⟨powersaveValue, -, h⟩ := bind_eq_ok.1 h
  cases h
  rw [name, habsent] at hgroup
  exact (Except.ok.inj hgroup).symm

end DaemonConfig

/-! ### The socket and the process -/

/-- What `data()` of a `std::string` points to. -/
def cString (s : String) : String := String.ofList (s.toList.takeWhile fun c => c.toNat ≠ 0)

structure SocketFile where
  uid : UInt32
  gid : UInt32
  mode : UInt32
  deriving DecidableEq, Repr

/-- The process, and the file at the path of the socket. -/
structure Host where
  credentials : Credentials
  umask : UInt32
  socket : Option SocketFile
  deriving DecidableEq, Repr

/-- The calls on the socket and its file. -/
inductive SocketCall where
  | remove
  | open
  | bind
  | permissions
  | chown
  deriving DecidableEq, Repr

/-- The exceptions of `init` and `start`. -/
inductive StartError where
  /-- What a failing call throws. -/
  | call (call : SocketCall)
  | runtimeError (what : String)
  deriving DecidableEq, Repr

namespace Host

def remove (h : Host) : Host := { h with socket := none }

def bind (h : Host) : Host :=
  { h with socket := some ⟨h.credentials.uid, h.credentials.gid, 0o777 &&& ~~~h.umask⟩ }

/-- `owner_all | group_all` -/
def permissions (h : Host) : Host :=
  { h with socket := h.socket.map fun file => { file with mode := 0o770 } }

def chown (uid gid : UInt32) (h : Host) : Host :=
  { h with socket := h.socket.map fun file => { file with uid := uid, gid := gid } }

end Host

section

variable (db : Accounts) (fails : SystemCall → Bool) (failsSocket : SocketCall → Bool)

/-- A function of `TjTools.Brightness.Privileges`. -/
def onCredentials {α : Type} (m : EStateM String Credentials α) : EStateM StartError Host α :=
  focus Host.credentials (fun h c => { h with credentials := c }) .runtimeError m

/-- A call that has its effect, or throws and has none. -/
def socketCall (call : SocketCall) (effect : Host → Host) : EStateM StartError Host Unit := do
  throwIf (failsSocket call) (.call call)
  modify effect

/-- `SocketContext::init` -/
def initSocket (cfg : DaemonConfig) : EStateM StartError Host Unit := do
  socketCall failsSocket .remove Host.remove
  socketCall failsSocket .open id
  socketCall failsSocket .bind Host.bind
  if cfg.user ≠ "" then
    let info ← onCredentials
      (getUidGid db fails (some (cString cfg.user)) (some (cString cfg.group)))
    socketCall failsSocket .permissions Host.permissions
    throwIf (failsSocket .chown) (.runtimeError "fchown() failed: ")
    modify (Host.chown info.1 info.2)

/-- `SocketContext::start` -/
def startSocket (cfg : DaemonConfig) : EStateM StartError Host Unit :=
  onCredentials (dropRootPrivileges db fails (some (cString cfg.user)) (some (cString cfg.group)))

end

/-! ### What becomes of them -/

/-- No call fails. -/
def allSucceed {Call : Type} : Call → Bool := fun _ => false

/-- `init` gives the socket to this user and group, and `start` makes the process run as
them. -/
def RunsAs (db : Accounts) (cfg : DaemonConfig) (host : Host) (uid gid : UInt32) : Prop :=
  ∃ host₁ host₂ file, (initSocket db allSucceed allSucceed cfg).run host = .ok () host₁ ∧
    host₁.socket = some file ∧ file.uid = uid ∧ file.gid = gid ∧
    (startSocket db allSucceed cfg).run host₁ = .ok () host₂ ∧
    host₂.credentials.uid = uid ∧ host₂.credentials.gid = gid

/-- A configuration that names a user but no group, and a database in which the user and its
primary group are not those of root. -/
structure NamesUserOnly (db : Accounts) (configData : Json) (cfg : DaemonConfig) (pwd : Passwd)
    (grp : Group) : Prop where
  noEmptyName : db.group "" = none
  read : DaemonConfig.read (.parsed configData) = .ok cfg
  absent : contains "group" configData = false
  passwd : db.passwd (cString cfg.user) = some pwd
  uid : pwd.pwUid ≠ 0
  group : db.groupOfGid pwd.pwGid = some grp
  gid : grp.grGid ≠ 0

theorem onCredentials_ok {α : Type} {m : EStateM String Credentials α} {h : Host} {a : α}
    {c : Credentials} (hm : m.run h.credentials = .ok a c) :
    (onCredentials m).run h = .ok a { h with credentials := c } :=
  run_focus_ok hm

theorem onCredentials_error {α : Type} {m : EStateM String Credentials α} {h : Host} {e : String}
    {c : Credentials} (hm : m.run h.credentials = .error e c) :
    (onCredentials m).run h = .error (.runtimeError e) { h with credentials := c } :=
  run_focus_error hm

/-- An empty name finds no group, and no user is looked up. -/
theorem findGroup_empty {db : Accounts} {fails : SystemCall → Bool} (hdb : db.group "" = none)
    (s : Credentials) :
    (findGroup db fails (some "")).run s = .error "failed to find group" s := by
  have hnone : getgrnam db fails "" = none := by
    unfold getgrnam
    split_ifs
    · rfl
    · exact hdb
  unfold findGroup
  rw [EStateM.run_bind, hnone]
  rfl

/-- **Without a group `start` throws**, whatever else fails. -/
theorem start_fails {db : Accounts} {cfg : DaemonConfig} (hdb : db.group "" = none)
    (hgroup : cfg.group = "") (fails : SystemCall → Bool) {host : Host}
    (hroot : host.credentials.uid = 0) :
    (startSocket db fails cfg).run host = .error (.runtimeError "failed to find group") host := by
  have hdrop : (dropRootPrivileges db fails (some (cString cfg.user)) (some "")).run
      host.credentials = .error "failed to find group" host.credentials := by
    unfold dropRootPrivileges
    rw [EStateM.run_bind, EStateM.run_get]
    simp only [hroot, ne_eq, not_true_eq_false, if_false]
    rw [EStateM.run_bind, findGroup_empty hdb]
  rw [startSocket, hgroup]
  exact onCredentials_error hdrop

/-- **Without a group `init` throws** if there is a user, whatever calls fail. -/
theorem initSocket_ne_ok {db : Accounts} {cfg : DaemonConfig} (hdb : db.group "" = none)
    (hgroup : cfg.group = "") (huser : cfg.user ≠ "") (fails : SystemCall → Bool)
    (failsSocket : SocketCall → Bool) (host host' : Host) :
    (initSocket db fails failsSocket cfg).run host ≠ .ok () host' := by
  intro h
  obtain ⟨⟨⟩, h₁, -, h⟩ := run_bind_eq_ok.1 h
  obtain ⟨⟨⟩, h₂, -, h⟩ := run_bind_eq_ok.1 h
  obtain ⟨⟨⟩, h₃, -, h⟩ := run_bind_eq_ok.1 h
  rw [if_pos huser] at h
  obtain ⟨info, h₄, hinfo, -⟩ := run_bind_eq_ok.1 h
  have hget : (getUidGid db fails (some (cString cfg.user)) (some "")).run h₃.credentials
      = .error "failed to find group" h₃.credentials := by
    unfold getUidGid
    rw [EStateM.run_bind, findGroup_empty hdb]
  rw [hgroup] at hinfo
  cases hinfo.symm.trans (onCredentials_error hget)

/-- Without failures the lookups of `get_uid_gid` find what the names stand for. -/
theorem getUidGid_resolved {db : Accounts} {username groupname : Option String} {name : String}
    {pwd : Passwd} {grp : Group} (h : Resolved db username groupname name pwd grp)
    (s : Credentials) :
    (getUidGid db allSucceed username groupname).run s = .ok (pwd.pwUid, grp.grGid) s := by
  obtain ⟨rfl, hpasswd, hgroup, hgroupOf⟩ := h
  cases groupname with
  | none =>
    simp [getUidGid, findGroup, groupOrOf, orThrow, getpwnam, getgrgid, allSucceed, hpasswd,
      hgroupOf rfl]
  | some groupname =>
    simp [getUidGid, findGroup, groupOrOf, orThrow, getpwnam, getgrnam, allSucceed, hpasswd,
      hgroup groupname rfl]

theorem dropRootPrivileges_resolved {db : Accounts} {username groupname : Option String}
    {name : String} {pwd : Passwd} {grp : Group}
    (h : Resolved db username groupname name pwd grp) (huid : pwd.pwUid ≠ 0) (hgid : grp.grGid ≠ 0)
    {s : Credentials} (hroot : s.uid = 0) :
    (dropRootPrivileges db allSucceed username groupname).run s
      = .ok () ⟨pwd.pwUid, grp.grGid, grp.grGid :: db.groupsOf name, "/"⟩ := by
  obtain ⟨rfl, hpasswd, hgroup, hgroupOf⟩ := h
  cases groupname with
  | none =>
    simp [dropRootPrivileges, findGroup, groupOrOf, orThrow, throwIf, getpwnam, getgrgid,
      allSucceed, hpasswd, hgroupOf rfl, hroot, huid, hgid, setgid, setgroups, initgroups, chdir,
      setuid, systemCall]
  | some groupname =>
    simp [dropRootPrivileges, findGroup, groupOrOf, orThrow, throwIf, getpwnam, getgrnam,
      allSucceed, hpasswd, hgroup groupname rfl, hroot, huid, hgid, setgid, setgroups, initgroups,
      chdir, setuid, systemCall]

/-- **With a group that exists the daemon runs as the user and that group**, and so does the
owner of its socket. -/
theorem runsAs_resolved {db : Accounts} {cfg : DaemonConfig} {pwd : Passwd} {grp : Group}
    (hresolved : Resolved db (some (cString cfg.user)) (some (cString cfg.group))
      (cString cfg.user) pwd grp)
    (huser : cfg.user ≠ "") (huid : pwd.pwUid ≠ 0) (hgid : grp.grGid ≠ 0) {host : Host}
    (hroot : host.credentials.uid = 0) : RunsAs db cfg host pwd.pwUid grp.grGid := by
  have hget := @onCredentials_ok _ _ host.remove.bind _ _
    (getUidGid_resolved hresolved host.credentials)
  have hinit : (initSocket db allSucceed allSucceed cfg).run host
      = .ok () ((host.remove.bind.permissions).chown pwd.pwUid grp.grGid) := by
    unfold initSocket socketCall
    rw [if_pos huser]
    simp only [allSucceed, throwIf, Bool.false_eq_true, if_false, pure_bind, EStateM.run_bind,
      EStateM.run_modify, id_eq]
    rw [hget]
    rfl
  have hdrop := @onCredentials_ok _ _ ((host.remove.bind.permissions).chown pwd.pwUid grp.grGid)
    _ _ (dropRootPrivileges_resolved hresolved huid hgid hroot)
  exact ⟨_, _, _, hinit, rfl, rfl, rfl, hdrop, rfl, rfl⟩

/-- **The group is not optional.**  Without one the daemon never runs as its user. -/
theorem not_runsAs_optional {db : Accounts} {configData : Json} {cfg : DaemonConfig}
    {pwd : Passwd} {grp : Group} (h : NamesUserOnly db configData cfg pwd grp) {host : Host}
    (hroot : host.credentials.uid = 0) : ¬RunsAs db cfg host pwd.pwUid pwd.pwGid := by
  have hgroup := DaemonConfig.group_of_read h.read h.absent
  rintro ⟨host₁, host₂, file, hinit, -, -, -, hstart, -, -⟩
  by_cases huser : cfg.user = ""
  · -- `init` does not look the user up, `start` does
    have hcredentials : host₁.credentials = host.credentials := by
      unfold initSocket socketCall at hinit
      rw [if_neg (not_not.2 huser)] at hinit
      simp only [allSucceed, throwIf, Bool.false_eq_true, if_false, pure_bind, EStateM.run_bind,
        EStateM.run_modify, id_eq] at hinit
      cases hinit
      rfl
    rw [← hcredentials] at hroot
    rw [start_fails h.noEmptyName hgroup allSucceed hroot] at hstart
    cases hstart
  · exact initSocket_ne_ok h.noEmptyName hgroup huser allSucceed allSucceed host host₁ hinit

/-- A configuration without a group. -/
def sampleConfigData : Json :=
  .object [("user", .string "backlight"),
    ("backlight-identifier", .object [("prefix", .string "amdgpu_bl"),
      ("vendor-id", .string "1002"), ("device-id", .string "15bf")]),
    ("state-path", .string "/var/lib/brightness-daemon/acpi_backlight"),
    ("socket-path", .string "/run/brightness.sock"), ("powersave-value", .number 112)]

def sampleConfig : DaemonConfig where
  powersaveValue := 112
  user := "backlight"
  group := ""
  identifier := ⟨"amdgpu_bl", 0x1002, 0x15bf⟩
  statePath := "/var/lib/brightness-daemon/acpi_backlight"
  socketPath := "/run/brightness.sock"

/-- Started as root. -/
def sampleHost : Host := ⟨⟨0, 0, [], "/"⟩, 0o022, none⟩

theorem namesUserOnly_sampleConfig :
    NamesUserOnly sampleAccounts sampleConfigData sampleConfig ⟨"backlight", 104, 105⟩
      ⟨"backlight", 105, []⟩ where
  noEmptyName := by decide
  read := by decide +kernel
  absent := by decide
  passwd := by decide +kernel
  uid := by decide
  group := by decide
  gid := by decide

theorem not_runsAs_sampleConfig : ¬RunsAs sampleAccounts sampleConfig sampleHost 104 105 :=
  not_runsAs_optional namesUserOnly_sampleConfig rfl

/-- The user of the sample has a primary group, and the daemon does not start. -/
theorem not_group_optional :
    ¬∀ db configData cfg pwd grp host, NamesUserOnly db configData cfg pwd grp →
      host.credentials.uid = 0 → RunsAs db cfg host pwd.pwUid pwd.pwGid := by
  intro h
  obtain ⟨host₁, _, _, hinit, -⟩ := h _ _ _ _ _ sampleHost namesUserOnly_sampleConfig rfl
  have hthrew : threw ((initSocket sampleAccounts allSucceed allSucceed sampleConfig).run
      sampleHost) = true := by
    decide +kernel
  rw [hinit] at hthrew
  exact Bool.noConfusion hthrew

end Brightness
end TjTools
