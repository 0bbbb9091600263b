/-
# Opening an encrypted container

`src/src/container.cpp`: `open` (lines 146-195) and `close` (lines 203-232) take a specification
apart at its first dot, into the name of a container and the UUID of its device; `open` fetches
the key of the container from a remote host (`scp_fetch`, lines 85-137) and hands device and key
to `cryptsetup`.  `main` (lines 266-283) chooses between the two.

Two paths are built from pieces of the specification: the device, `/dev/disk/by-uuid` and the
part after the dot, and the key, `remote_base`, the host name and `key.` with the whole
specification.  Nothing checks what the pieces are, so a device path can lead out of
`/dev/disk/by-uuid` (`/dev/sda` as a UUID replaces all of it) and a key path out of the
directory of the host.  `open_confined_iff` says for which specifications neither does.

`exists`, the transfer and `cryptsetup` are the system's; libcurl's options are the ones that
name something.  The path of the key is the one that the text of the URL has, before libcurl
decodes escapes such as `%2e` in it.
-/

import TjTools.Basis.Path
import TjTools.Basis.Triple

namespace TjTools
namespace Container

open TjTools.Path

/-- Every one of them is a `std::runtime_error`. -/
inductive Error where
  | runtime (what : String)
  | system (errno : ℕ)
  deriving DecidableEq

def EFAULT : ℕ := 14

structure ContainerConfig where
  remoteUser : List Char
  remoteHost : List Char
  remoteBase : List Char

/-- What libcurl is told. -/
structure Transfer where
  url : List Char
  privateKey : List Char
  publicKey : List Char
  deriving DecidableEq

/-- What is done outside of the program. -/
inductive Action where
  | fetch (transfer : Transfer)
  | cryptsetup (args : List (List Char)) (input : List UInt8)
  deriving DecidableEq

structure System where
  /-- `fs::exists`, which may throw. -/
  fsExists : List Char → Except ℕ Bool
  curlEasyInit : Bool
  /-- The variable `HOME`. -/
  home : Option (List Char)
  /-- `curl_easy_perform`: the bytes, or the text of the error. -/
  perform : Transfer → Except String (List UInt8)
  /-- The exit code, or why the program could not be started. -/
  cryptsetup : List (List Char) → List UInt8 → Except ℕ ℤ

/-- The state is what was done, in order. -/
abbrev ContainerM := EStateM Error (List Action)

/-- `scp_fetch` -/
def scpFetch (sys : System) (address : List Char) : ContainerM (List UInt8) := do
  if ¬sys.curlEasyInit then throw (.runtime "curl_easy_init()")
  match sys.home with
  | none => throw (.runtime "getenv()")
  | some home =>
    let sshDir := append home ".ssh".toList
    let transfer : Transfer := {
      url := "scp://".toList ++ address
      privateKey := append sshDir "id_ed25519".toList
      publicKey := append sshDir "id_ed25519.pub".toList }
    modify (· ++ [.fetch transfer])
    match sys.perform transfer with
    | .error what => throw (.runtime ("curl_easy_perform(): " ++ what))
    | .ok content => return content

/-- Starting `cryptsetup`, and its exit code. -/
def runCryptsetup (sys : System) (args : List (List Char)) (input : List UInt8) :
    ContainerM Unit := do
  modify (· ++ [.cryptsetup args input])
  match sys.cryptsetup args input with
  | .error errno => throw (.system errno)
  | .ok code => if code ≠ 0 then throw (.system EFAULT)

/-- The first lines of `open` and of `close`. -/
def splitSpec (spec : List Char) : Except Error (List Char × List Char) :=
  match spec.findIdx? (· == '.') with
  | none => .error (.runtime "malformed spec")
  | some pos =>
    let name := spec.take pos
    let uuid := spec.drop (pos + 1)
    if name = [] then .error (.runtime "empty name")
    else if uuid = [] then .error (.runtime "empty UUID")
    else .ok (name, uuid)

def devicePath (uuid : List Char) : List Char := append "/dev/disk/by-uuid".toList uuid

/-- The directory of a host. -/
def keyDir (cfg : ContainerConfig) (hostname : List Char) : List Char :=
  append cfg.remoteBase hostname

def keyPath (cfg : ContainerConfig) (hostname spec : List Char) : List Char :=
  append (keyDir cfg hostname) ("key.".toList ++ spec)

def address (cfg : ContainerConfig) (path : List Char) : List Char :=
  cfg.remoteUser ++ '@' :: (cfg.remoteHost ++ '/' :: path)

def openArgs (device name : List Char) : List (List Char) :=
  ["open".toList, "--allow-discards".toList, "--key-file".toList, "-".toList, device,
    "container-".toList ++ name]

def closeArgs (name : List Char) : List (List Char) :=
  ["close".toList, "container-".toList ++ name]

/-- `open` -/
def openContainer (sys : System) (cfg : ContainerConfig) (hostname spec : List Char) :
    ContainerM Unit :=
  match splitSpec spec with
  | .error e => throw e
  | .ok (name, uuid) => do
    let device := devicePath uuid
    match sys.fsExists device with
    | .error errno => throw (.system errno)
    | .ok false => throw (.runtime "no device present with such UUID")
    | .ok true =>
      let keyContent ← scpFetch sys (address cfg (keyPath cfg hostname spec))
      runCryptsetup sys (openArgs device name) keyContent

/-- `close` -/
def closeContainer (sys : System) (spec : List Char) : ContainerM Unit :=
  match splitSpec spec with
  | .error e => throw e
  | .ok (name, _) => runCryptsetup sys (closeArgs name) []

/-- `main`, from the configuration on.  What it returns. -/
def main (sys : System) (cfg : ContainerConfig) (mode : String) (hostname spec : List Char) :
    ContainerM ℕ :=
  tryCatch
    (do
      if mode = "open" then
        openContainer sys cfg hostname spec
        return 0
      else if mode = "close" then
        closeContainer sys spec
        return 0
      else return 1)
    fun _ => return 1

/-! ### What is asked for -/

def byUuid : Location (List Char) := resolve "/dev/disk/by-uuid".toList

/-- The device is one of those under `/dev/disk/by-uuid`; the key, for a host name that is one,
is in the directory of the host. -/
def Action.Confined (cfg : ContainerConfig) (hostname : List Char) : Action → Prop
  | .fetch transfer => IsOrdinary hostname →
      ∃ path, transfer.url = "scp://".toList ++ address cfg path ∧
        (resolve path).IsChildOf (resolve (keyDir cfg hostname))
  | .cryptsetup args _ =>
      ∃ device name, args = openArgs device name ∧ (resolve device).IsChildOf byUuid

/-- Whatever the system answers. -/
def OpenConfined (cfg : ContainerConfig) (hostname spec : List Char) : Prop :=
  ∀ sys : System, ∀ action ∈ final ((openContainer sys cfg hostname spec).run []),
    action.Confined cfg hostname

/-- Neither piece leads away: the UUID, if it is absolute, names such a device itself, and else it
comes back to `/dev/disk/by-uuid`; the name of the key comes back to the directory of the host. -/
def Inside (cfg : ContainerConfig) (hostname spec : List Char) : Prop :=
  ∀ name uuid, splitSpec spec = .ok (name, uuid) →
    (if isAbsolute uuid then (resolve uuid).IsChildOf byUuid else byUuid.Returns (resolve uuid)) ∧
      (IsOrdinary hostname →
        (resolve (keyDir cfg hostname)).Returns (resolve ("key.".toList ++ spec)))

theorem devicePath_isChildOf_iff (uuid : List Char) :
    (resolve (devicePath uuid)).IsChildOf byUuid ↔
      if isAbsolute uuid then (resolve uuid).IsChildOf byUuid
      else byUuid.Returns (resolve uuid) := by
  unfold devicePath
  by_cases h : isAbsolute uuid = true
  · rw [if_pos h, append_of_absolute h]
  · rw [if_neg h, resolve_append (Bool.eq_false_iff.2 h)]
    exact Location.join_isChildOf_iff

theorem keyPath_isChildOf_iff (cfg : ContainerConfig) (hostname spec : List Char) :
    (resolve (keyPath cfg hostname spec)).IsChildOf (resolve (keyDir cfg hostname)) ↔
      (resolve (keyDir cfg hostname)).Returns (resolve ("key.".toList ++ spec)) := by
  have hrelative : isAbsolute ("key.".toList ++ spec) = false := rfl
  rw [keyPath, resolve_append hrelative]
  exact Location.join_isChildOf_iff

theorem address_injective {cfg : ContainerConfig} {path path' : List Char}
    (h : address cfg path = address cfg path') : path = path' := by
  simpa [address] using h

/-! ### What is done -/

theorem act_keeps {P : Action → Prop} {action : Action} (h : P action) :
    Triple (fun actions => ∀ action ∈ actions, P action)
      (modify (· ++ [action]) : ContainerM Unit) (fun _ actions => ∀ action ∈ actions, P action)
      fun _ actions => ∀ action ∈ actions, P action := by
  refine Triple.modify ?_
  intro actions hactions action' haction'
  rcases List.mem_append.1 haction' with hold | hnew
  · exact hactions action' hold
  · rw [List.mem_singleton.1 hnew]
    exact h

theorem scpFetch_keeps (sys : System) {P : Action → Prop} {address : List Char}
    (h : ∀ transfer : Transfer, transfer.url = "scp://".toList ++ address → P (.fetch transfer)) :
    Keeps (fun actions => ∀ action ∈ actions, P action) (scpFetch sys address) := by
  unfold scpFetch
  refine Triple.ite (fun _ => Triple.throw fun _ => id) fun _ => ?_
  cases sys.home with
  | none => exact Triple.throw fun _ => id
  | some home =>
    refine Triple.bind (act_keeps (h _ rfl)) fun _ => ?_
    split
    · exact Triple.throw fun _ => id
    · exact Triple.pure fun _ => id

theorem runCryptsetup_keeps (sys : System) {P : Action → Prop} {args : List (List Char)}
    {input : List UInt8} (h : P (.cryptsetup args input)) :
    Keeps (fun actions => ∀ action ∈ actions, P action) (runCryptsetup sys args input) := by
  unfold runCryptsetup
  refine Triple.bind (act_keeps h) fun _ => ?_
  cases sys.cryptsetup args input with
  | error errno => exact Triple.throw fun _ => id
  | ok code => exact Triple.ite (fun _ => Triple.throw fun _ => id) fun _ => Triple.pure fun _ => id

/-- Whatever is done meets what a fetch of the key and an opening of the device meet. -/
theorem openContainer_keeps (sys : System) {P : Action → Prop} {cfg : ContainerConfig}
    {hostname spec : List Char}
    (h : ∀ name uuid, splitSpec spec = .ok (name, uuid) →
      (∀ transfer : Transfer,
        transfer.url = "scp://".toList ++ address cfg (keyPath cfg hostname spec) →
          P (.fetch transfer)) ∧
      ∀ content, P (.cryptsetup (openArgs (devicePath uuid) name) content)) :
    Keeps (fun actions => ∀ action ∈ actions, P action)
      (openContainer sys cfg hostname spec) := by
  unfold openContainer
  rcases hspec : splitSpec spec with e | ⟨name, uuid⟩
  · exact Triple.throw fun _ => id
  · obtain ⟨hfetch, hopen⟩ := h name uuid hspec
    simp only
    rcases sys.fsExists (devicePath uuid) with errno | present
    · exact Triple.throw fun _ => id
    · cases present with
      | false => exact Triple.throw fun _ => id
      | true =>
        refine Triple.bind (scpFetch_keeps sys hfetch) fun content => ?_
        exact runCryptsetup_keeps sys (hopen content)

/-- A system on which everything works. -/
def willing : System where
  fsExists _ := .ok true
  curlEasyInit := true
  home := some "/root".toList
  perform _ := .ok []
  cryptsetup _ _ := .ok 0

theorem actions_willing {cfg : ContainerConfig} {hostname spec name uuid : List Char}
    (h : splitSpec spec = .ok (name, uuid)) :
    final ((openContainer willing cfg hostname spec).run []) =
      [.fetch ⟨"scp://".toList ++ address cfg (keyPath cfg hostname spec),
          "/root/.ssh/id_ed25519".toList, "/root/.ssh/id_ed25519.pub".toList⟩,
        .cryptsetup (openArgs (devicePath uuid) name) []] := by
  unfold openContainer
  rw [h]
  rfl

theorem Action.Confined.device {cfg : ContainerConfig} {hostname device name : List Char}
    {input : List UInt8} (h : Confined cfg hostname (.cryptsetup (openArgs device name) input)) :
    (resolve device).IsChildOf byUuid := by
  obtain ⟨device', name', hargs, hchild⟩ := h
  have hdevice : device = device' := by
    simp only [openArgs, List.cons.injEq] at hargs
    exact hargs.2.2.2.2.1
  rw [hdevice]
  exact hchild

theorem Action.Confined.key {cfg : ContainerConfig}
    {hostname path privateKey publicKey : List Char} (h : Confined cfg hostname
      (.fetch ⟨"scp://".toList ++ address cfg path, privateKey, publicKey⟩))
    (hhost : IsOrdinary hostname) : (resolve path).IsChildOf (resolve (keyDir cfg hostname)) := by
  obtain ⟨path', hurl, hchild⟩ := h hhost
  rw [address_injective (List.append_cancel_left hurl)]
  exact hchild

/-- **A specification is confined exactly when its pieces stay inside.** -/
theorem open_confined_iff (cfg : ContainerConfig) (hostname spec : List Char) :
    OpenConfined cfg hostname spec ↔ Inside cfg hostname spec := by
  constructor
  · intro h name uuid hspec
    have hactions := h willing
    rw [actions_willing hspec] at hactions
    have hfetch := hactions _ List.mem_cons_self
    have hopen := hactions _ (List.mem_cons_of_mem _ List.mem_cons_self)
    rw [← devicePath_isChildOf_iff, ← keyPath_isChildOf_iff]
    exact ⟨hopen.device, hfetch.key⟩
  · intro h sys
    refine (openContainer_keeps sys ?_).final fun action haction => by cases haction
    intro name uuid hspec
    obtain ⟨hdevice, hkey⟩ := h name uuid hspec
    constructor
    · intro transfer hurl hhost
      exact ⟨_, hurl, (keyPath_isChildOf_iff cfg hostname spec).2 (hkey hhost)⟩
    · intro content
      exact ⟨_, name, rfl, (devicePath_isChildOf_iff uuid).2 hdevice⟩

/-- The UUID `/dev/sda` opens a disk. -/
theorem not_openConfined :
    ¬OpenConfined ⟨"user".toList, "host".toList, "/keys".toList⟩ "laptop".toList
      "data./dev/sda".toList := by
  intro h
  have hspec : splitSpec "data./dev/sda".toList = .ok ("data".toList, "/dev/sda".toList) := by
    decide
  have hactions := h willing
  rw [actions_willing hspec] at hactions
  obtain ⟨name, hname⟩ := (hactions _ (List.mem_cons_of_mem _ List.mem_cons_self)).device
  have hlength : (resolve (devicePath "/dev/sda".toList)).names.length = 2 := by decide
  have hchild : (byUuid.down name).names.length = 4 := rfl
  rw [hname, hchild] at hlength
  cases hlength

/-- A UUID that is a name, and a container name without a separator, lead nowhere else. -/
theorem inside_of_ordinary {cfg : ContainerConfig} {hostname spec : List Char}
    (h : ∀ name uuid, splitSpec spec = .ok (name, uuid) → IsOrdinary uuid ∧ sep ∉ spec) :
    Inside cfg hostname spec := by
  intro name uuid hspec
  obtain ⟨huuid, hsep⟩ := h name uuid hspec
  have hkey : IsOrdinary ("key.".toList ++ spec) := by
    refine ⟨by simp, by simp, by simp, ?_⟩
    rw [List.mem_append, not_or]
    exact ⟨by decide, hsep⟩
  rw [← devicePath_isChildOf_iff, ← keyPath_isChildOf_iff]
  constructor
  · exact ⟨uuid, resolve_append_ordinary huuid _⟩
  · intro _
    exact ⟨_, resolve_append_ordinary hkey _⟩

end Container
end TjTools
