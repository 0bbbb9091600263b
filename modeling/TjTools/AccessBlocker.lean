/-
# Blocked device nodes

`src/src/access_blocker.c` is loaded into a program and answers two of its calls with
`NULL` when they are about a listed device node.  `__hook_init` notes the inode numbers of
the listed paths, `__is_blocked` looks an inode number up among them, and the two hooks ask
it about their file descriptor.

An inode number names a file on one device only, the loop of `__hook_init` leaves the
paths after a missing one out, and the slot of a path that is left out holds the inode
number 0.  `mem_blockedInodes` says what the table holds, and `hook_exact_iff` when a hook
refuses exactly the descriptors of the listed files.
-/

import Mathlib.Data.Int.Notation
import Mathlib.Data.Nat.Notation

namespace TjTools
namespace AccessBlocker

variable {α : Type}

/-- What identifies a file, of `struct stat`. -/
structure Stat where
  stDev : UInt64
  stIno : UInt64
  deriving DecidableEq, Repr

/-- What `__hook_init` finds: the files behind the paths, and the functions behind the
names. -/
structure Load (α : Type) where
  stat : String → Option Stat
  dlsym : String → Option α

/-- What a hook does: it returns `NULL`, or what a function returns for the descriptor. -/
inductive Reply (α : Type) where
  | null
  | call (func : α) (fd : ℤ)
  deriving DecidableEq, Repr

/-- `__blocked_paths` -/
def blockedPaths : List String := ["/dev/dri/card0", "/dev/dri/renderD128"]

/-- The slots of `__blocked_inodes` for some paths; they are zero before the loop. -/
def fillInodes (stat : String → Option Stat) : List String → List UInt64
  | [] => []
  | path :: paths =>
    match stat path with
    | none => List.replicate (paths.length + 1) 0
    | some pathStat => pathStat.stIno :: fillInodes stat paths

/-- `__blocked_inodes` after `__hook_init`. -/
def blockedInodes (load : Load α) : List UInt64 := fillInodes load.stat blockedPaths

/-- `__is_blocked` -/
def isBlocked (inodes : List UInt64) (node : UInt64) : Bool := inodes.any fun ino => ino == node

/-- Asking the function of this name, if there is one. -/
def forward (name : String) (load : Load α) (fd : ℤ) : Reply α :=
  match load.dlsym name with
  | none => .null
  | some func => .call func fd

/-- A hook before the function of this name. -/
def hook (name : String) (load : Load α) (fstat : ℤ → Option Stat) (fd : ℤ) : Reply α :=
  if (fstat fd).any fun fdStat => isBlocked (blockedInodes load) fdStat.stIno then .null
  else forward name load fd

/-- `drmGetVersion` -/
def drmGetVersion (load : Load α) (fstat : ℤ → Option Stat) (fd : ℤ) : Reply α :=
  hook "drmGetVersion" load fstat fd

/-- `gbm_create_device` -/
def gbmCreateDevice (load : Load α) (fstat : ℤ → Option Stat) (fd : ℤ) : Reply α :=
  hook "gbm_create_device" load fstat fd

/-! ### What is to be refused -/

/-- The file is behind a listed path when the library is loaded. -/
def Listed (load : Load α) (file : Option Stat) : Prop :=
  ∃ path ∈ blockedPaths, ∃ pathStat, load.stat path = some pathStat ∧ file = some pathStat

/-- The hook refuses the descriptor of a listed file, and asks the function about any
other. -/
structure Exact (name : String) (load : Load α) (file : Option Stat) (fd : ℤ) (reply : Reply α) :
    Prop where
  refuses_iff : reply = .null ↔ Listed load file
  forwards : ¬Listed load file → ∃ func, load.dlsym name = some func ∧ reply = .call func fd

/-! ### What is refused -/

/-- The inode number belongs to a path that comes before the first missing one. -/
def Noted (load : Load α) (node : UInt64) : Prop :=
  ∃ path ∈ blockedPaths.takeWhile fun path => (load.stat path).isSome,
    (load.stat path).map Stat.stIno = some node

/-- A path is missing, and the inode number is that of the slots left out. -/
def Unset (load : Load α) (node : UInt64) : Prop :=
  node = 0 ∧ ∃ path ∈ blockedPaths, load.stat path = none

theorem mem_fillInodes {stat : String → Option Stat} {paths : List String} {node : UInt64} :
    node ∈ fillInodes stat paths ↔
      (∃ path ∈ paths.takeWhile fun path => (stat path).isSome,
        (stat path).map Stat.stIno = some node) ∨
      (node = 0 ∧ ∃ path ∈ paths, stat path = none) := by
  induction paths with
  | nil => simp [fillInodes]
  | cons path paths ih =>
    cases hstat : stat path with
    | none => simp [fillInodes, hstat, List.mem_replicate]
    | some pathStat => simp [fillInodes, hstat, ih, eq_comm, or_assoc]

/-- **The table holds the inode numbers of the paths before the first missing one, and 0 if
there is a missing one.** -/
theorem isBlocked_iff (load : Load α) (node : UInt64) :
    isBlocked (blockedInodes load) node = true ↔ Noted load node ∨ Unset load node := by
  rw [isBlocked, List.any_eq_true, Noted, Unset, ← mem_fillInodes, blockedInodes]
  simp

/-- The file has an inode number that the table holds. -/
def Taken (load : Load α) (file : Option Stat) : Prop :=
  ∃ fdStat, file = some fdStat ∧ (Noted load fdStat.stIno ∨ Unset load fdStat.stIno)

theorem any_isBlocked_iff (load : Load α) (file : Option Stat) :
    (file.any fun fdStat => isBlocked (blockedInodes load) fdStat.stIno) = true ↔
      Taken load file := by
  simp only [Option.any_eq_true, isBlocked_iff, Taken]

theorem hook_of_taken {name : String} {load : Load α} {fstat : ℤ → Option Stat} {fd : ℤ}
    (h : Taken load (fstat fd)) : hook name load fstat fd = .null :=
  if_pos ((any_isBlocked_iff load _).2 h)

theorem hook_of_not_taken {name : String} {load : Load α} {fstat : ℤ → Option Stat} {fd : ℤ}
    (h : ¬Taken load (fstat fd)) : hook name load fstat fd = forward name load fd :=
  if_neg (mt (any_isBlocked_iff load _).1 h)

/-- The file is listed and its inode number is in the table, or there is no function to ask;
or it is not listed, its inode number is not in the table, and there is a function. -/
def Faithful (name : String) (load : Load α) (file : Option Stat) : Prop :=
  (Listed load file ∧ (Taken load file ∨ load.dlsym name = none)) ∨
    (¬Listed load file ∧ ¬Taken load file ∧ load.dlsym name ≠ none)

theorem hook_exact_iff (name : String) (load : Load α) (fstat : ℤ → Option Stat) (fd : ℤ) :
    Exact name load (fstat fd) fd (hook name load fstat fd) ↔
      Faithful name load (fstat fd) := by
  unfold Faithful
  by_cases htaken : Taken load (fstat fd)
  · rw [hook_of_taken htaken]
    constructor
    · intro h
      exact .inl ⟨h.refuses_iff.1 rfl, .inl htaken⟩
    · rintro (⟨hlisted, -⟩ | ⟨-, hnot, -⟩)
      · exact ⟨iff_of_true rfl hlisted, fun h => absurd hlisted h⟩
      · exact absurd htaken hnot
  rw [hook_of_not_taken htaken]
  cases hfunc : load.dlsym name with
  | none =>
    have hnull : forward name load fd = .null := by rw [forward, hfunc]
    rw [hnull]
    constructor
    · intro h
      exact .inl ⟨h.refuses_iff.1 rfl, .inr rfl⟩
    · rintro (⟨hlisted, -⟩ | ⟨-, -, hfound⟩)
      · exact ⟨iff_of_true rfl hlisted, fun h => absurd hlisted h⟩
      · exact absurd rfl hfound
  | some func =>
    have hcall : forward name load fd = .call func fd := by rw [forward, hfunc]
    rw [hcall]
    constructor
    · intro h
      have hlisted : ¬Listed load (fstat fd) := fun hlisted => by
        cases h.refuses_iff.2 hlisted
      exact .inr ⟨hlisted, htaken, Option.some_ne_none func⟩
    · rintro (⟨-, htaken' | hnone⟩ | ⟨hlisted, -, -⟩)
      · exact absurd htaken' htaken
      · cases hnone
      · exact ⟨iff_of_false (by simp) hlisted, fun _ => ⟨func, hfunc, rfl⟩⟩

/-- **Both hooks refuse exactly the listed files if and only if the inode numbers in the
table tell the file of the descriptor from the others.** -/
theorem hooks_exact_iff (load : Load α) (fstat : ℤ → Option Stat) (fd : ℤ) :
    (Exact "drmGetVersion" load (fstat fd) fd (drmGetVersion load fstat fd) ↔
        Faithful "drmGetVersion" load (fstat fd)) ∧
      (Exact "gbm_create_device" load (fstat fd) fd (gbmCreateDevice load fstat fd) ↔
        Faithful "gbm_create_device" load (fstat fd)) :=
  ⟨hook_exact_iff _ load fstat fd, hook_exact_iff _ load fstat fd⟩

/-- Only the second path exists, and both functions do. -/
def renderOnly : Load ℕ where
  stat path := if path = "/dev/dri/renderD128" then some ⟨6, 300⟩ else none
  dlsym _ := some 0

/-- The loop has left the second path out, and its descriptor goes through. -/
theorem not_hooks_exact :
    ¬∀ (load : Load ℕ) (fstat : ℤ → Option Stat) (fd : ℤ),
      Exact "drmGetVersion" load (fstat fd) fd (drmGetVersion load fstat fd) ∧
        Exact "gbm_create_device" load (fstat fd) fd (gbmCreateDevice load fstat fd) := by
  intro h
  have hlisted : Listed renderOnly (some ⟨6, 300⟩) :=
    ⟨"/dev/dri/renderD128", by decide, ⟨6, 300⟩, by decide, rfl⟩
  have hnull := (h renderOnly (fun _ => some ⟨6, 300⟩) 3).1.refuses_iff.2 hlisted
  revert hnull
  decide

/-- A file of another device with the inode number of the first path is refused. -/
example :
    let load : Load ℕ := { renderOnly with stat := fun _ => some ⟨6, 300⟩ }
    drmGetVersion load (fun _ => some ⟨8, 300⟩) 3 = .null := by
  decide

end AccessBlocker
end TjTools
