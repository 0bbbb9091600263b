/-
# Containers that come and go

Invocations of `src/src/container.cpp` that run to their end, one after the other.  `Table` is what
the device mapper has: under a name, the device and the key it was opened with.  What `cryptsetup`
does to it is a parameter, and `Sound` what its manual promises: `open` of a free name puts the
mapping there, `close` of one in use takes it away, and an exit status other than zero means that
nothing was done.  Nobody else changes the table.

An invocation that returns zero has done what it was asked for, and any other has changed nothing
(`step_cases`).  So the table tells, for every container, what the last invocation that returned
zero did to it, and these invocations are an opening and a closing by turns (`table_history`).
-/

import Mathlib.Data.List.Induction
import Mathlib.Logic.Function.Basic
import TjTools.Basis.Runs
import TjTools.Container

namespace TjTools
namespace Container

open TjTools.Path Runs

structure Mapping where
  device : List Char
  key : List UInt8
  deriving DecidableEq

abbrev Table := List Char → Option Mapping

structure Invocation where
  sys : System
  /-- What a run of `cryptsetup` makes of the table. -/
  remap : List (List Char) → List UInt8 → Table → Table
  cfg : ContainerConfig
  mode : String
  hostname : List Char
  spec : List Char

namespace Invocation

/-- What it returns, and what it does. -/
def result (i : Invocation) : EStateM.Result Error (List Action) ℕ :=
  (main i.sys i.cfg i.mode i.hostname i.spec).run []

/-- What an action leaves of the table. -/
def effect (i : Invocation) (table : Table) : Action → Table
  | .fetch _ => table
  | .cryptsetup args input => i.remap args input table

def step (table : Table) (i : Invocation) : Table := (final i.result).foldl i.effect table

def succeeds (i : Invocation) : Bool :=
  match i.result with
  | .ok 0 _ => true
  | _ => false

/-- How the key is asked for. -/
def transfer (i : Invocation) (home : List Char) : Transfer :=
  let sshDir := append home ".ssh".toList
  { url := "scp://".toList ++ address i.cfg (keyPath i.cfg i.hostname i.spec)
    privateKey := append sshDir "id_ed25519".toList
    publicKey := append sshDir "id_ed25519.pub".toList }

/-- The bytes of the key, if they can be had. -/
def key (i : Invocation) : Option (List UInt8) :=
  i.sys.home.bind fun home => (i.sys.perform (i.transfer home)).toOption

end Invocation

/-- The name of a container in the table. -/
def mapped (name : List Char) : List Char := "container-".toList ++ name

/-- What the manual says of `cryptsetup`: it opens a name that is free and closes one that is in
use, and if it fails, it does nothing. -/
structure Invocation.Sound (table : Table) (i : Invocation) : Prop where
  opens : ∀ device name key, i.sys.cryptsetup (openArgs device name) key = .ok 0 →
    table (mapped name) = none ∧ i.remap (openArgs device name) key table =
      Function.update table (mapped name) (some ⟨device, key⟩)
  closes : ∀ name, i.sys.cryptsetup (closeArgs name) [] = .ok 0 →
    table (mapped name) ≠ none ∧ i.remap (closeArgs name) [] table =
      Function.update table (mapped name) none
  fails : ∀ args input, i.sys.cryptsetup args input ≠ .ok 0 → i.remap args input table = table

/-! ### One invocation -/

theorem run_runCryptsetup_ok {sys : System} {args : List (List Char)} {input : List UInt8}
    (h : sys.cryptsetup args input = .ok 0) (actions : List Action) :
    (runCryptsetup sys args input).run actions = .ok () (actions ++ [.cryptsetup args input]) := by
  unfold runCryptsetup
  rw [EStateM.run_bind, h]
  rfl

theorem run_runCryptsetup_failed {sys : System} {args : List (List Char)} {input : List UInt8}
    (h : sys.cryptsetup args input ≠ .ok 0) (actions : List Action) :
    ∃ e, (runCryptsetup sys args input).run actions =
      .error e (actions ++ [.cryptsetup args input]) := by
  unfold runCryptsetup
  rw [EStateM.run_bind]
  rcases hcode : sys.cryptsetup args input with errno | code
  · exact ⟨.system errno, rfl⟩
  · have hne : code ≠ 0 := by
      rintro rfl
      exact h hcode
    simp only [EStateM.run_modify, if_pos hne]
    exact ⟨.system EFAULT, rfl⟩

/-- No run of `cryptsetup` among the actions succeeds. -/
def Idle (sys : System) (actions : List Action) : Prop :=
  ∀ args input, .cryptsetup args input ∈ actions → sys.cryptsetup args input ≠ .ok 0

theorem foldl_effect_of_idle {i : Invocation} {table : Table} (hsound : i.Sound table)
    {actions : List Action} (h : Idle i.sys actions) : actions.foldl i.effect table = table := by
  induction actions with
  | nil => rfl
  | cons action actions ih =>
    have hrest := ih fun args input hmem => h args input (List.mem_cons_of_mem action hmem)
    have hstays : i.effect table action = table := by
      cases action with
      | fetch transfer => rfl
      | cryptsetup args input => exact hsound.fails args input (h args input List.mem_cons_self)
    rw [List.foldl_cons, hstays, hrest]

theorem idle_nil (sys : System) : Idle sys [] := fun _ _ hmem => absurd hmem List.not_mem_nil

theorem idle_fetch (sys : System) (transfer : Transfer) : Idle sys [.fetch transfer] := by
  intro args input hmem
  cases List.mem_singleton.1 hmem

theorem run_scpFetch (i : Invocation) :
    (∃ e actions, (scpFetch i.sys (address i.cfg (keyPath i.cfg i.hostname i.spec))).run []
        = .error e actions ∧ Idle i.sys actions) ∨
    ∃ key transfer, i.key = some key ∧
      (scpFetch i.sys (address i.cfg (keyPath i.cfg i.hostname i.spec))).run []
        = .ok key [.fetch transfer] := by
  unfold scpFetch Invocation.key
  cases i.sys.curlEasyInit with
  | false => exact .inl ⟨_, [], rfl, idle_nil i.sys⟩
  | true =>
    rcases i.sys.home with _ | home
    · exact .inl ⟨_, [], rfl, idle_nil i.sys⟩
    rcases hperform : i.sys.perform (i.transfer home) with what | content
    · refine .inl ⟨.runtime ("curl_easy_perform(): " ++ what), [.fetch (i.transfer home)], ?_,
        idle_fetch i.sys _⟩
      simp only [Invocation.transfer] at hperform ⊢
      simp only [hperform]
      rfl
    · refine .inr ⟨content, i.transfer home, ?_, ?_⟩
      · rw [Option.bind_some, hperform]
        rfl
      · simp only [Invocation.transfer] at hperform ⊢
        simp only [hperform]
        rfl

/-- `open` opens, or it changes nothing. -/
theorem run_openContainer (i : Invocation) :
    (∃ e actions, (openContainer i.sys i.cfg i.hostname i.spec).run [] = .error e actions ∧
      Idle i.sys actions) ∨
    ∃ name uuid key transfer, splitSpec i.spec = .ok (name, uuid) ∧ i.key = some key ∧
      i.sys.cryptsetup (openArgs (devicePath uuid) name) key = .ok 0 ∧
      (openContainer i.sys i.cfg i.hostname i.spec).run []
        = .ok () [.fetch transfer, .cryptsetup (openArgs (devicePath uuid) name) key] := by
  unfold openContainer
  rcases hspec : splitSpec i.spec with e | ⟨name, uuid⟩
  · exact .inl ⟨e, [], rfl, idle_nil i.sys⟩
  simp only
  rcases i.sys.fsExists (devicePath uuid) with errno | present
  · exact .inl ⟨_, [], rfl, idle_nil i.sys⟩
  cases present with
  | false => exact .inl ⟨_, [], rfl, idle_nil i.sys⟩
  | true =>
    simp only
    rw [EStateM.run_bind]
    rcases run_scpFetch i with ⟨e, actions, hfetch, hidle⟩ | ⟨key, transfer, hkey, hfetch⟩
    · refine .inl ⟨e, actions, ?_, hidle⟩
      rw [hfetch]
    by_cases hopens : i.sys.cryptsetup (openArgs (devicePath uuid) name) key = .ok 0
    · refine .inr ⟨name, uuid, key, transfer, rfl, hkey, hopens, ?_⟩
      rw [hfetch]
      exact run_runCryptsetup_ok hopens _
    · obtain ⟨e, hrun⟩ := run_runCryptsetup_failed hopens [.fetch transfer]
      refine .inl ⟨e, [.fetch transfer] ++ [.cryptsetup (openArgs (devicePath uuid) name) key], ?_,
        fun args input hmem => ?_⟩
      · rw [hfetch]
        exact hrun
      · rcases List.mem_append.1 hmem with hfirst | hlast
        · exact absurd hfirst (by simp)
        · cases List.mem_singleton.1 hlast
          exact hopens

/-- `close` closes, or it changes nothing. -/
theorem run_closeContainer (i : Invocation) :
    (∃ e actions, (closeContainer i.sys i.spec).run [] = .error e actions ∧
      Idle i.sys actions) ∨
    ∃ name uuid, splitSpec i.spec = .ok (name, uuid) ∧
      i.sys.cryptsetup (closeArgs name) [] = .ok 0 ∧
      (closeContainer i.sys i.spec).run [] = .ok () [.cryptsetup (closeArgs name) []] := by
  unfold closeContainer
  rcases hspec : splitSpec i.spec with e | ⟨name, uuid⟩
  · exact .inl ⟨e, [], rfl, idle_nil i.sys⟩
  simp only
  by_cases hcloses : i.sys.cryptsetup (closeArgs name) [] = .ok 0
  · exact .inr ⟨name, uuid, rfl, hcloses, run_runCryptsetup_ok hcloses []⟩
  · obtain ⟨e, hrun⟩ := run_runCryptsetup_failed hcloses []
    refine .inl ⟨e, _, hrun, fun args input hmem => ?_⟩
    cases List.mem_singleton.1 hmem
    exact hcloses

namespace Invocation

/-- What an action returns is zero, and one if it throws. -/
def code : EStateM.Result Error (List Action) Unit → EStateM.Result Error (List Action) ℕ
  | .ok _ actions => .ok 0 actions
  | .error _ actions => .ok 1 actions

theorem result_open {i : Invocation} (h : i.mode = "open") :
    i.result = code ((openContainer i.sys i.cfg i.hostname i.spec).run []) := by
  unfold result main
  rw [run_tryCatch, if_pos h, EStateM.run_bind]
  cases (openContainer i.sys i.cfg i.hostname i.spec).run [] with
  | ok _ actions => rfl
  | error e actions => rfl

theorem result_close {i : Invocation} (h : i.mode = "close") :
    i.result = code ((closeContainer i.sys i.spec).run []) := by
  have hopen : i.mode ≠ "open" := by
    rw [h]
    decide
  unfold result main
  rw [run_tryCatch, if_neg hopen, if_pos h, EStateM.run_bind]
  cases (closeContainer i.sys i.spec).run [] with
  | ok _ actions => rfl
  | error e actions => rfl

theorem result_other {i : Invocation} (hopen : i.mode ≠ "open") (hclose : i.mode ≠ "close") :
    i.result = .ok 1 [] := by
  unfold result main
  rw [run_tryCatch, if_neg hopen, if_neg hclose]
  rfl

theorem step_of_idle {i : Invocation} {table : Table} (hsound : i.Sound table)
    {actions : List Action} (h : i.result = .ok 1 actions) (hidle : Idle i.sys actions) :
    i.succeeds = false ∧ i.step table = table := by
  constructor
  · rw [succeeds, h]
    rfl
  · rw [step, h]
    exact foldl_effect_of_idle hsound hidle

/-- **What an invocation can do.**  It returns one, and the table stays; or it returns zero, and has
opened or closed the container of its specification. -/
theorem step_cases {i : Invocation} {table : Table} (hsound : i.Sound table) :
    (i.succeeds = false ∧ i.step table = table) ∨
    ∃ name uuid, splitSpec i.spec = .ok (name, uuid) ∧ i.succeeds = true ∧
      ((i.mode = "open" ∧ table (mapped name) = none ∧ ∃ key, i.key = some key ∧
          i.step table = Function.update table (mapped name) (some ⟨devicePath uuid, key⟩)) ∨
        (i.mode = "close" ∧ table (mapped name) ≠ none ∧
          i.step table = Function.update table (mapped name) none)) := by
  by_cases hopen : i.mode = "open"
  · have hresult := result_open hopen
    rcases run_openContainer i with ⟨e, actions, hrun, hidle⟩ |
      ⟨name, uuid, key, transfer, hspec, hkey, hopens, hrun⟩
    · rw [hrun] at hresult
      exact .inl (step_of_idle hsound hresult hidle)
    · rw [hrun] at hresult
      obtain ⟨hfree, hremap⟩ := hsound.opens _ _ _ hopens
      refine .inr ⟨name, uuid, hspec, by rw [succeeds, hresult]; rfl,
        .inl ⟨hopen, hfree, key, hkey, ?_⟩⟩
      rw [step, hresult]
      exact hremap
  by_cases hclose : i.mode = "close"
  · have hresult := result_close hclose
    rcases run_closeContainer i with ⟨e, actions, hrun, hidle⟩ | ⟨name, uuid, hspec, hcloses, hrun⟩
    · rw [hrun] at hresult
      exact .inl (step_of_idle hsound hresult hidle)
    · rw [hrun] at hresult
      obtain ⟨hused, hremap⟩ := hsound.closes _ hcloses
      refine .inr ⟨name, uuid, hspec, by rw [succeeds, hresult]; rfl, .inr ⟨hclose, hused, ?_⟩⟩
      rw [step, hresult]
      exact hremap
  · exact .inl (step_of_idle hsound (result_other hopen hclose) (idle_nil i.sys))

/-- The name of the container that is meant. -/
def target (i : Invocation) : Option (List Char) :=
  match splitSpec i.spec with
  | .ok (name, _) => some name
  | .error _ => none

/-- What a success leaves under that name. -/
def leaves (i : Invocation) : Option Mapping :=
  if i.mode = "open" then
    match splitSpec i.spec with
    | .ok (_, uuid) => i.key.map fun key => ⟨devicePath uuid, key⟩
    | .error _ => none
  else none

theorem mapped_injective : Function.Injective mapped := fun _ _ h => List.append_cancel_left h

/-- A success, read at its own name and at the others. -/
theorem step_of_succeeds {i : Invocation} {table : Table} (hsound : i.Sound table)
    (h : i.succeeds = true) (name : List Char) :
    i.step table (mapped name) =
      if i.target = some name then i.leaves else table (mapped name) := by
  rcases step_cases hsound with ⟨hfails, -⟩ | ⟨name', uuid, hspec, -, hstep⟩
  · rw [h] at hfails
    cases hfails
  have htarget : i.target = some name' := by rw [target, hspec]
  have hupdate : i.step table = Function.update table (mapped name') i.leaves := by
    rcases hstep with ⟨hopen, -, key, hkey, hstep⟩ | ⟨hclose, -, hstep⟩
    · rw [hstep, leaves, if_pos hopen, hspec]
      simp only [hkey, Option.map_some]
    · rw [hstep, leaves, if_neg (by rw [hclose]; decide)]
  rw [hupdate, htarget]
  by_cases hname : name = name'
  · rw [hname, Function.update_self, if_pos rfl]
  · have hmapped : mapped name ≠ mapped name' := fun he => hname (mapped_injective he)
    have hother : some name' ≠ some name := fun he => hname (Option.some.inj he).symm
    rw [Function.update_of_ne hmapped, if_neg hother]

theorem step_of_fails {i : Invocation} {table : Table} (hsound : i.Sound table)
    (h : i.succeeds = false) : i.step table = table := by
  rcases step_cases hsound with ⟨-, hstep⟩ | ⟨_, _, _, hsucceeds, _⟩
  · exact hstep
  · rw [h] at hsucceeds
    cases hsucceeds

end Invocation

/-! ### Histories -/

/-- The invocations that did something to the container, in order. -/
def successes (name : List Char) (is : List Invocation) : List Invocation :=
  is.filter fun i => i.succeeds && i.target = some name

theorem successes_concat {name : List Char} {i : Invocation} (hsucceeds : i.succeeds = true)
    (htarget : i.target = some name) (is : List Invocation) :
    successes name (is ++ [i]) = successes name is ++ [i] := by
  rw [successes, List.filter_append, List.filter_cons_of_pos (by simp [hsucceeds, htarget]),
    List.filter_nil, successes]

/-- Failures, and what is done to other containers, do not count. -/
theorem successes_concat_of_not {name : List Char} {i : Invocation}
    (h : ¬(i.succeeds = true ∧ i.target = some name)) (is : List Invocation) :
    successes name (is ++ [i]) = successes name is := by
  rw [successes, List.filter_append, List.filter_cons_of_neg (by simpa using h), List.filter_nil,
    List.append_nil, successes]

def closed : Table := fun _ => none

/-- Invocations with a `cryptsetup` as in its manual, from a table without containers. -/
def History (is : List Invocation) : Prop :=
  Along (fun table i => i.step table) (fun table i => i.Sound table) closed is

theorem table_eq_last {is : List Invocation} (h : History is) (name : List Char) :
    run (fun table i => i.step table) closed is (mapped name) =
      (successes name is).getLast?.bind Invocation.leaves := by
  induction is using List.reverseRecOn with
  | nil => rfl
  | append_singleton is i ih =>
    obtain ⟨hbefore, hsound, -⟩ := along_append.1 h
    rw [run_append, run_cons, run_nil]
    cases hsucceeds : i.succeeds with
    | false =>
      rw [Invocation.step_of_fails hsound hsucceeds, successes_concat_of_not (by simp [hsucceeds])]
      exact ih hbefore
    | true =>
      rw [Invocation.step_of_succeeds hsound hsucceeds]
      by_cases htarget : i.target = some name
      · rw [if_pos htarget, successes_concat hsucceeds htarget, List.getLast?_concat]
        rfl
      · rw [if_neg htarget, successes_concat_of_not (fun h => htarget h.2)]
        exact ih hbefore

/-- Openings and closings by turns, the first of them an opening. -/
def ByTurns (is : List Invocation) : Prop :=
  ∀ k (h : k < is.length), is[k].mode = if k % 2 = 0 then "open" else "close"

theorem ByTurns.concat {is : List Invocation} (h : ByTurns is) {i : Invocation}
    (hi : i.mode = if is.length % 2 = 0 then "open" else "close") : ByTurns (is ++ [i]) := by
  intro k hk
  rw [List.length_append, List.length_singleton] at hk
  rcases Nat.lt_or_eq_of_le (Nat.le_of_lt_succ hk) with hlt | rfl
  · rw [List.getElem_append_left hlt]
    exact h k hlt
  · rw [List.getElem_concat_length rfl]
    exact hi

/-- The mode of a success is told by whether the name is in use, which it changes. -/
theorem mode_of_succeeds {i : Invocation} {table : Table} (hsound : i.Sound table)
    (hsucceeds : i.succeeds = true) {name : List Char} (htarget : i.target = some name) :
    (i.mode = if table (mapped name) = none then "open" else "close") ∧
      (i.leaves = none ↔ table (mapped name) ≠ none) := by
  rcases Invocation.step_cases hsound with ⟨hfails, -⟩ | ⟨name', uuid, hspec, -, hstep⟩
  · rw [hsucceeds] at hfails
    cases hfails
  rw [Invocation.target, hspec] at htarget
  obtain rfl := Option.some.inj htarget
  rcases hstep with ⟨hopen, hfree, key, hkey, -⟩ | ⟨hclose, hused, -⟩
  · rw [if_pos hfree, Invocation.leaves, if_pos hopen, hspec]
    exact ⟨hopen, by simp [hkey, hfree]⟩
  · rw [if_neg hused, Invocation.leaves, if_neg (by rw [hclose]; decide)]
    exact ⟨hclose, iff_of_true rfl hused⟩

/-- A name is in use after an odd number of successes. -/
theorem byTurns_successes {is : List Invocation} (h : History is) (name : List Char) :
    ByTurns (successes name is) ∧
      (run (fun table i => i.step table) closed is (mapped name) = none ↔
        (successes name is).length % 2 = 0) := by
  induction is using List.reverseRecOn with
  | nil => exact ⟨fun k hk => absurd hk (Nat.not_lt_zero k), iff_of_true rfl rfl⟩
  | append_singleton is i ih =>
    obtain ⟨hbefore, hsound, -⟩ := along_append.1 h
    obtain ⟨hturns, hnone⟩ := ih hbefore
    rw [run_append, run_cons, run_nil]
    cases hsucceeds : i.succeeds with
    | false =>
      rw [Invocation.step_of_fails hsound hsucceeds, successes_concat_of_not (by simp [hsucceeds])]
      exact ⟨hturns, hnone⟩
    | true =>
      rw [Invocation.step_of_succeeds hsound hsucceeds]
      by_cases htarget : i.target = some name
      · obtain ⟨hmode, hleaves⟩ := mode_of_succeeds hsound hsucceeds htarget
        rw [if_pos htarget, successes_concat hsucceeds htarget, hleaves, Ne, hnone,
          List.length_append, List.length_singleton]
        refine ⟨hturns.concat ?_, by omega⟩
        rw [hmode]
        exact if_congr hnone rfl rfl
      · rw [if_neg htarget, successes_concat_of_not (fun h => htarget h.2)]
        exact ⟨hturns, hnone⟩

/-- **The table tells the last success.**  Over any history of invocations, what is mapped under the
name of a container is what the last invocation that returned zero for it left: the device of its
own specification with the key of its own host, or nothing.  These invocations open and close the
container by turns. -/
theorem table_history {is : List Invocation} (h : History is) (name : List Char) :
    run (fun table i => i.step table) closed is (mapped name) =
        (successes name is).getLast?.bind Invocation.leaves ∧
      ByTurns (successes name is) :=
  ⟨table_eq_last h name, (byTurns_successes h name).1⟩

/-- `cryptsetup` puts a mapping into a table that has none. -/
def sampleOpen : Invocation where
  sys := { willing with
    perform := fun _ => .ok [0x2a]
    cryptsetup := fun args _ => if args.length = 6 then .ok 0 else .ok 1 }
  remap args input table :=
    match args with
    | [_, _, _, _, device, name] => Function.update table name (some ⟨device, input⟩)
    | _ => table
  cfg := ⟨"user".toList, "host".toList, "/keys".toList⟩
  mode := "open"
  hostname := "laptop".toList
  spec := "data.0123-4567".toList

/-- It takes that mapping away. -/
def sampleClose : Invocation :=
  { sampleOpen with
    sys := { willing with
      cryptsetup := fun args _ => if args = closeArgs "data".toList then .ok 0 else .ok 1 }
    remap := fun args _ table =>
      if args = closeArgs "data".toList then Function.update table (mapped "data".toList) none
      else table
    mode := "close" }

theorem sound_sampleOpen : sampleOpen.Sound closed where
  opens _ _ _ _ := ⟨rfl, rfl⟩
  closes name hcloses := by cases hcloses
  fails args input hfails := by
    simp only [sampleOpen]
    split
    · exact absurd rfl hfails
    · rfl

theorem sound_sampleClose : sampleClose.Sound (sampleOpen.step closed) where
  opens device name key hopens := by cases hopens
  closes name hcloses := by
    have hname : name = "data".toList := by
      by_contra hne
      have hargs : closeArgs name ≠ closeArgs "data".toList := by
        simpa [closeArgs] using hne
      have hfails : sampleClose.sys.cryptsetup (closeArgs name) [] = .ok 1 := if_neg hargs
      rw [hfails] at hcloses
      cases hcloses
    subst hname
    refine ⟨by decide +kernel, ?_⟩
    simp only [sampleClose, if_true]
  fails args input hfails := by
    by_cases hargs : args = closeArgs "data".toList
    · exact absurd (if_pos hargs) hfails
    · exact if_neg hargs

/-- The container was opened, and then it was closed. -/
theorem table_history_sample :
    run (fun table (i : Invocation) => i.step table) closed [sampleOpen] (mapped "data".toList)
        = some ⟨"/dev/disk/by-uuid/0123-4567".toList, [0x2a]⟩ ∧
      run (fun table i => i.step table) closed [sampleOpen, sampleClose] (mapped "data".toList)
        = none := by
  have hopened := (@table_history [sampleOpen] ⟨sound_sampleOpen, trivial⟩ "data".toList).1
  have hclosed := (@table_history [sampleOpen, sampleClose]
    ⟨sound_sampleOpen, sound_sampleClose, trivial⟩ "data".toList).1
  exact ⟨hopened.trans (by decide +kernel), hclosed.trans (by decide +kernel)⟩

end Container
end TjTools
