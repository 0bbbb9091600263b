/-
# Commands on files

The files of a script are a finite map from names to contents.  A command ends with a status and
leaves files; `andThen` is `&&`, and a loop `while read` goes on whatever the status of its body
(`forEach`).

`firstFree` is the loop of a script that looks for a number that no file has yet.  Where the
numbers up to `k` are taken and the next is not, it ends with that one (`firstFree_eq`).  A command
that touches certain names only leaves all the others alone (`Only`).
-/

import Mathlib.Data.List.AList
import TjTools.Basis.Loop

namespace TjTools
namespace Shell

open Loop

variable {κ ν : Type} [DecidableEq κ]

/-- The files. -/
abbrev Store (κ ν : Type) := AList fun _ : κ => ν

/-- The status of a command, and the files it leaves. -/
abbrev Command (κ ν : Type) := Store κ ν → ℕ × Store κ ν

namespace Command

/-- `first && second` -/
def andThen (first second : Command κ ν) : Command κ ν := fun s =>
  if (first s).1 = 0 then second (first s).2 else first s

omit [DecidableEq κ] in
theorem andThen_of_ok {first : Command κ ν} {s t : Store κ ν} (h : first s = (0, t))
    (second : Command κ ν) : first.andThen second s = second t := by
  rw [andThen, h, if_pos rfl]

omit [DecidableEq κ] in
theorem andThen_of_ne {first : Command κ ν} {s : Store κ ν} (h : (first s).1 ≠ 0)
    (second : Command κ ν) : first.andThen second s = first s :=
  if_neg h

omit [DecidableEq κ] in
theorem andThen_of_failed {first : Command κ ν} {s t : Store κ ν} {status : ℕ}
    (h : first s = (status, t)) (hstatus : status ≠ 0) (second : Command κ ν) :
    first.andThen second s = (status, t) := by
  rw [andThen_of_ne (by rw [h]; exact hstatus), h]

end Command

/-- `cp` of a file; the status is that of a missing source. -/
def cp (source target : κ) : Command κ ν := fun s =>
  match s.lookup source with
  | none => (1, s)
  | some content => (0, s.insert target content)

/-- `mv` of a file under another name. -/
def mv (source target : κ) : Command κ ν := fun s =>
  match s.lookup source with
  | none => (1, s)
  | some content => (0, (s.erase source).insert target content)

/-- What `rm` leaves. -/
def remove (names : List κ) (s : Store κ ν) : Store κ ν :=
  names.foldl (fun s name => s.erase name) s

/-- `rm`, which fails if a file is missing. -/
def rm (names : List κ) : Command κ ν := fun s =>
  (if names.all fun name => (s.lookup name).isSome then 0 else 1, remove names s)

/-- `while read item; do ...; done` -/
def forEach {ι : Type*} (body : ι → Command κ ν) (items : List ι) (s : Store κ ν) : Store κ ν :=
  items.foldl (fun s item => (body item s).2) s

/-- A turn of the loop that looks for a number. -/
def numberTurn (taken : ℕ → Bool) (counter : ℕ) : Turn ℕ ℕ :=
  if taken counter then .again (counter + 1) else .leave counter

/-- The first number, from one on, under which there is no file. -/
def firstFree (name : ℕ → κ) (s : Store κ ν) : Option ℕ :=
  iterate (numberTurn fun counter => (s.lookup (name counter)).isSome) (s.keys.length + 1) 1

/-! ### What is left -/

theorem lookup_remove (names : List κ) (s : Store κ ν) (name : κ) :
    (remove names s).lookup name = if name ∈ names then none else s.lookup name := by
  induction names generalizing s with
  | nil => rfl
  | cons first names ih =>
    rw [remove, List.foldl_cons, ← remove, ih]
    by_cases hfirst : name = first
    · rw [hfirst, AList.lookup_erase, if_pos List.mem_cons_self, ite_self]
    · rw [AList.lookup_erase_ne hfirst]
      simp only [List.mem_cons, hfirst, false_or]

/-- **Frame.**  The command leaves the files alone whose names are not of the kind. -/
def Only (P : κ → Prop) (c : Command κ ν) : Prop :=
  ∀ s name, ¬P name → (c s).2.lookup name = s.lookup name

namespace Only

variable {P : κ → Prop}

theorem andThen {first second : Command κ ν} (hfirst : Only P first) (hsecond : Only P second) :
    Only P (first.andThen second) := by
  intro s name hname
  unfold Command.andThen
  split_ifs with hok
  · rw [hsecond _ name hname, hfirst s name hname]
  · exact hfirst s name hname

theorem cp {source target : κ} (h : P target) : Only P (cp source target : Command κ ν) := by
  intro s name hname
  unfold Shell.cp
  cases s.lookup source with
  | none => rfl
  | some content =>
    have hne : name ≠ target := fun he => hname (he ▸ h)
    exact AList.lookup_insert_ne hne

theorem rm {names : List κ} (h : ∀ name ∈ names, P name) :
    Only P (rm names : Command κ ν) := by
  intro s name hname
  exact (lookup_remove names s name).trans (if_neg fun hmem => hname (h name hmem))

end Only

/-! ### Numbers -/

theorem iterate_numberTurn {taken : ℕ → Bool} {first free : ℕ} (hle : first ≤ free)
    (htaken : ∀ j, first ≤ j → j < free → taken j = true) (hfree : taken free = false) {turns : ℕ}
    (hturns : free - first < turns) : iterate (numberTurn taken) turns first = some free := by
  induction turns generalizing first with
  | zero => exact absurd hturns (Nat.not_lt_zero _)
  | succ turns ih =>
    rcases Nat.eq_or_lt_of_le hle with rfl | hlt
    · refine iterate_leave ?_ turns
      rw [numberTurn, hfree]
      rfl
    · have hagain : numberTurn taken first = .again (first + 1) := by
        rw [numberTurn, htaken first le_rfl hlt]
        rfl
      rw [iterate_again hagain]
      exact ih hlt (fun j hj => htaken j (by omega)) (by omega)

theorem le_of_iterate {taken : ℕ → Bool} {turns first free : ℕ}
    (h : iterate (numberTurn taken) turns first = some free) : first ≤ free := by
  induction turns generalizing first with
  | zero => cases h
  | succ turns ih =>
    by_cases htaken : taken first = true
    · have hagain : numberTurn taken first = .again (first + 1) := if_pos htaken
      rw [iterate_again hagain] at h
      exact Nat.le_of_succ_le (ih h)
    · have hleave : numberTurn taken first = .leave first := if_neg htaken
      rw [iterate_leave hleave] at h
      cases h
      exact le_rfl

/-- Different names that are all taken are not more than the files. -/
theorem le_length_keys {name : ℕ → κ} (hname : Function.Injective name) {s : Store κ ν} {k : ℕ}
    (htaken : ∀ j, j < k → (s.lookup (name (j + 1))).isSome = true) : k ≤ s.keys.length := by
  have hnodup : ((List.range k).map fun j => name (j + 1)).Nodup :=
    List.nodup_range.map fun i j hij => Nat.succ.inj (hname hij)
  have hsubset : ((List.range k).map fun j => name (j + 1)) ⊆ s.keys := by
    intro a ha
    obtain ⟨j, hj, rfl⟩ := List.mem_map.1 ha
    exact AList.mem_keys.1 (AList.lookup_isSome.1 (htaken j (List.mem_range.1 hj)))
  simpa using (List.subperm_of_subset hnodup hsubset).length_le

/-- **The loop ends with the first free number.** -/
theorem firstFree_eq {name : ℕ → κ} (hname : Function.Injective name) {s : Store κ ν} {k : ℕ}
    (htaken : ∀ j, j < k → (s.lookup (name (j + 1))).isSome = true)
    (hfree : s.lookup (name (k + 1)) = none) : firstFree name s = some (k + 1) := by
  have hle := le_length_keys hname htaken
  refine iterate_numberTurn (Nat.le_add_left 1 k) ?_ (by rw [hfree]; rfl) (by omega)
  intro j hj hlt
  obtain ⟨j, rfl⟩ := Nat.exists_eq_add_of_le' hj
  exact htaken j (by omega)

end Shell
end TjTools
