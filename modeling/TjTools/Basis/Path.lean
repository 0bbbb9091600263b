/-
# Paths

A path is a text; `append` is the operator `/` of `std::filesystem`, which does not
normalise: an absolute path on the right replaces what is on the left, and a separator is put
in where the left side is not empty and does not end in one.

`resolve` follows a path by its letters alone.  The place it comes to is a `Location`: from the
root, or so many levels up from where it starts, and then down through names.  Here the names
are of any type, and a step is to stay, to go up or to go down; `walk_eq_join` says that a walk
from a place is the walk on its own, joined to that place.

The main result is `join_isChildOf_iff`: a relative walk from `d` ends at a child of `d` exactly
when it `Returns`: it goes up some levels, comes down again along the last names of `d`, and takes
one name more.
-/

import Mathlib.Data.Int.Notation
import Mathlib.Data.List.Induction
import Mathlib.Tactic.SplitIfs

namespace TjTools
namespace Path

/-! ### Places -/

/-- A place: `ups` levels up from the start, or the root, and then down. -/
@[ext] structure Location (ν : Type*) where
  absolute : Bool
  ups : ℕ
  names : List ν
  /-- The root is its own parent. -/
  ups_eq_zero : absolute = true → ups = 0

/-- What one part of a path asks for. -/
inductive Step (ν : Type*) where
  | stay
  | up
  | down (name : ν)

namespace Location

variable {ν : Type*}

instance [DecidableEq ν] : DecidableEq (Location ν) := fun l l' =>
  decidable_of_iff (l.absolute = l'.absolute ∧ l.ups = l'.ups ∧ l.names = l'.names)
    Location.ext_iff.symm

/-- Where an absolute or a relative path starts. -/
def start (absolute : Bool) : Location ν := ⟨absolute, 0, [], fun _ => rfl⟩

def down (l : Location ν) (name : ν) : Location ν := { l with names := l.names ++ [name] }

/-- Up `n` levels: names are taken off, and then, except at the root, levels are added. -/
def ascend (l : Location ν) (n : ℕ) : Location ν where
  absolute := l.absolute
  ups := if l.absolute then 0 else l.ups + (n - l.names.length)
  names := l.names.take (l.names.length - n)
  ups_eq_zero := fun h => if_pos h

def up (l : Location ν) : Location ν := l.ascend 1

def step (l : Location ν) : Step ν → Location ν
  | .stay => l
  | .up => l.up
  | .down name => l.down name

def walk (l : Location ν) (steps : List (Step ν)) : Location ν := steps.foldl step l

/-- `l` is a direct child of `d`. -/
def IsChildOf (l d : Location ν) : Prop := ∃ name, l = d.down name

/-- The end of a relative walk, taken from `d` on. -/
def join (d r : Location ν) : Location ν :=
  { d.ascend r.ups with names := (d.ascend r.ups).names ++ r.names }

/-- **Out and back.**  The walk goes no higher than it can come down again, and comes down along
the last names of `d` and one name more. -/
def Returns (d r : Location ν) : Prop :=
  (d.absolute = true ∨ r.ups ≤ d.names.length) ∧
    ∃ name, r.names = d.names.drop (d.names.length - r.ups) ++ [name]

@[simp] theorem walk_append (l : Location ν) (steps steps' : List (Step ν)) :
    l.walk (steps ++ steps') = (l.walk steps).walk steps' := by
  simp [walk]

@[simp] theorem walk_concat (l : Location ν) (steps : List (Step ν)) (s : Step ν) :
    l.walk (steps ++ [s]) = (l.walk steps).step s := by
  simp [walk]

@[simp] theorem absolute_step (l : Location ν) (s : Step ν) : (l.step s).absolute = l.absolute := by
  cases s with
  | stay => rfl
  | up => rfl
  | down name => rfl

@[simp] theorem absolute_walk (l : Location ν) (steps : List (Step ν)) :
    (l.walk steps).absolute = l.absolute := by
  induction steps using List.reverseRecOn with
  | nil => rfl
  | append_singleton steps s ih => rw [walk_concat, absolute_step, ih]

theorem ascend_zero (l : Location ν) : l.ascend 0 = l := by
  ext1
  · rfl
  · unfold ascend
    split_ifs with h
    · exact (l.ups_eq_zero h).symm
    · simp
  · simp [ascend]

/-- One level up takes the last name off. -/
theorem up_of_concat {l : Location ν} {names : List ν} {name : ν} (h : l.names = names ++ [name]) :
    l.up = { l with names := names } := by
  have hlength : l.names.length = names.length + 1 := by rw [h, List.length_append]; rfl
  ext1
  · rfl
  · have hroot := l.ups_eq_zero
    simp only [up, ascend, hlength]
    split_ifs with habsolute
    · exact (hroot habsolute).symm
    · omega
  · simp [up, ascend, h]

theorem ascend_succ (l : Location ν) (n : ℕ) : l.ascend (n + 1) = (l.ascend n).up := by
  have hlength : (l.names.take (l.names.length - n)).length = l.names.length - n := by
    rw [List.length_take]
    omega
  ext1
  · rfl
  · simp only [up, ascend, hlength]
    split_ifs
    · rfl
    · omega
  · simp only [up, ascend, hlength, List.take_take]
    congr 1
    omega

theorem join_start (d : Location ν) : d.join (start false) = d := by
  have hnames : d.names ++ [] = d.names := List.append_nil _
  unfold join start
  rw [ascend_zero]
  ext1
  · rfl
  · rfl
  · exact hnames

theorem join_down (d r : Location ν) (name : ν) : d.join (r.down name) = (d.join r).down name := by
  ext1
  · rfl
  · rfl
  · simp [join, down]

theorem join_up (d : Location ν) {r : Location ν} (hr : r.absolute = false) :
    d.join r.up = (d.join r).up := by
  rcases List.eq_nil_or_concat r.names with hnames | ⟨names, name, hnames⟩
  · -- nothing of the walk is left to take off
    have hups : r.up.ups = r.ups + 1 := by simp [up, ascend, hnames, hr]
    have hup : r.up.names = [] := by simp [up, ascend, hnames]
    unfold join
    simp only [hups, hup, hnames, List.append_nil]
    exact d.ascend_succ r.ups
  · rw [List.concat_eq_append] at hnames
    have hjoin : (d.join r).names = (d.ascend r.ups).names ++ names ++ [name] := by
      simp [join, hnames]
    rw [up_of_concat hnames, up_of_concat hjoin]
    rfl

/-- **A walk may be taken on its own.** -/
theorem walk_eq_join (d : Location ν) (steps : List (Step ν)) :
    d.walk steps = d.join ((start false).walk steps) := by
  induction steps using List.reverseRecOn with
  | nil => exact d.join_start.symm
  | append_singleton steps s ih =>
    rw [walk_concat, walk_concat, ih]
    cases s with
    | stay => rfl
    | up => exact (join_up d (absolute_walk _ _)).symm
    | down name => exact (join_down d _ name).symm

theorem join_isChildOf_iff {d r : Location ν} : (d.join r).IsChildOf d ↔ d.Returns r := by
  have hsplit := List.take_append_drop (d.names.length - r.ups) d.names
  have hups : (d.join r).ups = d.ups ↔ d.absolute = true ∨ r.ups ≤ d.names.length := by
    have hroot := d.ups_eq_zero
    simp only [join, ascend]
    split_ifs with h
    · simp [h, hroot h]
    · simp only [h, Bool.false_eq_true, false_or]
      omega
  have hnames : ∀ name, (d.join r).names = d.names ++ [name] ↔
      r.names = d.names.drop (d.names.length - r.ups) ++ [name] := by
    intro name
    conv_lhs => rw [← hsplit, List.append_assoc]
    exact List.append_right_inj _
  unfold IsChildOf Returns
  rw [← hups]
  constructor
  · rintro ⟨name, h⟩
    refine ⟨?_, name, (hnames name).1 ?_⟩
    · rw [h]
      rfl
    · rw [h]
      rfl
  · rintro ⟨hu, name, h⟩
    refine ⟨name, ?_⟩
    ext1
    · rfl
    · exact hu
    · exact (hnames name).2 h

end Location

/-! ### Texts -/

def sep : Char := '/'

def isAbsolute (p : List Char) : Bool := p.head? == some sep

/-- The operator `/`. -/
def append (p q : List Char) : List Char :=
  if isAbsolute q then q
  else if p = [] ∨ p.getLast? = some sep then p ++ q
  else p ++ sep :: q

/-- A part of a path. -/
def classify (part : List Char) : Step (List Char) :=
  if part = [] ∨ part = ['.'] then .stay
  else if part = ['.', '.'] then .up
  else .down part

def steps (p : List Char) : List (Step (List Char)) := (p.splitOn sep).map classify

/-- Where a path leads, by its letters. -/
def resolve (p : List Char) : Location (List Char) :=
  (Location.start (isAbsolute p)).walk (steps p)

/-- A name of a directory entry. -/
def IsOrdinary (part : List Char) : Prop :=
  part ≠ [] ∧ part ≠ ['.'] ∧ part ≠ ['.', '.'] ∧ sep ∉ part

theorem append_of_absolute {q : List Char} (hq : isAbsolute q = true) (p : List Char) :
    append p q = q :=
  if_pos hq

theorem steps_append (p q : List Char) : steps (p ++ sep :: q) = steps p ++ steps q := by
  rw [steps, List.splitOn_append_cons_self, List.map_append]
  rfl

theorem steps_nil : steps [] = [.stay] := rfl

theorem IsOrdinary.classify_eq {part : List Char} (h : IsOrdinary part) :
    classify part = .down part := by
  obtain ⟨hnil, hdot, hdots, -⟩ := h
  unfold classify
  rw [if_neg (not_or.2 ⟨hnil, hdot⟩), if_neg hdots]

theorem IsOrdinary.steps_eq {part : List Char} (h : IsOrdinary part) :
    steps part = [.down part] := by
  rw [steps, List.splitOn_eq_singleton h.2.2.2, List.map_singleton, h.classify_eq]

theorem IsOrdinary.not_absolute {part : List Char} (h : IsOrdinary part) :
    isAbsolute part = false := by
  obtain ⟨hnil, -, -, hsep⟩ := h
  cases part with
  | nil => exact absurd rfl hnil
  | cons c part =>
    have hc : c ≠ sep := fun hc => hsep (hc ▸ List.mem_cons_self)
    simpa [isAbsolute] using hc

theorem isAbsolute_append {p : List Char} (hp : p ≠ []) (q : List Char) :
    isAbsolute (p ++ q) = isAbsolute p := by
  cases p with
  | nil => exact absurd rfl hp
  | cons c p => rfl

/-- **A relative path on the right is walked from where the left one leads.** -/
theorem resolve_append {q : List Char} (hq : isAbsolute q = false) (p : List Char) :
    resolve (append p q) = (resolve p).join (resolve q) := by
  have hrelative : ¬isAbsolute q = true := by rw [hq]; exact Bool.false_ne_true
  have hjoin : (resolve p).join (resolve q) =
      (Location.start (isAbsolute p)).walk (steps p ++ steps q) := by
    rw [Location.walk_append, Location.walk_eq_join _ (steps q), resolve, resolve, hq]
  rw [hjoin, append, if_neg hrelative]
  by_cases hnil : p = []
  · rw [if_pos (.inl hnil), hnil, List.nil_append, resolve, hq, steps_nil]
    rfl
  · by_cases hlast : p.getLast? = some sep
    · -- the separator is there: what comes after it is one more, empty, part
      obtain ⟨p', rfl⟩ := List.getLast?_eq_some_iff.1 hlast
      rw [if_pos (.inr hlast), resolve, isAbsolute_append hnil, List.append_assoc,
        List.singleton_append, steps_append, steps_append, steps_nil, Location.walk_append,
        Location.walk_append, Location.walk_append]
      rfl
    · rw [if_neg (not_or.2 ⟨hnil, hlast⟩), resolve, isAbsolute_append hnil, steps_append]

theorem resolve_append_ordinary {q : List Char} (hq : IsOrdinary q) (p : List Char) :
    resolve (append p q) = (resolve p).down q := by
  have hresolve : resolve q = (Location.start false).down q := by
    rw [resolve, hq.not_absolute, hq.steps_eq]
    rfl
  rw [resolve_append hq.not_absolute, hresolve, Location.join_down, Location.join_start]

end Path
end TjTools
