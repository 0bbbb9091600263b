/-
# Mounts that are not btrfs

`src/scripts/fstrim_gen_env.sh`: `__mountinfo_filter_fs` (lines 24-46) goes through the lines of
`/proc/self/mountinfo` and prints those whose file system is not the one it is given;
`__mount_get_fs` (lines 7-22) finds the file system of a line.

A line is six fields, any number of optional ones, a dash, and then the file system, the source and
the options of the superblock.  The script counts the words: with eleven the file system is the
ninth, with twelve the tenth, and with any other number it is `unknown`.  That is one optional field
or two, so a btrfs mount that is private, and has none, stays in (`mountinfoFilterFs_iff`).

The loop runs in a command substitution, where `errexit` is off, so the status of `((idx++))` does
not matter.
-/

import Mathlib.Data.List.Basic
import Mathlib.Data.List.GetD
import TjTools.Basis.Bash
import TjTools.Basis.Loop

namespace TjTools
namespace Fstrim

open Bash Loop

/-- What the kernel writes between blanks; it writes a blank in a name as `\\040`. -/
structure Field where
  text : List Char
  text_ne_nil : text ≠ []
  not_blank : ∀ c ∈ text, isBlank c = false

/-- An entry of `/proc/self/mountinfo`. -/
structure Mount where
  mountId : Field
  parentId : Field
  device : Field
  root : Field
  mountPoint : Field
  mountOptions : Field
  optional : List Field
  fsType : Field
  /-- Empty where it was mounted from nothing. -/
  source : List Char
  superOptions : Field
  source_not_blank : ∀ c ∈ source, isBlank c = false

namespace Mount

def fields (m : Mount) : List (List Char) :=
  [m.mountId.text, m.parentId.text, m.device.text, m.root.text, m.mountPoint.text,
    m.mountOptions.text] ++ (m.optional.map Field.text ++
      [['-'], m.fsType.text, m.source, m.superOptions.text])

def line (m : Mount) : List Char := joined m.fields

end Mount

/-- `__mount_get_fs`: what it prints. -/
def mountGetFs (line : List Char) : List Char :=
  let mountdata := readArray line
  let numData := mountdata.length
  if numData = 11 then echo (mountdata.getD 8 [])
  else if numData = 12 then echo (mountdata.getD 9 [])
  else echo "unknown".toList

/-- The loop of `__mountinfo_filter_fs`: the index, and what was printed. -/
def filterTurn (mountinfo : List (List Char)) (fs : List Char) :
    ℕ × List Char → Turn (ℕ × List Char) (List Char)
  | (idx, output) =>
    if idx = mountinfo.length then .leave output
    else
      let curMount := mountinfo.getD idx []
      let mountFs := substitution (mountGetFs curMount)
      .again (idx + 1, output ++ if mountFs ≠ fs then echo curMount else [])

/-- `__mountinfo_filter_fs`: what it prints for a file. -/
def MountinfoFilterFs (file fs output : List Char) : Prop :=
  Ends (filterTurn (lines file) fs) (0, []) output

/-! ### The file system of a line -/

theorem filter_texts (fields : List Field) :
    (fields.map Field.text).filter (· ≠ []) = fields.map Field.text := by
  refine List.filter_eq_self.2 ?_
  intro text htext
  obtain ⟨field, -, rfl⟩ := List.mem_map.1 htext
  exact decide_eq_true field.text_ne_nil

theorem Mount.not_blank (m : Mount) : ∀ text ∈ m.fields, ∀ c ∈ text, isBlank c = false := by
  intro text htext
  simp only [fields, List.mem_append, List.mem_cons, List.mem_map, List.not_mem_nil, or_false]
    at htext
  rcases htext with (rfl | rfl | rfl | rfl | rfl | rfl) | ⟨field, -, rfl⟩ | rfl | rfl | rfl | rfl
  · exact m.mountId.not_blank
  · exact m.parentId.not_blank
  · exact m.device.not_blank
  · exact m.root.not_blank
  · exact m.mountPoint.not_blank
  · exact m.mountOptions.not_blank
  · exact field.not_blank
  · exact List.forall_mem_singleton.2 rfl
  · exact m.fsType.not_blank
  · exact m.source_not_blank
  · exact m.superOptions.not_blank

theorem Mount.newline_not_mem_line (m : Mount) : '\n' ∉ m.line := by
  refine not_mem_joined (by decide) ?_
  intro text htext hmem
  exact Bool.noConfusion (m.not_blank text htext _ hmem)

theorem newline_not_mem_lines (mounts : List Mount) :
    ∀ line ∈ mounts.map Mount.line, '\n' ∉ line :=
  List.forall_mem_map.2 fun m _ => m.newline_not_mem_line

/-- The words of a line. -/
theorem Mount.readArray_line (m : Mount) : readArray m.line =
    [m.mountId.text, m.parentId.text, m.device.text, m.root.text, m.mountPoint.text,
      m.mountOptions.text] ++ (m.optional.map Field.text ++
        (['-'] :: m.fsType.text :: ([m.source].filter (· ≠ []) ++ [m.superOptions.text]))) := by
  have hnonempty := fun field : Field => field.text_ne_nil
  rw [readArray_of_not_mem m.newline_not_mem_line, line, words_joined m.not_blank, fields,
    List.filter_append, List.filter_append, filter_texts]
  by_cases hsource : m.source = []
  · simp [hnonempty, hsource]
  · simp [hnonempty, hsource]

/-- The script knows the file system where one optional field or two, and a source, are there. -/
def Mount.Counted (m : Mount) : Prop :=
  (m.optional.length = 1 ∨ m.optional.length = 2) ∧ m.source ≠ []

theorem mountGetFs_counted {m : Mount} (h : m.Counted) :
    mountGetFs m.line = echo m.fsType.text := by
  obtain ⟨hlength, hsource⟩ := h
  have hkept : [m.source].filter (· ≠ []) = [m.source] := by simp [hsource]
  unfold mountGetFs
  rw [m.readArray_line, hkept]
  rcases hlength with hlength | hlength
  · obtain ⟨first, hoptional⟩ := List.length_eq_one_iff.1 hlength
    rw [hoptional]
    rfl
  · obtain ⟨first, second, hoptional⟩ := List.length_eq_two.1 hlength
    rw [hoptional]
    rfl

/-- Of any other line it prints the dash or `unknown`. -/
theorem mountGetFs_not_counted {m : Mount} (h : ¬m.Counted) :
    mountGetFs m.line = echo ['-'] ∨ mountGetFs m.line = echo "unknown".toList := by
  unfold mountGetFs
  rw [m.readArray_line]
  by_cases hsource : m.source = []
  · -- the source is not among the words, so what follows the optional fields is counted one later
    rcases hoptional : m.optional with _ | ⟨a, _ | ⟨b, _ | ⟨c, _ | ⟨d, rest⟩⟩⟩⟩
    · exact .inr (by simp [hsource])
    · exact .inr (by simp [hsource])
    · exact .inl (by simp [hsource])
    · exact .inl (by simp [hsource])
    · exact .inr (by simp [hsource])
  · rcases hoptional : m.optional with _ | ⟨a, _ | ⟨b, _ | ⟨c, rest⟩⟩⟩
    · exact .inr (by simp [hsource])
    · exact absurd ⟨.inl (by rw [hoptional]; rfl), hsource⟩ h
    · exact absurd ⟨.inr (by rw [hoptional]; rfl), hsource⟩ h
    · exact .inr (by simp [hsource])

theorem Mount.isOption_line (m : Mount) : isOption m.line = false := by
  refine isOption_of_blank ?_
  rw [line, fields, List.cons_append, List.cons_append, joined]
  · exact List.mem_append_right _ List.mem_cons_self
  · exact fun h => by cases h

/-- A line is kept unless it is counted right and the file system is btrfs. -/
theorem mountFs_ne_iff (m : Mount) :
    substitution (mountGetFs m.line) ≠ "btrfs".toList ↔
      ¬(m.fsType.text = "btrfs".toList ∧ m.Counted) := by
  by_cases h : m.Counted
  · have htype : '\n' ∉ m.fsType.text := fun hmem => Bool.noConfusion (m.fsType.not_blank _ hmem)
    rw [mountGetFs_counted h]
    cases hoption : isOption m.fsType.text with
    | false =>
      rw [substitution_echo hoption htype]
      simp [h]
    | true =>
      -- nothing is printed then, and btrfs is no option
      have hne : m.fsType.text ≠ "btrfs".toList := by
        intro he
        rw [he] at hoption
        cases hoption
      rw [substitution_echo_option hoption]
      exact iff_of_true (by decide) fun hboth => hne hboth.1
  · refine iff_of_true ?_ fun hboth => h hboth.2
    rcases mountGetFs_not_counted h with hprinted | hprinted
    · rw [hprinted]
      decide
    · rw [hprinted]
      decide

/-! ### The output -/

/-- What the loop prints of a line. -/
def printed (fs line : List Char) : List Char :=
  if substitution (mountGetFs line) ≠ fs then echo line else []

theorem mountinfoFilterFs_ends (file fs : List Char) :
    MountinfoFilterFs file fs ((lines file).flatMap (printed fs)) := by
  refine ends_forEach (lines file) (printed fs) ?_ ?_
  · intro idx output h
    have hne : idx ≠ (lines file).length := h.ne
    rw [filterTurn, if_neg hne, List.getD_eq_getElem _ _ h]
    rfl
  · intro output
    rw [filterTurn, if_pos rfl]

/-- The mounts whose lines are printed. -/
def kept (mounts : List Mount) : List Mount :=
  mounts.filter fun m => substitution (mountGetFs m.line) ≠ "btrfs".toList

theorem mountinfoFilterFs_mounts (mounts : List Mount) :
    MountinfoFilterFs (unlines (mounts.map Mount.line)) "btrfs".toList
      (unlines ((kept mounts).map Mount.line)) := by
  have hends := mountinfoFilterFs_ends (unlines (mounts.map Mount.line)) "btrfs".toList
  rw [lines_unlines (newline_not_mem_lines mounts)] at hends
  suffices hprinted : (mounts.map Mount.line).flatMap (printed "btrfs".toList) =
      unlines ((kept mounts).map Mount.line) by
    rwa [hprinted] at hends
  clear hends
  induction mounts with
  | nil => rfl
  | cons m mounts ih =>
    have hecho : echo m.line = m.line ++ ['\n'] := by
      rw [echo, if_neg (by rw [m.isOption_line]; exact Bool.false_ne_true)]
    rw [List.map_cons, List.flatMap_cons, ih, printed]
    by_cases hkeep : substitution (mountGetFs m.line) ≠ "btrfs".toList
    · have hcons : kept (m :: mounts) = m :: kept mounts :=
        List.filter_cons_of_pos (decide_eq_true hkeep)
      rw [if_pos hkeep, hecho, hcons]
      rfl
    · have hcons : kept (m :: mounts) = kept mounts :=
        List.filter_cons_of_neg (by rw [decide_eq_true_eq]; exact hkeep)
      rw [if_neg hkeep, hcons, List.nil_append]

/-- Exactly the mounts of another kind are kept if every btrfs mount is counted right. -/
theorem kept_eq_iff (mounts : List Mount) :
    (kept mounts = mounts.filter fun m => m.fsType.text ≠ "btrfs".toList) ↔
      ∀ m ∈ mounts, m.fsType.text = "btrfs".toList →
        (m.optional.length = 1 ∨ m.optional.length = 2) ∧ m.source ≠ [] := by
  constructor
  · intro hsame m hm hbtrfs
    by_contra hcounted
    have hkept : m ∈ kept mounts := by
      refine List.mem_filter.2 ⟨hm, decide_eq_true ?_⟩
      exact (mountFs_ne_iff m).2 fun hboth => hcounted hboth.2
    rw [hsame] at hkept
    exact of_decide_eq_true (List.mem_filter.1 hkept).2 hbtrfs
  · intro hcounted
    refine List.filter_congr ?_
    intro m hm
    refine decide_eq_decide.2 ?_
    rw [mountFs_ne_iff]
    exact not_congr (and_iff_left_of_imp (hcounted m hm))

/-- Every mount of another kind is kept, so nothing else is if as many lines come out. -/
theorem kept_eq_of_unlines {mounts : List Mount}
    (h : unlines ((kept mounts).map Mount.line) =
      unlines ((mounts.filter fun m => m.fsType.text ≠ "btrfs".toList).map Mount.line)) :
    kept mounts = mounts.filter fun m => m.fsType.text ≠ "btrfs".toList := by
  have hlines := unlines_injective (newline_not_mem_lines _) (newline_not_mem_lines _) h
  have hlength := congrArg List.length hlines
  rw [List.length_map, List.length_map] at hlength
  have hsublist : (mounts.filter fun m => m.fsType.text ≠ "btrfs".toList).Sublist (kept mounts) := by
    refine List.monotone_filter_right mounts ?_
    intro m hother
    have hne : m.fsType.text ≠ "btrfs".toList := of_decide_eq_true hother
    exact decide_eq_true ((mountFs_ne_iff m).2 fun hboth => hne hboth.1)
  exact (hsublist.eq_of_length hlength.symm).symm

/-- **The filter is right exactly where every btrfs mount has one optional field or two**, and a
source. -/
theorem mountinfoFilterFs_iff (mounts : List Mount) :
    MountinfoFilterFs (unlines (mounts.map Mount.line)) "btrfs".toList
        (unlines ((mounts.filter fun m => m.fsType.text ≠ "btrfs".toList).map Mount.line)) ↔
      ∀ m ∈ mounts, m.fsType.text = "btrfs".toList →
        (m.optional.length = 1 ∨ m.optional.length = 2) ∧ m.source ≠ [] := by
  have hends := mountinfoFilterFs_mounts mounts
  rw [← kept_eq_iff]
  constructor
  · intro hright
    exact kept_eq_of_unlines (hends.unique hright)
  · intro hsame
    rw [← hsame]
    exact hends

/-- A private btrfs mount stays in. -/
theorem not_mountinfoFilterFs :
    ∃ m : Mount, m.line = "36 35 0:33 / /mnt rw - btrfs /dev/sda1 rw".toList ∧
      m.fsType.text = "btrfs".toList ∧
      MountinfoFilterFs (unlines [m.line]) "btrfs".toList (unlines [m.line]) ∧
      ¬MountinfoFilterFs (unlines [m.line]) "btrfs".toList [] := by
  have hblank : ∀ {text : List Char}, (text.all fun c => isBlank c == false) = true →
      ∀ c ∈ text, isBlank c = false := by
    intro text htext c hc
    exact beq_iff_eq.1 (List.all_eq_true.1 htext c hc)
  let m : Mount := {
    mountId := ⟨"36".toList, by decide, hblank (by decide)⟩
    parentId := ⟨"35".toList, by decide, hblank (by decide)⟩
    device := ⟨"0:33".toList, by decide, hblank (by decide)⟩
    root := ⟨"/".toList, by decide, hblank (by decide)⟩
    mountPoint := ⟨"/mnt".toList, by decide, hblank (by decide)⟩
    mountOptions := ⟨"rw".toList, by decide, hblank (by decide)⟩
    optional := []
    fsType := ⟨"btrfs".toList, by decide, hblank (by decide)⟩
    source := "/dev/sda1".toList
    superOptions := ⟨"rw".toList, by decide, hblank (by decide)⟩
    source_not_blank := hblank (by decide) }
  have hends := mountinfoFilterFs_mounts [m]
  have hkept : kept [m] = [m] := by
    refine List.filter_cons_of_pos (decide_eq_true ((mountFs_ne_iff m).2 ?_))
    rintro ⟨-, hcount | hcount, -⟩
    · cases hcount
    · cases hcount
  rw [hkept] at hends
  refine ⟨m, rfl, rfl, hends, ?_⟩
  intro hempty
  have hsame := hends.unique hempty
  cases hsame

end Fstrim
end TjTools
