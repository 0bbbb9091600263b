/-
# Garbage before a video

`strip_mp4_garbage` of `src/bashrc.d/51-regular-user.bash` (lines 608-635) makes a new file of what
comes after the type that stands before a video, and four more bytes.  It looks for the type with
`grep`, which goes by lines and prints every match of the first line that has one.

Where there are several, the positions are no number: the addition fails, its status is not looked
at, and `dd` refuses to skip them.  So the file is stripped exactly where the first occurrence of
the type is the only one before the next newline, and in every other case no file changes
(`stripMp4Garbage_cases`).

A file can always be written, and the lines on `stdout` are left out.  A name that begins with `-`
is one that `grep` takes for options, so that it does not look into the file: what becomes of it
is a parameter.
-/

import TjTools.Basis.Grep
import TjTools.Basis.Shell

namespace TjTools
namespace StripMp4

open Grep Search Shell

abbrev Content := List UInt8

abbrev Files := Store (List Char) Content

/-- `garbage` -/
def garbage : Content := "application/octet-stream".toList.map fun c => c.toNat.toUInt8

def newline : UInt8 := 0x0a

/-- `"${1}.stripped"` -/
def stripped (name : List Char) : List Char := name ++ ".stripped".toList

/-- `grep` takes it for options. -/
def IsOptions (name : List Char) : Prop := name.head? = some '-'

instance (name : List Char) : Decidable (IsOptions name) := inferInstanceAs (Decidable (_ = _))

/-- `strip_mp4_garbage`, given what the rest of it does where `grep` has options instead of a
file. -/
def stripMp4Garbage (options : List Char → Command (List Char) Content) (name : List Char) :
    Command (List Char) Content := fun s =>
  match s.lookup name with
  | none => (1, s)
  | some content =>
    if (s.lookup (stripped name)).isSome then (2, s)
    else if IsOptions name then options name s
    else
      match firstLine newline garbage content with
      | [] => (3, s)
      | [bytepos] =>
        let bytepos := bytepos + 28
        (0, s.insert (stripped name) (content.drop bytepos))
      | _ :: _ :: _ => (1, s)

/-- There is a file to strip, no stripped one, and the first occurrence of the type, at `p`, is
the only one before the next newline. -/
structure Strippable (s : Files) (name : List Char) (content : Content) (p : ℕ) : Prop where
  file : s.lookup name = some content
  free : s.lookup (stripped name) = none
  least : IsLeast {p | OccursAt garbage content p} p
  alone : ∀ q, p + garbage.length ≤ q → OccursAt garbage content q →
    newline ∈ (content.take q).drop p

theorem garbage_ne_nil : garbage ≠ [] := by decide

theorem newline_not_mem_garbage : newline ∉ garbage := by decide

section

variable {options : List Char → Command (List Char) Content} {name : List Char} {s : Files}

theorem stripMp4Garbage_missing (hfile : s.lookup name = none) :
    stripMp4Garbage options name s = (1, s) := by
  rw [stripMp4Garbage, hfile]

theorem stripMp4Garbage_exists {content : Content} (hfile : s.lookup name = some content)
    (hthere : ¬s.lookup (stripped name) = none) : stripMp4Garbage options name s = (2, s) := by
  rw [stripMp4Garbage, hfile]
  exact if_pos (Option.isSome_iff_ne_none.2 hthere)

/-- Where there is a file and no stripped one, all depends on the occurrences. -/
theorem stripMp4Garbage_grep {content : Content} (hfile : s.lookup name = some content)
    (hfree : s.lookup (stripped name) = none) (hname : ¬IsOptions name) :
    (stripMp4Garbage options name s = (3, s) ∧ ∀ p, ¬OccursAt garbage content p) ∨
      ∃ p more, FirstLine newline garbage content p more ∧ stripMp4Garbage options name s =
        if more = [] then (0, s.insert (stripped name) (content.drop (p + 28))) else (1, s) := by
  have hgrep : stripMp4Garbage options name s =
      match firstLine newline garbage content with
      | [] => (3, s)
      | [bytepos] => (0, s.insert (stripped name) (content.drop (bytepos + 28)))
      | _ :: _ :: _ => (1, s) := by
    rw [stripMp4Garbage, hfile]
    simp only [hfree, hname, Option.isSome_none, Bool.false_eq_true, if_false]
  rcases firstLine_cases garbage_ne_nil newline_not_mem_garbage content with
    ⟨hnil, hnone⟩ | ⟨p, more, hfound, hfirst⟩
  · rw [hnil] at hgrep
    exact .inl ⟨hgrep, hnone⟩
  · rw [hfound] at hgrep
    refine .inr ⟨p, more, hfirst, hgrep.trans ?_⟩
    cases more with
    | nil => rfl
    | cons q more => rfl

/-- What can be stripped is stripped. -/
theorem Strippable.strips {content : Content} {p : ℕ} (h : Strippable s name content p)
    (hname : ¬IsOptions name) :
    stripMp4Garbage options name s = (0, s.insert (stripped name) (content.drop (p + 28))) := by
  rcases @stripMp4Garbage_grep options name s content h.file h.free hname with
    ⟨-, hnone⟩ | ⟨p', more, hfirst, hstrips⟩
  · exact absurd h.least.1 (hnone p)
  · obtain rfl : p' = p := hfirst.least.unique h.least
    rw [hstrips, if_pos (hfirst.alone.2 h.alone)]

end

/-- **What is stripped, and what is left alone.** -/
theorem stripMp4Garbage_cases (options : List Char → Command (List Char) Content)
    {name : List Char} (hname : ¬IsOptions name) (s : Files) :
    (∀ content p, Strippable s name content p →
        stripMp4Garbage options name s = (0, s.insert (stripped name) (content.drop (p + 28)))) ∧
      ((¬∃ content p, Strippable s name content p) →
        (stripMp4Garbage options name s).1 ≠ 0 ∧ (stripMp4Garbage options name s).2 = s) ∧
      ((stripMp4Garbage options name s).1 = 3 ↔ ∃ content, s.lookup name = some content ∧
        s.lookup (stripped name) = none ∧ ∀ p, ¬OccursAt garbage content p) := by
  refine ⟨fun content p h => h.strips hname, ?_⟩
  cases hfile : s.lookup name with
  | none =>
    rw [stripMp4Garbage_missing hfile]
    refine ⟨fun _ => ⟨Nat.one_ne_zero, rfl⟩, iff_of_false (by simp) ?_⟩
    rintro ⟨content, hcontent, -⟩
    cases hcontent
  | some content =>
    by_cases hfree : s.lookup (stripped name) = none
    · rcases @stripMp4Garbage_grep options name s content hfile hfree hname with
        ⟨hthree, hnone⟩ | ⟨p, more, hfirst, hstrips⟩
      · rw [hthree]
        exact ⟨fun _ => ⟨by simp, rfl⟩, iff_of_true rfl ⟨content, rfl, hfree, hnone⟩⟩
      · have hnot : ¬∃ content', some content = some content' ∧
            s.lookup (stripped name) = none ∧ ∀ p, ¬OccursAt garbage content' p := by
          rintro ⟨content', hcontent, -, hnone⟩
          cases hcontent
          exact hnone p hfirst.least.1
        rw [hstrips]
        by_cases hmore : more = []
        · rw [if_pos hmore]
          have halone := hfirst.alone.1 hmore
          refine ⟨fun hnone => ?_, iff_of_false (by simp) hnot⟩
          exact absurd ⟨content, p, hfile, hfree, hfirst.least, halone⟩ hnone
        · rw [if_neg hmore]
          exact ⟨fun _ => ⟨Nat.one_ne_zero, rfl⟩, iff_of_false (by simp) hnot⟩
    · rw [stripMp4Garbage_exists hfile hfree]
      refine ⟨fun _ => ⟨by simp, rfl⟩, iff_of_false (by simp) ?_⟩
      rintro ⟨-, -, hnone, -⟩
      exact hfree hnone

/-- The type, four bytes, a newline and the type again. -/
def sampleFiles : Files :=
  (∅ : Files).insert "a.mp4".toList (garbage ++ [0, 0, 0, 32, newline] ++ garbage)

/-- It is stripped: the second occurrence is on another line. -/
theorem stripMp4Garbage_cases_sampleFiles :
    stripMp4Garbage (fun _ s => (3, s)) "a.mp4".toList sampleFiles =
      (0, sampleFiles.insert "a.mp4.stripped".toList (newline :: garbage)) := by
  have hname : ¬IsOptions "a.mp4".toList := by decide
  refine (stripMp4Garbage_cases (fun _ s => (3, s)) hname sampleFiles).1
    (garbage ++ [0, 0, 0, 32, newline] ++ garbage) 0 ?_
  refine ⟨by decide, by decide, ⟨by decide, fun _ _ => Nat.zero_le _⟩, fun q hq hoccurs => ?_⟩
  have hlow : 24 ≤ q := hq
  have hhigh : q + 24 ≤ 53 := hoccurs.1
  have hall : ∀ q < 30, 24 ≤ q →
      OccursAt garbage (garbage ++ [0, 0, 0, 32, newline] ++ garbage) q →
      newline ∈ ((garbage ++ [0, 0, 0, 32, newline] ++ garbage).take q).drop 0 := by
    decide +kernel
  exact hall q (by omega) hlow hoccurs

end StripMp4
end TjTools
