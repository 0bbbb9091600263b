/-
# White space at the end

`rstrip`, once in `src/src/brightness_utils/sysfs.h` (lines 27-35) and once in
`src/src/common_utils/string_extra.h` (lines 10-18): an iterator goes back from the last character
as long as it meets white space, and what is before it is returned.

Nothing asks whether the iterator is at the front, so the loop needs a character that is no white
space to stop at.  With one it returns the longest stripped prefix; without one it reads the place in
front of the first character (`rstrip_iff`).  What it reads there is not the string's, so the model
ends the loop at that read.
-/

import Mathlib.Data.List.Basic
import TjTools.Basis.Loop
import TjTools.Basis.Numerals

namespace TjTools

open Loop Numerals

namespace Rstrip

inductive Outcome where
  | returned (text : List Char)
  /-- A character outside of the string was read. -/
  | readOutside
  deriving DecidableEq

/-- The loop, with so many characters in front of the iterator. -/
def turn (input : List Char) : ℕ → Turn ℕ Outcome
  | 0 => .leave .readOutside
  | before + 1 =>
    match input[before]? with
    | none => .leave .readOutside
    | some c => if isspace c then .again before else .leave (.returned (input.take (before + 1)))

end Rstrip

open Rstrip

/-- `BrightnessDaemon::rstrip` -/
def BrightnessDaemon.Rstrip (input : List Char) (outcome : Outcome) : Prop :=
  Ends (turn input) input.length outcome

/-- `CommonUtils::rstrip` -/
def CommonUtils.Rstrip (input : List Char) (outcome : Outcome) : Prop :=
  Ends (turn input) input.length outcome

/-- What `BrightnessDaemon::rstrip` comes to; there are no more turns than characters, and one. -/
def BrightnessDaemon.rstrip (input : List Char) : Outcome :=
  (iterate (turn input) (input.length + 1) input.length).getD .readOutside

namespace Rstrip

/-- Nothing is left to strip. -/
def Stripped (text : List Char) : Prop := ∀ c ∈ text.getLast?, isspace c = false

/-- The longest prefix with nothing left to strip. -/
def LongestStripped (input text : List Char) : Prop :=
  text <+: input ∧ Stripped text ∧
    ∀ text', text' <+: input → Stripped text' → text'.length ≤ text.length

theorem exists_iterate (input : List Char) (before : ℕ) :
    ∃ outcome, iterate (turn input) (before + 1) before = some outcome := by
  induction before with
  | zero => exact ⟨.readOutside, rfl⟩
  | succ before ih =>
    cases hturn : turn input (before + 1) with
    | leave outcome => exact ⟨outcome, iterate_leave hturn _⟩
    | again next =>
      have hnext : next = before := by
        simp only [turn] at hturn
        split at hturn
        · cases hturn
        · split at hturn
          · exact (Turn.again.inj hturn).symm
          · cases hturn
      obtain ⟨outcome, houtcome⟩ := ih
      exact ⟨outcome, by rw [iterate_again hturn, hnext, houtcome]⟩

theorem rstrip_eq_iff {input : List Char} {outcome : Outcome} :
    BrightnessDaemon.rstrip input = outcome ↔ BrightnessDaemon.Rstrip input outcome := by
  obtain ⟨outcome', hrun⟩ := exists_iterate input input.length
  have hends : BrightnessDaemon.Rstrip input outcome' := ends_iff.2 ⟨_, hrun⟩
  have heq : BrightnessDaemon.rstrip input = outcome' := by
    rw [BrightnessDaemon.rstrip, hrun]
    rfl
  rw [heq]
  constructor
  · rintro rfl
    exact hends
  · intro h
    exact hends.unique h

theorem turn_append (front : List Char) (c : Char) (rest : List Char) :
    turn (front ++ c :: rest) (front.length + 1) =
      if isspace c then .again front.length else .leave (.returned (front ++ [c])) := by
  have hget : (front ++ c :: rest)[front.length]? = some c := by simp
  have htake : (front ++ c :: rest).take (front.length + 1) = front ++ [c] :=
    List.take_length_add_append 1
  simp only [turn, hget, htake]

/-- White space is passed over. -/
theorem ends_blanks {front blanks : List Char} {outcome : Outcome}
    (hblanks : ∀ c ∈ blanks, isspace c = true)
    (h : Ends (turn (front ++ blanks)) front.length outcome) :
    Ends (turn (front ++ blanks)) (front ++ blanks).length outcome := by
  induction blanks generalizing front with
  | nil => rwa [List.append_nil] at h ⊢
  | cons c blanks ih =>
    have hc := hblanks c List.mem_cons_self
    have hturn : turn (front ++ c :: blanks) (front ++ [c]).length = .again front.length := by
      rw [List.length_append, List.length_singleton, turn_append, if_pos hc]
    have hfront := Ends.again hturn h
    rw [List.append_cons] at hfront ⊢
    exact ih (fun c' hc' => hblanks c' (List.mem_cons_of_mem _ hc')) hfront

/-- A string without white space at its end is what the loop returns. -/
theorem ends_stripped {front blanks : List Char} {c : Char} (hc : isspace c = false)
    (hblanks : ∀ c ∈ blanks, isspace c = true) :
    Ends (turn (front ++ [c] ++ blanks)) (front ++ [c] ++ blanks).length
      (.returned (front ++ [c])) := by
  refine ends_blanks hblanks (.leave ?_)
  rw [List.append_assoc, List.singleton_append, List.length_append, List.length_singleton,
    turn_append, if_neg (by rw [hc]; exact Bool.false_ne_true)]

/-- A word is left as it is. -/
theorem rstrip_word {word : List Char} (hnil : word ≠ []) (h : ∀ c ∈ word, isspace c = false) :
    BrightnessDaemon.rstrip word = .returned word := by
  obtain ⟨front, c, rfl⟩ := (List.eq_nil_or_concat word).resolve_left hnil
  rw [List.concat_eq_append] at h ⊢
  have hends := @ends_stripped front [] c (h c (by simp)) fun c' hc' => by cases hc'
  rw [List.append_nil] at hends
  exact rstrip_eq_iff.2 hends

/-- In white space the loop goes on to the front, and past it. -/
theorem ends_readOutside {input : List Char} (h : ∀ c ∈ input, isspace c = true) :
    Ends (turn input) input.length .readOutside := by
  have hfront : Ends (turn ([] ++ input)) ([] : List Char).length .readOutside := .leave rfl
  exact ends_blanks h hfront

/-- A string is white space, or has a last character that is none. -/
theorem blank_or_exists (input : List Char) :
    (∀ c ∈ input, isspace c = true) ∨ ∃ front c blanks, input = front ++ [c] ++ blanks ∧
      isspace c = false ∧ ∀ c ∈ blanks, isspace c = true := by
  induction input with
  | nil => exact .inl fun c hc => by cases hc
  | cons first input ih =>
    rcases ih with hblank | ⟨front, c, blanks, rfl, hc, hblanks⟩
    · cases hfirst : isspace first with
      | true => exact .inl (List.forall_mem_cons.2 ⟨hfirst, hblank⟩)
      | false => exact .inr ⟨[], first, input, rfl, hfirst, hblank⟩
    · exact .inr ⟨first :: front, c, blanks, rfl, hc, hblanks⟩

/-- What is left has all that is no white space, and nothing after it. -/
theorem longestStripped {front blanks : List Char} {c : Char} (hc : isspace c = false)
    (hblanks : ∀ c ∈ blanks, isspace c = true) :
    LongestStripped (front ++ [c] ++ blanks) (front ++ [c]) := by
  refine ⟨List.prefix_append _ _, ?_, ?_⟩
  · intro c' hc'
    rw [List.getLast?_concat] at hc'
    rw [← Option.some.inj hc']
    exact hc
  · intro text hprefix hstripped
    by_contra hlength
    -- a longer prefix ends in a blank
    obtain ⟨more, rfl⟩ := List.prefix_of_prefix_length_le (List.prefix_append _ _) hprefix
      (not_le.1 hlength).le
    obtain ⟨rest, hrest⟩ := hprefix
    rw [List.append_assoc, List.append_cancel_left_eq] at hrest
    rcases List.eq_nil_or_concat more with rfl | ⟨more, last, rfl⟩
    · exact hlength (by rw [List.append_nil])
    · rw [List.concat_eq_append] at hrest hstripped
      have hlast : last ∈ blanks := by
        rw [← hrest]
        simp
      have hblank := hstripped last (by rw [← List.append_assoc, List.getLast?_concat]; rfl)
      rw [hblanks last hlast] at hblank
      cases hblank

/-- Both copies: within the string, the loop ends in the longest stripped prefix. -/
def Exact (rstrip : List Char → Outcome → Prop) (input : List Char) : Prop :=
  ∃ text, rstrip input (.returned text) ∧ LongestStripped input text

theorem exact_iff (input : List Char) :
    Exact (fun input => Ends (turn input) input.length) input ↔
      ∃ c ∈ input, isspace c = false := by
  constructor
  · rintro ⟨text, hends, -⟩
    by_contra hnone
    have hblank : ∀ c ∈ input, isspace c = true := by
      intro c hc
      by_contra hspace
      exact hnone ⟨c, hc, Bool.eq_false_iff.2 hspace⟩
    cases hends.unique (ends_readOutside hblank)
  · rintro ⟨c, hc, hspace⟩
    rcases blank_or_exists input with hblank | ⟨front, last, blanks, rfl, hlast, hblanks⟩
    · rw [hblank c hc] at hspace
      cases hspace
    · exact ⟨front ++ [last], ends_stripped hlast hblanks, longestStripped hlast hblanks⟩

/-- **Each copy is total and exact exactly where a character is no white space.** -/
theorem rstrip_iff (input : List Char) :
    (Exact BrightnessDaemon.Rstrip input ↔ ∃ c ∈ input, isspace c = false) ∧
      (Exact CommonUtils.Rstrip input ↔ ∃ c ∈ input, isspace c = false) :=
  ⟨exact_iff input, exact_iff input⟩

/-- The empty string has nothing to read. -/
theorem rstrip_nil : BrightnessDaemon.Rstrip [] .readOutside ∧ CommonUtils.Rstrip [] .readOutside ∧
    ¬Exact BrightnessDaemon.Rstrip [] ∧ ¬Exact CommonUtils.Rstrip [] := by
  have houtside : Ends (turn []) 0 .readOutside := .leave rfl
  refine ⟨houtside, houtside, ?_, ?_⟩
  · rintro ⟨text, hends, -⟩
    cases hends.unique houtside
  · rintro ⟨text, hends, -⟩
    cases hends.unique houtside

end Rstrip
end TjTools
