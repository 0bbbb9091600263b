/-
# Lines that match

What `grep` finds of a fixed text, line by line.  `occurrences` are the places at which a pattern
stands in a line, none inside another; `firstLine` are those of the first line that has any, with
their offsets in the whole text (`grep --max-count 1 --only-matching --byte-offset`).

A pattern without a newline occurs in a text where it occurs in one of its lines.  So what is found
first is the first occurrence in the whole text, and nothing else is found exactly if every
further occurrence is on a later line (`firstLine_cases`).
-/

import Mathlib.Data.List.TakeWhile
import TjTools.Basis.Search

namespace TjTools
namespace Grep

open Search

variable {α : Type*} [BEq α]

/-- The places at which a pattern stands from `offset` on, where the first `skip` elements belong
to the one found before. -/
def occurrences (pattern : List α) : ℕ → ℕ → List α → List ℕ
  | _, _, [] => []
  | skip + 1, offset, _ :: text => occurrences pattern skip (offset + 1) text
  | 0, offset, a :: text =>
    if pattern.isPrefixOf (a :: text) then
      offset :: occurrences pattern (pattern.length - 1) (offset + 1) text
    else occurrences pattern 0 (offset + 1) text

/-- Those of the first line that has any, where the first line begins at `offset`. -/
def firstLineFrom (pattern : List α) : ℕ → List (List α) → List ℕ
  | _, [] => []
  | offset, line :: lines =>
    match occurrences pattern 0 offset line with
    | [] => firstLineFrom pattern (offset + line.length + 1) lines
    | found => found

/-- `grep --max-count 1 --only-matching --byte-offset` -/
def firstLine (newline : α) (pattern text : List α) : List ℕ :=
  firstLineFrom pattern 0 (text.splitOn newline)

/-! ### One line -/

theorem occurrences_skip (pattern : List α) (skip offset : ℕ) (text : List α) :
    occurrences pattern skip offset text
      = occurrences pattern 0 (offset + skip) (text.drop skip) := by
  induction skip generalizing offset text with
  | zero => rfl
  | succ skip ih =>
    cases text with
    | nil => rfl
    | cons a text =>
      rw [occurrences, ih, List.drop_succ_cons, Nat.add_right_comm, Nat.add_assoc]

omit [BEq α] in
theorem occursAt_cons_succ {pattern text : List α} {a : α} {p : ℕ} :
    OccursAt pattern (a :: text) (p + 1) ↔ OccursAt pattern text p := by
  rw [OccursAt, OccursAt, List.length_cons, List.drop_succ_cons]
  refine and_congr_left fun _ => ?_
  omega

omit [BEq α] in
theorem occursAt_zero {pattern text : List α} : OccursAt pattern text 0 ↔ pattern <+: text :=
  occursAt_iff_isPrefix (Nat.zero_le _)

omit [BEq α] in
theorem not_occursAt_nil {pattern : List α} (hpattern : pattern ≠ []) (p : ℕ) :
    ¬OccursAt pattern [] p := by
  intro h
  have hle := h.1
  rw [List.length_nil] at hle
  exact hpattern (List.length_eq_zero_iff.1 (by omega))

omit [BEq α] in
/-- Where a pattern does not begin, it occurs behind the first element or not at all. -/
theorem not_occursAt_cons_iff {pattern text : List α} {a : α} (hpre : ¬pattern <+: a :: text) :
    (∀ p, ¬OccursAt pattern (a :: text) p) ↔ ∀ p, ¬OccursAt pattern text p := by
  constructor
  · exact fun h p hp => h (p + 1) (occursAt_cons_succ.2 hp)
  · intro h p
    cases p with
    | zero => exact fun hzero => hpre (occursAt_zero.1 hzero)
    | succ p => exact fun hp => h p (occursAt_cons_succ.1 hp)

omit [BEq α] in
/-- The rest of the line is what comes after the occurrence. -/
theorem occursAt_rest {pattern text : List α} {a : α} (hpattern : pattern ≠ [])
    (hpre : pattern <+: a :: text) (q : ℕ) :
    OccursAt pattern (text.drop (pattern.length - 1)) q ↔
      OccursAt pattern (a :: text) (pattern.length + q) := by
  have hlength : 0 < pattern.length := List.length_pos_iff.2 hpattern
  have hle : pattern.length - 1 ≤ text.length := by
    have := hpre.length_le
    rw [List.length_cons] at this
    omega
  have heq : pattern.length - 1 + q + 1 = pattern.length + q := by omega
  rw [occursAt_drop hle, ← occursAt_cons_succ (a := a), heq]

variable [LawfulBEq α] {pattern : List α}

theorem occurrences_eq_nil_iff (hpattern : pattern ≠ []) (offset : ℕ) (text : List α) :
    occurrences pattern 0 offset text = [] ↔ ∀ p, ¬OccursAt pattern text p := by
  induction text generalizing offset with
  | nil => exact iff_of_true rfl (not_occursAt_nil hpattern)
  | cons a text ih =>
    rw [occurrences]
    by_cases hpre : pattern <+: a :: text
    · rw [if_pos (List.isPrefixOf_iff_prefix.2 hpre)]
      exact iff_of_false (List.cons_ne_nil _ _) fun h => h 0 (occursAt_zero.2 hpre)
    · rw [if_neg (fun h => hpre (List.isPrefixOf_iff_prefix.1 h)), ih,
        not_occursAt_cons_iff hpre]

/-- **One line.**  What is found first is the first occurrence, and nothing else is found if there
is none after it. -/
theorem occurrences_cases (hpattern : pattern ≠ []) (offset : ℕ) (text : List α) :
    (occurrences pattern 0 offset text = [] ∧ ∀ p, ¬OccursAt pattern text p) ∨
      ∃ p more, occurrences pattern 0 offset text = (offset + p) :: more ∧
        IsLeast {p | OccursAt pattern text p} p ∧
        (more = [] ↔ ∀ q, p + pattern.length ≤ q → ¬OccursAt pattern text q) := by
  induction text generalizing offset with
  | nil => exact .inl ⟨rfl, not_occursAt_nil hpattern⟩
  | cons a text ih =>
    by_cases hpre : pattern <+: a :: text
    · refine .inr ⟨0, occurrences pattern (pattern.length - 1) (offset + 1) text, ?_,
        ⟨occursAt_zero.2 hpre, fun p _ => Nat.zero_le p⟩, ?_⟩
      · rw [occurrences, if_pos (List.isPrefixOf_iff_prefix.2 hpre)]
        rfl
      · rw [occurrences_skip, occurrences_eq_nil_iff hpattern, Nat.zero_add]
        simp only [occursAt_rest hpattern hpre]
        constructor
        · intro h q hq
          obtain ⟨r, rfl⟩ := Nat.exists_eq_add_of_le hq
          exact h r
        · exact fun h r => h _ (Nat.le_add_right _ _)
    · rw [occurrences, if_neg (fun h => hpre (List.isPrefixOf_iff_prefix.1 h))]
      have hzero : ¬OccursAt pattern (a :: text) 0 := fun h => hpre (occursAt_zero.1 h)
      rcases ih (offset + 1) with ⟨hnil, hnone⟩ | ⟨p, more, hfound, ⟨hp, hleast⟩, hmore⟩
      · exact .inl ⟨hnil, (not_occursAt_cons_iff hpre).2 hnone⟩
      · refine .inr ⟨p + 1, more, ?_, ⟨occursAt_cons_succ.2 hp, fun q hq => ?_⟩, ?_⟩
        · rw [hfound, Nat.add_assoc, Nat.add_comm 1 p]
        · cases q with
          | zero => exact absurd hq hzero
          | succ q => exact Nat.succ_le_succ (hleast (occursAt_cons_succ.1 hq))
        · rw [hmore]
          constructor
          · intro h q hq hoccurs
            cases q with
            | zero => exact hzero hoccurs
            | succ q => exact h q (by omega) (occursAt_cons_succ.1 hoccurs)
          · exact fun h q hq hoccurs => h (q + 1) (by omega) (occursAt_cons_succ.2 hoccurs)

/-! ### The whole text -/

omit [BEq α] [LawfulBEq α] in
/-- The text after the first line. -/
theorem drop_line (newline : α) (line rest : List α) :
    (line ++ newline :: rest).drop (line.length + 1) = rest := by
  rw [List.drop_append, Nat.add_sub_cancel_left, List.drop_of_length_le (Nat.le_succ _)]
  rfl

omit [BEq α] [LawfulBEq α] in
/-- A pattern that begins in the first line and ends after it reaches over the newline. -/
theorem newline_mem_of_occursAt {newline : α} {line rest : List α} {p : ℕ}
    (h : OccursAt pattern (line ++ newline :: rest) p) (hp : p ≤ line.length)
    (hlt : line.length < p + pattern.length) : newline ∈ pattern := by
  obtain ⟨after, hcut⟩ := h.2
  rw [List.drop_append_of_le_length hp, List.append_eq_append_iff] at hcut
  rcases hcut with ⟨as, hshort, -⟩ | ⟨as, hlong, hnext⟩
  · have hlengths := congrArg List.length hshort
    rw [List.length_drop, List.length_append] at hlengths
    omega
  · cases as with
    | nil =>
      have hlengths := congrArg List.length hlong
      rw [List.append_nil, List.length_drop] at hlengths
      omega
    | cons a as =>
      obtain ⟨rfl, -⟩ := List.cons.inj hnext
      rw [hlong]
      simp

omit [BEq α] [LawfulBEq α] in
/-- A pattern without a newline stands in the first line, or after it. -/
theorem occursAt_line {newline : α} (hnewline : newline ∉ pattern) (line rest : List α) {p : ℕ} :
    OccursAt pattern (line ++ newline :: rest) p ↔
      OccursAt pattern line p ∨
        line.length + 1 ≤ p ∧ OccursAt pattern rest (p - (line.length + 1)) := by
  have hlength : (line ++ newline :: rest).length = line.length + 1 + rest.length := by
    rw [List.length_append, List.length_cons]
    omega
  have hline : ((line ++ newline :: rest).drop 0).take line.length = line := by
    rw [List.drop_zero, List.take_left]
  have hafter : line.length + 1 ≤ p →
      (OccursAt pattern rest (p - (line.length + 1)) ↔
        OccursAt pattern (line ++ newline :: rest) p) := by
    intro hp
    have hdrop := @occursAt_drop α pattern (line ++ newline :: rest) (line.length + 1)
      (p - (line.length + 1)) (by omega)
    rwa [drop_line, Nat.add_sub_cancel' hp] at hdrop
  have hwithin : p + pattern.length ≤ line.length →
      (OccursAt pattern line p ↔ OccursAt pattern (line ++ newline :: rest) p) := by
    intro hp
    have hwindow := @occursAt_window α pattern (line ++ newline :: rest) 0 line.length p
      (by omega) hp
    rwa [hline, Nat.zero_add] at hwindow
  constructor
  · intro h
    rcases Nat.lt_or_ge line.length (p + pattern.length) with hlt | hle
    · rcases Nat.lt_or_ge line.length p with hp | hp
      · exact .inr ⟨hp, (hafter hp).2 h⟩
      · exact absurd (newline_mem_of_occursAt h hp hlt) hnewline
    · exact .inl ((hwithin hle).2 h)
  · rintro (h | ⟨hp, h⟩)
    · exact (hwithin h.1).1 h
    · exact (hafter hp).1 h

omit [BEq α] [LawfulBEq α] in
/-- A stretch of the text after the first line. -/
theorem drop_take_line (newline : α) (line rest : List α) {p q : ℕ} (hp : line.length + 1 ≤ p) :
    ((line ++ newline :: rest).take q).drop p
      = (rest.take (q - (line.length + 1))).drop (p - (line.length + 1)) := by
  have hdrop : (line ++ newline :: rest).drop p = rest.drop (p - (line.length + 1)) := by
    conv_rhs => rw [← drop_line newline line rest, List.drop_drop, Nat.add_sub_cancel' hp]
  have hlength : q - (line.length + 1) - (p - (line.length + 1)) = q - p := by omega
  rw [List.drop_take, List.drop_take, hdrop, hlength]

/-- What the first line with an occurrence says of the text: the first occurrence at all, and
whether there is a further one before the next newline. -/
structure FirstLine (newline : α) (pattern text : List α) (p : ℕ) (more : List ℕ) : Prop where
  least : IsLeast {p | OccursAt pattern text p} p
  alone : more = [] ↔ ∀ q, p + pattern.length ≤ q → OccursAt pattern text q →
    newline ∈ (text.take q).drop p

omit [BEq α] [LawfulBEq α] in
/-- The pattern does not stand in the first line. -/
theorem FirstLine.later {newline : α} (hnewline : newline ∉ pattern) {line rest : List α}
    (hnone : ∀ q, ¬OccursAt pattern line q) {p : ℕ} {more : List ℕ}
    (h : FirstLine newline pattern rest p more) :
    FirstLine newline pattern (line ++ newline :: rest) (line.length + 1 + p) more := by
  have honly : ∀ q, OccursAt pattern (line ++ newline :: rest) q ↔
      line.length + 1 ≤ q ∧ OccursAt pattern rest (q - (line.length + 1)) := fun q =>
    (occursAt_line hnewline line rest).trans (or_iff_right (hnone q))
  have hback : ∀ q, line.length + 1 + q - (line.length + 1) = q := fun q =>
    Nat.add_sub_cancel_left _ _
  obtain ⟨⟨hp, hleast⟩, halone⟩ := h
  refine ⟨⟨?_, fun q hq => ?_⟩, halone.trans ?_⟩
  · refine (honly _).2 ⟨Nat.le_add_right _ _, ?_⟩
    rwa [hback]
  · obtain ⟨hle, hq⟩ := (honly q).1 hq
    have := hleast hq
    omega
  · constructor
    · intro h q hq hoccurs
      obtain ⟨hle, hq'⟩ := (honly q).1 hoccurs
      rw [drop_take_line newline line rest (Nat.le_add_right _ _), hback]
      exact h _ (by omega) hq'
    · intro h q hq hq'
      have hnext := h (line.length + 1 + q) (by omega)
        ((honly _).2 ⟨Nat.le_add_right _ _, by rwa [hback]⟩)
      rwa [drop_take_line newline line rest (Nat.le_add_right _ _), hback, hback] at hnext

omit [BEq α] [LawfulBEq α] in
/-- The pattern stands in the first line. -/
theorem FirstLine.here {newline : α} (hnewline : newline ∉ pattern) {line rest : List α}
    (hline : newline ∉ line) {p : ℕ} {more : List ℕ}
    (hleast : IsLeast {p | OccursAt pattern line p} p)
    (hmore : more = [] ↔ ∀ q, p + pattern.length ≤ q → ¬OccursAt pattern line q) :
    FirstLine newline pattern (line ++ newline :: rest) p more := by
  have hoccurs := @occursAt_line α pattern newline hnewline line rest
  obtain ⟨hp, hleast⟩ := hleast
  have hshort := hp.1
  refine ⟨⟨hoccurs.2 (.inl hp), fun q hq => ?_⟩, hmore.trans ?_⟩
  · rcases hoccurs.1 hq with hq | ⟨hq, -⟩
    · exact hleast hq
    · omega
  · constructor
    · -- what occurs after the first line is behind its newline
      intro h q hq hoccurs'
      rcases hoccurs.1 hoccurs' with hq' | ⟨hq', -⟩
      · exact absurd hq' (h q hq)
      · obtain ⟨k, hk⟩ := Nat.exists_eq_add_of_lt hq'
        rw [List.take_append, List.take_of_length_le (by omega),
          show q - line.length = k + 1 by omega, List.take_succ_cons,
          List.drop_append_of_le_length (by omega)]
        simp
    · intro h q hq hq'
      have hin := h q hq (hoccurs.2 (.inl hq'))
      have hle := hq'.1
      rw [List.take_append_of_le_length (by omega)] at hin
      exact hline (List.mem_of_mem_take (List.mem_of_mem_drop hin))

theorem firstLineFrom_cases {newline : α} (hpattern : pattern ≠ []) (hnewline : newline ∉ pattern)
    (offset : ℕ) (text : List α) :
    (firstLineFrom pattern offset (text.splitOn newline) = [] ∧ ∀ p, ¬OccursAt pattern text p) ∨
      ∃ p more, firstLineFrom pattern offset (text.splitOn newline) = (offset + p) :: more ∧
        FirstLine newline pattern text p more := by
  induction hn : text.length using Nat.strongRecOn generalizing offset text with
  | ind n ih =>
    by_cases hmem : newline ∈ text
    · obtain ⟨line, rest, rfl, hline⟩ := List.eq_append_cons_of_mem hmem
      rw [List.splitOn_append_cons_self_of_not_mem hline, firstLineFrom]
      rcases occurrences_cases hpattern offset line with
        ⟨hnil, hnone⟩ | ⟨p, more, hfound, hleast, hmore⟩
      · rw [hnil]
        have hshorter : rest.length < n := by
          rw [← hn, List.length_append, List.length_cons]
          omega
        rcases ih _ hshorter (offset + line.length + 1) rest rfl with
          ⟨hnil', hnone'⟩ | ⟨p, more, hfound, hfirst⟩
        · refine .inl ⟨hnil', fun q hq => ?_⟩
          rcases (occursAt_line hnewline line rest).1 hq with hq | ⟨-, hq⟩
          · exact hnone q hq
          · exact hnone' _ hq
        · refine .inr ⟨line.length + 1 + p, more, ?_, hfirst.later hnewline hnone⟩
          rw [hfound, Nat.add_assoc offset, Nat.add_assoc offset]
      · rw [hfound]
        exact .inr ⟨p, more, rfl, .here hnewline hline hleast hmore⟩
    · rw [List.splitOn_eq_singleton hmem, firstLineFrom]
      rcases occurrences_cases hpattern offset text with
        ⟨hnil, hnone⟩ | ⟨p, more, hfound, hleast, hmore⟩
      · rw [hnil]
        exact .inl ⟨rfl, hnone⟩
      · rw [hfound]
        refine .inr ⟨p, more, rfl, hleast, hmore.trans ?_⟩
        refine forall_congr' fun q => forall_congr' fun _ => imp_congr_right fun _ => ?_
        exact (iff_false_intro fun hin =>
          hmem (List.mem_of_mem_take (List.mem_of_mem_drop hin))).symm

/-- **What `grep` finds first is the first occurrence in the text**, and it finds nothing else
exactly if there is a newline before every further one. -/
theorem firstLine_cases {newline : α} (hpattern : pattern ≠ []) (hnewline : newline ∉ pattern)
    (text : List α) :
    (firstLine newline pattern text = [] ∧ ∀ p, ¬OccursAt pattern text p) ∨
      ∃ p more, firstLine newline pattern text = p :: more ∧
        FirstLine newline pattern text p more := by
  have hcases := firstLineFrom_cases hpattern hnewline 0 text
  simp only [Nat.zero_add] at hcases
  exact hcases

end Grep
end TjTools
