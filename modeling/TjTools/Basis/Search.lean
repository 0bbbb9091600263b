/-
# The first occurrence of a pattern

`OccursAt pattern text p` says that `pattern` stands at position `p` of `text`.  `search`
gives the least such position, or `none` where there is no occurrence at all
(`search_eq_some_iff`, `search_eq_none_iff`).  What occurs in a part of a text occurs in
the text: in its end (`occursAt_drop`) and in a window of it (`occursAt_window`).
-/

import Mathlib.Data.List.Infix
import Mathlib.Order.Bounds.Basic

namespace TjTools
namespace Search

variable {α : Type*}

/-- `pattern` stands at position `p` of `text`. -/
def OccursAt (pattern text : List α) (p : ℕ) : Prop :=
  p + pattern.length ≤ text.length ∧ pattern <+: text.drop p

instance [DecidableEq α] (pattern text : List α) (p : ℕ) : Decidable (OccursAt pattern text p) :=
  inferInstanceAs (Decidable (_ ∧ _))

/-- The first position at which `pattern` stands in `text`. -/
def search [BEq α] (pattern text : List α) : Option ℕ := text.tails.findIdx? pattern.isPrefixOf

theorem occursAt_iff_isPrefix {pattern text : List α} {p : ℕ} (hp : p ≤ text.length) :
    OccursAt pattern text p ↔ pattern <+: text.drop p := by
  refine and_iff_right_of_imp ?_
  intro hprefix
  have hle := hprefix.length_le
  rw [List.length_drop] at hle
  omega

/-- Comparing as many elements as the pattern has. -/
theorem take_drop_eq_iff {pattern text : List α} {p : ℕ} (h : p + pattern.length ≤ text.length) :
    (text.drop p).take pattern.length = pattern ↔ OccursAt pattern text p := by
  rw [occursAt_iff_isPrefix (by omega), List.prefix_iff_eq_take, eq_comm]

theorem occursAt_drop {pattern text : List α} {first p : ℕ} (h : first ≤ text.length) :
    OccursAt pattern (text.drop first) p ↔ OccursAt pattern text (first + p) := by
  unfold OccursAt
  rw [List.drop_drop, List.length_drop]
  refine and_congr_left fun _ => ?_
  omega

/-- What lies inside a window of the text is seen through the window. -/
theorem occursAt_window {pattern text : List α} {p size o : ℕ} (h : p + size ≤ text.length)
    (ho : o + pattern.length ≤ size) :
    OccursAt pattern ((text.drop p).take size) o ↔ OccursAt pattern text (p + o) := by
  have hlength : ((text.drop p).take size).length = size := by
    rw [List.length_take, List.length_drop]
    omega
  rw [← take_drop_eq_iff (by omega), ← take_drop_eq_iff (by omega), List.drop_take, List.take_take,
    List.drop_drop, min_eq_left (by omega)]

variable [BEq α] [LawfulBEq α] {pattern text : List α}

theorem search_eq_none_iff : search pattern text = none ↔ ∀ p, ¬OccursAt pattern text p := by
  rw [search, List.findIdx?_eq_none_iff]
  constructor
  · intro h p hp
    have hfalse := h (text.drop p) ((List.mem_tails _ _).2 (List.drop_suffix p text))
    rw [List.isPrefixOf_iff_prefix.2 hp.2] at hfalse
    cases hfalse
  · intro h rest hrest
    obtain ⟨front, rfl⟩ := (List.mem_tails _ _).1 hrest
    rw [Bool.eq_false_iff, ne_eq, List.isPrefixOf_iff_prefix]
    intro hprefix
    refine h front.length ((occursAt_iff_isPrefix (by simp)).2 ?_)
    rwa [List.drop_left]

/-- **The search gives the least position of the pattern.** -/
theorem search_eq_some_iff {p : ℕ} :
    search pattern text = some p ↔ IsLeast {p | OccursAt pattern text p} p := by
  have hoccurs : ∀ j (hj : j < text.tails.length),
      pattern.isPrefixOf text.tails[j] = true ↔ OccursAt pattern text j := by
    intro j hj
    rw [List.length_tails] at hj
    rw [List.getElem_tails, List.isPrefixOf_iff_prefix, occursAt_iff_isPrefix (by omega)]
  rw [search, List.findIdx?_eq_some_iff_getElem]
  constructor
  · rintro ⟨hp, hprefix, hfirst⟩
    refine ⟨(hoccurs p hp).1 hprefix, ?_⟩
    intro q hq
    by_contra hlt
    have hqp : q < p := Nat.lt_of_not_le hlt
    exact hfirst q hqp ((hoccurs q (hqp.trans hp)).2 hq)
  · rintro ⟨hp, hleast⟩
    have hlt : p < text.tails.length := by
      rw [List.length_tails]
      have := hp.1
      omega
    refine ⟨hlt, (hoccurs p hlt).2 hp, ?_⟩
    intro q hq hprefix
    have := hleast ((hoccurs q (hq.trans hlt)).1 hprefix)
    omega

end Search
end TjTools
