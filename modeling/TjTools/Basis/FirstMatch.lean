/-
# Rules of which the first that answers counts

A rule answers a question or leaves it to the rules after it.  `firstMatch` asks a list of
rules in order.  Where no two rules answer a question differently, an answer is given if and
only if some rule alone gives it (`firstMatch_eq_some_iff`); and that is the case for exactly
the questions on which the order of the rules does not matter (`firstMatch_perm_iff`).
-/

import Mathlib.Data.List.Perm.Basic

namespace TjTools
namespace FirstMatch

variable {α β : Type*}

/-- What the first rule that answers says. -/
def firstMatch (rules : List (α → Option β)) (a : α) : Option β :=
  rules.findSome? fun rule => rule a

/-- No two rules answer differently. -/
def Agree (rules : List (α → Option β)) (a : α) : Prop :=
  ∀ rule ∈ rules, ∀ rule' ∈ rules, ∀ x y, rule a = some x → rule' a = some y → x = y

variable {rules : List (α → Option β)} {a : α}

theorem exists_of_firstMatch {b : β} (h : firstMatch rules a = some b) :
    ∃ rule ∈ rules, rule a = some b :=
  List.exists_of_findSome?_eq_some h

theorem firstMatch_eq_some_iff (h : Agree rules a) (b : β) :
    firstMatch rules a = some b ↔ ∃ rule ∈ rules, rule a = some b := by
  constructor
  · exact exists_of_firstMatch
  · rintro ⟨rule, hrule, hb⟩
    cases hfirst : firstMatch rules a with
    | none =>
      have hnone := List.findSome?_eq_none_iff.1 hfirst rule hrule
      rw [hb] at hnone
      cases hnone
    | some c =>
      obtain ⟨rule', hrule', hc⟩ := exists_of_firstMatch hfirst
      rw [h rule' hrule' rule hrule c b hc hb]

/-- Rules after an answer are not asked. -/
theorem firstMatch_append {b : β} (h : firstMatch rules a = some b)
    (later : List (α → Option β)) : firstMatch (rules ++ later) a = some b := by
  rw [firstMatch, List.findSome?_append, show rules.findSome? (fun rule => rule a) = _ from h,
    Option.some_or]

/-- A rule put first decides what it answers. -/
theorem exists_perm_firstMatch {rule : α → Option β} (hrule : rule ∈ rules) {b : β}
    (hb : rule a = some b) : ∃ order, order.Perm rules ∧ firstMatch order a = some b := by
  obtain ⟨before, after, rfl⟩ := List.append_of_mem hrule
  refine ⟨rule :: (before ++ after), List.perm_middle.symm, ?_⟩
  rw [firstMatch, List.findSome?_cons, hb]

/-- **The order does not matter exactly where the rules agree.** -/
theorem firstMatch_perm_iff :
    (∀ order, order.Perm rules → firstMatch order a = firstMatch rules a) ↔ Agree rules a := by
  constructor
  · intro h rule hrule rule' hrule' x y hx hy
    obtain ⟨order, hperm, hfirst⟩ := exists_perm_firstMatch hrule hx
    obtain ⟨order', hperm', hfirst'⟩ := exists_perm_firstMatch hrule' hy
    have hsame := (h order hperm).trans (h order' hperm').symm
    rw [hfirst, hfirst'] at hsame
    exact Option.some.inj hsame
  · intro h order hperm
    have horder : Agree order a := fun rule hrule rule' hrule' =>
      h rule (hperm.mem_iff.1 hrule) rule' (hperm.mem_iff.1 hrule')
    apply Option.ext
    intro b
    rw [firstMatch_eq_some_iff horder, firstMatch_eq_some_iff h]
    exact exists_congr fun rule => and_congr_left fun _ => hperm.mem_iff

end FirstMatch
end TjTools
