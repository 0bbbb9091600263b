/-
# Loops without a bound

`while (true)` over a state: a turn of the loop ends in another state, or leaves the loop
with a value.  `Ends` is the relation of the runs that leave it, `iterate` runs a bounded
number of turns, and the two agree (`ends_iff`).  A loop leaves with one value at most
(`Ends.unique`).

The rule for total correctness takes an invariant that every turn keeps and a measure that
every turn makes smaller: from the invariant the loop leaves, and what it leaves with is
what the turns that leave from the invariant leave with (`ends_of_measure`).
-/

import Mathlib.Data.Nat.Notation

namespace TjTools
namespace Loop

universe u v

/-- How a turn of a loop ends. -/
inductive Turn (σ : Type u) (β : Type v) where
  | again (s : σ)
  | leave (b : β)

variable {σ : Type u} {β : Type v} {turn : σ → Turn σ β}

/-- The loop that begins in `s` leaves with `b`. -/
inductive Ends (turn : σ → Turn σ β) : σ → β → Prop
  | leave {s : σ} {b : β} : turn s = .leave b → Ends turn s b
  | again {s s' : σ} {b : β} : turn s = .again s' → Ends turn s' b → Ends turn s b

/-- What the loop leaves with, if it does so in at most `n` turns. -/
def iterate (turn : σ → Turn σ β) : ℕ → σ → Option β
  | 0, _ => none
  | n + 1, s =>
    match turn s with
    | .again s' => iterate turn n s'
    | .leave b => some b

theorem iterate_again {s s' : σ} (h : turn s = .again s') (n : ℕ) :
    iterate turn (n + 1) s = iterate turn n s' := by
  rw [iterate, h]

theorem iterate_leave {s : σ} {b : β} (h : turn s = .leave b) (n : ℕ) :
    iterate turn (n + 1) s = some b := by
  rw [iterate, h]

/-- **The runs of a loop are those that enough turns bring to an end.** -/
theorem ends_iff {s : σ} {b : β} : Ends turn s b ↔ ∃ n, iterate turn n s = some b := by
  constructor
  · intro h
    induction h with
    | leave hturn => exact ⟨1, iterate_leave hturn 0⟩
    | again hturn _ ih =>
      obtain ⟨n, hn⟩ := ih
      exact ⟨n + 1, (iterate_again hturn n).trans hn⟩
  · rintro ⟨n, hn⟩
    induction n generalizing s with
    | zero => cases hn
    | succ n ih =>
      cases hturn : turn s with
      | again s' =>
        rw [iterate_again hturn] at hn
        exact .again hturn (ih hn)
      | leave b' =>
        rw [iterate_leave hturn] at hn
        cases hn
        exact .leave hturn

theorem Ends.unique {s : σ} {b b' : β} (h : Ends turn s b) (h' : Ends turn s b') : b = b' := by
  induction h with
  | leave hturn =>
    cases h' with
    | leave hturn' => exact Turn.leave.inj (hturn.symm.trans hturn')
    | again hturn' _ => cases hturn.symm.trans hturn'
  | again hturn _ ih =>
    cases h' with
    | leave hturn' => cases hturn.symm.trans hturn'
    | again hturn' h' =>
      obtain rfl := Turn.again.inj (hturn.symm.trans hturn')
      exact ih h'

/-- **Total correctness.** -/
theorem ends_of_measure (Inv : σ → Prop) (Post : β → Prop) (measure : σ → ℕ)
    (hagain : ∀ s s', Inv s → turn s = .again s' → Inv s' ∧ measure s' < measure s)
    (hleave : ∀ s b, Inv s → turn s = .leave b → Post b) {s : σ} (hs : Inv s) :
    ∃ b, Ends turn s b ∧ Post b := by
  induction hn : measure s using Nat.strongRecOn generalizing s with
  | ind n ih =>
    cases hturn : turn s with
    | leave b => exact ⟨b, .leave hturn, hleave s b hs hturn⟩
    | again s' =>
      obtain ⟨hs', hlt⟩ := hagain s s' hs hturn
      rw [hn] at hlt
      obtain ⟨b, hends, hpost⟩ := ih (measure s') hlt hs' rfl
      exact ⟨b, .again hturn hends, hpost⟩

/-- **A loop that cannot get out of an invariant does not leave.** -/
theorem not_ends_of_inv (Inv : σ → Prop)
    (hagain : ∀ s, Inv s → ∃ s', turn s = .again s' ∧ Inv s') {s : σ} (hs : Inv s) (b : β) :
    ¬Ends turn s b := by
  intro hends
  induction hends with
  | leave hturn =>
    obtain ⟨s', hturn', -⟩ := hagain _ hs
    cases hturn.symm.trans hturn'
  | again hturn _ ih =>
    obtain ⟨s', hturn', hs'⟩ := hagain _ hs
    obtain rfl := Turn.again.inj (hturn.symm.trans hturn')
    exact ih hs'

/-- A loop that goes through a list by its index, and makes its result of what each entry gives. -/
theorem ends_forEach {α γ : Type*} (xs : List α) (emit : α → List γ)
    {turn : ℕ × List γ → Turn (ℕ × List γ) (List γ)}
    (hagain : ∀ i out, (h : i < xs.length) → turn (i, out) = .again (i + 1, out ++ emit xs[i]))
    (hleave : ∀ out, turn (xs.length, out) = .leave out) :
    Ends turn (0, []) (xs.flatMap emit) := by
  have hfrom : ∀ n i, i + n = xs.length →
      Ends turn (i, (xs.take i).flatMap emit) (xs.flatMap emit) := by
    intro n
    induction n with
    | zero =>
      intro i hi
      obtain rfl : i = xs.length := hi
      rw [List.take_length]
      exact .leave (hleave _)
    | succ n ih =>
      intro i hi
      have hlt : i < xs.length := by omega
      have hrest := ih (i + 1) (by omega)
      rw [List.take_succ_eq_append_getElem hlt, List.flatMap_append] at hrest
      refine .again (hagain i _ hlt) ?_
      simpa using hrest
  exact hfrom xs.length 0 (Nat.zero_add _)

end Loop
end TjTools
