/-
# Trials

A sequence of trials `p`, of which number `i` succeeds or not, and loops that make one a turn.

`first p n` is the first success among `n` trials, and a loop that gives up after `n` failures
ends with it (`ends_first`).  `streak p n` counts the successes in a row up to number `n`, the
count a loop keeps that starts again at every failure (`le_streak_iff`); such a loop leaves at
the first place where the last `k` trials all succeeded, and at no other
(`ends_streak_iff`).
-/

import Mathlib.Data.Nat.Find
import Mathlib.Order.Bounds.Basic
import TjTools.Basis.Loop

namespace TjTools
namespace Polling

open Loop

variable {σ β : Type*} {turn : σ → Turn σ β} {p : ℕ → Bool}

/-! ### The first success -/

/-- The first success among the trials below `n`. -/
def first (p : ℕ → Bool) (n : ℕ) : Option ℕ := (List.range n).find? p

theorem first_eq_some_iff {n i : ℕ} :
    first p n = some i ↔ i < n ∧ p i = true ∧ ∀ j < i, p j = false := by
  rw [first, List.find?_range_eq_some]
  simp only [List.mem_range, Bool.not_eq_true']
  exact and_left_comm

theorem first_eq_none_iff {n : ℕ} : first p n = none ↔ ∀ i < n, p i = false := by
  simp [first]

/-- A loop that goes on before turn `n` and ends from there. -/
theorem ends_of_again {state : ℕ → σ} {b : β} {n : ℕ}
    (hagain : ∀ i < n, turn (state i) = .again (state (i + 1))) (hn : Ends turn (state n) b) :
    Ends turn (state 0) b := by
  induction n with
  | zero => exact hn
  | succ n ih =>
    have hlast := hagain n (Nat.lt_succ_self n)
    exact ih (fun i hi => hagain i (Nat.lt_succ_of_lt hi)) (.again hlast hn)

/-- **A loop that gives up after `n` failures** ends with the first success among `n` trials. -/
theorem ends_first {state : ℕ → σ} {found : ℕ → β} {failed : β} {n : ℕ} (hn : 0 < n)
    (hfound : ∀ i < n, p i = true → Ends turn (state i) (found i))
    (hagain : ∀ i, i + 1 < n → p i = false → turn (state i) = .again (state (i + 1)))
    (hfailed : ∀ i, i + 1 = n → p i = false → Ends turn (state i) failed) :
    Ends turn (state 0) ((first p n).elim failed found) := by
  cases hfirst : first p n with
  | some i =>
    obtain ⟨hi, hp, hbefore⟩ := first_eq_some_iff.1 hfirst
    exact ends_of_again (fun j hj => hagain j (by omega) (hbefore j hj)) (hfound i hi hp)
  | none =>
    have hnone := first_eq_none_iff.1 hfirst
    have hlast := hfailed (n - 1) (by omega) (hnone (n - 1) (by omega))
    exact ends_of_again (fun j hj => hagain j (by omega) (hnone j (by omega))) hlast

/-! ### Successes in a row -/

/-- How many of the trials below `n` succeeded since the last failure. -/
def streak (p : ℕ → Bool) : ℕ → ℕ
  | 0 => 0
  | n + 1 => if p n then streak p n + 1 else 0

/-- **At least `k` in a row**: the last `k` trials succeeded. -/
theorem le_streak_iff {k n : ℕ} :
    k ≤ streak p n ↔ k ≤ n ∧ ∀ i, n - k ≤ i → i < n → p i = true := by
  induction n generalizing k with
  | zero =>
    rw [streak]
    exact (and_iff_left fun i _ hi => absurd hi (Nat.not_lt_zero i)).symm
  | succ n ih =>
    rcases Nat.eq_zero_or_pos k with rfl | hk
    · exact iff_of_true (Nat.zero_le _) ⟨Nat.zero_le _, fun i hle hlt => absurd hlt (by omega)⟩
    obtain ⟨k, rfl⟩ := Nat.exists_eq_succ_of_ne_zero (Nat.pos_iff_ne_zero.1 hk)
    rw [streak]
    cases hp : p n with
    | false =>
      refine iff_of_false (by simp) ?_
      rintro ⟨hle, hall⟩
      have hlast := hall n (by omega) (Nat.lt_succ_self n)
      rw [hp] at hlast
      cases hlast
    | true =>
      rw [if_pos rfl, Nat.succ_le_succ_iff, ih, Nat.succ_le_succ_iff]
      refine and_congr_right fun _ => ?_
      constructor
      · intro hall i hle hlt
        rcases Nat.lt_succ_iff_lt_or_eq.1 hlt with hlt | rfl
        · exact hall i (by omega) hlt
        · exact hp
      · intro hall i hle hlt
        exact hall i (by omega) (by omega)

theorem streak_succ_le (p : ℕ → Bool) (n : ℕ) : streak p (n + 1) ≤ streak p n + 1 := by
  rw [streak]
  split_ifs
  · exact Nat.le_refl _
  · exact Nat.zero_le _

/-- The count does not skip a number: where it is first as large as `k`, it is `k`. -/
theorem streak_eq_of_isLeast {k n : ℕ} (hk : 0 < k) (h : IsLeast {m | k ≤ streak p m} n) :
    streak p n = k := by
  obtain ⟨hle, hleast⟩ := h
  cases n with
  | zero =>
    have hzero : k ≤ 0 := hle
    omega
  | succ n =>
    have hbefore : streak p n < k := by
      by_contra hge
      have := hleast (Nat.le_of_not_lt hge)
      omega
    have hnext := streak_succ_le p n
    have hle : k ≤ streak p (n + 1) := hle
    omega

theorem exists_isLeast {P : ℕ → Prop} [DecidablePred P] (h : ∃ m, P m) :
    ∃ n, IsLeast {m | P m} n :=
  ⟨Nat.find h, Nat.find_spec h, fun _ hm => Nat.find_min' h hm⟩

/-- The count is `k` first where it is first as large as `k`. -/
theorem isLeast_streak_iff {k n : ℕ} (hk : 0 < k) :
    IsLeast {m | streak p m = k} n ↔ IsLeast {m | k ≤ streak p m} n := by
  constructor
  · rintro ⟨heq, hleast⟩
    refine ⟨Nat.le_of_eq (Eq.symm heq), fun m hm => ?_⟩
    -- the first place with a count of `k` or more has a count of `k`
    obtain ⟨n', hfirst⟩ := exists_isLeast ⟨m, hm⟩
    exact (hleast (streak_eq_of_isLeast hk hfirst)).trans (hfirst.2 hm)
  · intro h
    exact ⟨streak_eq_of_isLeast hk h, fun m hm => h.2 (Nat.le_of_eq (Eq.symm hm))⟩

/-- **A loop that counts successes in a row** and leaves at `k` of them. -/
theorem ends_streak_iff {state : ℕ → σ} {found : ℕ → β} {k : ℕ} (hk : 0 < k)
    (hleave : ∀ i, streak p (i + 1) = k → turn (state i) = .leave (found (i + 1)))
    (hagain : ∀ i, streak p (i + 1) ≠ k → turn (state i) = .again (state (i + 1))) {b : β} :
    Ends turn (state 0) b ↔ ∃ n, IsLeast {m | streak p m = k} n ∧ b = found n := by
  have hends : ∀ n, IsLeast {m | streak p m = k} n → Ends turn (state 0) (found n) := by
    rintro n ⟨hcount, hleast⟩
    obtain ⟨n, rfl⟩ : ∃ m, n = m + 1 := by
      refine Nat.exists_eq_succ_of_ne_zero ?_
      rintro rfl
      exact Nat.ne_of_lt hk hcount
    refine ends_of_again (fun i hi => hagain i fun heq => ?_) (.leave (hleave n hcount))
    exact absurd (hleast heq) (by omega)
  constructor
  · intro h
    by_cases hsome : ∃ m, streak p m = k
    · obtain ⟨n, hleast⟩ := exists_isLeast hsome
      exact ⟨n, hleast, h.unique (hends n hleast)⟩
    · -- without `k` in a row the loop does not leave
      refine absurd h (not_ends_of_inv (fun s => ∃ i, s = state i) ?_ ⟨0, rfl⟩ b)
      rintro s ⟨i, rfl⟩
      exact ⟨state (i + 1), hagain i fun heq => hsome ⟨i + 1, heq⟩, i + 1, rfl⟩
  · rintro ⟨n, hleast, rfl⟩
    exact hends n hleast

end Polling
end TjTools
