/-
# A lock that one party holds at a time

Parties that are inside or outside, and the holder of a lock.  `Guards` says that the
lock guards the inside: who is inside holds it, and the other way round.  Then two
parties are never inside together (`Guards.exclusive`), and the rules say what a party
may do: change in any way that leaves it inside or outside as it was (`Guards.keep`),
enter with a lock that was free (`Guards.acquire`), and leave, which frees the lock if
it was the holder (`Guards.leave`).
-/

import Mathlib.Logic.Function.Basic
import Mathlib.Tactic.SplitIfs

namespace TjTools

variable {ι : Type*} {holder : Option ι} {inside inside' : ι → Prop} {who : ι}

/-- The parties inside are those that hold the lock. -/
def Guards (holder : Option ι) (inside : ι → Prop) : Prop := ∀ w, inside w ↔ holder = some w

namespace Guards

theorem exclusive (h : Guards holder inside) {v w : ι} (hv : inside v) (hw : inside w) :
    v = w := by
  have hsame := ((h v).1 hv).symm.trans ((h w).1 hw)
  exact Option.some.inj hsame

theorem keep (h : Guards holder inside) (hwho : inside' who ↔ inside who)
    (hothers : ∀ w, w ≠ who → (inside' w ↔ inside w)) : Guards holder inside' := by
  intro w
  by_cases hw : w = who
  · rw [hw, hwho]
    exact h who
  · rw [hothers w hw]
    exact h w

theorem acquire (h : Guards none inside) (hwho : inside' who)
    (hothers : ∀ w, w ≠ who → (inside' w ↔ inside w)) : Guards (some who) inside' := by
  intro w
  by_cases hw : w = who
  · simp [hw, hwho]
  · rw [hothers w hw, h w]
    simp [Ne.symm hw]

theorem leave [DecidableEq ι] (h : Guards holder inside) (hwho : ¬inside' who)
    (hothers : ∀ w, w ≠ who → (inside' w ↔ inside w)) :
    Guards (if holder = some who then none else holder) inside' := by
  intro w
  by_cases hw : w = who
  · rw [hw]
    split_ifs with hheld
    · simp [hwho]
    · simp [hwho, hheld]
  · rw [hothers w hw, h w]
    split_ifs with hheld
    · simp [hheld, Ne.symm hw]
    · rfl

end Guards
end TjTools
