/-
# When the battery is critical

`BatteryContext` of `src/src/battery_watch.cpp` (lines 34-151) and the loop of `main` (lines
212-224): `poll` reads the attributes of a battery, `is_critical` decides.  A `float` is a
rational number, without rounding.

`Reads` is what a successful reading is: a full and a current charge, from the `charge_`
attributes where `charge_full` is there, from the `energy_` attributes else.  On such a
reading `poll` and `is_critical` decide as `Critical` does, whatever the object was before,
provided that the battery is not empty (`decides_reading`).  An empty one is refused like a
reading without a full charge (`poll_empty`), and no decision is made.
-/

import TjTools.Basis.Numerals
import TjTools.Basis.Triple
import Mathlib.Algebra.Order.Field.Basic
import Mathlib.Algebra.Order.Field.Rat
import Mathlib.Tactic.Linarith

namespace TjTools
namespace BatteryWatch

open Numerals

def ENODEV : ℕ := 19
def EINVAL : ℕ := 22
def ERANGE : ℕ := 34

/-- `State` -/
inductive State where
  | unknown
  | charging
  | discharging
  deriving DecidableEq, Repr

structure BatteryContext where
  state : State := .unknown
  chargeLevel : ℚ := -1
  deriving DecidableEq, Repr

/-- The exceptions are `std::system_error` with a code. -/
abbrev BatteryM := EStateM ℕ BatteryContext

/-- The attributes of a device; `none` is a null pointer. -/
abbrev Device := String → Option String

/-- `get_sysattr_value` -/
def getSysattrValue (device : Device) (sysattr : String) : String := (device sysattr).getD ""

/-- `to_unsigned`: `std::from_chars` takes the digits at the front, and nothing before
them. -/
def toUnsigned (input : String) : Except ℕ ℕ :=
  match leadingDigits input.toList with
  | none => .error EINVAL
  | some output => if output < 2 ^ 32 then .ok output else .error ERANGE

/-- The state that a status stands for. -/
def State.ofStatus (attrval : String) : State :=
  if attrval = "Charging" then .charging
  else if attrval = "Discharging" then .discharging
  else .unknown

/-- `charge_full` and `charge_now` of `poll`. -/
def charges (device : Device) : Except ℕ (ℕ × ℕ) := do
  if getSysattrValue device "charge_full" = "" then
    let chargeFull ← toUnsigned (getSysattrValue device "energy_full")
    let chargeNow ← toUnsigned (getSysattrValue device "energy_now")
    return (chargeFull, chargeNow)
  else
    let chargeFull ← toUnsigned (getSysattrValue device "charge_full")
    let chargeNow ← toUnsigned (getSysattrValue device "charge_now")
    return (chargeFull, chargeNow)

/-- `poll`, with the device of the name, if there is one. -/
def poll (device : Option Device) : BatteryM Unit := do
  match device with
  | none => throw ENODEV
  | some device =>
    modify fun c => { c with state := .ofStatus (getSysattrValue device "status") }
    match charges device with
    | .error e => throw e
    | .ok (chargeFull, chargeNow) =>
      if chargeFull = 0 ∨ chargeNow = 0 then throw EINVAL
      else modify fun c => { c with chargeLevel := chargeNow / chargeFull }

/-- `is_critical` -/
def BatteryContext.isCritical (c : BatteryContext) (treshold : ℚ) : Bool :=
  if c.chargeLevel * 100 < treshold * (1 / 2) then true
  else if c.state ≠ .discharging then false
  else c.chargeLevel * 100 < treshold

/-- A turn of the loop of `main`, up to the decision. -/
def turn (treshold : ℚ) (device : Option Device) : BatteryM Bool := do
  poll device
  let c ← get
  return c.isCritical treshold

/-! ### Readings -/

structure Reading where
  status : String
  full : ℕ
  now : ℕ

/-- A number that the `unsigned` type has, and maybe more text. -/
def IsNumber (text : String) (n : ℕ) : Prop := leadingDigits text.toList = some n ∧ n < 2 ^ 32

instance (text : String) (n : ℕ) : Decidable (IsNumber text n) :=
  inferInstanceAs (Decidable (_ ∧ _))

/-- The attributes give the reading. -/
structure Reads (device : Device) (r : Reading) : Prop where
  status : getSysattrValue device "status" = r.status
  charge : getSysattrValue device "charge_full" ≠ "" →
    IsNumber (getSysattrValue device "charge_full") r.full ∧
      IsNumber (getSysattrValue device "charge_now") r.now
  energy : getSysattrValue device "charge_full" = "" →
    IsNumber (getSysattrValue device "energy_full") r.full ∧
      IsNumber (getSysattrValue device "energy_now") r.now

/-- Less than half of the threshold is left, or less than the threshold and the battery is
not being charged. -/
def Critical (treshold : ℚ) (r : Reading) : Prop :=
  100 * (r.now : ℚ) < treshold / 2 * r.full ∨
    r.status = "Discharging" ∧ 100 * (r.now : ℚ) < treshold * r.full

instance (treshold : ℚ) (r : Reading) : Decidable (Critical treshold r) :=
  inferInstanceAs (Decidable (_ ∨ _))

/-- What is critical stays so with less charge. -/
theorem Critical.mono {treshold : ℚ} {r r' : Reading} (h : Critical treshold r)
    (hstatus : r'.status = r.status) (hfull : r'.full = r.full) (hnow : r'.now ≤ r.now) :
    Critical treshold r' := by
  have hle : (r'.now : ℚ) ≤ r.now := by exact_mod_cast hnow
  rcases h with hhalf | ⟨hdischarging, hbelow⟩
  · left
    rw [hfull]
    linarith
  · right
    refine ⟨hstatus.trans hdischarging, ?_⟩
    rw [hfull]
    linarith

theorem toUnsigned_eq_ok {input : String} {n : ℕ} (h : IsNumber input n) :
    toUnsigned input = .ok n := by
  rw [toUnsigned, h.1]
  exact if_pos h.2

theorem Reads.charges {device : Device} {r : Reading} (h : Reads device r) :
    charges device = .ok (r.full, r.now) := by
  unfold BatteryWatch.charges
  by_cases hempty : getSysattrValue device "charge_full" = ""
  · obtain ⟨hfull, hnow⟩ := h.energy hempty
    rw [if_pos hempty, toUnsigned_eq_ok hfull, toUnsigned_eq_ok hnow]
    rfl
  · obtain ⟨hfull, hnow⟩ := h.charge hempty
    rw [if_neg hempty, toUnsigned_eq_ok hfull, toUnsigned_eq_ok hnow]
    rfl

/-! ### The decision -/

/-- What `poll` leaves of a reading. -/
def Reading.context (r : Reading) : BatteryContext := ⟨.ofStatus r.status, r.now / r.full⟩

/-- **Nothing of the object before is left** after a reading of a battery with a charge. -/
theorem poll_reading {device : Device} {r : Reading} (h : Reads device r) (hfull : 0 < r.full)
    (hnow : 0 < r.now) (c : BatteryContext) : (poll (some device)).run c = .ok () r.context := by
  unfold poll
  rw [EStateM.run_bind]
  simp only [EStateM.run_modify, h.charges, h.status]
  rw [if_neg (show ¬(r.full = 0 ∨ r.now = 0) by omega)]
  rfl

/-- An empty battery is refused, after the state was set. -/
theorem poll_empty {device : Device} {r : Reading} (h : Reads device r) (hnow : r.now = 0)
    (c : BatteryContext) :
    (poll (some device)).run c = .error EINVAL { c with state := .ofStatus r.status } := by
  unfold poll
  rw [EStateM.run_bind]
  simp only [EStateM.run_modify, h.charges, h.status]
  rw [if_pos (Or.inr hnow)]
  rfl

theorem ofStatus_eq_discharging {attrval : String} :
    State.ofStatus attrval = .discharging ↔ attrval = "Discharging" := by
  unfold State.ofStatus
  split_ifs with hcharging hdischarging
  · rw [hcharging]
    exact iff_of_false (by decide) (by decide)
  · exact iff_of_true rfl hdischarging
  · exact iff_of_false (by decide) hdischarging

theorem level_lt_iff {r : Reading} (hfull : 0 < r.full) (treshold : ℚ) :
    r.context.chargeLevel * 100 < treshold ↔ 100 * (r.now : ℚ) < treshold * r.full := by
  have hpos : (0 : ℚ) < r.full := by exact_mod_cast hfull
  rw [Reading.context, div_mul_eq_mul_div, div_lt_iff₀ hpos, mul_comm (r.now : ℚ)]

theorem isCritical_context {r : Reading} (hfull : 0 < r.full) (treshold : ℚ) :
    r.context.isCritical treshold = true ↔ Critical treshold r := by
  have hstate : r.context.state = .discharging ↔ r.status = "Discharging" :=
    ofStatus_eq_discharging
  unfold BatteryContext.isCritical Critical
  rw [mul_one_div, ← level_lt_iff hfull, ← level_lt_iff hfull, ← hstate]
  by_cases h : r.context.chargeLevel * 100 < treshold / 2
  · rw [if_pos h]
    exact iff_of_true rfl (.inl h)
  rw [if_neg h, or_iff_right h]
  by_cases hdischarging : r.context.state = .discharging
  · rw [if_neg (not_not.2 hdischarging), decide_eq_true_iff]
    exact (and_iff_right hdischarging).symm
  · rw [if_pos hdischarging]
    exact iff_of_false Bool.false_ne_true fun hcontra => hdischarging hcontra.1

theorem turn_reading {device : Device} {r : Reading} (h : Reads device r) (hfull : 0 < r.full)
    (hnow : 0 < r.now) (treshold : ℚ) (c : BatteryContext) :
    (turn treshold (some device)).run c = .ok (decide (Critical treshold r)) r.context := by
  have hcritical : r.context.isCritical treshold = decide (Critical treshold r) := by
    rw [Bool.eq_iff_iff, isCritical_context hfull, decide_eq_true_iff]
  unfold turn
  rw [EStateM.run_bind, poll_reading h hfull hnow, ← hcritical]
  rfl

/-- From whatever state, the turn comes to this decision. -/
def Decides (treshold : ℚ) (device : Device) (critical : Bool) : Prop :=
  ∀ c, ∃ c', (turn treshold (some device)).run c = .ok critical c'

/-- **The decision on a reading**: that of `Critical` if there is a charge, and an exception if
there is none.  A smaller charge, as long as there is one, is critical too. -/
theorem decides_reading {treshold : ℚ} {device : Device} {r : Reading} (h : Reads device r)
    (hfull : 0 < r.full) :
    (0 < r.now → Decides treshold device (decide (Critical treshold r))) ∧
      (r.now = 0 → ∀ c, ∃ c', (turn treshold (some device)).run c = .error EINVAL c') ∧
        ∀ device' r', Reads device' r' → r'.status = r.status → r'.full = r.full →
          0 < r'.now → r'.now ≤ r.now →
            Decides treshold device true → Decides treshold device' true := by
  refine ⟨?_, ?_, ?_⟩
  · intro hnow c
    exact ⟨_, turn_reading h hfull hnow treshold c⟩
  · intro hnow c
    refine ⟨{ c with state := .ofStatus r.status }, ?_⟩
    unfold turn
    rw [EStateM.run_bind, poll_empty h hnow]
  · intro device' r' h' hstatus hfull' hnow hle hdecides c
    obtain ⟨c', hrun⟩ := hdecides c
    rw [turn_reading h hfull (by omega)] at hrun
    injection hrun with hcritical _
    have hcritical' := (of_decide_eq_true hcritical).mono hstatus hfull' hle
    refine ⟨r'.context, ?_⟩
    rw [turn_reading h' (by omega) hnow treshold c, decide_eq_true hcritical']

/-- A battery that reports its charge. -/
def sampleDevice (chargeNow : String) : Device := fun sysattr =>
  if sysattr = "status" then some "Discharging"
  else if sysattr = "charge_full" then some "1000\n"
  else if sysattr = "charge_now" then some chargeNow
  else none

theorem reads_sampleDevice {chargeNow : String} {now : ℕ} (h : IsNumber chargeNow now) :
    Reads (sampleDevice chargeNow) ⟨"Discharging", 1000, now⟩ where
  status := rfl
  charge := fun _ => ⟨show IsNumber "1000\n" 1000 by decide +kernel, h⟩
  energy := fun hempty => absurd hempty (show "1000\n" ≠ "" by decide)

/-- 90 of 1000 is critical for a threshold of 10, and so is 1. -/
theorem decides_sampleDevice :
    Decides 10 (sampleDevice "90\n") true ∧ Decides 10 (sampleDevice "1\n") true := by
  have hreads := @reads_sampleDevice "90\n" 90 (by decide +kernel)
  have hreads' := @reads_sampleDevice "1\n" 1 (by decide +kernel)
  obtain ⟨hdecides, -, hmono⟩ := @decides_reading 10 _ _ hreads (by decide)
  have hcritical : decide (Critical 10 ⟨"Discharging", 1000, 90⟩) = true := by decide +kernel
  have hfirst := hdecides (by decide)
  rw [hcritical] at hfirst
  exact ⟨hfirst, hmono _ _ hreads' rfl rfl (by decide) (by decide) hfirst⟩

/-- An empty battery ends `main`. -/
theorem not_decides_reading :
    ¬∀ treshold device r, 5 < treshold → treshold < 95 → Reads device r → 0 < r.full →
      Decides treshold device (decide (Critical treshold r)) := by
  intro h
  have hreads := @reads_sampleDevice "0\n" 0 (by decide +kernel)
  obtain ⟨c, hrun⟩ := h 10 _ _ (by decide +kernel) (by decide +kernel) hreads (by decide) {}
  have hthrew : threw ((turn 10 (some (sampleDevice "0\n"))).run {}) = true := by decide +kernel
  rw [hrun] at hthrew
  exact Bool.noConfusion hthrew

end BatteryWatch
end TjTools
