/-
# Guards of a scope

`src/src/common_utils/scope_guard.h` (lines 10-38): a guard holds a callback and calls it when it is
destroyed; it may be made from another guard, which then holds nothing, and it may be disabled.

Guards and callbacks are numbered in the order they come to be.  `Fate` is what has become of a
callback, told without guards and what they hold: it is owned by a guard, or its guard was disabled,
or its guard was destroyed, and called it.  The guards keep to it (`Tracks`): a guard holds exactly
the callback it owns, so after any history every callback was called once, by its last owner, or
never, if that one was disabled (`called_once`).

Moving a `std::function` leaves the other one with anything; it is the assignment of `nullptr` that
empties it.
-/

import Mathlib.Data.List.Induction
import Mathlib.Logic.Function.Basic
import TjTools.Basis.Runs
import TjTools.Basis.Triple

namespace TjTools
namespace ScopeGuard

open Runs

structure Callback where
  number : ℕ
  throws : Bool
  deriving DecidableEq

/-- A call of a callback. -/
structure Invocation where
  guard : ℕ
  callback : ℕ
  deriving DecidableEq

/-- `callback_()` -/
def Callback.call (guard : ℕ) (c : Callback) : EStateM Unit (List Invocation) Unit := do
  modify (· ++ [⟨guard, c.number⟩])
  if c.throws then throw ()

/-- The destructor. -/
def destructor (guard : ℕ) (callback : Option Callback) : EStateM Unit (List Invocation) Unit :=
  tryCatch
    (match callback with
      | some c => c.call guard
      | none => pure ())
    fun _ => pure ()

structure State where
  /-- What the guards hold that are there. -/
  guards : ℕ → Option (Option Callback)
  /-- How many guards there were. -/
  made : ℕ
  /-- How many callbacks there were. -/
  given : ℕ
  invocations : List Invocation
  /-- An exception left a destructor. -/
  escaped : Bool

def start : State := ⟨fun _ => none, 0, 0, [], false⟩

inductive Op where
  /-- A guard for the next callback. -/
  | construct (throws : Bool)
  /-- A guard from another one; `left` is what the move of the function leaves there. -/
  | move (other : ℕ) (left : Option Callback)
  | disable (guard : ℕ)
  | destroy (guard : ℕ)
  deriving DecidableEq

def step (s : State) : Op → State
  | .construct throws =>
    { s with
      guards := Function.update s.guards s.made (some (some ⟨s.given, throws⟩))
      made := s.made + 1
      given := s.given + 1 }
  | .move other left =>
    match s.guards other with
    | none => s
    | some callback =>
      let moved := Function.update (Function.update s.guards s.made (some callback)) other (some left)
      { s with
        guards := Function.update moved other (some none)
        made := s.made + 1 }
  | .disable guard =>
    match s.guards guard with
    | none => s
    | some _ => { s with guards := Function.update s.guards guard (some none) }
  | .destroy guard =>
    match s.guards guard with
    | none => s
    | some callback =>
      let ended := (destructor guard callback).run s.invocations
      { s with
        guards := Function.update s.guards guard none
        invocations := final ended
        escaped := s.escaped || threw ended }

/-- An operation is on a guard that is there. -/
def Allowed (s : State) : Op → Prop
  | .construct _ => True
  | .move other _ => (s.guards other).isSome = true
  | .disable guard => (s.guards guard).isSome = true
  | .destroy guard => (s.guards guard).isSome = true

/-! ### What becomes of a callback -/

inductive Fate where
  | owned (guard : ℕ)
  | disabled (guard : ℕ)
  | called (guard : ℕ)
  deriving DecidableEq

/-- The fates of the callbacks, and how many guards and callbacks there were. -/
structure Ownership where
  fate : ℕ → Option Fate
  made : ℕ
  given : ℕ

namespace Ownership

def start : Ownership := ⟨fun _ => none, 0, 0⟩

/-- What was owned by a guard has another fate now. -/
def pass (o : Ownership) (guard : ℕ) (next : Fate) : ℕ → Option Fate := fun k =>
  if o.fate k = some (.owned guard) then some next else o.fate k

def step (o : Ownership) : Op → Ownership
  | .construct _ => ⟨Function.update o.fate o.given (some (.owned o.made)), o.made + 1, o.given + 1⟩
  | .move other _ => { o with fate := o.pass other (.owned o.made), made := o.made + 1 }
  | .disable guard => { o with fate := o.pass guard (.disabled guard) }
  | .destroy guard => { o with fate := o.pass guard (.called guard) }

end Ownership

/-- The callback belongs to the guard after a history. -/
def Owns (history : List Op) (guard k : ℕ) : Prop :=
  (run Ownership.step .start history).fate k = some (.owned guard)

/-- The calls of a callback. -/
def callsOf (k : ℕ) (invocations : List Invocation) : List Invocation :=
  invocations.filter (·.callback = k)

/-- The calls that a fate tells of. -/
def Fate.calls (k : ℕ) : Option Fate → List Invocation
  | some (.called guard) => [⟨guard, k⟩]
  | _ => []

/-- **The guards keep to the fates.** -/
structure Tracks (s : State) (o : Ownership) : Prop where
  made : s.made = o.made
  given : s.given = o.given
  holds : ∀ g k, (∃ c, s.guards g = some (some c) ∧ c.number = k) ↔ o.fate k = some (.owned g)
  unmade : ∀ g, s.made ≤ g → s.guards g = none
  ungiven : ∀ k, o.fate k = none ↔ o.given ≤ k
  calls : ∀ k, callsOf k s.invocations = Fate.calls k (o.fate k)
  caught : s.escaped = false

theorem tracks_start : Tracks start .start where
  made := rfl
  given := rfl
  holds := by
    intro g k
    refine iff_of_false ?_ fun h => by cases h
    rintro ⟨c, h, -⟩
    cases h
  unmade _ _ := rfl
  ungiven k := iff_of_true rfl (Nat.zero_le k)
  calls _ := rfl
  caught := rfl

/-- The destructor calls what it holds, and no exception leaves it. -/
theorem run_destructor (guard : ℕ) (callback : Option Callback) (invocations : List Invocation) :
    (destructor guard callback).run invocations =
      .ok () (invocations ++ (callback.map fun c => ⟨guard, c.number⟩).toList) := by
  cases callback with
  | none =>
    rw [Option.map_none, Option.toList_none, List.append_nil]
    rfl
  | some c =>
    rcases c with ⟨number, throws⟩
    cases throws with
    | false => rfl
    | true => rfl

theorem Ownership.pass_of_owned {o : Ownership} {guard k : ℕ} (h : o.fate k = some (.owned guard))
    (next : Fate) : o.pass guard next k = some next :=
  if_pos h

theorem Ownership.pass_of_not {o : Ownership} {guard k : ℕ} (h : o.fate k ≠ some (.owned guard))
    (next : Fate) : o.pass guard next k = o.fate k :=
  if_neg h

/-- Nothing is passed on that was not given. -/
theorem Ownership.pass_eq_none_iff {o : Ownership} {guard k : ℕ} {next : Fate} :
    o.pass guard next k = none ↔ o.fate k = none := by
  by_cases h : o.fate k = some (.owned guard)
  · rw [pass_of_owned h, h]
    exact iff_of_false (fun h => by cases h) fun h => by cases h
  · rw [pass_of_not h]

/-- What a guard owns after a pass: what was passed on to it, and what it had if it is another. -/
theorem Ownership.pass_eq_owned_iff {o : Ownership} {guard g k : ℕ} {next : Fate} :
    o.pass guard next k = some (.owned g) ↔
      (o.fate k = some (.owned guard) ∧ next = .owned g) ∨
        (g ≠ guard ∧ o.fate k = some (.owned g)) := by
  by_cases h : o.fate k = some (.owned guard)
  · rw [pass_of_owned h, Option.some.injEq]
    constructor
    · exact fun hnext => .inl ⟨h, hnext⟩
    · rintro (⟨-, hnext⟩ | ⟨hne, howned⟩)
      · exact hnext
      · rw [h] at howned
        exact absurd (Fate.owned.inj (Option.some.inj howned)).symm hne
  · rw [pass_of_not h]
    constructor
    · intro howned
      refine .inr ⟨?_, howned⟩
      rintro rfl
      exact h howned
    · rintro (⟨howned, -⟩ | ⟨-, howned⟩)
      · exact absurd howned h
      · exact howned

/-! ### One operation -/

namespace Tracks

variable {s : State} {o : Ownership}

/-- A guard owns what it holds. -/
theorem owned (h : Tracks s o) {g : ℕ} {c : Callback} (hg : s.guards g = some (some c)) :
    o.fate c.number = some (.owned g) :=
  (h.holds g c.number).1 ⟨c, hg, rfl⟩

/-- It owns nothing else. -/
theorem number_eq (h : Tracks s o) {g k : ℕ} {c : Callback} (hg : s.guards g = some (some c))
    (hk : o.fate k = some (.owned g)) : k = c.number := by
  obtain ⟨c', hg', hc'⟩ := (h.holds g k).2 hk
  rw [hg] at hg'
  rw [← hc', Option.some.inj (Option.some.inj hg')]

/-- A guard that holds nothing owns nothing. -/
theorem not_owned (h : Tracks s o) {g k : ℕ} (hg : s.guards g = some none) :
    o.fate k ≠ some (.owned g) := by
  intro hk
  obtain ⟨c, hg', -⟩ := (h.holds g k).2 hk
  rw [hg] at hg'
  cases hg'

/-- The next guard owns nothing yet. -/
theorem not_owned_made (h : Tracks s o) (k : ℕ) : o.fate k ≠ some (.owned s.made) := by
  intro hk
  obtain ⟨c, hg, -⟩ := (h.holds s.made k).2 hk
  rw [h.unmade s.made le_rfl] at hg
  cases hg

theorem lt_made (h : Tracks s o) {g : ℕ} (hg : (s.guards g).isSome = true) : g < s.made := by
  by_contra hle
  rw [h.unmade g (not_lt.1 hle)] at hg
  cases hg

/-- A guard that is emptied, and no other one, loses what it holds. -/
theorem holds_update (h : Tracks s o) {g : ℕ} {content : Option (Option Callback)}
    (hcontent : ∀ c, content ≠ some (some c)) (g' k : ℕ) :
    (∃ c, Function.update s.guards g content g' = some (some c) ∧ c.number = k) ↔
      g' ≠ g ∧ o.fate k = some (.owned g') := by
  by_cases hg : g' = g
  · subst hg
    rw [Function.update_self]
    refine iff_of_false ?_ fun hne => hne.1 rfl
    rintro ⟨c, hc, -⟩
    exact hcontent c hc
  · rw [Function.update_of_ne hg, h.holds g' k]
    exact (and_iff_right hg).symm

theorem construct (h : Tracks s o) (throws : Bool) :
    Tracks (step s (.construct throws)) (o.step (.construct throws)) where
  made := congrArg (· + 1) h.made
  given := congrArg (· + 1) h.given
  holds := by
    intro g k
    have hungiven : o.fate o.given = none := (h.ungiven o.given).2 le_rfl
    simp only [step, Ownership.step]
    by_cases hg : g = s.made
    · subst hg
      rw [Function.update_self]
      by_cases hk : k = o.given
      · subst hk
        rw [Function.update_self, ← h.made]
        exact iff_of_true ⟨_, rfl, h.given⟩ rfl
      · rw [Function.update_of_ne hk]
        refine iff_of_false ?_ (h.not_owned_made k)
        rintro ⟨c, hc, hnumber⟩
        rw [← Option.some.inj (Option.some.inj hc)] at hnumber
        exact hk (hnumber.symm.trans h.given)
    · rw [Function.update_of_ne hg, h.holds g k]
      by_cases hk : k = o.given
      · subst hk
        rw [Function.update_self, hungiven]
        refine iff_of_false (fun h => by cases h) ?_
        intro howned
        have hmade : o.made = g := Fate.owned.inj (Option.some.inj howned)
        exact hg (by rw [← hmade, h.made])
      · rw [Function.update_of_ne hk]
  unmade := by
    intro g hg
    have hlt : s.made < g := hg
    simp only [step]
    rw [Function.update_of_ne (by omega)]
    exact h.unmade g (by omega)
  ungiven := by
    intro k
    simp only [Ownership.step]
    by_cases hk : k = o.given
    · subst hk
      rw [Function.update_self]
      exact iff_of_false (fun h => by cases h) (by omega)
    · rw [Function.update_of_ne hk, h.ungiven k]
      omega
  calls := by
    intro k
    have hcalls := h.calls k
    simp only [step, Ownership.step]
    by_cases hk : k = o.given
    · subst hk
      rw [(h.ungiven o.given).2 le_rfl] at hcalls
      rw [Function.update_self]
      exact hcalls
    · rw [Function.update_of_ne hk]
      exact hcalls
  caught := h.caught

/-- What a move leaves, whatever the function left behind. -/
theorem step_move {other : ℕ} {callback : Option Callback} (hother : s.guards other = some callback)
    (left : Option Callback) : step s (.move other left) =
      { s with
        guards := Function.update (Function.update s.guards s.made (some callback)) other
          (some none)
        made := s.made + 1 } := by
  simp only [step, hother, Function.update_idem]

theorem move (h : Tracks s o) {other : ℕ} {callback : Option Callback}
    (hother : s.guards other = some callback) (left : Option Callback) :
    Tracks (step s (.move other left)) (o.step (.move other left)) := by
  have hlt : other < s.made := h.lt_made (by rw [hother]; rfl)
  rw [step_move hother]
  constructor
  · exact congrArg (· + 1) h.made
  · exact h.given
  · intro g k
    have hne : s.made ≠ other := by omega
    show (∃ c, Function.update (Function.update s.guards s.made (some callback)) other (some none) g =
      some (some c) ∧ c.number = k) ↔ o.pass other (.owned o.made) k = some (.owned g)
    rw [Function.update_comm hne, Ownership.pass_eq_owned_iff, ← h.made]
    by_cases hg : g = s.made
    · -- the callback goes to the new guard
      subst hg
      rw [Function.update_self, ← hother, h.holds other k]
      constructor
      · exact fun howned => .inl ⟨howned, rfl⟩
      · rintro (⟨howned, -⟩ | ⟨-, hmade⟩)
        · exact howned
        · exact absurd hmade (h.not_owned_made k)
    · rw [Function.update_of_ne hg, h.holds_update fun c hc => by cases hc]
      refine (or_iff_right ?_).symm
      rintro ⟨-, hnext⟩
      exact hg (Fate.owned.inj hnext).symm
  · intro g hg
    have hle : s.made + 1 ≤ g := hg
    show Function.update (Function.update s.guards s.made (some callback)) other (some none) g = none
    rw [Function.update_of_ne (by omega), Function.update_of_ne (by omega)]
    exact h.unmade g (by omega)
  · exact fun k => Ownership.pass_eq_none_iff.trans (h.ungiven k)
  · intro k
    have hcalls := h.calls k
    simp only [Ownership.step]
    by_cases howned : o.fate k = some (.owned other)
    · rw [howned] at hcalls
      rw [Ownership.pass_of_owned howned]
      exact hcalls
    · rw [Ownership.pass_of_not howned]
      exact hcalls
  · exact h.caught

/-- A guard loses what it owns, to another fate. -/
theorem drop (h : Tracks s o) {g : ℕ} {content : Option (Option Callback)}
    (hcontent : ∀ c, content ≠ some (some c)) (hg : (s.guards g).isSome = true) {next : Fate}
    (hnext : ∀ g', next ≠ .owned g') {invocations : List Invocation}
    (hcalls : ∀ k, callsOf k invocations =
      if o.fate k = some (.owned g) then Fate.calls k (some next) else callsOf k s.invocations) :
    Tracks
      { s with guards := Function.update s.guards g content, invocations := invocations }
      { o with fate := o.pass g next } where
  made := h.made
  given := h.given
  holds := by
    intro g' k
    refine (h.holds_update hcontent g' k).trans (Iff.trans ?_ Ownership.pass_eq_owned_iff.symm)
    exact (or_iff_right fun howned => hnext g' howned.2).symm
  unmade := by
    intro g' hg'
    have hlt := h.lt_made hg
    have hle : s.made ≤ g' := hg'
    show Function.update s.guards g content g' = none
    rw [Function.update_of_ne (by omega)]
    exact h.unmade g' hg'
  ungiven k := Ownership.pass_eq_none_iff.trans (h.ungiven k)
  calls := by
    intro k
    show callsOf k invocations = Fate.calls k (o.pass g next k)
    rw [hcalls k]
    by_cases howned : o.fate k = some (.owned g)
    · rw [if_pos howned, Ownership.pass_of_owned howned]
    · rw [if_neg howned, Ownership.pass_of_not howned]
      exact h.calls k
  caught := h.caught

theorem disable (h : Tracks s o) {g : ℕ} {callback : Option Callback}
    (hg : s.guards g = some callback) : Tracks (step s (.disable g)) (o.step (.disable g)) := by
  have hstep : step s (.disable g) =
      { s with guards := Function.update s.guards g (some none) } := by
    simp only [step, hg]
  rw [hstep]
  refine h.drop (fun c hc => by cases hc) (by rw [hg]; rfl) (fun g' hg' => by cases hg') ?_
  intro k
  split
  · rename_i howned
    rw [h.calls k, howned]
    rfl
  · rfl

theorem destroy (h : Tracks s o) {g : ℕ} {callback : Option Callback}
    (hg : s.guards g = some callback) : Tracks (step s (.destroy g)) (o.step (.destroy g)) := by
  have hstep : step s (.destroy g) =
      { s with
        guards := Function.update s.guards g none
        invocations := s.invocations ++ (callback.map fun c => ⟨g, c.number⟩).toList } := by
    simp only [step, hg, run_destructor, final, threw, Bool.or_false]
  rw [hstep]
  refine h.drop (fun c hc => by cases hc) (by rw [hg]; rfl) (fun g' hg' => by cases hg') ?_
  intro k
  cases callback with
  | none =>
    rw [if_neg (h.not_owned hg), Option.map_none, Option.toList_none, List.append_nil]
  | some c =>
    split
    · rename_i howned
      have hk := h.number_eq hg howned
      have hnone := h.calls k
      rw [howned] at hnone
      rw [callsOf, List.filter_append, show s.invocations.filter _ = [] from hnone, hk]
      simp [Fate.calls]
    · rename_i howned
      have hk : c.number ≠ k := by
        rintro rfl
        exact howned (h.owned hg)
      rw [callsOf, List.filter_append, callsOf]
      simp [hk]

/-- **Every operation keeps the guards to the fates.** -/
theorem step (h : Tracks s o) {op : Op} (hop : Allowed s op) :
    Tracks (ScopeGuard.step s op) (o.step op) := by
  cases op with
  | construct throws => exact h.construct throws
  | move other left =>
    obtain ⟨callback, hother⟩ := Option.isSome_iff_exists.1 hop
    exact h.move hother left
  | disable guard =>
    obtain ⟨callback, hguard⟩ := Option.isSome_iff_exists.1 hop
    exact h.disable hguard
  | destroy guard =>
    obtain ⟨callback, hguard⟩ := Option.isSome_iff_exists.1 hop
    exact h.destroy hguard

theorem run (h : Tracks s o) {ops : List Op} (hops : Along ScopeGuard.step Allowed s ops) :
    Tracks (Runs.run ScopeGuard.step s ops) (Runs.run Ownership.step o ops) := by
  induction ops generalizing s o with
  | nil => exact h
  | cons op ops ih => exact ih (h.step hops.1) hops.2

end Tracks

/-! ### Histories -/

/-- The state after a history. -/
def after (ops : List Op) : State := run step start ops

theorem tracks_after {ops : List Op} (hops : Along step Allowed start ops) :
    Tracks (after ops) (run Ownership.step .start ops) :=
  tracks_start.run hops

theorem Ownership.pass_eq_some {o : Ownership} {g k : ℕ} {next f : Fate}
    (h : o.pass g next k = some f) :
    o.fate k = some f ∨ (o.fate k = some (.owned g) ∧ f = next) := by
  by_cases howned : o.fate k = some (.owned g)
  · rw [pass_of_owned howned] at h
    exact .inr ⟨howned, (Option.some.inj h).symm⟩
  · rw [pass_of_not howned] at h
    exact .inl h

/-- A callback that is not owned any more was, until one operation. -/
theorem Ownership.step_eq_some {o : Ownership} {op : Op} {k : ℕ} {f : Fate}
    (h : (o.step op).fate k = some f) (hf : ∀ g, f ≠ .owned g) :
    o.fate k = some f ∨ ∃ g, o.fate k = some (.owned g) ∧
      ((op = .disable g ∧ f = .disabled g) ∨ (op = .destroy g ∧ f = .called g)) := by
  cases op with
  | construct throws =>
    by_cases hk : k = o.given
    · subst hk
      have hfate : (o.step (.construct throws)).fate o.given = some (.owned o.made) :=
        Function.update_self _ _ _
      rw [hfate] at h
      exact absurd (Option.some.inj h).symm (hf _)
    · refine .inl ?_
      rw [← h]
      exact (Function.update_of_ne hk _ _).symm
  | move other left =>
    rcases pass_eq_some h with hsame | ⟨-, hnext⟩
    · exact .inl hsame
    · exact absurd hnext (hf _)
  | disable g =>
    rcases pass_eq_some h with hsame | ⟨howned, hnext⟩
    · exact .inl hsame
    · exact .inr ⟨g, howned, .inl ⟨rfl, hnext⟩⟩
  | destroy g =>
    rcases pass_eq_some h with hsame | ⟨howned, hnext⟩
    · exact .inl hsame
    · exact .inr ⟨g, howned, .inr ⟨rfl, hnext⟩⟩

/-- The operation at which a callback ceased to be owned. -/
theorem exists_of_fate {ops : List Op} {k : ℕ} {f : Fate}
    (h : (run Ownership.step .start ops).fate k = some f) (hf : ∀ g, f ≠ .owned g) :
    ∃ before op later g, ops = before ++ op :: later ∧ Owns before g k ∧
      ((op = .disable g ∧ f = .disabled g) ∨ (op = .destroy g ∧ f = .called g)) := by
  induction ops using List.reverseRecOn with
  | nil => cases h
  | append_singleton ops op ih =>
    rw [run_append, run_cons, run_nil] at h
    rcases Ownership.step_eq_some h hf with hsame | ⟨g, howned, hop⟩
    · obtain ⟨before, op', later, g, rfl, howned, hop⟩ := ih hsame
      refine ⟨before, op', later ++ [op], g, ?_, howned, hop⟩
      rw [List.append_assoc, List.cons_append]
    · exact ⟨ops, op, [], g, rfl, howned, hop⟩

/-- A callback that is not owned any more will not be again. -/
theorem Tracks.fate_run {s : State} {o : Ownership} (h : Tracks s o) {ops : List Op}
    (hops : Along ScopeGuard.step Allowed s ops) {k : ℕ} {f : Fate} (hk : o.fate k = some f)
    (hf : ∀ g, f ≠ .owned g) : (Runs.run Ownership.step o ops).fate k = some f := by
  induction ops generalizing s o with
  | nil => exact hk
  | cons op ops ih =>
    have hnot : ∀ g, o.fate k ≠ some (.owned g) := by
      intro g howned
      rw [hk] at howned
      exact hf g (Option.some.inj howned)
    refine ih (h.step hops.1) hops.2 ?_
    cases op with
    | construct throws =>
      have hne : k ≠ o.given := by
        rintro rfl
        rw [(h.ungiven o.given).2 le_rfl] at hk
        cases hk
      exact (Function.update_of_ne hne _ _).trans hk
    | move other left => exact (Ownership.pass_of_not (hnot other) _).trans hk
    | disable g => exact (Ownership.pass_of_not (hnot g) _).trans hk
    | destroy g => exact (Ownership.pass_of_not (hnot g) _).trans hk

/-! ### Guards that were moved from -/

/-- The guard was made, and holds nothing. -/
def Spent (s : State) (g : ℕ) : Prop := g < s.made ∧ ∀ c, s.guards g ≠ some (some c)

theorem Spent.update {s : State} {g : ℕ} (h : Spent s g) {g' : ℕ}
    {content : Option (Option Callback)} (hcontent : g' = g → ∀ c, content ≠ some (some c))
    (c : Callback) : Function.update s.guards g' content g ≠ some (some c) := by
  by_cases hg : g = g'
  · subst hg
    rw [Function.update_self]
    exact hcontent rfl c
  · rw [Function.update_of_ne hg]
    exact h.2 c

theorem Spent.step {s : State} {g : ℕ} (h : Spent s g) (op : Op) :
    Spent (ScopeGuard.step s op) g := by
  have hmade := h.1
  cases op with
  | construct throws =>
    refine ⟨Nat.lt_succ_of_lt hmade, h.update ?_⟩
    intro hg
    omega
  | move other left =>
    cases hother : s.guards other with
    | none => simpa only [ScopeGuard.step, hother] using h
    | some callback =>
      rw [Tracks.step_move hother]
      have hnew : ∀ c, Function.update s.guards s.made (some callback) g ≠ some (some c) := by
        refine h.update ?_
        intro hg
        omega
      refine ⟨Nat.lt_succ_of_lt hmade, ?_⟩
      intro c
      show Function.update (Function.update s.guards s.made (some callback)) other (some none) g ≠ _
      by_cases hg : g = other
      · subst hg
        rw [Function.update_self]
        exact fun hc => by cases hc
      · rw [Function.update_of_ne hg]
        exact hnew c
  | disable g' =>
    cases hg' : s.guards g' with
    | none => simpa only [ScopeGuard.step, hg'] using h
    | some callback =>
      simp only [ScopeGuard.step, hg']
      exact ⟨hmade, h.update fun _ c hc => by cases hc⟩
  | destroy g' =>
    cases hg' : s.guards g' with
    | none => simpa only [ScopeGuard.step, hg'] using h
    | some callback =>
      simp only [ScopeGuard.step, hg']
      exact ⟨hmade, h.update fun _ c hc => by cases hc⟩

theorem Spent.destroy {s : State} {g : ℕ} (h : Spent s g) :
    (ScopeGuard.step s (.destroy g)).invocations = s.invocations := by
  cases hg : s.guards g with
  | none => simp only [ScopeGuard.step, hg]
  | some callback =>
    cases callback with
    | none =>
      simp only [ScopeGuard.step, hg, run_destructor, final, Option.map_none, Option.toList_none,
        List.append_nil]
    | some c => exact absurd hg (h.2 c)

/-- A guard that was moved from is empty. -/
theorem spent_move {s : State} {other : ℕ} {callback : Option Callback}
    (hother : s.guards other = some callback) (hlt : other < s.made) (left : Option Callback) :
    Spent (step s (.move other left)) other := by
  rw [Tracks.step_move hother]
  refine ⟨Nat.lt_succ_of_lt hlt, ?_⟩
  intro c
  show Function.update (Function.update s.guards s.made (some callback)) other (some none) other ≠ _
  rw [Function.update_self]
  exact fun hc => by cases hc

/-! ### Once -/

/-- A guard was disabled while it owned the callback. -/
def DisabledWhileOwned (ops : List Op) (k : ℕ) : Prop :=
  ∃ before g later, ops = before ++ .disable g :: later ∧ Owns before g k

/-- The callback was called by the destruction of the guard that owned it, and not otherwise. -/
def CalledByOwner (ops : List Op) (k : ℕ) : Prop :=
  ∃ before g later, ops = before ++ .destroy g :: later ∧ Owns before g k ∧
    callsOf k (after before).invocations = [] ∧
    callsOf k (after (before ++ [.destroy g])).invocations = [⟨g, k⟩] ∧
    callsOf k (after ops).invocations = [⟨g, k⟩]

theorem fate_of_disable {before later : List Op} {g k : ℕ}
    (hvalid : Along step Allowed start (before ++ .disable g :: later)) (howns : Owns before g k) :
    (run Ownership.step .start (before ++ .disable g :: later)).fate k = some (.disabled g) := by
  obtain ⟨hbefore, hdisable, hlater⟩ := along_append.1 hvalid
  have htracks := (tracks_after hbefore).step hdisable
  rw [run_append, run_cons]
  refine htracks.fate_run hlater ?_ fun g' hg' => by cases hg'
  exact Ownership.pass_of_owned howns _

theorem calls_of_destroy {before later : List Op} {g k : ℕ}
    (hvalid : Along step Allowed start (before ++ .destroy g :: later)) (howns : Owns before g k) :
    callsOf k (after before).invocations = [] ∧
      callsOf k (after (before ++ [.destroy g])).invocations = [⟨g, k⟩] := by
  obtain ⟨hbefore, hdestroy, -⟩ := along_append.1 hvalid
  have htracks := tracks_after hbefore
  constructor
  · rw [htracks.calls k, howns]
    rfl
  · have hfate : ((run Ownership.step .start before).step (.destroy g)).fate k =
        some (.called g) := Ownership.pass_of_owned howns _
    have hcalls := (htracks.step hdestroy).calls k
    rw [hfate] at hcalls
    rw [after, run_append]
    exact hcalls

/-- A callback that was called was called by its owner. -/
theorem calledByOwner_of_fate {ops : List Op} (hvalid : Along step Allowed start ops) {g k : ℕ}
    (hfate : (run Ownership.step .start ops).fate k = some (.called g)) :
    ¬DisabledWhileOwned ops k ∧ CalledByOwner ops k := by
  constructor
  · rintro ⟨before, g', later, rfl, howns⟩
    have hdisabled := fate_of_disable hvalid howns
    rw [hfate] at hdisabled
    cases hdisabled
  · have hcalls := (tracks_after hvalid).calls k
    rw [hfate] at hcalls
    obtain ⟨before, op, later, g', rfl, howns, hop⟩ :=
      exists_of_fate hfate fun g' hg' => by cases hg'
    rcases hop with ⟨-, hdisabled⟩ | ⟨rfl, hcalled⟩
    · cases hdisabled
    · obtain rfl := Fate.called.inj hcalled
      obtain ⟨hbefore, hat⟩ := calls_of_destroy hvalid howns
      exact ⟨before, g, later, rfl, howns, hbefore, hat, hcalls⟩

/-- A callback whose guard was disabled was not called. -/
theorem disabledWhileOwned_of_fate {ops : List Op} (hvalid : Along step Allowed start ops) {g k : ℕ}
    (hfate : (run Ownership.step .start ops).fate k = some (.disabled g)) :
    DisabledWhileOwned ops k ∧ callsOf k (after ops).invocations = [] := by
  have hcalls := (tracks_after hvalid).calls k
  rw [hfate] at hcalls
  obtain ⟨before, op, later, g', hops, howns, hop⟩ :=
    exists_of_fate hfate fun g' hg' => by cases hg'
  rcases hop with ⟨rfl, -⟩ | ⟨-, hcalled⟩
  · exact ⟨⟨before, g', later, hops, howns⟩, hcalls⟩
  · cases hcalled

/-- A guard that was moved from calls nothing when it is destroyed. -/
theorem destroy_moved {before between later : List Op} {other : ℕ} {left : Option Callback}
    (hvalid : Along step Allowed start
      (before ++ .move other left :: (between ++ .destroy other :: later))) :
    (after (before ++ .move other left :: (between ++ [.destroy other]))).invocations =
      (after (before ++ .move other left :: between)).invocations := by
  obtain ⟨hbefore, hmove⟩ := along_append.1 hvalid
  obtain ⟨callback, hother⟩ := Option.isSome_iff_exists.1 hmove.1
  have hlt := (tracks_after hbefore).lt_made hmove.1
  have hspent : Spent (run step (step (after before) (.move other left)) between) other :=
    @inv_run _ _ step (fun s => Spent s other) (fun s op h => h.step op) _
      (spent_move hother hlt left) between
  have hdestroy := hspent.destroy
  simp only [after, run_append, run_cons, run_nil]
  exact hdestroy

/-- **Every callback is called once, or was disabled**, in every history after which no guard is
left. -/
theorem called_once (ops : List Op) (hvalid : Along step Allowed start ops)
    (hdestroyed : ∀ g, (after ops).guards g = none) :
    (∀ k, k < (after ops).given →
      (DisabledWhileOwned ops k ∧ callsOf k (after ops).invocations = []) ∨
        (¬DisabledWhileOwned ops k ∧ CalledByOwner ops k)) ∧
      (∀ before other left between later,
        ops = before ++ .move other left :: (between ++ .destroy other :: later) →
          (after (before ++ .move other left :: (between ++ [.destroy other]))).invocations =
            (after (before ++ .move other left :: between)).invocations) ∧
      (after ops).escaped = false := by
  have htracks := tracks_after hvalid
  refine ⟨?_, ?_, htracks.caught⟩
  · intro k hk
    cases hfate : (run Ownership.step .start ops).fate k with
    | none =>
      have hge := (htracks.ungiven k).1 hfate
      rw [← htracks.given] at hge
      exact absurd hk (not_lt.2 hge)
    | some f =>
      cases f with
      | owned g =>
        -- the owner would be a guard that is left
        obtain ⟨c, hc, -⟩ := (htracks.holds g k).2 hfate
        rw [hdestroyed g] at hc
        cases hc
      | disabled g => exact .inl (disabledWhileOwned_of_fate hvalid hfate)
      | called g => exact .inr (calledByOwner_of_fate hvalid hfate)
  · rintro before other left between later rfl
    exact destroy_moved hvalid

/-- Three guards, the second with a callback that throws.  The first one is moved, which leaves its
callback there for a moment, the third one is disabled, and all are destroyed. -/
def sampleOps : List Op :=
  [.construct false, .construct true, .construct false, .move 0 (some ⟨0, false⟩), .disable 2,
    .destroy 3, .destroy 2, .destroy 1, .destroy 0]

theorem called_once_sampleOps :
    (after sampleOps).invocations = [⟨3, 0⟩, ⟨1, 1⟩] ∧
      (∀ k, k < (after sampleOps).given →
        (DisabledWhileOwned sampleOps k ∧ callsOf k (after sampleOps).invocations = []) ∨
          (¬DisabledWhileOwned sampleOps k ∧ CalledByOwner sampleOps k)) ∧
      (∀ before other left between later,
        sampleOps = before ++ .move other left :: (between ++ .destroy other :: later) →
          (after (before ++ .move other left :: (between ++ [.destroy other]))).invocations =
            (after (before ++ .move other left :: between)).invocations) ∧
      (after sampleOps).escaped = false := by
  have hvalid : Along step Allowed start sampleOps :=
    ⟨trivial, trivial, trivial, rfl, rfl, rfl, rfl, rfl, rfl, trivial⟩
  refine ⟨by decide +kernel, called_once sampleOps hvalid ?_⟩
  intro g
  rcases g with _ | _ | _ | _ | g
  · rfl
  · rfl
  · rfl
  · rfl
  · exact (tracks_after hvalid).unmade (g + 4) (Nat.le_add_left 4 g)

end ScopeGuard
end TjTools
