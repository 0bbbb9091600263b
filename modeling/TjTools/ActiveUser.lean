/-
# The user of the active Wayland session

`get_active_user` of `src/src/active_user.c` walks the sessions `sd_get_sessions` lists and
gives the uid of the first one that is local, active and of type "wayland".

One variable, `ret`, holds the number of sessions, then what the last query returned, and
1 once a session is found.  Where no session is found it is returned as it is: the number of
sessions when every session was passed over as remote or not active, which a caller takes
for success (`getActiveUser_contract_iff`).
-/

import Mathlib.Data.Int.Notation
import Mathlib.Data.Nat.Notation
import Mathlib.Tactic.SplitIfs

namespace TjTools
namespace ActiveUser

/-- What a query of a session answers: a negative number, or a number that is not negative
along with the value. -/
inductive Answer (α : Type) where
  /-- Returns `-err - 1`. -/
  | failed (err : ℕ)
  | answered (ret : ℕ) (value : α)
  deriving DecidableEq, Repr

def Answer.ret {α : Type} : Answer α → ℤ
  | .failed err => Int.negSucc err
  | .answered ret _ => ret

def Answer.value? {α : Type} : Answer α → Option α
  | .failed _ => none
  | .answered _ value => some value

/-- What `sd_session_is_remote` and the other queries answer for a session. -/
structure Session where
  isRemote : Bool
  isActive : Bool
  getUid : Answer UInt32
  getType : Answer String
  deriving DecidableEq, Repr

structure Outcome where
  ret : ℤ
  /-- What is written to `*user_id`. -/
  userId : Option UInt32
  deriving DecidableEq, Repr

/-- The loop over the sessions, from a value of `ret`. -/
def scan (ret : ℤ) : List Session → Outcome
  | [] => ⟨ret, none⟩
  | session :: sessions =>
    if session.isRemote then scan ret sessions
    else if !session.isActive then scan ret sessions
    else
      match session.getUid with
      | .failed err => scan (Int.negSucc err) sessions
      | .answered _ sessionUid =>
        match session.getType with
        | .failed err => scan (Int.negSucc err) sessions
        | .answered ret sessionType =>
          if sessionType = "wayland" then ⟨1, some sessionUid⟩ else scan ret sessions

/-- `get_active_user`, given what `sd_get_sessions` answers. -/
def getActiveUser : Except ℕ (List Session) → Outcome
  | .error _ => ⟨-1, none⟩
  | .ok sessions => if sessions.length = 0 then ⟨0, none⟩ else scan sessions.length sessions

/-! ### The contract -/

/-- Local, active, with a readable uid and of type "wayland". -/
def Session.Qualifies (s : Session) : Prop :=
  s.isRemote = false ∧ s.isActive = true ∧ s.getUid.value?.isSome ∧
    s.getType.value? = some "wayland"

instance (s : Session) : Decidable s.Qualifies := inferInstanceAs (Decidable (_ ∧ _))

/-- A positive value, and the uid of the first session that qualifies; else neither. -/
structure Contract (sessions : List Session) (o : Outcome) : Prop where
  positive_iff : 0 < o.ret ↔ ∃ s ∈ sessions, s.Qualifies
  first : ∀ before s after, sessions = before ++ s :: after → (∀ t ∈ before, ¬t.Qualifies) →
    s.Qualifies → o.userId = s.getUid.value?
  untouched : (∀ s ∈ sessions, ¬s.Qualifies) → o.ret ≤ 0 ∧ o.userId = none

/-- The loop queries the session. -/
def Session.queried (s : Session) : Bool := !s.isRemote && s.isActive

/-- What the last query of a session returns. -/
def Session.lastRet (s : Session) : ℤ :=
  match s.getUid with
  | .failed err => Int.negSucc err
  | .answered _ _ => s.getType.ret

/-- A session that qualifies ends the loop. -/
theorem scan_of_qualifies {s : Session} (h : s.Qualifies) (ret : ℤ) (sessions : List Session) :
    scan ret (s :: sessions) = ⟨1, s.getUid.value?⟩ := by
  obtain ⟨isRemote, isActive, getUid, getType⟩ := s
  obtain ⟨rfl, rfl, huid, htype⟩ := h
  cases getUid with
  | failed err => cases huid
  | answered r uid =>
    cases getType with
    | failed err => cases htype
    | answered r' type =>
      cases htype
      simp [scan, Answer.value?]

/-- A session that does not leaves `ret` as it is, or sets it to what its last query
returns. -/
theorem scan_of_not_qualifies {s : Session} (h : ¬s.Qualifies) (ret : ℤ)
    (sessions : List Session) :
    scan ret (s :: sessions) = scan (if s.queried then s.lastRet else ret) sessions := by
  obtain ⟨isRemote, isActive, getUid, getType⟩ := s
  cases isRemote with
  | true => simp [scan, Session.queried]
  | false =>
    cases isActive with
    | false => simp [scan, Session.queried]
    | true =>
      cases getUid with
      | failed err => simp [scan, Session.queried, Session.lastRet]
      | answered r uid =>
        cases getType with
        | failed err => simp [scan, Session.queried, Session.lastRet, Answer.ret]
        | answered r' type =>
          have htype : type ≠ "wayland" := by
            rintro rfl
            exact h ⟨rfl, rfl, rfl, rfl⟩
          simp [scan, Session.queried, Session.lastRet, Answer.ret, htype]

theorem scan_append {before : List Session} (h : ∀ t ∈ before, ¬t.Qualifies) {s : Session}
    (hs : s.Qualifies) (ret : ℤ) (after : List Session) :
    scan ret (before ++ s :: after) = ⟨1, s.getUid.value?⟩ := by
  induction before generalizing ret with
  | nil => exact scan_of_qualifies hs ret after
  | cons t before ih =>
    rw [List.cons_append, scan_of_not_qualifies (h t List.mem_cons_self)]
    exact ih (fun u hu => h u (List.mem_cons_of_mem t hu)) _

/-- Without a session that qualifies, `ret` is what the last query returned, if there was
one. -/
theorem scan_none {sessions : List Session} (h : ∀ s ∈ sessions, ¬s.Qualifies) (ret : ℤ) :
    scan ret sessions
      = ⟨((sessions.filter Session.queried).getLast?.map Session.lastRet).getD ret, none⟩ := by
  induction sessions generalizing ret with
  | nil => rfl
  | cons s sessions ih =>
    rw [scan_of_not_qualifies (h s List.mem_cons_self),
      ih fun t ht => h t (List.mem_cons_of_mem s ht), List.filter_cons]
    split_ifs with hqueried
    · rw [List.getLast?_cons]
      cases (sessions.filter Session.queried).getLast? <;> rfl
    · rfl

/-- The first session that qualifies, where there is one. -/
theorem exists_first {sessions : List Session} (h : ∃ s ∈ sessions, s.Qualifies) :
    ∃ before s after, sessions = before ++ s :: after ∧ (∀ t ∈ before, ¬t.Qualifies) ∧
      s.Qualifies := by
  have hfind : (sessions.find? fun s => decide s.Qualifies).isSome := by
    simpa [List.find?_isSome] using h
  obtain ⟨s, hs⟩ := Option.isSome_iff_exists.1 hfind
  obtain ⟨hqualifies, before, after, hsplit, hbefore⟩ := List.find?_eq_some_iff_append.1 hs
  refine ⟨before, s, after, hsplit, ?_, of_decide_eq_true hqualifies⟩
  intro t ht
  simpa using hbefore t ht

/-- A session that qualifies makes the call keep its contract. -/
theorem contract_of_qualifies {sessions : List Session} (h : ∃ s ∈ sessions, s.Qualifies) :
    Contract sessions (getActiveUser (.ok sessions)) := by
  have hscan : ∀ before s after, sessions = before ++ s :: after →
      (∀ t ∈ before, ¬t.Qualifies) → s.Qualifies →
        getActiveUser (.ok sessions) = ⟨1, s.getUid.value?⟩ := by
    rintro before s after rfl hbefore hs
    rw [getActiveUser, if_neg (by simp), scan_append hbefore hs]
  obtain ⟨before, s, after, hsplit, hbefore, hs⟩ := exists_first h
  refine ⟨iff_of_true ?_ h, ?_, fun hnone => ?_⟩
  · rw [hscan before s after hsplit hbefore hs]
    exact Int.one_pos
  · intro before' s' after' hsplit' hbefore' hs'
    rw [hscan before' s' after' hsplit' hbefore' hs']
  · obtain ⟨t, ht, hqualifies⟩ := h
    exact absurd hqualifies (hnone t ht)

/-- **`get_active_user` keeps its contract if and only if a session qualifies, there is no
session, or a session was queried and the last query returned no positive number.** -/
theorem getActiveUser_contract_iff (sessions : List Session) :
    Contract sessions (getActiveUser (.ok sessions)) ↔
      (∃ s ∈ sessions, s.Qualifies) ∨ sessions = [] ∨
        ∃ s, (sessions.filter Session.queried).getLast? = some s ∧ s.lastRet ≤ 0 := by
  by_cases hexists : ∃ s ∈ sessions, s.Qualifies
  · exact iff_of_true (contract_of_qualifies hexists) (.inl hexists)
  have hnone : ∀ s ∈ sessions, ¬s.Qualifies := fun s hs h => hexists ⟨s, hs, h⟩
  have hcontract : Contract sessions (getActiveUser (.ok sessions)) ↔
      (getActiveUser (.ok sessions)).ret ≤ 0 ∧ (getActiveUser (.ok sessions)).userId = none := by
    constructor
    · intro h
      exact h.untouched hnone
    · intro h
      refine ⟨iff_of_false (by omega) hexists, ?_, fun _ => h⟩
      rintro before s after rfl - hs
      exact absurd hs (hnone s (by simp))
  rw [hcontract, getActiveUser, or_iff_right hexists]
  by_cases hempty : sessions = []
  · subst hempty
    simp
  rw [if_neg (by simpa using hempty), scan_none hnone, or_iff_right hempty]
  cases hlast : (sessions.filter Session.queried).getLast? with
  | none =>
    have hpos : 0 < sessions.length := List.length_pos_iff.2 hempty
    refine iff_of_false ?_ (by simp)
    simp only [Option.map_none, Option.getD_none]
    omega
  | some s => simp

/-- A single session of another seat: remote, so that nothing is asked of it. -/
def remoteSession : Session := ⟨true, true, .answered 0 1000, .answered 0 "wayland"⟩

/-- The number of sessions comes back, and no user. -/
theorem not_getActiveUser_contract :
    ¬∀ sessions : List Session, Contract sessions (getActiveUser (.ok sessions)) := by
  intro h
  have hret : (getActiveUser (.ok [remoteSession])).ret ≤ 0 :=
    ((h [remoteSession]).untouched (by simp [Session.Qualifies, remoteSession])).1
  revert hret
  decide

end ActiveUser
end TjTools
