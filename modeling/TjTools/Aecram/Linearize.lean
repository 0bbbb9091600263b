/-
# Transfers as single steps

The sessions of `Ports`, which execute their transfers instruction by instruction, refine
the ones of `Interleaving`, whose transfers are single steps (`refines_step`): the
instruction with which a transfer takes effect is matched by the whole transfer, and every
other one by a call with an empty request, in which nothing happens.  So every
interleaving at the ports is one of single steps (`refined`), and what holds of these
holds of it (`unmixed_at_ports`).
-/

import TjTools.Aecram.Ports
import TjTools.Basis.Simulation

namespace TjTools
namespace Aecram
namespace Ports

open Runs

namespace State

variable {ι : Type} [DecidableEq ι]

/-! ### The sessions whose transfers are single steps -/

section

variable {t : Aecram.State ι} {who : ι} {req : Request} {i : ℕ} (interrupted : Bool)

theorem advance_idle (hpc : t.pc who = .idle) : t.advance who interrupted = t := by
  simp only [Aecram.State.advance, hpc]

theorem advance_copyIn (hpc : t.pc who = .copyIn req) :
    t.advance who interrupted = (t.goto who (.load req 0)).withMachine
      (t.machine.withBuffer (copyPrefix req.length.toNat req.buffer t.machine.buffer)) := by
  simp only [Aecram.State.advance, hpc]

theorem advance_load (hpc : t.pc who = .load req i) :
    t.advance who interrupted = t.goto who (.write req i (cell t.machine.buffer i)) := by
  simp only [Aecram.State.advance, hpc]

theorem advance_copyOut (hpc : t.pc who = .copyOut req) :
    t.advance who interrupted = (t.goto who .idle).note
      (.returned who req (copyPrefix req.length.toNat t.machine.buffer req.buffer)
        (t.seen who)) := by
  simp only [Aecram.State.advance, hpc]

end

/-- The write of a byte, when nothing interrupts it. -/
theorem advance_write {t : Aecram.State ι} {who : ι} {req : Request} {i : ℕ} {val : UInt8}
    (hpc : t.pc who = .write req i val) :
    ∃ m : Machine, m.controller.ram = Function.update t.ram (address req i) val ∧
      m.buffer = t.machine.buffer ∧
      t.advance who false = ((t.goto who (next (.write req i val))).withMachine m).note
        (.stored who req i (address req i) val) := by
  have hfree : (t.machine.withInterrupts [false]).Uninterrupted := by
    simp [Machine.Uninterrupted]
  obtain ⟨hret, hram, hbuffer, -, -⟩ := Machine.aecramWrite_run hfree
    (req.offset + UInt16.ofNat i) val
  unfold Aecram.State.advance
  simp only [hpc]
  rcases hrun : (t.machine.withInterrupts [false]).aecramWrite configDefault
    (req.offset + UInt16.ofNat i) val with ⟨ret, m⟩
  rw [hrun] at hret hram hbuffer
  obtain rfl : ret = 0 := hret
  have hval : m.controller.ram (req.offset + UInt16.ofNat i) = val := by
    rw [show m.controller.ram = _ from hram, Function.update_self]
  simp only [Int.lt_irrefl, if_false, hval]
  exact ⟨m, hram, hbuffer, rfl⟩

/-- The read of a byte, when nothing interrupts it. -/
theorem advance_read {t : Aecram.State ι} {who : ι} {req : Request} {i : ℕ}
    (hpc : t.pc who = .read req i) :
    ∃ m : Machine, m.controller.ram = t.ram ∧
      m.buffer = t.machine.buffer.setIfInBounds i (t.ram (address req i)) ∧
      t.advance who false = (t.goto who (next (.read req i))).withMachine m := by
  have hfree : (t.machine.withInterrupts [false]).Uninterrupted := by
    simp [Machine.Uninterrupted]
  obtain ⟨hret, hram, hbuffer, -, -⟩ := Machine.aecramRead_run hfree
    (req.offset + UInt16.ofNat i) i
  unfold Aecram.State.advance
  simp only [hpc]
  rcases hrun : (t.machine.withInterrupts [false]).aecramRead configDefault
    (req.offset + UInt16.ofNat i) i with ⟨ret, m⟩
  rw [hrun] at hret hram hbuffer
  obtain rfl : ret = 0 := hret
  simp only [Int.lt_irrefl, if_false]
  exact ⟨m, hram, hbuffer, rfl⟩

/-- A transfer whose attempt to take the mutex is interrupted ends the call. -/
theorem advance_interrupted {t : Aecram.State ι} {who : ι}
    (hpc : (∃ req i val, t.pc who = .write req i val) ∨ ∃ req i, t.pc who = .read req i) :
    t.advance who true = (t.goto who .idle).withMachine (t.machine.withInterrupts []) := by
  unfold Aecram.State.advance
  rcases hpc with ⟨req, i, val, hpc⟩ | ⟨req, i, hpc⟩
  · simp only [hpc]
    rw [Machine.aecramWrite_interrupted (Machine.withInterrupts_interrupts _ _)]
    rfl
  · simp only [hpc]
    rw [Machine.aecramRead_interrupted (Machine.withInterrupts_interrupts _ _)]
    rfl

/-- What a session is about to do once its transfer, if it has taken effect, is over. -/
def view (s : State ι) (w : ι) : Pc := if s.todo w = [.unlock] then next (s.pc w) else s.pc w

omit [DecidableEq ι] in
theorem view_of_nil {s : State ι} {w : ι} (h : s.todo w = []) : s.view w = s.pc w := by
  rw [view, h]
  rfl

/-- The same memory, the same buffer, the same notes, and every session at the same place. -/
structure Refines (s : State ι) (t : Aecram.State ι) : Prop where
  ram : t.ram = s.ram
  buffer : t.machine.buffer = s.machine.buffer
  pc : t.pc = s.view
  seen : t.seen = s.seen
  notes : t.notes = s.notes

/-- A call with an empty request, which transfers nothing. -/
def refused (who : ι) : Action ι := .beginRead who ⟨0, 0, Vector.replicate aecramBufferSize 0⟩

/-- The step that matches an action: the one of the transfer with the instruction that makes
it take effect, and an empty call where nothing is seen to happen. -/
def shadow (s : State ι) : Action ι → Action ι
  | .beginRead who req => if s.pc who = .idle then .beginRead who req else refused who
  | .beginWrite who req => if s.pc who = .idle then .beginWrite who req else refused who
  | .advance who interrupted =>
    match s.todo who with
    | _ :: rest => if rest = [.unlock] then .advance who false else refused who
    | [] =>
      match s.pc who with
      | .write _ _ _ | .read _ _ => if interrupted then .advance who true else refused who
      | _ => .advance who interrupted

omit [DecidableEq ι] in
theorem Refines.observe {s : State ι} {t : Aecram.State ι} (h : s.Refines t) :
    s.observe.Refines t.observe := by
  refine ⟨h.ram, h.buffer, h.pc, ?_, h.notes⟩
  funext w
  show t.ram :: t.seen w = s.ram :: s.seen w
  rw [h.ram, h.seen]

omit [DecidableEq ι] in
theorem refines_initial (machine : Machine) :
    (initial machine : State ι).Refines (Aecram.State.initial machine) :=
  ⟨rfl, rfl, rfl, rfl, rfl⟩

theorem step_refused (t : Aecram.State ι) (who : ι) : t.step (refused who) = t.observe := by
  have hempty : ¬(t.pc who = .idle ∧
      Aecram.State.Admitted ⟨0, 0, Vector.replicate aecramBufferSize 0⟩) :=
    fun h => h.2.2 rfl
  simp only [refused, Aecram.State.step, if_neg hempty]

/-- An instruction before the last one that matters, or after it. -/
theorem refines_execute {s : State ι} (h : s.Inv) {t : Aecram.State ι} (hst : s.Refines t)
    {who : ι} {instr : Instr} {rest : List Instr} (htodo : s.todo who = instr :: rest)
    (hrest : rest ≠ [.unlock]) : (s.execute who instr rest).Refines t := by
  have hinside : s.todo who ≠ [] := by
    rw [htodo]
    exact List.cons_ne_nil _ _
  have hmidway := h.midway who hinside
  rw [htodo] at hmidway
  have hquiet : (Instr.touch s.machine.controller instr).ram = s.ram ∧
      ∀ j, instr ≠ .store j := by
    rcases midway_cases hmidway with ⟨req, i, val, hpc⟩ | ⟨req, i, hpc⟩
    · rw [hpc] at hmidway
      obtain ⟨hram, -, hstore⟩ := midway_write hmidway
      rw [if_neg hrest] at hram
      exact ⟨hram, hstore⟩
    · rw [hpc] at hmidway
      obtain ⟨hram, -, hstore⟩ := midway_read hmidway
      rw [if_neg hrest] at hstore
      exact ⟨hram, hstore⟩
  constructor
  · rw [execute_ram, hquiet.1]
    exact hst.ram
  · rw [execute_machine, Instr.exec_buffer hquiet.2]
    exact hst.buffer
  · rw [hst.pc]
    funext w
    by_cases hw : w = who
    · subst hw
      by_cases hnil : rest = []
      · have hunlock := (midway_unlock hmidway).2 hnil
        simp [view, htodo, hnil, hunlock]
      · simp [view, htodo, hrest, hnil]
    · by_cases hnil : rest = []
      · simp [view, hw, hnil]
      · simp [view, hw, hnil]
  · exact hst.seen
  · rw [execute_notes, if_neg hrest, List.append_nil]
    exact hst.notes

theorem view_landing (s : State ι) (who : ι) (instr : Instr) :
    (s.execute who instr [.unlock]).view
      = Function.update s.view who (next (s.pc who)) := by
  funext w
  by_cases hw : w = who
  · subst hw
    simp [view]
  · simp [view, hw]

omit [DecidableEq ι] in
/-- Before the instruction that makes it take effect, a transfer is still to be matched. -/
theorem view_of_landing {s : State ι} {who : ι} {instr : Instr} {pc : Pc}
    (htodo : s.todo who = [instr, .unlock]) (hpc : s.pc who = pc) : s.view who = pc := by
  rw [view, htodo, hpc]
  exact if_neg (by simp)

/-- The last port access of a WRITE is the write of its byte. -/
theorem refines_write {s : State ι} (h : s.Inv) {t : Aecram.State ι} (hst : s.Refines t)
    {who : ι} {instr : Instr} (htodo : s.todo who = [instr, .unlock]) {req : Request} {i : ℕ}
    {val : UInt8} (hpc : s.pc who = .write req i val) :
    (s.execute who instr [.unlock]).Refines (t.advance who false) := by
  have hmidway := h.midway who (by simp [htodo])
  rw [htodo, hpc] at hmidway
  obtain ⟨hram, -, hstore⟩ := midway_write hmidway
  rw [if_pos rfl] at hram
  have htpc : t.pc who = .write req i val := by rw [hst.pc, view_of_landing htodo hpc]
  obtain ⟨m, htram, hbuffer, hadvance⟩ := advance_write htpc
  have hsame : m.controller.ram = (s.execute who instr [.unlock]).ram := by
    rw [execute_ram, hram, htram, hst.ram]
    rfl
  have hval : (s.execute who instr [.unlock]).ram (address req i) = val := by
    rw [← hsame, htram, Function.update_self]
  rw [hadvance]
  constructor
  · exact hsame
  · rw [execute_machine, Instr.exec_buffer hstore]
    exact hbuffer.trans hst.buffer
  · rw [view_landing, hpc, ← hst.pc]
    rfl
  · exact hst.seen
  · rw [execute_notes, if_pos rfl, hpc, ← hst.notes]
    show t.notes ++ [Note.stored who req i (address req i) val]
      = t.notes ++ [.stored who req i (address req i)
          ((s.execute who instr [.unlock]).ram (address req i))]
    rw [hval]

/-- The instruction that stores the byte of a READ is the read of its byte. -/
theorem refines_read {s : State ι} (h : s.Inv) {t : Aecram.State ι} (hst : s.Refines t)
    {who : ι} {instr : Instr} (htodo : s.todo who = [instr, .unlock]) {req : Request} {i : ℕ}
    (hpc : s.pc who = .read req i) :
    (s.execute who instr [.unlock]).Refines (t.advance who false) := by
  have hmidway := h.midway who (by simp [htodo])
  rw [htodo, hpc] at hmidway
  obtain ⟨hram, -, hstore⟩ := midway_read hmidway
  rw [if_pos rfl] at hstore
  obtain ⟨rfl, hvalue⟩ := hstore
  have htpc : t.pc who = .read req i := by rw [hst.pc, view_of_landing htodo hpc]
  obtain ⟨m, htram, hbuffer, hadvance⟩ := advance_read htpc
  rw [hadvance]
  constructor
  · rw [execute_ram, hram]
    exact htram.trans hst.ram
  · show m.buffer = s.machine.buffer.setIfInBounds i (s.value who)
    rw [hvalue, ← hst.buffer, hbuffer, hst.ram]
    rfl
  · rw [view_landing, hpc, ← hst.pc]
    rfl
  · exact hst.seen
  · rw [execute_notes, if_pos rfl, hpc, ← hst.notes]
    exact (List.append_nil _).symm

/-- The attempt to take the mutex: it changes nothing that is seen. -/
theorem refines_lock {s : State ι} {t : Aecram.State ι} (hst : s.Refines t) {who : ι}
    (htodo : s.todo who = []) : (s.lock who false).Refines t := by
  rcases lock_cases s who false with ⟨hfalse, -⟩ | ⟨-, -, hlock⟩ | ⟨-, -, hlock⟩
  · cases hfalse
  · rw [hlock]
    exact hst
  · rw [hlock]
    refine ⟨hst.ram, hst.buffer, ?_, hst.seen, hst.notes⟩
    rw [hst.pc]
    funext w
    by_cases hw : w = who
    · subst hw
      rw [view_of_nil htodo]
      simp [view, program_ne_unlock]
    · simp [view, hw]

/-- A step of a session outside the transfers that goes to another place. -/
theorem refines_goto {s : State ι} {t : Aecram.State ι} (hst : s.Refines t) {who : ι}
    (htodo : s.todo who = []) (pc : Pc) {m m' : Machine} {notes notes' : List (Note ι)}
    (hram : m'.controller.ram = m.controller.ram) (hbuffer : m'.buffer = m.buffer)
    (hnotes : notes' = notes) :
    ({ s.goto who pc with machine := m, notes := notes } : State ι).Refines
      { t.goto who pc with machine := m', notes := notes' } := by
  refine ⟨hram, hbuffer, ?_, hst.seen, hnotes⟩
  show Function.update t.pc who pc = _
  rw [hst.pc]
  funext w
  by_cases hw : w = who
  · subst hw
    simp [view, goto, htodo]
  · simp [view, goto, hw]

theorem refines_interrupted {s : State ι} {t : Aecram.State ι} (hst : s.Refines t) {who : ι}
    (htodo : s.todo who = [])
    (hpc : (∃ req i val, s.pc who = .write req i val) ∨ ∃ req i, s.pc who = .read req i) :
    (s.lock who true).Refines (t.advance who true) := by
  have htpc : t.pc who = s.pc who := by rw [hst.pc, view_of_nil htodo]
  have hidle := advance_interrupted (htpc ▸ hpc)
  rcases lock_cases s who true with ⟨-, hlock⟩ | ⟨htrue, -⟩ | ⟨htrue, -⟩
  · rw [hlock, hidle]
    exact refines_goto hst htodo .idle hst.ram hst.buffer hst.notes
  · cases htrue
  · cases htrue

omit [DecidableEq ι] in
theorem shadow_execute {s : State ι} {who : ι} {instr : Instr} {rest : List Instr}
    (htodo : s.todo who = instr :: rest) (interrupted : Bool) :
    s.shadow (.advance who interrupted)
      = if rest = [.unlock] then .advance who false else refused who := by
  simp only [shadow, htodo]

/-- A step of a session, by where it is. -/
theorem refines_advance {s : State ι} (h : s.Inv) {t : Aecram.State ι} (hst : s.Refines t)
    (who : ι) (interrupted : Bool) :
    (s.step (.advance who interrupted)).Refines
      (t.step (s.shadow (.advance who interrupted))) := by
  show (s.advance who interrupted).observe.Refines _
  cases htodo : s.todo who with
  | cons instr rest =>
    rw [advance_execute htodo, shadow_execute htodo]
    by_cases hrest : rest = [.unlock]
    · subst hrest
      have hmidway := h.midway who (by simp [htodo])
      rw [htodo] at hmidway
      rw [if_pos rfl]
      rcases midway_cases hmidway with ⟨req, i, val, hpc⟩ | ⟨req, i, hpc⟩
      · exact (refines_write h hst htodo hpc).observe
      · exact (refines_read h hst htodo hpc).observe
    · rw [if_neg hrest, step_refused]
      exact (refines_execute h hst htodo hrest).observe
  | nil =>
    have htpc : t.pc who = s.pc who := by rw [hst.pc, view_of_nil htodo]
    cases hpc : s.pc who with
    | idle =>
      rw [hpc] at htpc
      simp only [advance, shadow, htodo, hpc, Aecram.State.step, advance_idle interrupted htpc]
      exact hst.observe
    | copyIn req =>
      rw [hpc] at htpc
      simp only [advance, shadow, htodo, hpc, Aecram.State.step, advance_copyIn interrupted htpc]
      rw [hst.buffer]
      refine Refines.observe ?_
      refine refines_goto hst htodo (.load req 0) ?_ ?_ hst.notes
      · rw [Machine.withBuffer_controller, Machine.withBuffer_controller]
        exact hst.ram
      · rw [Machine.withBuffer_buffer, Machine.withBuffer_buffer]
    | load req i =>
      rw [hpc] at htpc
      simp only [advance, shadow, htodo, hpc, Aecram.State.step, advance_load interrupted htpc,
        hst.buffer]
      exact (refines_goto hst htodo _ hst.ram hst.buffer hst.notes).observe
    | write req i val =>
      simp only [advance, shadow, htodo, hpc]
      cases interrupted
      · rw [if_neg Bool.false_ne_true, step_refused]
        exact (refines_lock hst htodo).observe
      · rw [if_pos rfl]
        exact (refines_interrupted hst htodo (.inl ⟨req, i, val, hpc⟩)).observe
    | read req i =>
      simp only [advance, shadow, htodo, hpc]
      cases interrupted
      · rw [if_neg Bool.false_ne_true, step_refused]
        exact (refines_lock hst htodo).observe
      · rw [if_pos rfl]
        exact (refines_interrupted hst htodo (.inr ⟨req, i, hpc⟩)).observe
    | copyOut req =>
      rw [hpc] at htpc
      simp only [advance, shadow, htodo, hpc, Aecram.State.step, advance_copyOut interrupted htpc]
      rw [hst.buffer, hst.seen]
      refine (refines_goto hst htodo .idle hst.ram hst.buffer ?_).observe
      exact congrArg (· ++ _) hst.notes

/-- A call begins in both, or in neither. -/
theorem refines_begin {s : State ι} {t : Aecram.State ι} (hst : s.Refines t)
    {who : ι} (hidle : s.pc who = .idle) (htodo : s.todo who = []) (req : Request) (pc : Pc) :
    (if s.pc who = .idle ∧ State.Admitted req then s.enter who pc else s).Refines
      (if t.pc who = .idle ∧ State.Admitted req then t.enter who pc else t) := by
  have htpc : t.pc who = .idle := by rw [hst.pc, view_of_nil htodo, hidle]
  by_cases hadmitted : State.Admitted req
  · rw [if_pos ⟨hidle, hadmitted⟩, if_pos ⟨htpc, hadmitted⟩]
    have hgoto := refines_goto hst htodo pc hst.ram hst.buffer hst.notes
    refine ⟨hgoto.ram, hgoto.buffer, hgoto.pc, ?_, hgoto.notes⟩
    show Function.update t.seen who [t.ram] = Function.update s.seen who [s.ram]
    rw [hst.seen, hst.ram]
  · rw [if_neg fun h => hadmitted h.2, if_neg fun h => hadmitted h.2]
    exact hst

/-- **The single steps are the transfers.**  Whatever a session does next at the ports is
matched by one step, or by an empty call, of the sessions whose transfers are single steps. -/
theorem refines_step {s : State ι} (h : s.Inv) {t : Aecram.State ι} (hst : s.Refines t)
    (act : Action ι) : (s.step act).Refines (t.step (s.shadow act)) := by
  cases act with
  | beginRead who req =>
    by_cases hidle : s.pc who = .idle
    · have hbegin := refines_begin hst hidle (h.todo_of_idle hidle) req (.read req 0)
      simp only [shadow, if_pos hidle]
      exact hbegin.observe
    · simp only [shadow, step_refused, step, hidle, false_and, if_false]
      exact hst.observe
  | beginWrite who req =>
    by_cases hidle : s.pc who = .idle
    · have hbegin := refines_begin hst hidle (h.todo_of_idle hidle) req (.copyIn req)
      simp only [shadow, if_pos hidle]
      exact hbegin.observe
    · simp only [shadow, step_refused, step, hidle, false_and, if_false]
      exact hst.observe
  | advance who interrupted => exact refines_advance h hst who interrupted

/-- The kinds of action that a run may contain are those of the run that matches it. -/
theorem simulates (ok : Action ι → Prop) (hrefused : ∀ who, ok (refused who))
    (hadvance : ∀ who interrupted, ok (.advance who interrupted)) :
    Simulates step Aecram.State.step (fun _ => ok) (fun _ => ok)
      fun (s : State ι) t => s.Inv ∧ s.Refines t := by
  rintro s t act ⟨h, hst⟩ hok
  refine ⟨[s.shadow act], ⟨?_, trivial⟩, inv_step h act, refines_step h hst act⟩
  cases act with
  | beginRead who req =>
    simp only [shadow]
    split_ifs
    · exact hok
    · exact hrefused who
  | beginWrite who req =>
    simp only [shadow]
    split_ifs
    · exact hok
    · exact hrefused who
  | advance who interrupted =>
    simp only [shadow]
    split
    · split_ifs
      · exact hadvance who _
      · exact hrefused who
    · split
      · split_ifs
        · exact hadvance who _
        · exact hrefused who
      · split_ifs
        · exact hadvance who _
        · exact hrefused who
      · exact hadvance who _

/-- **Every interleaving at the ports is one of single steps.**  For every run of the
sessions, instruction by instruction, there is a run whose transfers are single steps, with
no other WRITEs begun, after which the memory, the buffer, the places of the sessions, what
they have seen and the notes are the same. -/
theorem refined (machine : Machine) (acts : List (Action ι)) :
    ∃ acts' : List (Action ι),
      (∀ who req, .beginWrite who req ∈ acts' → .beginWrite who req ∈ acts) ∧
      (run step (initial machine) acts).Refines
        (run Aecram.State.step (Aecram.State.initial machine) acts') := by
  have hsim := simulates (fun act => ∀ who req, act = .beginWrite who req → act ∈ acts)
    (fun who w req heq => by cases heq) (fun who interrupted w req heq => by cases heq)
  obtain ⟨acts', halong, -, hrefines⟩ := run_simulates hsim
    ⟨inv_initial machine, refines_initial machine⟩ acts
    (along_of_forall (fun act hact who req _ => hact) _)
  refine ⟨acts', fun who req hmem => ?_, hrefines⟩
  exact forall_of_along halong _ hmem who req rfl

/-! ### Separate sessions -/

/-- A cell that a step fills. -/
def Fills (s : State ι) (who : ι) (j : ℕ) : Prop :=
  match s.todo who with
  | .store i :: _ => j = i
  | _ :: _ => False
  | [] =>
    match s.pc who with
    | .copyIn req => j < req.length.toNat
    | _ => False

/-- The step overwrites no cell that another session has in use. -/
def Separate (s : State ι) : Action ι → Prop
  | .advance who _ => ∀ w, w ≠ who → ∀ j, s.Fills who j → ¬Aecram.State.Live (s.view w) j
  | _ => True

def Unmixed (s : State ι) : Prop := ∀ note ∈ s.notes, note.Own

omit [DecidableEq ι] in
theorem separate_refused (t : Aecram.State ι) (who : ι) : t.Separate (refused who) := trivial

omit [DecidableEq ι] in
/-- The instruction that makes a transfer take effect fills what the transfer does. -/
theorem fills_of_landing {s : State ι} (h : s.Inv) {t : Aecram.State ι} (hst : s.Refines t)
    {who : ι} {instr : Instr} (htodo : s.todo who = [instr, .unlock]) {j : ℕ}
    (hj : Aecram.State.Fills false (t.pc who) j) : s.Fills who j := by
  have hmidway := h.midway who (by simp [htodo])
  rw [htodo] at hmidway
  rcases midway_cases hmidway with ⟨req, i, val, hpc⟩ | ⟨req, i, hpc⟩
  · rw [hst.pc, view_of_landing htodo hpc] at hj
    exact hj.elim
  · rw [hst.pc, view_of_landing htodo hpc] at hj
    rw [hpc] at hmidway
    have hstore := (midway_read hmidway).2.2
    rw [if_pos rfl] at hstore
    rw [Fills, htodo, hstore.1]
    exact hj.2

omit [DecidableEq ι] in
/-- A separate step is matched by a separate one. -/
theorem separate_shadow {s : State ι} (h : s.Inv) {t : Aecram.State ι} (hst : s.Refines t)
    {act : Action ι} (hact : s.Separate act) : t.Separate (s.shadow act) := by
  cases act with
  | beginRead who req =>
    simp only [shadow]
    split_ifs
    · trivial
    · trivial
  | beginWrite who req =>
    simp only [shadow]
    split_ifs
    · trivial
    · trivial
  | advance who interrupted =>
    -- it is enough that the matching step fills no other cells
    have hfills : ∀ b, (∀ j, Aecram.State.Fills b (t.pc who) j → s.Fills who j) →
        t.Separate (.advance who b) := by
      intro b hfills w hw j hj
      rw [hst.pc]
      exact hact w hw j (hfills j hj)
    cases htodo : s.todo who with
    | cons instr rest =>
      rw [shadow_execute htodo]
      by_cases hrest : rest = [.unlock]
      · subst hrest
        rw [if_pos rfl]
        exact hfills false fun j hj => fills_of_landing h hst htodo hj
      · rw [if_neg hrest]
        exact separate_refused t who
    | nil =>
      have htpc : t.pc who = s.pc who := by rw [hst.pc, view_of_nil htodo]
      cases hpc : s.pc who with
      | idle =>
        simp only [shadow, htodo, hpc]
        exact hfills interrupted fun j hj => by simp [htpc, hpc, Aecram.State.Fills] at hj
      | copyIn req =>
        simp only [shadow, htodo, hpc]
        refine hfills interrupted fun j hj => ?_
        rw [htpc, hpc] at hj
        simp only [Fills, htodo, hpc]
        exact hj
      | load req i =>
        simp only [shadow, htodo, hpc]
        exact hfills interrupted fun j hj => by simp [htpc, hpc, Aecram.State.Fills] at hj
      | write req i val =>
        simp only [shadow, htodo, hpc]
        split_ifs
        · exact hfills true fun j hj => by simp [htpc, hpc, Aecram.State.Fills] at hj
        · exact separate_refused t who
      | read req i =>
        simp only [shadow, htodo, hpc]
        split_ifs
        · exact hfills true fun j hj => by simp [htpc, hpc, Aecram.State.Fills] at hj
        · exact separate_refused t who
      | copyOut req =>
        simp only [shadow, htodo, hpc]
        exact hfills interrupted fun j hj => by simp [htpc, hpc, Aecram.State.Fills] at hj

/-- **Separate sessions do not mix at the ports either.**  In every interleaving of the
sessions, instruction by instruction, no step of which overwrites a cell of the buffer that
another session has in use, every byte stored is the request's own, and every byte returned
is one that its address held during the call. -/
theorem unmixed_at_ports (machine : Machine) (acts : List (Action ι))
    (hacts : Along step Separate (initial machine) acts) :
    Always step Unmixed (initial machine) acts := by
  have hsim : Simulates step Aecram.State.step Separate Aecram.State.Separate
      fun (s : State ι) t => s.Inv ∧ s.Refines t := by
    rintro s t act ⟨h, hst⟩ hact
    exact ⟨[s.shadow act], ⟨separate_shadow h hst hact, trivial⟩, inv_step h act,
      refines_step h hst act⟩
  have hsame : ∀ (s : State ι) (t : Aecram.State ι), s.Inv ∧ s.Refines t → t.Inv → s.Unmixed := by
    rintro s t ⟨-, hst⟩ ht
    rw [Unmixed, ← hst.notes]
    exact ht.unmixed
  refine always_of_simulates hsim hsame ⟨inv_initial machine, refines_initial machine⟩ hacts ?_
  intro acts' hacts'
  exact (always_of_inv Aecram.State.Inv Aecram.State.Separate
    (fun t act ht hact => Aecram.State.inv_step ht act hact)
    (Aecram.State.inv_initial machine) hacts').last

/-- The step fills no cell, or the other one of two sessions has none in use. -/
def apart (s : State Bool) : Action Bool → Bool
  | .advance who _ =>
    match s.todo who, s.pc who with
    | .store _ :: _, _ | [], .copyIn _ => Aecram.State.Unused (s.view !who)
    | _, _ => true
  | _ => true

theorem not_live_of_unused {pc : Pc} (h : Aecram.State.Unused pc = true) (j : ℕ) :
    ¬Aecram.State.Live pc j := by
  intro hlive
  rcases pc with _ | req | ⟨req, i⟩ | ⟨req, i, val⟩ | ⟨req, _ | i⟩ | req
  · exact hlive
  · exact hlive
  · exact Bool.noConfusion h
  · exact Bool.noConfusion h
  · exact Nat.not_lt_zero j hlive
  · exact Bool.noConfusion h
  · exact Bool.noConfusion h

theorem separate_of_apart {s : State Bool} {act : Action Bool} (h : s.apart act = true) :
    s.Separate act := by
  cases act with
  | beginRead who req => trivial
  | beginWrite who req => trivial
  | advance who interrupted =>
    intro w hw j hfills
    have hother : w = !who := (Bool.eq_not_of_ne hw)
    subst hother
    refine not_live_of_unused ?_ j
    simp only [apart] at h
    simp only [Fills] at hfills
    split at h
    · exact h
    · exact h
    · rename_i hstore hcopyIn
      split at hfills
      · rename_i i rest htodo
        exact (hstore i rest htodo).elim
      · exact hfills.elim
      · rename_i htodo
        split at hfills
        · rename_i req hpc
          exact (hcopyIn req htodo hpc).elim
        · exact hfills.elim

/-- A WRITE of one byte, in the middle of which another session begins a READ of it and has to
wait for the mutex. -/
def sampleActions : List (Action Bool) :=
  [.beginWrite false (Aecram.State.sampleRequest 3 9)] ++
    List.replicate 7 (.advance false false) ++
    [.beginRead true (Aecram.State.sampleRequest 3 0), .advance true false] ++
    List.replicate 9 (.advance false false) ++ List.replicate 16 (.advance true false)

theorem unmixed_at_ports_sampleActions :
    (run step (initial Aecram.State.sampleMachine) sampleActions).notes.length = 2 ∧
      Always step Unmixed (initial Aecram.State.sampleMachine) sampleActions := by
  refine ⟨by decide +kernel, unmixed_at_ports Aecram.State.sampleMachine sampleActions ?_⟩
  have happart : Along step (fun s act => s.apart act = true)
      (initial Aecram.State.sampleMachine) sampleActions := by decide +kernel
  exact happart.mono_of_inv (fun _ => True) (fun _ _ _ => trivial)
    (fun _ _ _ hact => separate_of_apart hact) trivial

end State
end Ports
end Aecram
end TjTools
