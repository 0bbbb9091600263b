/-
# Sessions at the same time

Calls of several sessions, interleaved: `aecram_unlocked_ioctl` of
`src/aecram/driver/driver.c` (lines 251-334) cut into the steps that nothing else can
get between.  A WRITE copies its request into the one staging buffer, then loads and
transfers byte after byte; a READ transfers byte after byte into the buffer, then copies
it out.  Only a transfer holds the mutex.

A monitor notes the memory at every moment of a call and what the calls store and return.
`unmixed_of_separate`: no session gets or stores another one's bytes in any run in which
no step overwrites a cell of the buffer that is `Live`, filled by another session and
still to be used.  Nothing in the driver keeps steps from doing so
(`not_always_unmixed`).
-/

import TjTools.Aecram.Transfer
import TjTools.Basis.Runs

namespace TjTools
namespace Aecram

open Runs

/-- What a session is about to do. -/
inductive Pc where
  | idle
  /-- `__copy_from_user` -/
  | copyIn (req : Request)
  /-- The load of `d->buffer[i]`, the argument of `aecram_write`. -/
  | load (req : Request) (i : ℕ)
  /-- `aecram_write` of a byte loaded. -/
  | write (req : Request) (i : ℕ) (val : UInt8)
  /-- `aecram_read` into `d->buffer[i]`. -/
  | read (req : Request) (i : ℕ)
  /-- `__copy_to_user` -/
  | copyOut (req : Request)
  deriving DecidableEq

/-- What the monitor notes. -/
inductive Note (ι : Type) where
  /-- After a transfer of byte `i` the address holds `val`. -/
  | stored (who : ι) (req : Request) (i : ℕ) (address : UInt16) (val : UInt8)
  /-- A READ returned, and `seen` is the memory at the moments of its call. -/
  | returned (who : ι) (req : Request) (buffer : Buffer) (seen : List (UInt16 → UInt8))

structure State (ι : Type) where
  machine : Machine
  pc : ι → Pc
  /-- The memory at every moment since the session's last call began. -/
  seen : ι → List (UInt16 → UInt8)
  notes : List (Note ι)

inductive Action (ι : Type) where
  /-- A session that is idle is called with a valid request. -/
  | beginRead (who : ι) (req : Request)
  | beginWrite (who : ι) (req : Request)
  /-- The next step of a session; a signal may interrupt its attempt to take the mutex. -/
  | advance (who : ι) (interrupted : Bool)

/-- What was stored is the request's byte at its address, and what was returned are bytes that
the addresses of the request held during the call. -/
def Note.Own {ι : Type} : Note ι → Prop
  | .stored _ req i address val =>
    i < req.length.toNat ∧ address = req.offset + UInt16.ofNat i ∧ val = cell req.buffer i
  | .returned _ req buffer seen =>
    ∀ i < req.length.toNat, ∃ ram ∈ seen, cell buffer i = ram (req.offset + UInt16.ofNat i)

namespace State

variable {ι : Type}

def ram (s : State ι) : UInt16 → UInt8 := s.machine.controller.ram

/-- The monitor sees the memory. -/
def observe (s : State ι) : State ι := { s with seen := fun w => s.ram :: s.seen w }

def withMachine (s : State ι) (machine : Machine) : State ι := { s with machine := machine }

def note (s : State ι) (n : Note ι) : State ι := { s with notes := s.notes ++ [n] }

section

variable (s : State ι) (machine : Machine) (n : Note ι)

@[simp] theorem withMachine_machine : (s.withMachine machine).machine = machine := rfl
@[simp] theorem withMachine_seen : (s.withMachine machine).seen = s.seen := rfl
@[simp] theorem withMachine_notes : (s.withMachine machine).notes = s.notes := rfl
@[simp] theorem withMachine_pc : (s.withMachine machine).pc = s.pc := rfl
@[simp] theorem note_machine : (s.note n).machine = s.machine := rfl
@[simp] theorem note_seen : (s.note n).seen = s.seen := rfl
@[simp] theorem note_notes : (s.note n).notes = s.notes ++ [n] := rfl
@[simp] theorem note_pc : (s.note n).pc = s.pc := rfl

end

variable [DecidableEq ι]

def goto (s : State ι) (who : ι) (pc : Pc) : State ι :=
  { s with pc := Function.update s.pc who pc }

/-- A call begins: its session watches the memory from here on. -/
def enter (s : State ι) (who : ι) (pc : Pc) : State ι :=
  { s.goto who pc with seen := Function.update s.seen who [s.ram] }

section

variable (s : State ι) (who : ι) (pc : Pc)

@[simp] theorem goto_machine : (s.goto who pc).machine = s.machine := rfl
@[simp] theorem goto_seen : (s.goto who pc).seen = s.seen := rfl
@[simp] theorem goto_notes : (s.goto who pc).notes = s.notes := rfl
@[simp] theorem goto_pc : (s.goto who pc).pc = Function.update s.pc who pc := rfl

end

/-- The requests that get past `is_valid_param` and are not empty. -/
def Admitted (req : Request) : Prop := isValidParam req.offset req.length = true ∧ req.length ≠ 0

instance (req : Request) : Decidable (Admitted req) := inferInstanceAs (Decidable (_ ∧ _))

/-- The next step of a session. -/
def advance (s : State ι) (who : ι) (interrupted : Bool) : State ι :=
  match s.pc who with
  | .idle => s
  | .copyIn req =>
    (s.goto who (.load req 0)).withMachine
      (s.machine.withBuffer (copyPrefix req.length.toNat req.buffer s.machine.buffer))
  | .load req i => s.goto who (.write req i (cell s.machine.buffer i))
  | .write req i val =>
    let address := req.offset + UInt16.ofNat i
    let (ret, m) := (s.machine.withInterrupts [interrupted]).aecramWrite configDefault address val
    if ret < 0 then (s.goto who .idle).withMachine m
    else
      ((s.goto who (if i + 1 < req.length.toNat then .load req (i + 1) else .idle)).withMachine
        m).note (.stored who req i address (m.controller.ram address))
  | .read req i =>
    let address := req.offset + UInt16.ofNat i
    let (ret, m) := (s.machine.withInterrupts [interrupted]).aecramRead configDefault address i
    if ret < 0 then (s.goto who .idle).withMachine m
    else
      (s.goto who
        (if i + 1 < req.length.toNat then .read req (i + 1) else .copyOut req)).withMachine m
  | .copyOut req =>
    (s.goto who .idle).note
      (.returned who req (copyPrefix req.length.toNat s.machine.buffer req.buffer) (s.seen who))

def step (s : State ι) : Action ι → State ι
  | .beginRead who req =>
    (if s.pc who = .idle ∧ Admitted req then s.enter who (.read req 0) else s).observe
  | .beginWrite who req =>
    (if s.pc who = .idle ∧ Admitted req then s.enter who (.copyIn req) else s).observe
  | .advance who interrupted => (s.advance who interrupted).observe

/-- Before the first call. -/
def initial (machine : Machine) : State ι :=
  { machine := machine
    pc := fun _ => .idle
    seen := fun _ => [machine.controller.ram]
    notes := [] }

/-! ### Cells in use -/

/-- A cell that a call has filled and is still to use. -/
def Live : Pc → ℕ → Prop
  | .load req i, j => i ≤ j ∧ j < req.length.toNat
  | .write req i _, j => i < j ∧ j < req.length.toNat
  | .read _ i, j => j < i
  | .copyOut req, j => j < req.length.toNat
  | _, _ => False

/-- A cell that a step fills. -/
def Fills (interrupted : Bool) : Pc → ℕ → Prop
  | .copyIn req, j => j < req.length.toNat
  | .read _ i, j => interrupted = false ∧ j = i
  | _, _ => False

/-- The step overwrites no cell that another session has in use. -/
def Separate (s : State ι) : Action ι → Prop
  | .advance who interrupted =>
    ∀ w, w ≠ who → ∀ j, Fills interrupted (s.pc who) j → ¬Live (s.pc w) j
  | _ => True

/-- What the cells in use hold, for a session that has seen `seen`. -/
def Holds (buffer : Buffer) (seen : List (UInt16 → UInt8)) : Pc → Prop
  | .idle => True
  | .copyIn req => Admitted req
  | .load req i =>
    Admitted req ∧ i < req.length.toNat ∧
      ∀ j, i ≤ j → j < req.length.toNat → cell buffer j = cell req.buffer j
  | .write req i val =>
    Admitted req ∧ i < req.length.toNat ∧ val = cell req.buffer i ∧
      ∀ j, i < j → j < req.length.toNat → cell buffer j = cell req.buffer j
  | .read req i =>
    Admitted req ∧ i < req.length.toNat ∧
      ∀ j < i, ∃ ram ∈ seen, cell buffer j = ram (req.offset + UInt16.ofNat j)
  | .copyOut req =>
    ∀ j < req.length.toNat, ∃ ram ∈ seen, cell buffer j = ram (req.offset + UInt16.ofNat j)

/-- Every note is in order. -/
def Unmixed (s : State ι) : Prop := ∀ note ∈ s.notes, note.Own

structure Inv (s : State ι) : Prop where
  unmixed : s.Unmixed
  now : ∀ w, s.ram ∈ s.seen w
  holds : ∀ w, Holds s.machine.buffer (s.seen w) (s.pc w)

/-- A call keeps what it has as long as its cells in use do. -/
theorem Holds.mono {buffer buffer' : Buffer} {seen seen' : List (UInt16 → UInt8)} {pc : Pc}
    (h : Holds buffer seen pc) (hcells : ∀ j, Live pc j → cell buffer' j = cell buffer j)
    (hseen : ∀ ram ∈ seen, ram ∈ seen') : Holds buffer' seen' pc := by
  cases pc with
  | idle => trivial
  | copyIn req => exact h
  | load req i =>
    obtain ⟨hadmitted, hi, hholds⟩ := h
    exact ⟨hadmitted, hi, fun j hij hj => (hcells j ⟨hij, hj⟩).trans (hholds j hij hj)⟩
  | write req i val =>
    obtain ⟨hadmitted, hi, hval, hholds⟩ := h
    exact ⟨hadmitted, hi, hval, fun j hij hj => (hcells j ⟨hij, hj⟩).trans (hholds j hij hj)⟩
  | read req i =>
    obtain ⟨hadmitted, hi, hholds⟩ := h
    refine ⟨hadmitted, hi, fun j hj => ?_⟩
    obtain ⟨ram, hram, hcell⟩ := hholds j hj
    exact ⟨ram, hseen ram hram, (hcells j hj).trans hcell⟩
  | copyOut req =>
    intro j hj
    obtain ⟨ram, hram, hcell⟩ := h j hj
    exact ⟨ram, hseen ram hram, (hcells j hj).trans hcell⟩

theorem length_le_of_admitted {req : Request} (h : Admitted req) :
    0 < req.length.toNat ∧ req.length.toNat ≤ aecramBufferSize := by
  obtain ⟨hvalid, hne⟩ := h
  refine ⟨?_, ((isValidParam_iff _ _).1 hvalid).1⟩
  rw [Nat.pos_iff_ne_zero]
  intro hzero
  exact hne (UInt8.toNat_inj.1 hzero)

/-- **What one step of a session does**, by what the session was about to do.  The cells it
does not fill, the other sessions and what was seen stay. -/
structure Advanced (s s' : State ι) (who : ι) (interrupted : Bool) : Prop where
  others : ∀ w, w ≠ who → s'.pc w = s.pc w
  seen : s'.seen = s.seen
  cells : ∀ j, ¬Fills interrupted (s.pc who) j → cell s'.machine.buffer j = cell s.machine.buffer j
  notes : ∀ note ∈ s'.notes, note ∈ s.notes ∨ note.Own
  own : Holds s'.machine.buffer (s.seen who) (s'.pc who)

/-- A call that ends without a note, the buffer as it was. -/
theorem advanced_failed (s : State ι) (who : ι) (interrupted : Bool) {m : Machine}
    (hbuffer : m.buffer = s.machine.buffer) :
    Advanced s ((s.goto who .idle).withMachine m) who interrupted := by
  constructor
  · intro w hw
    simp [hw]
  · simp
  · intro j _
    simp [hbuffer]
  · intro note hnote
    exact .inl (by simpa using hnote)
  · simp [Holds]

theorem advanced_write {s : State ι} (h : s.Inv) {who : ι} {req : Request} {i : ℕ} {val : UInt8}
    (hpc : s.pc who = .write req i val) (interrupted : Bool) :
    Advanced s (s.advance who interrupted) who interrupted := by
  have hholds := h.holds who
  rw [hpc] at hholds
  obtain ⟨hadmitted, hi, hval, hcells⟩ := hholds
  unfold advance
  simp only [hpc]
  cases interrupted
  · have huninterrupted : (s.machine.withInterrupts [false]).Uninterrupted := by
      simp [Machine.Uninterrupted]
    obtain ⟨hret, hram, hbuffer, -, -⟩ := Machine.aecramWrite_run huninterrupted
      (req.offset + UInt16.ofNat i) val
    rcases hrun : (s.machine.withInterrupts [false]).aecramWrite configDefault
      (req.offset + UInt16.ofNat i) val with ⟨ret, m⟩
    rw [hrun] at hret hram hbuffer
    obtain rfl : ret = 0 := hret
    have hsame : m.buffer = s.machine.buffer := hbuffer
    simp only [Int.lt_irrefl, if_false]
    constructor
    · intro w hw
      simp [hw]
    · simp
    · intro j _
      simp [hsame]
    · intro note hnote
      simp only [note_notes, withMachine_notes, goto_notes, List.mem_append,
        List.mem_singleton] at hnote
      rcases hnote with hnote | rfl
      · exact .inl hnote
      · refine .inr ⟨hi, rfl, ?_⟩
        have hstored := congrFun hram (req.offset + UInt16.ofNat i)
        rw [Function.update_self] at hstored
        exact hstored.trans hval
    · simp only [note_pc, withMachine_pc, goto_pc, Function.update_self, note_machine,
        withMachine_machine, hsame]
      by_cases hnext : i + 1 < req.length.toNat
      · rw [if_pos hnext]
        exact ⟨hadmitted, hnext, fun j hij hj => hcells j hij hj⟩
      · rw [if_neg hnext]
        trivial
  · rw [Machine.aecramWrite_interrupted (Machine.withInterrupts_interrupts _ _)]
    exact advanced_failed s who true rfl

theorem advanced_read {s : State ι} (h : s.Inv) {who : ι} {req : Request} {i : ℕ}
    (hpc : s.pc who = .read req i) (interrupted : Bool) :
    Advanced s (s.advance who interrupted) who interrupted := by
  have hholds := h.holds who
  rw [hpc] at hholds
  obtain ⟨hadmitted, hi, hcells⟩ := hholds
  have hbound : i < aecramBufferSize := by
    have hle := (length_le_of_admitted hadmitted).2
    omega
  unfold advance
  simp only [hpc]
  cases interrupted
  · have huninterrupted : (s.machine.withInterrupts [false]).Uninterrupted := by
      simp [Machine.Uninterrupted]
    obtain ⟨hret, -, hbuffer, -, -⟩ := Machine.aecramRead_run huninterrupted
      (req.offset + UInt16.ofNat i) i
    rcases hrun : (s.machine.withInterrupts [false]).aecramRead configDefault
      (req.offset + UInt16.ofNat i) i with ⟨ret, m⟩
    rw [hrun] at hret hbuffer
    obtain rfl : ret = 0 := hret
    have hcell : ∀ j, cell m.buffer j =
        if j = i then s.ram (req.offset + UInt16.ofNat i) else cell s.machine.buffer j := by
      intro j
      rw [show m.buffer = _ from hbuffer, cell_setIfInBounds _ hbound]
      rfl
    -- byte `i` is what the address holds now, the bytes before it are as they were
    have hfetched : ∀ j < i + 1, ∃ ram ∈ s.seen who,
        cell m.buffer j = ram (req.offset + UInt16.ofNat j) := by
      intro j hj
      rw [hcell]
      by_cases hji : j = i
      · rw [if_pos hji, hji]
        exact ⟨s.ram, h.now who, rfl⟩
      · rw [if_neg hji]
        exact hcells j (by omega)
    simp only [Int.lt_irrefl, if_false]
    constructor
    · intro w hw
      simp [hw]
    · simp
    · intro j hj
      rw [hpc] at hj
      have hji : j ≠ i := fun heq => hj ⟨rfl, heq⟩
      rw [withMachine_machine, hcell, if_neg hji]
    · intro note hnote
      exact .inl (by simpa using hnote)
    · simp only [withMachine_pc, goto_pc, Function.update_self, withMachine_machine]
      by_cases hnext : i + 1 < req.length.toNat
      · rw [if_pos hnext]
        exact ⟨hadmitted, hnext, hfetched⟩
      · rw [if_neg hnext]
        intro j hj
        exact hfetched j (by omega)
  · rw [Machine.aecramRead_interrupted (Machine.withInterrupts_interrupts _ _)]
    exact advanced_failed s who true rfl

theorem advanced_copyIn {s : State ι} (h : s.Inv) {who : ι} {req : Request}
    (hpc : s.pc who = .copyIn req) (interrupted : Bool) :
    Advanced s (s.advance who interrupted) who interrupted := by
  have hadmitted : Admitted req := by
    have hholds := h.holds who
    rwa [hpc] at hholds
  unfold advance
  simp only [hpc]
  constructor
  · intro w hw
    simp [hw]
  · simp
  · intro j hj
    rw [hpc] at hj
    simp only [withMachine_machine, Machine.withBuffer_buffer, cell_copyPrefix]
    exact if_neg hj
  · intro note hnote
    exact .inl (by simpa using hnote)
  · simp only [withMachine_pc, goto_pc, Function.update_self, withMachine_machine,
      Machine.withBuffer_buffer]
    refine ⟨hadmitted, (length_le_of_admitted hadmitted).1, fun j _ hj => ?_⟩
    rw [cell_copyPrefix, if_pos hj]

/-- A step of a session, kind by kind. -/
theorem advanced {s : State ι} (h : s.Inv) (who : ι) (interrupted : Bool) :
    Advanced s (s.advance who interrupted) who interrupted := by
  cases hpc : s.pc who with
  | idle =>
    unfold advance
    simp only [hpc]
    refine ⟨fun _ _ => rfl, rfl, fun _ _ => rfl, fun _ hnote => .inl hnote, ?_⟩
    rw [hpc]
    trivial
  | copyIn req => exact advanced_copyIn h hpc interrupted
  | load req i =>
    have hholds := h.holds who
    rw [hpc] at hholds
    obtain ⟨hadmitted, hi, hcells⟩ := hholds
    unfold advance
    simp only [hpc]
    refine ⟨fun w hw => by simp [hw], rfl, fun _ _ => rfl, fun _ hnote => .inl hnote, ?_⟩
    simp only [goto_pc, Function.update_self, goto_machine]
    exact ⟨hadmitted, hi, hcells i (by omega) hi, fun j hij hj => hcells j (by omega) hj⟩
  | write req i val => exact advanced_write h hpc interrupted
  | read req i => exact advanced_read h hpc interrupted
  | copyOut req =>
    have hholds := h.holds who
    rw [hpc] at hholds
    unfold advance
    simp only [hpc]
    refine ⟨fun w hw => by simp [hw], rfl, fun _ _ => rfl, ?_, ?_⟩
    · intro note hnote
      simp only [note_notes, goto_notes, List.mem_append, List.mem_singleton] at hnote
      rcases hnote with hnote | rfl
      · exact .inl hnote
      · refine .inr fun i hi => ?_
        rw [cell_copyPrefix, if_pos hi]
        exact hholds i hi
    · simp only [note_pc, goto_pc, Function.update_self]
      trivial

omit [DecidableEq ι] in
/-- Once the monitor has seen the memory, what the sessions know holds all the more. -/
theorem inv_observe {s : State ι} (hunmixed : s.Unmixed)
    (hholds : ∀ w, Holds s.machine.buffer (s.seen w) (s.pc w)) : s.observe.Inv :=
  ⟨hunmixed, fun _ => List.mem_cons_self, fun w =>
    (hholds w).mono (fun _ _ => rfl) fun _ hram => List.mem_cons_of_mem _ hram⟩

theorem inv_enter {s : State ι} (h : s.Inv) {who : ι} {pc : Pc}
    (hpc : Holds s.machine.buffer [s.ram] pc) : (s.enter who pc).observe.Inv := by
  refine inv_observe h.unmixed fun w => ?_
  by_cases hw : w = who
  · subst hw
    simpa [enter] using hpc
  · simpa [enter, hw] using h.holds w

/-- **A separate step keeps the sessions apart.** -/
theorem inv_step {s : State ι} (h : s.Inv) (act : Action ι) (hact : s.Separate act) :
    (s.step act).Inv := by
  cases act with
  | beginRead who req =>
    simp only [step]
    split_ifs with hidle
    · refine inv_enter h ⟨hidle.2, (length_le_of_admitted hidle.2).1, fun j hj => ?_⟩
      omega
    · exact inv_observe h.unmixed h.holds
  | beginWrite who req =>
    simp only [step]
    split_ifs with hidle
    · exact inv_enter h hidle.2
    · exact inv_observe h.unmixed h.holds
  | advance who interrupted =>
    have hadvanced := advanced h who interrupted
    refine inv_observe ?_ ?_
    · intro note hnote
      rcases hadvanced.notes note hnote with hold | hown
      · exact h.unmixed note hold
      · exact hown
    · intro w
      rw [hadvanced.seen]
      by_cases hw : w = who
      · rw [hw]
        exact hadvanced.own
      · rw [hadvanced.others w hw]
        refine (h.holds w).mono (fun j hlive => ?_) fun _ hram => hram
        exact hadvanced.cells j fun hfills => hact w hw j hfills hlive

omit [DecidableEq ι] in
theorem inv_initial (machine : Machine) : (initial machine : State ι).Inv :=
  ⟨fun _ hnote => by simp [initial] at hnote, fun _ => List.mem_cons_self, fun _ => trivial⟩

/-- **Separate sessions do not mix.**  From every machine, in every interleaving no step of
which overwrites a cell of the buffer that another session has in use, every byte stored is
the request's own, and every byte returned is one that its address held during the call. -/
theorem unmixed_of_separate (machine : Machine) (acts : List (Action ι))
    (hacts : Along step Separate (initial machine) acts) :
    Always step Unmixed (initial machine) acts := by
  have hinv := always_of_inv Inv Separate
    (fun s act h hact => inv_step h act hact) (inv_initial machine) hacts
  exact hinv.mono fun s h => h.unmixed

/-- Where a session has no cell in use. -/
def Unused : Pc → Bool
  | .idle | .copyIn _ | .read _ 0 => true
  | _ => false

omit [DecidableEq ι] in
theorem separate_of_unused {s : State ι} {who : ι} {interrupted : Bool}
    (h : ∀ w, w ≠ who → Unused (s.pc w) = true) : s.Separate (.advance who interrupted) := by
  intro w hw j _ hlive
  have hunused := h w hw
  rcases hpc : s.pc w with _ | req | ⟨req, i⟩ | ⟨req, i, val⟩ | ⟨req, _ | i⟩ | req
  all_goals rw [hpc] at hlive hunused
  · exact hlive
  · exact hlive
  · exact Bool.noConfusion hunused
  · exact Bool.noConfusion hunused
  · exact Nat.not_lt_zero j hlive
  · exact Bool.noConfusion hunused
  · exact Bool.noConfusion hunused

/-- A machine before the first call. -/
def sampleMachine : Machine := ⟨⟨0, 0, 0, 0, fun _ => 5⟩, [], [], false, Vector.replicate 64 0⟩

/-- A request for one byte. -/
def sampleRequest (offset : UInt16) (val : UInt8) : Request := ⟨offset, 1, Vector.replicate 64 val⟩

/-- A READ begins, and before its first step a WRITE of another session is done. -/
def sampleActions : List (Action Bool) :=
  [.beginRead true (sampleRequest 3 0), .beginWrite false (sampleRequest 3 9),
    .advance false false, .advance false false, .advance false false,
    .advance true false, .advance true false]

theorem unmixed_of_separate_sampleActions :
    (run step (initial sampleMachine) sampleActions).notes.length = 2 ∧
      Always step Unmixed (initial sampleMachine) sampleActions := by
  refine ⟨by decide +kernel, unmixed_of_separate sampleMachine sampleActions ?_⟩
  refine ⟨trivial, trivial, ?_, ?_, ?_, ?_, ?_, trivial⟩
  all_goals
    refine separate_of_unused ?_
    decide +kernel

/-- Two sessions copy their requests in, one after the other: what the first one then stores
at its address is the byte of the second. -/
theorem not_always_unmixed :
    ¬∀ (machine : Machine) (acts : List (Action Bool)),
      Always step Unmixed (initial machine) acts := by
  intro h
  have hunmixed := (h sampleMachine
    [.beginWrite false (sampleRequest 3 9), .beginWrite true (sampleRequest 4 8),
      .advance false false, .advance true false, .advance false false, .advance false false]).last
  have hnote : .stored false (sampleRequest 3 9) 0 3 8 ∈ (run step (initial sampleMachine)
    [.beginWrite false (sampleRequest 3 9), .beginWrite true (sampleRequest 4 8),
      .advance false false, .advance true false, .advance false false,
      .advance false false]).notes := by
    exact List.mem_singleton.2 rfl
  obtain ⟨-, -, hval⟩ := hunmixed _ hnote
  revert hval
  decide +kernel

end State

end Aecram
end TjTools
