/-
# Sessions at the same time, port access by port access

The transfers of `src/aecram/driver/driver.c` (lines 89-182) are not single steps: each is
a dozen port accesses between `mutex_lock_interruptible` and `mutex_unlock`, and other
sessions run between any two of them.  Here a transfer is a straight-line program, the
one that `Driver` executes in one go (`aecramWrite_eq`, `aecramRead_eq`), and a session
executes its own one instruction at a time.  A session whose mutex is taken waits.

`inv_step`: whoever holds the mutex is in the middle of its program, and nobody else is.
`midway_write`, `midway_read`: then a WRITE of a byte takes effect with its last `outb`, a
READ when the byte is stored, and every other instruction leaves the memory and the
buffer alone, whatever other sessions do to the buffer meanwhile.
-/

import TjTools.Aecram.Interleaving
import TjTools.Basis.Lock
import Mathlib.Tactic.IntervalCases

namespace TjTools
namespace Aecram
namespace Ports

open Runs

/-! ### Transfers as programs -/

inductive Instr where
  | outb (value port : UInt8)
  | inb (port : UInt8)
  /-- `*val = …`, where `val` points to `buffer[i]`. -/
  | store (i : ℕ)
  /-- `mutex_unlock` -/
  | unlock
  deriving DecidableEq, Repr

/-- `cmd_out` -/
def cmdOut (cfg : Config) (cmd : AecCmd) : List Instr :=
  [.outb (cfg.cmdReg + 0) cfg.addrPort, .outb cmd.cmdType cfg.dataPort,
    .outb (cfg.cmdReg + 1) cfg.addrPort, .outb cmd.cmdArg cfg.dataPort]

/-- `cmd_in` -/
def cmdIn (cfg : Config) (cmd : AecCmd) : List Instr :=
  [.outb (cfg.cmdReg + 0) cfg.addrPort, .outb cmd.cmdType cfg.dataPort,
    .outb (cfg.cmdReg + 1) cfg.addrPort, .inb cfg.dataPort]

/-- `offset_high` -/
def offsetHigh (cfg : Config) (offset : UInt16) : List Instr :=
  cmdOut cfg ⟨cmdTypeOffsetHigh, ((offset >>> 8) &&& 0xff).toUInt8⟩

/-- `offset_low` -/
def offsetLow (cfg : Config) (offset : UInt16) : List Instr :=
  cmdOut cfg ⟨cmdTypeOffsetLow, (offset &&& 0xff).toUInt8⟩

/-- `write_value` -/
def writeValue (cfg : Config) (val : UInt8) : List Instr := cmdOut cfg ⟨cmdTypeSelectValue, val⟩

/-- `read_value` -/
def readValue (cfg : Config) : List Instr := cmdIn cfg ⟨cmdTypeSelectValue, 0⟩

/-- `aecram_write`, once it has the mutex. -/
def aecramWrite (cfg : Config) (offset : UInt16) (val : UInt8) : List Instr :=
  offsetHigh cfg offset ++ offsetLow cfg offset ++ writeValue cfg val ++ [.unlock]

/-- `aecram_read`, once it has the mutex. -/
def aecramRead (cfg : Config) (offset : UInt16) (i : ℕ) : List Instr :=
  offsetHigh cfg offset ++ offsetLow cfg offset ++ readValue cfg ++ [.store i, .unlock]

namespace Instr

/-- One instruction, on the machine and the value that the session has read last. -/
def exec : Machine × UInt8 → Instr → Machine × UInt8
  | (m, value), .outb v port => (m.outb v port, value)
  | (m, _), .inb port => ((m.inb port).2, (m.inb port).1)
  | (m, value), .store i => ({ m with buffer := m.buffer.setIfInBounds i value }, value)
  | (m, value), .unlock => (m.mutexUnlock, value)

/-- What it does to the controller. -/
def touch (c : Controller) : Instr → Controller
  | .outb v port => c.outb v port
  | _ => c

/-- The port access that it is, if it is one. -/
def access : Instr → Option PortAccess
  | .outb v port => some (.outb v port)
  | .inb port => some (.inb port)
  | _ => none

theorem exec_controller (m : Machine) (value : UInt8) (instr : Instr) :
    (exec (m, value) instr).1.controller = touch m.controller instr := by
  cases instr with
  | outb v port => rfl
  | inb port => rfl
  | store i => rfl
  | unlock => rfl

theorem exec_accesses (m : Machine) (value : UInt8) (instr : Instr) :
    (exec (m, value) instr).1.accesses = m.accesses ++ instr.access.toList := by
  cases instr with
  | outb v port => rfl
  | inb port => rfl
  | store i => exact (List.append_nil _).symm
  | unlock => exact (List.append_nil _).symm

/-- Only the byte that is stored changes the buffer. -/
theorem exec_buffer {instr : Instr} (h : ∀ i, instr ≠ .store i) (m : Machine) (value : UInt8) :
    (exec (m, value) instr).1.buffer = m.buffer := by
  cases instr with
  | outb v port => rfl
  | inb port => rfl
  | store i => exact absurd rfl (h i)
  | unlock => rfl

end Instr

/-- The program of a WRITE is what `aecram_write` does with the mutex. -/
theorem aecramWrite_eq {m : Machine} (h : m.Uninterrupted) (cfg : Config) (offset : UInt16)
    (val value : UInt8) :
    m.aecramWrite cfg offset val
      = (0, ((aecramWrite cfg offset val).foldl Instr.exec
          (m.mutexLockInterruptible.2, value)).1) := by
  unfold Machine.aecramWrite
  rw [Machine.mutexLockInterruptible_run h]
  rfl

/-- The program of a READ is what `aecram_read` does with the mutex. -/
theorem aecramRead_eq {m : Machine} (h : m.Uninterrupted) (cfg : Config) (offset : UInt16)
    (i : ℕ) (value : UInt8) :
    m.aecramRead cfg offset i
      = (0, ((aecramRead cfg offset i).foldl Instr.exec
          (m.mutexLockInterruptible.2, value)).1) := by
  unfold Machine.aecramRead
  rw [Machine.mutexLockInterruptible_run h]
  rfl

/-! ### Sessions -/

def address (req : Request) (i : ℕ) : UInt16 := req.offset + UInt16.ofNat i

/-- What a session executes with the mutex. -/
def program : Pc → List Instr
  | .write req i val => aecramWrite configDefault (address req i) val
  | .read req i => aecramRead configDefault (address req i) i
  | _ => []

/-- A transfer is more than its last instruction. -/
theorem program_ne_unlock (pc : Pc) : program pc ≠ [.unlock] := by
  cases pc with
  | write req i val => simp [program, aecramWrite, offsetHigh, cmdOut]
  | read req i => simp [program, aecramRead, offsetHigh, cmdOut]
  | idle => simp [program]
  | copyIn req => simp [program]
  | load req i => simp [program]
  | copyOut req => simp [program]

/-- Where the loop of a call goes on after a byte. -/
def next : Pc → Pc
  | .write req i _ => if i + 1 < req.length.toNat then .load req (i + 1) else .idle
  | .read req i => if i + 1 < req.length.toNat then .read req (i + 1) else .copyOut req
  | pc => pc

structure State (ι : Type) where
  machine : Machine
  /-- Who holds the mutex. -/
  owner : Option ι
  /-- What a session is doing, or about to do. -/
  pc : ι → Pc
  /-- What it has still to execute of a transfer. -/
  todo : ι → List Instr
  /-- What its last `inb` returned. -/
  value : ι → UInt8
  /-- The memory at every moment since its last call began. -/
  seen : ι → List (UInt16 → UInt8)
  notes : List (Note ι)

namespace State

variable {ι : Type}

def ram (s : State ι) : UInt16 → UInt8 := s.machine.controller.ram

/-- The monitor sees the memory. -/
def observe (s : State ι) : State ι := { s with seen := fun w => s.ram :: s.seen w }

/-- What the monitor notes when a transfer has taken effect. -/
def landed (who : ι) (m : Machine) : Pc → List (Note ι)
  | .write req i _ => [.stored who req i (address req i) (m.controller.ram (address req i))]
  | _ => []

variable [DecidableEq ι]

def goto (s : State ι) (who : ι) (pc : Pc) : State ι :=
  { s with pc := Function.update s.pc who pc }

def enter (s : State ι) (who : ι) (pc : Pc) : State ι :=
  { s.goto who pc with seen := Function.update s.seen who [s.ram] }

/-- `mutex_lock_interruptible`, and then the program.  A session waits while another one
has the mutex, until a signal interrupts it. -/
def lock (s : State ι) (who : ι) (interrupted : Bool) : State ι :=
  if s.owner.isSome ∧ interrupted = false then s
  else
    let (ret, m) := (s.machine.withInterrupts [interrupted]).mutexLockInterruptible
    if ret < 0 then { s.goto who .idle with machine := m }
    else
      { s with
        machine := m
        owner := some who
        todo := Function.update s.todo who (program (s.pc who)) }

/-- One instruction of a transfer, with `rest` after it. -/
def execute (s : State ι) (who : ι) (instr : Instr) (rest : List Instr) : State ι :=
  let (m, value) := Instr.exec (s.machine, s.value who) instr
  { s with
    machine := m
    owner := if instr = .unlock then none else s.owner
    pc := if rest = [] then Function.update s.pc who (next (s.pc who)) else s.pc
    todo := Function.update s.todo who rest
    value := Function.update s.value who value
    notes := s.notes ++ if rest = [.unlock] then landed who m (s.pc who) else [] }

/-- The next step of a session. -/
def advance (s : State ι) (who : ι) (interrupted : Bool) : State ι :=
  match s.todo who with
  | instr :: rest => s.execute who instr rest
  | [] =>
    match s.pc who with
    | .idle => s
    | .copyIn req =>
      { s.goto who (.load req 0) with
        machine := s.machine.withBuffer
          (copyPrefix req.length.toNat req.buffer s.machine.buffer) }
    | .load req i => s.goto who (.write req i (cell s.machine.buffer i))
    | .write _ _ _ | .read _ _ => s.lock who interrupted
    | .copyOut req =>
      { s.goto who .idle with
        notes := s.notes ++ [.returned who req
          (copyPrefix req.length.toNat s.machine.buffer req.buffer) (s.seen who)] }

def step (s : State ι) : Action ι → State ι
  | .beginRead who req =>
    (if s.pc who = .idle ∧ State.Admitted req then s.enter who (.read req 0) else s).observe
  | .beginWrite who req =>
    (if s.pc who = .idle ∧ State.Admitted req then s.enter who (.copyIn req) else s).observe
  | .advance who interrupted => (s.advance who interrupted).observe

/-- Before the first call, the mutex free. -/
def initial (machine : Machine) : State ι :=
  { machine := machine.mutexUnlock
    owner := none
    pc := fun _ => .idle
    todo := fun _ => []
    value := fun _ => 0
    seen := fun _ => [machine.controller.ram]
    notes := [] }

end State
/-! ### Where a transfer stands -/

/-- The first instructions of a session's program have been executed on some controller, and
the rest is still to do. -/
def Midway (pc : Pc) (todo : List Instr) (c : Controller) (value : UInt8) : Prop :=
  ∃ (c₀ : Controller) (k : ℕ), todo = (program pc).drop k ∧
    c = ((program pc).take k).foldl Instr.touch c₀ ∧
    ∀ req i, pc = .read req i → 12 ≤ k → value = c₀.ram (address req i)

theorem midway_start (pc : Pc) (c : Controller) (value : UInt8) :
    Midway pc (program pc) c value := by
  refine ⟨c, 0, rfl, rfl, fun _ _ _ hk => ?_⟩
  omega

/-- **A WRITE of a byte.**  The memory changes with the last port access and with no other,
and then it does at the address of the byte and nowhere else. -/
theorem midway_write {req : Request} {i : ℕ} {val value : UInt8} {instr : Instr}
    {rest : List Instr} {c : Controller} (h : Midway (.write req i val) (instr :: rest) c value) :
    (Instr.touch c instr).ram
        = (if rest = [.unlock] then Function.update c.ram (address req i) val else c.ram) ∧
      (instr = .unlock ↔ rest = []) ∧ ∀ j, instr ≠ .store j := by
  obtain ⟨c₀, k, htodo, rfl, -⟩ := h
  have hk : k < 13 := by
    have hlength := congrArg List.length htodo
    rw [List.length_drop, List.length_cons] at hlength
    have htotal : (program (.write req i val)).length = 13 := rfl
    omega
  interval_cases k
  case «11» =>
    obtain ⟨rfl, rfl⟩ := List.cons.inj htodo
    refine ⟨?_, ⟨nofun, nofun⟩, nofun⟩
    have haddress := Controller.address_held (address req i) c₀
    change _ = Function.update c₀.ram (address req i) val
    rw [← haddress]
    rfl
  case «12» =>
    obtain ⟨rfl, rfl⟩ := List.cons.inj htodo
    exact ⟨rfl, ⟨fun _ => rfl, fun _ => rfl⟩, nofun⟩
  -- the accesses that set up the address, and the selection of the value
  all_goals
    obtain ⟨rfl, rfl⟩ := List.cons.inj htodo
    exact ⟨rfl, ⟨nofun, nofun⟩, nofun⟩

/-- **A READ of a byte.**  The memory stays; what is stored is what the address of the byte
holds, and nothing else is. -/
theorem midway_read {req : Request} {i : ℕ} {value : UInt8} {instr : Instr}
    {rest : List Instr} {c : Controller} (h : Midway (.read req i) (instr :: rest) c value) :
    (Instr.touch c instr).ram = c.ram ∧ (instr = .unlock ↔ rest = []) ∧
      (if rest = [.unlock] then instr = .store i ∧ value = c.ram (address req i)
        else ∀ j, instr ≠ .store j) := by
  obtain ⟨c₀, k, htodo, rfl, hvalue⟩ := h
  have hk : k < 14 := by
    have hlength := congrArg List.length htodo
    rw [List.length_drop, List.length_cons] at hlength
    have htotal : (program (.read req i)).length = 14 := rfl
    omega
  interval_cases k
  case «12» =>
    obtain ⟨rfl, rfl⟩ := List.cons.inj htodo
    exact ⟨rfl, ⟨nofun, nofun⟩, rfl, hvalue req i rfl le_rfl⟩
  case «13» =>
    obtain ⟨rfl, rfl⟩ := List.cons.inj htodo
    exact ⟨rfl, ⟨fun _ => rfl, fun _ => rfl⟩, nofun⟩
  all_goals
    obtain ⟨rfl, rfl⟩ := List.cons.inj htodo
    exact ⟨rfl, ⟨nofun, nofun⟩, nofun⟩

/-- An instruction on, the transfer stands one instruction further. -/
theorem midway_exec {pc : Pc} {instr : Instr} {rest : List Instr} {m : Machine} {value : UInt8}
    (h : Midway pc (instr :: rest) m.controller value) :
    Midway pc rest (Instr.touch m.controller instr) (Instr.exec (m, value) instr).2 := by
  obtain ⟨c₀, k, htodo, hc, hvalue⟩ := h
  have hk : k < (program pc).length := by
    by_contra hle
    rw [List.drop_eq_nil_of_le (by omega)] at htodo
    cases htodo
  rw [List.drop_eq_getElem_cons hk] at htodo
  obtain ⟨rfl, rfl⟩ := List.cons.inj htodo
  refine ⟨c₀, k + 1, rfl, ?_, ?_⟩
  · rw [← List.take_concat_get' _ _ hk, List.foldl_append, ← hc]
    rfl
  · rintro req i rfl hlater
    have hk : k < 14 := hk
    rcases (by omega : k = 11 ∨ k = 12 ∨ k = 13) with rfl | rfl | rfl
    · -- `inb`, with the address set up
      have haddress := Controller.address_held (address req i) c₀
      have hread : (Instr.exec (m, value) (.inb configDefault.dataPort)).2
          = c₀.ram (c₀.held (address req i)).address := by
        show m.controller.inb configDefault.dataPort = _
        rw [hc]
        rfl
      rw [haddress] at hread
      exact hread
    · exact hvalue req i rfl le_rfl
    · exact hvalue req i rfl (by omega)

/-- Only the transfer of a byte is a program. -/
theorem midway_cases {pc : Pc} {instr : Instr} {rest : List Instr} {c : Controller}
    {value : UInt8} (h : Midway pc (instr :: rest) c value) :
    (∃ req i val, pc = .write req i val) ∨ ∃ req i, pc = .read req i := by
  obtain ⟨c₀, k, htodo, -, -⟩ := h
  cases pc with
  | write req i val => exact .inl ⟨req, i, val, rfl⟩
  | read req i => exact .inr ⟨req, i, rfl⟩
  | idle => simp [program] at htodo
  | copyIn req => simp [program] at htodo
  | load req i => simp [program] at htodo
  | copyOut req => simp [program] at htodo

theorem midway_unlock {pc : Pc} {instr : Instr} {rest : List Instr} {c : Controller}
    {value : UInt8} (h : Midway pc (instr :: rest) c value) : instr = .unlock ↔ rest = [] := by
  rcases midway_cases h with ⟨req, i, val, rfl⟩ | ⟨req, i, rfl⟩
  · exact (midway_write h).2.1
  · exact (midway_read h).2.1

namespace State

variable {ι : Type}

/-! ### The mutex -/

/-- Who has the mutex is in the middle of a transfer, and nobody else is. -/
structure Inv (s : State ι) : Prop where
  guards : Guards s.owner fun w => s.todo w ≠ []
  midway : ∀ w, s.todo w ≠ [] → Midway (s.pc w) (s.todo w) s.machine.controller (s.value w)

theorem inv_observe {s : State ι} (h : s.Inv) : s.observe.Inv := ⟨h.guards, h.midway⟩

theorem inv_initial (machine : Machine) : (initial machine : State ι).Inv := by
  constructor
  · intro w
    simp [initial]
  · intro w hw
    exact absurd rfl hw

/-- A step outside the transfers keeps them. -/
theorem inv_of_eq {s s' : State ι} (h : s.Inv) (howner : s'.owner = s.owner)
    (htodo : s'.todo = s.todo) (hvalue : s'.value = s.value)
    (hcontroller : s'.machine.controller = s.machine.controller)
    (hpc : ∀ w, s.todo w ≠ [] → s'.pc w = s.pc w) : s'.Inv := by
  constructor
  · rw [howner, htodo]
    exact h.guards
  · intro w hw
    rw [htodo] at hw
    rw [hpc w hw, htodo, hcontroller, hvalue]
    exact h.midway w hw

variable [DecidableEq ι]

section

variable (s : State ι) (who : ι) (instr : Instr) (rest : List Instr)

@[simp] theorem execute_machine :
    (s.execute who instr rest).machine = (Instr.exec (s.machine, s.value who) instr).1 := rfl
@[simp] theorem execute_owner :
    (s.execute who instr rest).owner = if instr = .unlock then none else s.owner := rfl
@[simp] theorem execute_pc : (s.execute who instr rest).pc =
    if rest = [] then Function.update s.pc who (next (s.pc who)) else s.pc := rfl
@[simp] theorem execute_todo :
    (s.execute who instr rest).todo = Function.update s.todo who rest := rfl
@[simp] theorem execute_value : (s.execute who instr rest).value =
    Function.update s.value who (Instr.exec (s.machine, s.value who) instr).2 := rfl
@[simp] theorem execute_seen : (s.execute who instr rest).seen = s.seen := rfl
@[simp] theorem execute_notes : (s.execute who instr rest).notes = s.notes ++
    if rest = [.unlock] then landed who (Instr.exec (s.machine, s.value who) instr).1 (s.pc who)
      else [] := rfl

theorem execute_ram :
    (s.execute who instr rest).ram = (Instr.touch s.machine.controller instr).ram := by
  rw [ram, execute_machine, Instr.exec_controller]

end

omit [DecidableEq ι] in
/-- Whoever else is asked while one session is in a transfer is not in one. -/
theorem Inv.todo_eq_nil {s : State ι} (h : s.Inv) {who w : ι} (hwho : s.todo who ≠ [])
    (hw : w ≠ who) : s.todo w = [] := by
  by_contra htodo
  exact hw (h.guards.exclusive htodo hwho)

theorem inv_execute {s : State ι} (h : s.Inv) {who : ι} {instr : Instr} {rest : List Instr}
    (htodo : s.todo who = instr :: rest) : (s.execute who instr rest).Inv := by
  have hinside : s.todo who ≠ [] := by
    rw [htodo]
    exact List.cons_ne_nil _ _
  have howner : s.owner = some who := (h.guards who).1 hinside
  have hmidway := h.midway who hinside
  rw [htodo] at hmidway
  have hothers : ∀ w, w ≠ who → (s.execute who instr rest).todo w = s.todo w := by
    intro w hw
    rw [execute_todo, Function.update_of_ne hw]
  constructor
  · rw [execute_owner]
    by_cases hunlock : instr = .unlock
    · have hdone : ¬(s.execute who instr rest).todo who ≠ [] := by
        simpa using (midway_unlock hmidway).1 hunlock
      have hleave : Guards (if s.owner = some who then none else s.owner)
          fun w => (s.execute who instr rest).todo w ≠ [] :=
        h.guards.leave hdone fun w hw => by rw [hothers w hw]
      rw [if_pos howner] at hleave
      rw [if_pos hunlock]
      exact hleave
    · have hrest : rest ≠ [] := fun hnil => hunlock ((midway_unlock hmidway).2 hnil)
      have hstays : (s.execute who instr rest).todo who ≠ [] ↔ s.todo who ≠ [] := by
        simp [htodo, hrest]
      rw [if_neg hunlock]
      exact h.guards.keep hstays fun w hw => by rw [hothers w hw]
  · intro w hw
    by_cases hwho : w = who
    · subst hwho
      have hrest : rest ≠ [] := by simpa using hw
      have hnext := midway_exec hmidway
      simpa [hrest, Instr.exec_controller] using hnext
    · rw [hothers w hwho] at hw
      exact absurd (h.todo_eq_nil hinside hwho) hw

/-- What an attempt to take the mutex does: nothing while another session has it, nothing
but end the call where a signal interrupts it, or start the program. -/
theorem lock_cases (s : State ι) (who : ι) (interrupted : Bool) :
    (interrupted = true ∧ s.lock who interrupted
        = { s.goto who .idle with machine := s.machine.withInterrupts [] }) ∨
      (interrupted = false ∧ s.owner ≠ none ∧ s.lock who interrupted = s) ∨
        (interrupted = false ∧ s.owner = none ∧ s.lock who interrupted
          = { s with
              machine := { s.machine.withInterrupts [] with mtxHeld := true }
              owner := some who
              todo := Function.update s.todo who (program (s.pc who)) }) := by
  cases interrupted
  · by_cases howner : s.owner = none
    · refine .inr (.inr ⟨rfl, howner, ?_⟩)
      have hfree : ¬(s.owner.isSome = true ∧ false = false) := by simp [howner]
      rw [lock, if_neg hfree]
      rfl
    · refine .inr (.inl ⟨rfl, howner, ?_⟩)
      have htaken : s.owner.isSome = true := Option.isSome_iff_ne_none.2 howner
      rw [lock, if_pos ⟨htaken, rfl⟩]
  · refine .inl ⟨rfl, ?_⟩
    rw [lock, if_neg (by simp)]
    rfl

theorem inv_lock {s : State ι} (h : s.Inv) {who : ι} (htodo : s.todo who = [])
    (hprogram : program (s.pc who) ≠ []) (interrupted : Bool) :
    (s.lock who interrupted).Inv := by
  rcases lock_cases s who interrupted with ⟨-, hlock⟩ | ⟨-, -, hlock⟩ | ⟨-, hfree, hlock⟩
  · rw [hlock]
    refine inv_of_eq h rfl rfl rfl rfl fun w hw => ?_
    have hne : w ≠ who := fun heq => hw (heq ▸ htodo)
    exact Function.update_of_ne hne _ _
  · rw [hlock]
    exact h
  · rw [hlock]
    have hguards := h.guards
    rw [hfree] at hguards
    constructor
    · refine hguards.acquire ?_ fun w hw => ?_
      · simpa using hprogram
      · simp [hw]
    · intro w hw
      by_cases hwho : w = who
      · subst hwho
        have hstart := midway_start (s.pc w) s.machine.controller (s.value w)
        simpa using hstart
      · have hnil : s.todo w = [] := by
          by_contra hinside
          cases (hguards w).1 hinside
        exact absurd (by simp [hwho, hnil]) hw

omit [DecidableEq ι] in
/-- A session that is idle is not in a transfer. -/
theorem Inv.todo_of_idle {s : State ι} (h : s.Inv) {who : ι} (hidle : s.pc who = .idle) :
    s.todo who = [] := by
  by_contra htodo
  obtain ⟨instr, rest, htodo⟩ := List.exists_cons_of_ne_nil htodo
  have hmidway := h.midway who (by simp [htodo])
  rw [htodo] at hmidway
  rcases midway_cases hmidway with ⟨req, i, val, hpc⟩ | ⟨req, i, hpc⟩
  · cases hidle.symm.trans hpc
  · cases hidle.symm.trans hpc

theorem inv_enter {s : State ι} (h : s.Inv) {who : ι} (hidle : s.pc who = .idle) (pc : Pc) :
    (s.enter who pc).Inv := by
  refine inv_of_eq h rfl rfl rfl rfl fun w hw => ?_
  have hne : w ≠ who := by
    rintro rfl
    exact hw (h.todo_of_idle hidle)
  exact Function.update_of_ne hne _ _

theorem advance_execute {s : State ι} {who : ι} {instr : Instr} {rest : List Instr}
    (htodo : s.todo who = instr :: rest) (interrupted : Bool) :
    s.advance who interrupted = s.execute who instr rest := by
  simp only [advance, htodo]

theorem inv_advance {s : State ι} (h : s.Inv) (who : ι) (interrupted : Bool) :
    (s.advance who interrupted).Inv := by
  cases htodo : s.todo who with
  | cons instr rest =>
    rw [advance_execute htodo]
    exact inv_execute h htodo
  | nil =>
    have hother : ∀ pc w, s.todo w ≠ [] → Function.update s.pc who pc w = s.pc w := by
      intro pc w hw
      have hne : w ≠ who := fun heq => hw (heq ▸ htodo)
      exact Function.update_of_ne hne _ _
    cases hpc : s.pc who with
    | idle =>
      simp only [advance, htodo, hpc]
      exact h
    | copyIn req =>
      simp only [advance, htodo, hpc]
      exact inv_of_eq h rfl rfl rfl (Machine.withBuffer_controller _ _) (hother _)
    | load req i =>
      simp only [advance, htodo, hpc]
      exact inv_of_eq h rfl rfl rfl rfl (hother _)
    | write req i val =>
      simp only [advance, htodo, hpc]
      exact inv_lock h htodo (by simp [hpc, program, aecramWrite]) interrupted
    | read req i =>
      simp only [advance, htodo, hpc]
      exact inv_lock h htodo (by simp [hpc, program, aecramRead]) interrupted
    | copyOut req =>
      simp only [advance, htodo, hpc]
      exact inv_of_eq h rfl rfl rfl rfl (hother _)

/-- **The mutex guards the ports**, whatever a session does next. -/
theorem inv_step {s : State ι} (h : s.Inv) (act : Action ι) : (s.step act).Inv := by
  cases act with
  | beginRead who req =>
    refine inv_observe ?_
    split_ifs with hidle
    · exact inv_enter h hidle.1 _
    · exact h
  | beginWrite who req =>
    refine inv_observe ?_
    split_ifs with hidle
    · exact inv_enter h hidle.1 _
    · exact h
  | advance who interrupted => exact inv_observe (inv_advance h who interrupted)

end State
end Ports
end Aecram
end TjTools
