/-
# Where bytes come from

What sessions at the same time can do to the memory at all, also where they overwrite
each other's cells of the buffer.  An address changes only if a WRITE that was begun
covers it; and no byte is made up: what an address holds, and what a READ returns, was in
the memory or in the buffer at the beginning, or is a byte of a WRITE that was begun
(`origin_at_ports`).  Which byte ends up where is another matter: see `Interleaving`.
-/

import TjTools.Aecram.Linearize

namespace TjTools
namespace Aecram

open Runs
open Ports (address next)

/-- A request covers an address. -/
def Covers (req : Request) (a : UInt16) : Prop := ∃ i < req.length.toNat, a = address req i

/-- The bytes that a note is about are known. -/
def Note.Known {ι : Type} (known : UInt8 → Prop) : Note ι → Prop
  | .stored _ _ _ _ val => known val
  | .returned _ req buffer _ => ∀ j < req.length.toNat, known (cell buffer j)

namespace State

variable {ι : Type}

/-- A place in a call of a WRITE that was begun, with known bytes only. -/
def Begun (begun : Request → Prop) (known : UInt8 → Prop) : Pc → Prop
  | .idle => True
  | .copyIn req => begun req ∧ Admitted req
  | .load req i => begun req ∧ Admitted req ∧ i < req.length.toNat
  | .write req i val => begun req ∧ Admitted req ∧ i < req.length.toNat ∧ known val
  | .read req _ => Admitted req
  | .copyOut req => Admitted req

/-- Since the memory was `ram`, only WRITEs that were begun have changed it, and only to known
bytes. -/
structure Origins (begun : Request → Prop) (known : UInt8 → Prop) (ram : UInt16 → UInt8)
    (s : State ι) : Prop where
  ram : ∀ a, s.ram a = ram a ∨ (∃ req, begun req ∧ Covers req a) ∧ known (s.ram a)
  buffer : ∀ j < aecramBufferSize, known (cell s.machine.buffer j)
  pc : ∀ w, Begun begun known (s.pc w)
  notes : ∀ note ∈ s.notes, note.Known known

variable {begun : Request → Prop} {known : UInt8 → Prop} {ram : UInt16 → UInt8}

theorem Origins.observe {s : State ι} (h : s.Origins begun known ram) :
    s.observe.Origins begun known ram := ⟨h.ram, h.buffer, h.pc, h.notes⟩

/-- Every byte of the memory is known. -/
theorem Origins.known_ram {s : State ι} (h : s.Origins begun known ram)
    (hram : ∀ a, known (ram a)) (a : UInt16) : known (s.ram a) := by
  rcases h.ram a with heq | ⟨-, hknown⟩
  · rw [heq]
    exact hram a
  · exact hknown

variable [DecidableEq ι]

/-- A step that takes a session to another place, with the notes that it makes. -/
theorem Origins.goto {s : State ι} (h : s.Origins begun known ram) (who : ι) {pc : Pc}
    {m : Machine} {notes : List (Note ι)} (hpc : Begun begun known pc)
    (hram : ∀ a, m.controller.ram a = ram a ∨
      (∃ req, begun req ∧ Covers req a) ∧ known (m.controller.ram a))
    (hbuffer : ∀ j < aecramBufferSize, known (cell m.buffer j))
    (hnotes : ∀ note ∈ notes, note.Known known) :
    ({ s.goto who pc with machine := m, notes := notes } : State ι).Origins begun known ram := by
  refine ⟨hram, hbuffer, fun w => ?_, hnotes⟩
  by_cases hw : w = who
  · subst hw
    simpa using hpc
  · simpa [hw] using h.pc w

omit [DecidableEq ι] in
theorem Origins.note {s : State ι} (h : s.Origins begun known ram) {n : Note ι}
    (hn : n.Known known) : ∀ note ∈ s.notes ++ [n], note.Known known := by
  intro note hmem
  rcases List.mem_append.1 hmem with hmem | hmem
  · exact h.notes note hmem
  · rw [List.mem_singleton.1 hmem]
    exact hn

/-- The write of a byte. -/
theorem Origins.store {s : State ι} (h : s.Origins begun known ram) {who : ι} {req : Request}
    {i : ℕ} {val : UInt8} (hpc : s.pc who = .write req i val) (interrupted : Bool) :
    (s.advance who interrupted).Origins begun known ram := by
  have hwho := h.pc who
  rw [hpc] at hwho
  obtain ⟨hbegun, hadmitted, hi, hval⟩ := hwho
  cases interrupted
  · obtain ⟨m, hm, hbuffer, hadvance⟩ := Ports.State.advance_write hpc
    have hstored : ∀ a, m.controller.ram a = ram a ∨
        (∃ req, begun req ∧ Covers req a) ∧ known (m.controller.ram a) := by
      intro a
      rw [hm]
      by_cases ha : a = address req i
      · rw [ha, Function.update_self]
        exact .inr ⟨⟨req, hbegun, i, hi, rfl⟩, hval⟩
      · rw [Function.update_of_ne ha]
        exact h.ram a
    have hsame : ∀ j < aecramBufferSize, known (cell m.buffer j) := by
      rw [hbuffer]
      exact h.buffer
    rw [hadvance]
    refine h.goto who ?_ hstored hsame (h.note hval)
    simp only [next]
    split_ifs with hmore
    · exact ⟨hbegun, hadmitted, hmore⟩
    · trivial
  · rw [Ports.State.advance_interrupted (.inl ⟨req, i, val, hpc⟩)]
    exact h.goto who trivial h.ram h.buffer h.notes

/-- The read of a byte. -/
theorem Origins.fetch {s : State ι} (h : s.Origins begun known ram)
    (hram : ∀ a, known (ram a)) {who : ι} {req : Request} {i : ℕ}
    (hpc : s.pc who = .read req i) (interrupted : Bool) :
    (s.advance who interrupted).Origins begun known ram := by
  have hwho := h.pc who
  rw [hpc] at hwho
  cases interrupted
  · obtain ⟨m, hm, hbuffer, hadvance⟩ := Ports.State.advance_read hpc
    have hfetched : ∀ j < aecramBufferSize, known (cell m.buffer j) := by
      intro j hj
      rw [hbuffer]
      by_cases hi : i < aecramBufferSize
      · rw [cell_setIfInBounds _ hi]
        split_ifs
        · exact h.known_ram hram _
        · exact h.buffer j hj
      · rw [Vector.setIfInBounds_eq_of_size_le (by omega)]
        exact h.buffer j hj
    have hsame : ∀ a, m.controller.ram a = ram a ∨
        (∃ req, begun req ∧ Covers req a) ∧ known (m.controller.ram a) := by
      rw [hm]
      exact h.ram
    rw [hadvance]
    refine h.goto who ?_ hsame hfetched h.notes
    simp only [next]
    split_ifs
    · exact hwho
    · exact hwho
  · rw [Ports.State.advance_interrupted (.inr ⟨req, i, hpc⟩)]
    exact h.goto who trivial h.ram h.buffer h.notes

theorem Origins.advance {s : State ι} (h : s.Origins begun known ram)
    (hbytes : ∀ req, begun req → ∀ j < req.length.toNat, known (cell req.buffer j))
    (hram : ∀ a, known (ram a)) (who : ι) (interrupted : Bool) :
    (s.advance who interrupted).Origins begun known ram := by
  have hwho := h.pc who
  cases hpc : s.pc who with
  | idle =>
    simp only [State.advance, hpc]
    exact h
  | copyIn req =>
    rw [hpc] at hwho
    obtain ⟨hbegun, hadmitted⟩ := hwho
    simp only [State.advance, hpc]
    refine h.goto who ⟨hbegun, hadmitted, (length_le_of_admitted hadmitted).1⟩ h.ram ?_ h.notes
    intro j hj
    rw [Machine.withBuffer_buffer, cell_copyPrefix]
    split_ifs with hin
    · exact hbytes req hbegun j hin
    · exact h.buffer j hj
  | load req i =>
    rw [hpc] at hwho
    obtain ⟨hbegun, hadmitted, hi⟩ := hwho
    have hbound := (length_le_of_admitted hadmitted).2
    simp only [State.advance, hpc]
    exact h.goto who ⟨hbegun, hadmitted, hi, h.buffer i (by omega)⟩ h.ram h.buffer h.notes
  | write req i val => exact h.store hpc interrupted
  | read req i => exact h.fetch hram hpc interrupted
  | copyOut req =>
    rw [hpc] at hwho
    have hbound := (length_le_of_admitted hwho).2
    simp only [State.advance, hpc]
    refine h.goto who trivial h.ram h.buffer (h.note fun j hj => ?_)
    rw [cell_copyPrefix, if_pos hj]
    exact h.buffer j (by omega)

/-- What a step changes has an origin, if every WRITE that it begins is among those begun. -/
theorem Origins.step {s : State ι} (h : s.Origins begun known ram)
    (hbytes : ∀ req, begun req → ∀ j < req.length.toNat, known (cell req.buffer j))
    (hram : ∀ a, known (ram a)) (act : Action ι)
    (hact : ∀ who req, act = .beginWrite who req → begun req) :
    (s.step act).Origins begun known ram := by
  cases act with
  | beginRead who req =>
    refine Origins.observe ?_
    split_ifs with hidle
    · have hpc : Begun begun known (.read req 0) := hidle.2
      have hgoto := h.goto who hpc h.ram h.buffer h.notes
      exact ⟨hgoto.ram, hgoto.buffer, hgoto.pc, hgoto.notes⟩
    · exact h
  | beginWrite who req =>
    refine Origins.observe ?_
    split_ifs with hidle
    · have hpc : Begun begun known (.copyIn req) := ⟨hact who req rfl, hidle.2⟩
      have hgoto := h.goto who hpc h.ram h.buffer h.notes
      exact ⟨hgoto.ram, hgoto.buffer, hgoto.pc, hgoto.notes⟩
    · exact h
  | advance who interrupted => exact (h.advance hbytes hram who interrupted).observe

end State

namespace Ports
namespace State

variable {ι : Type} [DecidableEq ι]

/-- A WRITE of the request is begun. -/
def Begins (acts : List (Action ι)) (req : Request) : Prop := ∃ who, .beginWrite who req ∈ acts

/-- A byte of the memory or of the buffer before the first call, or of a WRITE begun. -/
def Origin (machine : Machine) (acts : List (Action ι)) (val : UInt8) : Prop :=
  (∃ a, val = machine.controller.ram a) ∨ (∃ j < aecramBufferSize, val = cell machine.buffer j) ∨
    ∃ req, Begins acts req ∧ ∃ j < req.length.toNat, val = cell req.buffer j

/-- **No byte is made up, and none strays.**  After every interleaving at the ports, also one
in which sessions overwrite each other's cells of the buffer, an address still holds what
it held at the beginning, or a WRITE that was begun covers it and it holds a byte of the
memory or of the buffer at the beginning or of a WRITE begun.  What was stored, and what a
READ returned, are such bytes too. -/
theorem origin_at_ports (machine : Machine) (acts : List (Action ι)) :
    (∀ a, (run step (initial machine) acts).ram a = machine.controller.ram a ∨
      (∃ req, Begins acts req ∧ Covers req a) ∧
        Origin machine acts ((run step (initial machine) acts).ram a)) ∧
    ∀ note ∈ (run step (initial machine) acts).notes, note.Known (Origin machine acts) := by
  obtain ⟨acts', hacts', -, hrefines⟩ := run_simulates
    (simulates (fun act => ∀ who req, act = .beginWrite who req → Begins acts req)
      (fun who w req heq => by cases heq) (fun who interrupted w req heq => by cases heq))
    ⟨inv_initial machine, refines_initial machine⟩ acts
    (along_of_forall (fun act hact who req heq => ⟨who, heq ▸ hact⟩) _)
  have hbytes : ∀ req, Begins acts req → ∀ j < req.length.toNat,
      Origin machine acts (cell req.buffer j) := by
    intro req hbegun j hj
    exact .inr (.inr ⟨req, hbegun, j, hj, rfl⟩)
  have hram : ∀ a, Origin machine acts (machine.controller.ram a) := fun a => .inl ⟨a, rfl⟩
  have hinitial : (Aecram.State.initial machine : Aecram.State ι).Origins (Begins acts)
      (Origin machine acts) machine.controller.ram :=
    ⟨fun a => .inl rfl, fun j hj => .inr (.inl ⟨j, hj, rfl⟩), fun w => trivial,
      fun note hmem => absurd hmem List.not_mem_nil⟩
  have horigins := (always_of_inv
    (Aecram.State.Origins (Begins acts) (Origin machine acts) machine.controller.ram)
    (fun _ act => ∀ who req, act = .beginWrite who req → Begins acts req)
    (fun _ act h hact => Aecram.State.Origins.step h hbytes hram act hact) hinitial hacts').last
  constructor
  · intro a
    rw [← hrefines.ram]
    exact horigins.ram a
  · rw [← hrefines.notes]
    exact horigins.notes

end State
end Ports
end Aecram
end TjTools
