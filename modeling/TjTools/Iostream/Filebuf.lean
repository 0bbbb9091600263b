/-
# The buffer under a file stream

`std::basic_filebuf` as libstdc++ writes it (`fstream.tcc`), over whatever a file
descriptor is open on.  One buffer serves reading and writing, so it is in one of
three modes: uncommitted, reading with a get area, or writing with a put area.

* The descriptor's offset is past everything the get area was filled with, so a
  change from reading to writing first seeks back over what is still unread.
* Bytes put are pending until `overflow` hands them to `write(2)`.  A call that
  fails leaves them pending.
* Seeking hands pending bytes over first, then drops the get area.

Elements inserted at once are assumed to fit the buffer; the shortcut that
libstdc++ takes for longer ones, writing them straight to the file, is left out.
-/

import Mathlib.Data.List.Basic

namespace TjTools
namespace Iostream

/-- What the system calls see: `read(2)` of up to a number of elements at an
offset, and `write(2)` at an offset, which says whether it succeeded. -/
class File (σ : Type*) (β : outParam (Type*)) where
  /-- `none` when the call fails. -/
  read : σ → ℕ → ℕ → Option (List β)
  write : σ → ℕ → List β → σ × Bool

variable {σ β : Type*}

/-- The mode of a buffer, with what it holds. -/
inductive Area (β : Type*) where
  | uncommitted
  | get (unread : List β)
  | put (pending : List β)
  deriving DecidableEq, Repr

structure Filebuf (σ β : Type*) where
  file : σ
  /-- Offset of the descriptor. -/
  offset : ℕ
  area : Area β

/-- Elements one `read(2)` asks for: `BUFSIZ - 1`. -/
def bufferLength : ℕ := 8191

/-- How a request for elements ends. -/
inductive Got where
  | all
  | endOfFile
  | failed
  deriving DecidableEq, Repr

namespace Filebuf

/-- A freshly opened file. -/
def opened (file : σ) : Filebuf σ β := ⟨file, 0, .uncommitted⟩

/-- Nothing is pending and nothing is read ahead. -/
def Clean (b : Filebuf σ β) : Prop := b.area = .uncommitted ∨ b.area = .put []

instance [DecidableEq β] (b : Filebuf σ β) : Decidable b.Clean :=
  inferInstanceAs (Decidable (_ ∨ _))

variable [File σ β]

/-- `overflow()` without a character. -/
def overflow (b : Filebuf σ β) : Filebuf σ β × Bool :=
  match b.area with
  | .uncommitted => ({ b with area := .put [] }, true)
  | .get unread => ({ b with offset := b.offset - unread.length, area := .put [] }, true)
  | .put [] => (b, true)
  | .put (c :: cs) =>
    let (file, written) := File.write b.file b.offset (c :: cs)
    if written then (⟨file, b.offset + (c :: cs).length, .put []⟩, true)
    else ({ b with file := file }, false)

/-- `xsputn` of elements that fit.  The first one goes through `overflow` when
there is no put area yet. -/
def sputn (b : Filebuf σ β) (cs : List β) : Filebuf σ β :=
  match b.area with
  | .put pending => { b with area := .put (pending ++ cs) }
  | _ => { b.overflow.1 with area := .put cs }

/-- `_M_terminate_output`, which `sync` and every seek begin with. -/
def terminateOutput (b : Filebuf σ β) : Filebuf σ β × Bool :=
  match b.area with
  | .put (_ :: _) => b.overflow
  | _ => (b, true)

/-- `sync` -/
def sync (b : Filebuf σ β) : Filebuf σ β × Bool := b.terminateOutput

/-- `seekpos` -/
def seekpos (b : Filebuf σ β) (pos : ℕ) : Filebuf σ β × Bool :=
  let (b, done) := b.terminateOutput
  if done then ({ b with offset := pos, area := .uncommitted }, true) else (b, false)

/-- `underflow`: leave write mode, then fill the get area with one `read(2)`.  At
the end of the file the buffer goes back to uncommitted mode. -/
def underflow (b : Filebuf σ β) : Filebuf σ β × Got :=
  let (b, done) := match b.area with
    | .put _ =>
      let (b, done) := b.overflow
      (if done then { b with area := .uncommitted } else b, done)
    | _ => (b, true)
  if done then
    match File.read b.file b.offset bufferLength with
    | none => (b, .failed)
    | some [] => ({ b with area := .uncommitted }, .endOfFile)
    | some (c :: cs) =>
      ({ b with offset := b.offset + (c :: cs).length, area := .get (c :: cs) }, .all)
  else (b, .endOfFile)

/-- `sgetn`: elements are taken one by one, refilling an empty get area. -/
def sgetn (b : Filebuf σ β) : ℕ → List β × Filebuf σ β × Got
  | 0 => ([], b, .all)
  | n + 1 =>
    match b.area with
    | .get (c :: cs) =>
      let (taken, b, got) := sgetn { b with area := .get cs } n
      (c :: taken, b, got)
    | _ =>
      match b.underflow with
      | (b, .all) =>
        match b.area with
        | .get (c :: cs) =>
          let (taken, b, got) := sgetn { b with area := .get cs } n
          (c :: taken, b, got)
        | _ => ([], b, .endOfFile)
      | (b, got) => ([], b, got)

/-- Closing hands pending elements over, and gives up on them if that fails. -/
def close (b : Filebuf σ β) : σ := b.terminateOutput.1.file

theorem Clean.terminateOutput {b : Filebuf σ β} (h : b.Clean) : b.terminateOutput = (b, true) := by
  rcases h with h | h <;> simp [Filebuf.terminateOutput, h]

theorem Clean.seekpos {b : Filebuf σ β} (h : b.Clean) (pos : ℕ) :
    b.seekpos pos = ({ b with offset := pos, area := .uncommitted }, true) := by
  simp [Filebuf.seekpos, h.terminateOutput]

theorem Clean.sputn {b : Filebuf σ β} (h : b.Clean) (cs : List β) :
    b.sputn cs = { b with area := .put cs } := by
  rcases h with h | h <;> simp [Filebuf.sputn, Filebuf.overflow, h]

theorem Clean.close {b : Filebuf σ β} (h : b.Clean) : b.close = b.file := by
  rw [Filebuf.close, h.terminateOutput]

/-- The first fill of the get area. -/
theorem underflow_opened {file : σ} {c : β} {cs : List β}
    (h : File.read file 0 bufferLength = some (c :: cs)) :
    (opened file).underflow = (⟨file, (c :: cs).length, .get (c :: cs)⟩, .all) := by
  simp [underflow, opened, h]

/-- Pending elements the file takes. -/
theorem terminateOutput_of_written {b : Filebuf σ β} {cs : List β} (h : b.area = .put cs)
    (hne : cs ≠ []) {file : σ} (hw : File.write b.file b.offset cs = (file, true)) :
    b.terminateOutput = (⟨file, b.offset + cs.length, .put []⟩, true) := by
  obtain ⟨c, cs, rfl⟩ := List.exists_cons_of_ne_nil hne
  simp [terminateOutput, overflow, h, hw]

/-- Pending elements the file refuses stay pending. -/
theorem terminateOutput_of_refused {b : Filebuf σ β} {cs : List β} (h : b.area = .put cs)
    (hne : cs ≠ []) {file : σ} (hw : File.write b.file b.offset cs = (file, false)) :
    b.terminateOutput = ({ b with file := file }, false) := by
  obtain ⟨c, cs, rfl⟩ := List.exists_cons_of_ne_nil hne
  simp [terminateOutput, overflow, h, hw]

end Filebuf
end Iostream
end TjTools
