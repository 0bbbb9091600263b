/-
# File streams and their error flags

`std::fstream` over a `Filebuf`: three error flags, and a mask of flags that make
a call throw `std::ios_base::failure` as soon as they are set.  Every insertion
and extraction first checks the flags (`sentry`), so a stream whose badbit is set
and never cleared refuses everything that follows; that is `insert_of_bad`.

A call is a computation that may stop with the exception and keeps the stream it
stopped with.
-/

import TjTools.Basis.Focus
import TjTools.Basis.Numerals
import TjTools.Iostream.Filebuf

namespace TjTools
namespace Iostream

/-- `std::ios_base::iostate` -/
structure Iostate where
  eof : Bool
  fail : Bool
  bad : Bool
  deriving DecidableEq, Repr

namespace Iostate

def good : Iostate := ⟨false, false, false⟩
def failbit : Iostate := ⟨false, true, false⟩
def badbit : Iostate := ⟨false, false, true⟩

def or (s t : Iostate) : Iostate := ⟨s.eof || t.eof, s.fail || t.fail, s.bad || t.bad⟩

/-- Some flag is in both. -/
def meets (s t : Iostate) : Bool := (s.eof && t.eof) || (s.fail && t.fail) || (s.bad && t.bad)

end Iostate

/-- `std::ios_base::failure` -/
inductive Failure where
  | failure
  deriving DecidableEq, Repr

structure Fstream (σ β : Type*) where
  buf : Filebuf σ β
  state : Iostate
  /-- The flags that throw, `exceptions()`. -/
  mask : Iostate

variable {σ β : Type}

abbrev StreamM (σ β α : Type) := EStateM Failure (Fstream σ β) α

namespace Fstream

/-- A freshly opened stream. -/
def opened (file : σ) (mask : Iostate) : Fstream σ β := ⟨.opened file, .good, mask⟩

/-- The flags are clear and nothing is buffered. -/
def Idle (s : Fstream σ β) : Prop := s.state = .good ∧ s.buf.Clean

/-- The last write was refused: badbit is set, and what was to be written is still
pending. -/
def Broken (s : Fstream σ β) (pending : List β) : Prop :=
  s.state.bad = true ∧ s.buf.area = .put pending

instance [DecidableEq β] (s : Fstream σ β) : Decidable s.Idle :=
  inferInstanceAs (Decidable (_ ∧ _))

/-- `clear(state)` -/
def clearTo (state : Iostate) : StreamM σ β Unit := do
  modify fun s => { s with state := state }
  if state.meets (← get).mask then throw .failure

/-- `clear()` -/
def clear : StreamM σ β Unit := clearTo .good

/-- `setstate` -/
def setstate (flags : Iostate) : StreamM σ β Unit := do
  clearTo ((← get).state.or flags)

theorem clearTo_run (state : Iostate) (s : Fstream σ β) :
    (clearTo state).run s =
      if state.meets s.mask then .error .failure { s with state := state }
      else .ok () { s with state := state } := by
  by_cases h : state.meets s.mask <;> simp [clearTo, h]

theorem setstate_run (flags : Iostate) (s : Fstream σ β) :
    (setstate flags).run s =
      if (s.state.or flags).meets s.mask then .error .failure { s with state := s.state.or flags }
      else .ok () { s with state := s.state.or flags } := by
  simp [setstate, clearTo_run]

/-- `good()` -/
def isGood : StreamM σ β Bool := do
  return (← get).state = .good

/-- The check an output function starts with. -/
def outputSentry : StreamM σ β Bool := do
  let state := (← get).state
  if state = .good then return true
  if state.bad then setstate .failbit
  return false

/-- The check an input function starts with. -/
def inputSentry : StreamM σ β Bool := do
  if (← get).state = .good then return true
  setstate .failbit
  return false

variable [File σ β]

/-- `operator<<` of a string, and `write`. -/
def insert (cs : List β) : StreamM σ β Unit := do
  if ← outputSentry then
    modify fun s => { s with buf := s.buf.sputn cs }

/-- `flush` -/
def flush : StreamM σ β Unit := do
  if ← outputSentry then
    let (buf, done) := (← get).buf.sync
    modify fun s => { s with buf := buf }
    if !done then setstate .badbit

/-- `read` of `n` elements: those that were there. -/
def read (n : ℕ) : StreamM σ β (List β) := do
  if ← inputSentry then
    let (taken, buf, got) := (← get).buf.sgetn n
    modify fun s => { s with buf := buf }
    match got with
    | .all => pure ()
    | .endOfFile => setstate ⟨true, true, false⟩
    | .failed => setstate .badbit
    return taken
  return []

/-- `seekg(pos)` -/
def seekg (pos : ℕ) : StreamM σ β Unit := do
  clearTo { (← get).state with eof := false }
  if ← inputSentry then
    let (buf, done) := (← get).buf.seekpos pos
    modify fun s => { s with buf := buf }
    if !done then setstate .failbit

/-- `seekp(pos)` -/
def seekp (pos : ℕ) : StreamM σ β Unit := do
  if ← outputSentry then
    let (buf, done) := (← get).buf.seekpos pos
    modify fun s => { s with buf := buf }
    if !done then setstate .failbit

/-- `operator>>` into a string, where one fill of the get area holds the text. -/
def extractWord [File σ Char] : StreamM σ Char (List Char) := do
  if ← inputSentry then
    let (buf, got) := (← get).buf.underflow
    modify fun s => { s with buf := buf }
    match buf.area, got with
    | .get text, _ =>
      let word := Numerals.firstWord text
      let rest := (text.dropWhile Numerals.isspace).drop word.length
      modify fun s => { s with buf := { buf with area := .get rest } }
      setstate { eof := rest.isEmpty, fail := word.isEmpty, bad := false }
      return word
    | _, .failed =>
      setstate .badbit
      return []
    | _, _ =>
      setstate ⟨true, true, false⟩
      return []
  return []

/-- On an idle stream an insertion only fills the put area. -/
theorem insert_of_idle {s : Fstream σ β} (h : s.Idle) (cs : List β) :
    (insert cs).run s = .ok () { s with buf := { s.buf with area := .put cs } } := by
  simp [insert, outputSentry, h.1, h.2.sputn]

/-- **A stream with badbit set takes nothing more**: where failbit throws, every
insertion throws. -/
theorem insert_of_bad {s : Fstream σ β} (h : s.state.bad = true) (hmask : s.mask.fail = true)
    (cs : List β) :
    (insert cs).run s = .error .failure { s with state := s.state.or .failbit } := by
  have hne : s.state ≠ .good := fun he => by simp [he, Iostate.good] at h
  simp [insert, outputSentry, setstate, clearTo, hne, h, Iostate.or, Iostate.meets,
    Iostate.failbit, hmask]

/-- Flushing elements the file takes. -/
theorem flush_of_written {s : Fstream σ β} {cs : List β} (hstate : s.state = .good)
    (harea : s.buf.area = .put cs) (hne : cs ≠ []) {file : σ}
    (hw : File.write s.buf.file s.buf.offset cs = (file, true)) :
    flush.run s = .ok () { s with buf := ⟨file, s.buf.offset + cs.length, .put []⟩ } := by
  simp [flush, outputSentry, hstate, Filebuf.sync,
    Filebuf.terminateOutput_of_written harea hne hw]

/-- Flushing elements the file refuses sets badbit, which throws where the mask has
it. -/
theorem flush_of_refused {s : Fstream σ β} {cs : List β} (hstate : s.state = .good)
    (harea : s.buf.area = .put cs) (hne : cs ≠ []) (hmask : s.mask.bad = true) {file : σ}
    (hw : File.write s.buf.file s.buf.offset cs = (file, false)) :
    flush.run s
      = .error .failure { s with buf := { s.buf with file := file }, state := .badbit } := by
  simp [flush, outputSentry, hstate, Filebuf.sync, setstate, clearTo,
    Filebuf.terminateOutput_of_refused harea hne hw, Iostate.or, Iostate.good, Iostate.badbit,
    Iostate.meets, hmask]

/-- `clear` and then `seekg`, once what is pending has been handed over: the stream
is idle at the new offset, whatever was read ahead. -/
theorem rewind_run {s : Fstream σ β} {b : Filebuf σ β} (h : s.buf.terminateOutput = (b, true))
    (pos : ℕ) :
    (do clear; seekg pos : StreamM σ β Unit).run s
      = .ok () ⟨{ b with offset := pos, area := .uncommitted }, .good, s.mask⟩ := by
  simp [clear, seekg, clearTo, inputSentry, Filebuf.seekpos, h, Iostate.good, Iostate.meets]

/-- `seekp` with nothing pending. -/
theorem seekp_of_clean {s : Fstream σ β} (hstate : s.state = .good) (hclean : s.buf.Clean)
    (pos : ℕ) :
    (seekp pos).run s
      = .ok () { s with buf := { s.buf with offset := pos, area := .uncommitted } } := by
  simp only [seekp, outputSentry, EStateM.run_bind, EStateM.run_get, hstate, if_true,
    EStateM.run_pure, hclean.seekpos, EStateM.run_modify]
  rfl

/-- A first word that was there leaves the file alone and nothing pending. -/
theorem extractWord_run [File σ Char] {file : σ} {mask : Iostate} (hfail : mask.fail = true)
    (hbad : mask.bad = true) {word : List Char} {s : Fstream σ Char}
    (h : extractWord.run (opened file mask) = .ok word s) :
    s.buf.file = file ∧ s.mask = mask ∧ s.buf.terminateOutput = (s.buf, true) ∧
      ∃ text, File.read file 0 bufferLength = some text ∧ word = Numerals.firstWord text := by
  cases hr : File.read file 0 bufferLength with
  | none =>
    simp [extractWord, inputSentry, opened, Filebuf.opened, Filebuf.underflow, setstate_run, hr,
      Iostate.or, Iostate.meets, Iostate.good, Iostate.badbit, hbad] at h
  | some text =>
    cases text with
    | nil =>
      simp [extractWord, inputSentry, opened, Filebuf.opened, Filebuf.underflow, setstate_run, hr,
        Iostate.or, Iostate.meets, Iostate.good, hfail] at h
    | cons c cs =>
      simp only [extractWord, inputSentry, opened, EStateM.run_bind, EStateM.run_get, if_true,
        EStateM.run_pure, Filebuf.underflow_opened hr, EStateM.run_modify, setstate_run] at h
      split_ifs at h
      obtain ⟨rfl, rfl⟩ := EStateM.Result.ok.inj h
      exact ⟨rfl, rfl, rfl, c :: cs, rfl, rfl⟩

/-- And a word that is there is extracted, where reaching the end of the file does not
throw. -/
theorem extractWord_of_word [File σ Char] {file : σ} (mask : Iostate) (heof : mask.eof = false)
    {text : List Char} (hr : File.read file 0 bufferLength = some text)
    (hword : Numerals.firstWord text ≠ []) :
    ∃ s, extractWord.run (opened file mask) = .ok (Numerals.firstWord text) s := by
  obtain ⟨c, cs, rfl⟩ : ∃ c cs, text = c :: cs := by
    apply List.exists_cons_of_ne_nil
    rintro rfl
    exact hword rfl
  simp only [extractWord, inputSentry, opened, EStateM.run_bind, EStateM.run_get, if_true,
    EStateM.run_pure, Filebuf.underflow_opened hr, EStateM.run_modify, setstate_run]
  have hmeets : ∀ eof, (Iostate.good.or ⟨eof, (Numerals.firstWord (c :: cs)).isEmpty, false⟩).meets
      mask = false := by
    intro eof
    simp [Iostate.or, Iostate.meets, Iostate.good, heof, hword]
  rw [hmeets]
  exact ⟨_, rfl⟩

end Fstream
end Iostream
end TjTools
