/-
# Saving and restoring on a storage stream at rest

`saveState` and `restoreState` of `src/src/brightness_daemon.cpp` (lines 183-218) share
one stream, and with it one file position, one set of flags and one buffer.  Where the
system calls succeed, both begin and end with the stream at rest: flags clear, nothing
buffered, position zero.

* Saving overwrites the first four bytes (`saveState_run`).
* Restoring takes the first four bytes if they are there and empties the file
  (`takeStored_run`); reading beyond a shorter file sets flags that are cleared again.
-/

import TjTools.Brightness.Panel
import TjTools.Iostream.Reading

namespace TjTools
namespace Brightness

open Iostream

/-- Nothing is buffered, the flags are clear, the position is zero, nothing throws, and the
system calls succeed. -/
structure Rested (s : Fstream DiskFile UInt8) : Prop where
  state : s.state = .good
  mask : s.mask = .good
  clean : s.buf.Clean
  offset : s.buf.offset = 0
  readable : s.buf.file.readable = true
  writable : s.buf.file.writable = true
  truncatable : s.buf.file.truncatable = true

/-- The number a state file holds: its first four bytes, if there are that many. -/
def storedValue (content : List UInt8) : Option UInt32 :=
  if 4 ≤ content.length then some (LittleEndian.u32 content) else none

@[simp] theorem storedValue_ofU32 (v : UInt32) : storedValue (LittleEndian.ofU32 v) = some v := by
  rw [storedValue, if_pos (LittleEndian.length_ofU32 v).ge, LittleEndian.u32_ofU32]

namespace BacklightContext

/-- **Saving** overwrites the first four bytes of the file and leaves the stream at rest. -/
theorem saveState_run {c : BacklightContext} (h : Rested c.storageStream) :
    ∃ s, saveState.run c = .ok () { c with storageStream := s } ∧ Rested s ∧
      s.buf.file.content = LittleEndian.ofU32 c.currentBrightness ++ c.storage.content.drop 4 := by
  have hidle : c.storageStream.Idle := ⟨h.state, h.clean⟩
  obtain ⟨bs, hbs⟩ : ∃ bs, bs = LittleEndian.ofU32 c.currentBrightness := ⟨_, rfl⟩
  have hlength : bs.length = 4 := by rw [hbs, LittleEndian.length_ofU32]
  have hne : bs ≠ [] := by
    rintro rfl
    cases hlength
  have hinsert := onStorage_ok (c := c) (Fstream.insert_of_idle hidle bs)
  obtain ⟨s₁, hs₁⟩ : ∃ s₁, s₁ = { c.storageStream with
    buf := { c.storageStream.buf with area := .put bs } } := ⟨_, rfl⟩
  obtain ⟨file, hfile⟩ : ∃ file : DiskFile, file = { c.storage with
    content := bs ++ c.storage.content.drop 4, handed := c.storage.handed ++ [bs] } := ⟨_, rfl⟩
  have hwrite : File.write s₁.buf.file s₁.buf.offset bs = (file, true) := by
    have hoverwrite : DiskFile.overwrite c.storage.content 0 bs
        = bs ++ c.storage.content.drop 4 := by
      simp [DiskFile.overwrite, hlength]
    rw [hs₁, hfile, ← hoverwrite]
    simp only [File.write, h.offset, h.writable, if_true]
    rw [show c.storage.writable = true from h.writable]
    rfl
  have hflush := onStorage_ok (c := { c with storageStream := s₁ })
    (Fstream.flush_of_written (by rw [hs₁]; exact h.state) (by rw [hs₁]) hne hwrite)
  obtain ⟨s₂, hs₂⟩ : ∃ s₂ : Fstream DiskFile UInt8, s₂ = { s₁ with
    buf := ⟨file, s₁.buf.offset + bs.length, .put []⟩ } := ⟨_, rfl⟩
  have hstate : s₂.state = .good := by rw [hs₂, hs₁]; exact h.state
  have hgood : Fstream.isGood.run s₂ = .ok true s₂ := by simp [Fstream.isGood, hstate]
  have hclean : s₂.buf.Clean := by rw [hs₂]; exact .inr rfl
  have hseek : (Fstream.seekp 0).run s₂
      = .ok () { s₂ with buf := ⟨file, 0, .uncommitted⟩ } := by
    rw [Fstream.seekp_of_clean hstate hclean, hs₂]
  refine ⟨{ s₂ with buf := ⟨file, 0, .uncommitted⟩ }, ?_, ?_, ?_⟩
  · rw [hs₁] at hflush
    rw [hs₁] at hs₂
    have hgood' := onStorage_ok (c := { c with storageStream := s₂ }) hgood
    have hseek' := onStorage_ok (c := { c with storageStream := s₂ }) hseek
    rw [hs₂] at hgood' hseek'
    simp only [saveState, EStateM.run_bind, EStateM.run_get, ← hbs, hinsert, hflush, hgood',
      Bool.not_true, Bool.false_eq_true, if_false, hseek', hs₂]
  · refine ⟨hstate, ?_, .inl rfl, rfl, ?_, ?_, ?_⟩
    · rw [hs₂, hs₁]; exact h.mask
    · rw [hfile]; exact h.readable
    · rw [hfile]; exact h.writable
    · rw [hfile]; exact h.truncatable
  · rw [← hbs, hfile]

/-- **Restoring takes** the stored number if there is one, empties the file and leaves the
stream at rest. -/
theorem takeStored_run {c : BacklightContext} (h : Rested c.storageStream) :
    ∃ s, takeStored.run c = .ok (storedValue c.storage.content) { c with storageStream := s } ∧
      Rested s ∧ s.buf.file.content = [] := by
  have hreads : ∀ offset count, File.read c.storageStream.buf.file offset count
      = some ((c.storage.content.drop offset).take count) := by
    intro offset count
    simp only [File.read, h.readable, if_true]
    rfl
  have hremaining : c.storageStream.buf.remaining c.storage.content = c.storage.content := by
    unfold Filebuf.remaining
    rcases h.clean with harea | harea <;> simp only [harea, h.offset, List.drop_zero]
  obtain ⟨b, hdrained, hfile, hread⟩ :=
    Fstream.read_of_reads hreads h.state h.mask h.clean.drained 4
  rw [hremaining] at hread
  have hread' := onStorage_ok hread
  obtain ⟨state, hstate⟩ : ∃ state, state
    = if 4 ≤ c.storage.content.length then Iostate.good else ⟨true, true, false⟩ := ⟨_, rfl⟩
  rw [← hstate] at hread'
  have hgood : Fstream.isGood.run (⟨b, state, .good⟩ : Fstream DiskFile UInt8)
      = .ok (decide (state = .good)) ⟨b, state, .good⟩ := rfl
  have hgood' := onStorage_ok (c := { c with storageStream := ⟨b, state, .good⟩ }) hgood
  have hrewind := Fstream.rewind_run (s := (⟨b, state, .good⟩ : Fstream DiskFile UInt8))
    hdrained.terminateOutput 0
  have hrewind' := onStorage_ok (c := { c with storageStream := ⟨b, state, .good⟩ }) hrewind
  obtain ⟨file, hempty⟩ : ∃ file : DiskFile, file = { c.storage with content := [] } := ⟨_, rfl⟩
  have htruncate : (truncate 0).run
      { c with storageStream := ⟨{ b with offset := 0, area := .uncommitted }, .good, .good⟩ }
      = .ok () { c with storageStream := ⟨⟨file, 0, .uncommitted⟩, .good, .good⟩ } := by
    have hb : b.file = c.storage := hfile
    simp [truncate, storage, DiskFile.ftruncate, hb, hempty,
      show c.storageStream.buf.file.truncatable = true from h.truncatable]
  refine ⟨⟨⟨file, 0, .uncommitted⟩, .good, .good⟩, ?_, ?_, ?_⟩
  · have hvalue : (if decide (state = .good) = true then
        some (LittleEndian.u32 (c.storage.content.take 4)) else none)
        = storedValue c.storage.content := by
      rw [hstate, storedValue]
      by_cases hlen : 4 ≤ c.storage.content.length
      · simp [hlen, LittleEndian.u32_take]
      · simp [hlen, Iostate.good]
    rw [← hvalue]
    simp only [takeStored, EStateM.run_bind, hread', hgood', hrewind', htruncate,
      EStateM.run_pure]
  · refine ⟨rfl, rfl, .inl rfl, rfl, ?_, ?_, ?_⟩
    · rw [hempty]; exact h.readable
    · rw [hempty]; exact h.writable
    · rw [hempty]; exact h.truncatable
  · rw [hempty]

end BacklightContext

end Brightness
end TjTools
