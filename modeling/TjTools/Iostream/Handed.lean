/-
# What a stream hands to its file

Whatever the environment refuses, a stream hands nothing to its file but what was
inserted into it.  `I` is a property of the file and `A` says which strings may be
written: `Admits I A` when every write of such a string keeps `I`.  Then `I` is kept
by every call, if only strings of `A` are inserted and each is flushed before the
next.

A stream is `Loose` when its file meets `I` and what is pending is allowed, and
`Settled` when moreover nothing is pending as long as its flags are clear.  An
insertion takes a settled stream to a loose one, and flushing or seeking settles it
again, either because the pending string went out or because a flag is set now.
-/

import TjTools.Basis.Triple
import TjTools.Iostream.Fstream

namespace TjTools
namespace Iostream

variable {σ β : Type} [File σ β]

/-- Writing an allowed string keeps the property of the file, taken or not. -/
def Admits (I : σ → Prop) (A : List β → Prop) : Prop :=
  ∀ f offset cs, I f → A cs → I (File.write f offset cs).1

namespace Filebuf

/-- The file meets `I`, and what is pending is allowed. -/
structure Holds (I : σ → Prop) (A : List β → Prop) (b : Filebuf σ β) : Prop where
  file : I b.file
  pending : ∀ cs, b.area = .put cs → cs = [] ∨ A cs

/-- Nothing is pending. -/
def Drained (b : Filebuf σ β) : Prop := ∀ cs, b.area = .put cs → cs = []

variable {I : σ → Prop} {A : List β → Prop}

omit [File σ β] in
theorem Drained.holds {b : Filebuf σ β} (hfile : I b.file) (h : b.Drained) : b.Holds I A :=
  ⟨hfile, fun cs hcs => .inl (h cs hcs)⟩

theorem Holds.overflow (hw : Admits I A) {b : Filebuf σ β} (h : b.Holds I A) :
    b.overflow.1.Holds I A ∧ (b.overflow.2 = true → b.overflow.1.Drained) := by
  unfold Filebuf.overflow
  rcases harea : b.area with _ | unread | _ | ⟨c, cs⟩
  · exact ⟨⟨h.file, by simp⟩, fun _ => by simp [Drained]⟩
  · exact ⟨⟨h.file, by simp⟩, fun _ => by simp [Drained]⟩
  · exact ⟨h, fun _ => by simp [Drained, harea]⟩
  · have hallowed : A (c :: cs) := (h.pending _ harea).resolve_left (by simp)
    have hfile := hw b.file b.offset (c :: cs) h.file hallowed
    rcases hwrite : File.write b.file b.offset (c :: cs) with ⟨file, _ | _⟩
    · rw [hwrite] at hfile
      simp only [hwrite]
      exact ⟨⟨hfile, fun cs' hcs' => h.pending cs' (harea.trans hcs')⟩, by simp⟩
    · rw [hwrite] at hfile
      simp only [hwrite]
      exact ⟨⟨hfile, by simp⟩, fun _ => by simp [Drained]⟩

theorem Holds.terminateOutput (hw : Admits I A) {b : Filebuf σ β} (h : b.Holds I A) :
    b.terminateOutput.1.Holds I A ∧ (b.terminateOutput.2 = true → b.terminateOutput.1.Drained) := by
  unfold Filebuf.terminateOutput
  rcases harea : b.area with _ | unread | _ | ⟨c, cs⟩
  · exact ⟨h, fun _ => by simp [Drained, harea]⟩
  · exact ⟨h, fun _ => by simp [Drained, harea]⟩
  · exact ⟨h, fun _ => by simp [Drained, harea]⟩
  · exact h.overflow hw

theorem Holds.seekpos (hw : Admits I A) {b : Filebuf σ β} (h : b.Holds I A) (pos : ℕ) :
    (b.seekpos pos).1.Holds I A ∧ ((b.seekpos pos).2 = true → (b.seekpos pos).1.Drained) := by
  obtain ⟨hholds, -⟩ := h.terminateOutput hw
  unfold Filebuf.seekpos
  rcases hdone : b.terminateOutput with ⟨b', _ | _⟩
  · rw [hdone] at hholds
    exact ⟨hholds, by simp⟩
  · rw [hdone] at hholds
    exact ⟨⟨hholds.file, by simp⟩, fun _ => by simp [Drained]⟩

theorem Holds.close (hw : Admits I A) {b : Filebuf σ β} (h : b.Holds I A) : I b.close :=
  (h.terminateOutput hw).1.file

omit [File σ β] in
/-- An insertion into a buffer with nothing pending. -/
theorem Drained.sputn [File σ β] {b : Filebuf σ β} (h : b.Drained) (hfile : I b.file)
    {cs : List β} (hcs : A cs) : (b.sputn cs).Holds I A := by
  unfold Filebuf.sputn
  rcases harea : b.area with _ | unread | pending
  · exact ⟨by simpa [Filebuf.overflow, harea] using hfile, by simp [hcs]⟩
  · exact ⟨by simpa [Filebuf.overflow, harea] using hfile, by simp [hcs]⟩
  · obtain rfl := h pending harea
    exact ⟨hfile, by simp [hcs]⟩

/-- Filling the get area of a drained buffer writes nothing. -/
theorem Drained.underflow {b : Filebuf σ β} (h : b.Drained) :
    b.underflow.1.file = b.file ∧ b.underflow.1.Drained := by
  have hread : ∀ b' : Filebuf σ β, b'.file = b.file → b'.Drained →
      let result := match File.read b'.file b'.offset bufferLength with
        | none => (b', Got.failed)
        | some [] => ({ b' with area := .uncommitted }, .endOfFile)
        | some (c :: cs) =>
          ({ b' with offset := b'.offset + (c :: cs).length, area := .get (c :: cs) }, .all)
      result.1.file = b.file ∧ result.1.Drained := by
    intro b' hfile hdrained
    rcases File.read b'.file b'.offset bufferLength with _ | _ | ⟨c, cs⟩
    · exact ⟨hfile, hdrained⟩
    · exact ⟨hfile, by simp [Drained]⟩
    · exact ⟨hfile, by simp [Drained]⟩
  unfold Filebuf.underflow
  rcases harea : b.area with _ | unread | pending
  · exact hread b rfl h
  · exact hread b rfl h
  · obtain rfl := h pending harea
    simp only [Filebuf.overflow, harea]
    exact hread { b with area := .uncommitted } rfl (by simp [Drained])

/-- Nor does taking elements from it. -/
theorem Drained.sgetn {b : Filebuf σ β} (h : b.Drained) (n : ℕ) :
    (b.sgetn n).2.1.file = b.file ∧ (b.sgetn n).2.1.Drained := by
  induction n generalizing b with
  | zero => exact ⟨rfl, h⟩
  | succ n ih =>
    have hget : ∀ cs, (({ b with area := .get cs } : Filebuf σ β).sgetn n).2.1.file = b.file ∧
        (({ b with area := .get cs } : Filebuf σ β).sgetn n).2.1.Drained :=
      fun cs => ih (by simp [Drained])
    unfold Filebuf.sgetn
    split
    · exact hget _
    · obtain ⟨hfile, hdrained⟩ := h.underflow
      split
      · rename_i b' hall
        rw [hall] at hfile hdrained
        split
        · rw [← hfile]
          exact ih (by simp [Drained])
        · exact ⟨hfile, hdrained⟩
      · rename_i b' got _ hgot
        rw [hgot] at hfile hdrained
        exact ⟨hfile, hdrained⟩

end Filebuf

namespace Fstream

variable (I : σ → Prop) (A : List β → Prop)

def Loose (s : Fstream σ β) : Prop := s.buf.Holds I A

structure Settled (s : Fstream σ β) : Prop where
  loose : s.Loose I A
  drained : s.state = .good → s.buf.Drained

variable {I A}

omit [File σ β]

theorem Settled.of_not_good {s : Fstream σ β} (h : s.Loose I A) (hstate : s.state ≠ .good) :
    s.Settled I A :=
  ⟨h, fun hgood => absurd hgood hstate⟩

theorem settled_opened {file : σ} (h : I file) (mask : Iostate) :
    (opened file mask : Fstream σ β).Settled I A :=
  ⟨⟨h, by simp [opened, Filebuf.opened]⟩,
    fun _ => by simp [opened, Filebuf.opened, Filebuf.Drained]⟩

/-! ### Flags -/

theorem ne_good_of_meets {s t : Iostate} (h : s.meets t = true) : s ≠ .good := by
  rintro rfl
  simp [Iostate.meets, Iostate.good] at h

theorem or_ne_good {s t : Iostate} (h : s ≠ .good ∨ t ≠ .good) : s.or t ≠ .good := by
  intro hor
  have hparts : s = .good ∧ t = .good := by
    cases s
    cases t
    simp_all [Iostate.or, Iostate.good]
  rcases h with h | h
  · exact h hparts.1
  · exact h hparts.2

theorem setstate_settles {flags : Iostate} (hflags : flags ≠ .good) :
    Triple (Loose I A) (setstate flags : StreamM σ β Unit) (fun _ => Settled I A)
      fun _ => Settled I A := by
  intro s hs
  have hne : s.state.or flags ≠ .good := or_ne_good (.inr hflags)
  rw [setstate_run]
  split_ifs
  · exact .of_not_good hs hne
  · exact .of_not_good hs hne

/-- An output call goes ahead on clear flags only. -/
theorem outputSentry_cases (s : Fstream σ β) :
    (s.state = .good ∧ outputSentry.run s = .ok true s) ∨
      (s.state ≠ .good ∧ ∃ state, state ≠ .good ∧
        (outputSentry.run s = .ok false { s with state := state } ∨
          outputSentry.run s = .error .failure { s with state := state })) := by
  by_cases hgood : s.state = .good
  · exact .inl ⟨hgood, by simp [outputSentry, hgood]⟩
  · refine .inr ⟨hgood, ?_⟩
    by_cases hbad : s.state.bad = true
    · refine ⟨s.state.or .failbit, or_ne_good (.inl hgood), ?_⟩
      by_cases hmeets : (s.state.or .failbit).meets s.mask = true
      · exact .inr (by simp [outputSentry, hgood, hbad, setstate_run, hmeets])
      · exact .inl (by simp [outputSentry, hgood, hbad, setstate_run, hmeets])
    · exact ⟨s.state, hgood, .inl (by simp [outputSentry, hgood, hbad])⟩

/-- And so does an input call. -/
theorem inputSentry_cases (s : Fstream σ β) :
    (s.state = .good ∧ inputSentry.run s = .ok true s) ∨
      (s.state ≠ .good ∧ ∃ state, state ≠ .good ∧
        (inputSentry.run s = .ok false { s with state := state } ∨
          inputSentry.run s = .error .failure { s with state := state })) := by
  by_cases hgood : s.state = .good
  · exact .inl ⟨hgood, by simp [inputSentry, hgood]⟩
  · refine .inr ⟨hgood, s.state.or .failbit, or_ne_good (.inl hgood), ?_⟩
    by_cases hmeets : (s.state.or .failbit).meets s.mask = true
    · exact .inr (by simp [inputSentry, hgood, setstate_run, hmeets])
    · exact .inl (by simp [inputSentry, hgood, setstate_run, hmeets])

/-! ### Calls -/

theorem keeps_loose_clear : Triple (Loose I A) (clear : StreamM σ β Unit) (fun _ => Loose I A)
    fun _ => Settled I A := by
  intro s hs
  rw [clear, clearTo_run]
  split_ifs with hmeets
  · exact .of_not_good hs (ne_good_of_meets hmeets)
  · exact hs

theorem keeps_isGood (P : Fstream σ β → Prop) : Keeps P (isGood : StreamM σ β Bool) :=
  fun _ hs => hs

variable [File σ β]

/-- Inserting an allowed string. -/
theorem insert_loosens {cs : List β} (hcs : A cs) :
    Triple (Settled I A) (insert cs : StreamM σ β Unit) (fun _ => Loose I A)
      fun _ => Settled I A := by
  intro s hs
  unfold insert
  rcases outputSentry_cases s with ⟨hgood, hrun⟩ | ⟨-, state, hne, hrun | hrun⟩
  · simp only [EStateM.run_bind, hrun, if_true, EStateM.run_modify]
    exact (hs.drained hgood).sputn hs.loose.file hcs
  · simp only [EStateM.run_bind, hrun]
    exact hs.loose
  · simp only [EStateM.run_bind, hrun]
    exact .of_not_good hs.loose hne

omit [File σ β] in
/-- After a call that hands the pending elements over, a flag is set or nothing is
pending. -/
theorem settles_of_done {b : Filebuf σ β} {done : Bool} {flags : Iostate} (hflags : flags ≠ .good)
    (hb : b.Holds I A) (hdone : done = true → b.Drained) :
    Triple (fun _ => True) (do
        modify fun s => { s with buf := b }
        if !done then setstate flags : StreamM σ β Unit)
      (fun _ => Settled I A) fun _ => Settled I A := by
  refine .bind (Q := fun _ s => s.buf = b) (.modify fun _ _ => rfl) fun _ => ?_
  refine .ite (fun _ => ?_) fun h => .pure ?_
  · exact (setstate_settles hflags).mono (fun s hs => by rw [Loose, hs]; exact hb)
      (fun _ _ h => h) fun _ _ h => h
  · intro s hs
    have hd : done = true := by simpa using h
    exact ⟨by rw [Loose, hs]; exact hb, fun _ => by rw [hs]; exact hdone hd⟩

theorem flush_settles (hw : Admits I A) :
    Triple (Loose I A) (flush : StreamM σ β Unit) (fun _ => Settled I A) fun _ => Settled I A := by
  intro s hs
  unfold flush
  rcases outputSentry_cases s with ⟨-, hrun⟩ | ⟨-, state, hne, hrun | hrun⟩
  · obtain ⟨hholds, hdone⟩ := hs.terminateOutput hw
    simp only [EStateM.run_bind, hrun, if_true, EStateM.run_get]
    exact settles_of_done (by decide) hholds hdone s trivial
  · simp only [EStateM.run_bind, hrun]
    exact .of_not_good hs hne
  · simp only [EStateM.run_bind, hrun]
    exact .of_not_good hs hne

theorem seekp_settles (hw : Admits I A) (pos : ℕ) :
    Triple (Loose I A) (seekp pos : StreamM σ β Unit) (fun _ => Settled I A)
      fun _ => Settled I A := by
  intro s hs
  unfold seekp
  rcases outputSentry_cases s with ⟨-, hrun⟩ | ⟨-, state, hne, hrun | hrun⟩
  · obtain ⟨hholds, hdone⟩ := Filebuf.Holds.seekpos hw hs pos
    simp only [EStateM.run_bind, hrun, if_true, EStateM.run_get]
    exact settles_of_done (by decide) hholds hdone s trivial
  · simp only [EStateM.run_bind, hrun]
    exact .of_not_good hs hne
  · simp only [EStateM.run_bind, hrun]
    exact .of_not_good hs hne

theorem seekg_settles (hw : Admits I A) (pos : ℕ) :
    Triple (Loose I A) (seekg pos : StreamM σ β Unit) (fun _ => Settled I A)
      fun _ => Settled I A := by
  intro s hs
  unfold seekg
  simp only [EStateM.run_bind, EStateM.run_get, clearTo_run]
  split_ifs with hmeets
  · exact .of_not_good hs (ne_good_of_meets hmeets)
  · rcases inputSentry_cases { s with state := { s.state with eof := false } } with
      ⟨-, hrun⟩ | ⟨-, state, hne, hrun | hrun⟩
    · obtain ⟨hholds, hdone⟩ := Filebuf.Holds.seekpos hw hs pos
      simp only [hrun, if_true, EStateM.run_bind, EStateM.run_get]
      exact settles_of_done (by decide) hholds hdone _ trivial
    · simp only [hrun]
      exact .of_not_good hs hne
    · simp only [hrun]
      exact .of_not_good hs hne

theorem read_settled (n : ℕ) :
    Triple (Settled I A) (read n : StreamM σ β (List β)) (fun _ => Settled I A)
      fun _ => Settled I A := by
  intro s hs
  unfold read
  rcases inputSentry_cases s with ⟨hgood, hrun⟩ | ⟨-, state, hne, hrun | hrun⟩
  · obtain ⟨hfile, hdrained⟩ := (hs.drained hgood).sgetn n
    have hloose : Loose I A { s with buf := (s.buf.sgetn n).2.1 } :=
      hdrained.holds (by rw [hfile]; exact hs.loose.file)
    have hflag : ∀ flags : Iostate, flags ≠ .good → Triple (Loose I A) (do
        setstate flags
        return (s.buf.sgetn n).1 : StreamM σ β (List β))
        (fun _ => Settled I A) fun _ => Settled I A :=
      fun flags hflags => .bind (setstate_settles hflags) fun _ => .pure fun _ h => h
    simp only [EStateM.run_bind, hrun, if_true, EStateM.run_get, EStateM.run_modify]
    rcases (s.buf.sgetn n).2.2 with _ | _ | _
    · exact ⟨hloose, fun _ => hdrained⟩
    · exact hflag ⟨true, true, false⟩ (by decide) _ hloose
    · exact hflag .badbit (by decide) _ hloose
  · simp only [EStateM.run_bind, hrun]
    exact .of_not_good hs.loose hne
  · simp only [EStateM.run_bind, hrun]
    exact .of_not_good hs.loose hne

end Fstream
end Iostream
end TjTools
