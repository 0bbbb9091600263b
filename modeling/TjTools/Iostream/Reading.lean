/-
# Reading through the buffer

What a stream still has to read of a file that can be read is the unread part of the
get area and the file from the descriptor's offset on (`remaining`).  Refilling the get
area does not change it, and taking `n` elements takes the first `n` of it, with the end
of the file reported exactly if there are fewer (`sgetn_of_reads`).
-/

import TjTools.Iostream.Handed

namespace TjTools
namespace Iostream
namespace Filebuf

variable {σ β : Type} [File σ β]

omit [File σ β] in
theorem Clean.drained {b : Filebuf σ β} (h : b.Clean) : b.Drained := by
  intro cs hcs
  rcases h with h | h
  · rw [h] at hcs
    cases hcs
  · rw [h] at hcs
    exact (Area.put.inj hcs).symm

theorem Drained.terminateOutput {b : Filebuf σ β} (h : b.Drained) :
    b.terminateOutput = (b, true) := by
  unfold Filebuf.terminateOutput
  rcases harea : b.area with _ | unread | _ | ⟨c, cs⟩
  · rfl
  · rfl
  · rfl
  · exact absurd (h _ harea) (by simp)

/-- What a buffer has still to read of a file with this content. -/
def remaining (content : List β) (b : Filebuf σ β) : List β :=
  match b.area with
  | .get unread => unread ++ content.drop b.offset
  | _ => content.drop b.offset

omit [File σ β] in
theorem remaining_get (content : List β) (file : σ) (offset : ℕ) (unread : List β) :
    remaining content ⟨file, offset, .get unread⟩ = unread ++ content.drop offset := rfl

variable {file : σ} {content : List β}

/-- Filling the get area changes nothing about what remains to be read, and finds the end
of the file when nothing does. -/
theorem underflow_of_reads
    (hread : ∀ offset count, File.read file offset count = some ((content.drop offset).take count))
    {b : Filebuf σ β} (hfile : b.file = file) (hb : b.Drained) :
    (content.drop b.offset = [] → b.underflow.2 = .endOfFile) ∧
      (content.drop b.offset ≠ [] → b.underflow.2 = .all ∧
        ∃ c cs, b.underflow.1 = ⟨file, b.offset + (c :: cs).length, .get (c :: cs)⟩ ∧
          (c :: cs) ++ content.drop (b.offset + (c :: cs).length) = content.drop b.offset) := by
  have hfill : ∀ b' : Filebuf σ β, b'.file = file → b'.offset = b.offset →
      let result := match File.read b'.file b'.offset bufferLength with
        | none => (b', Got.failed)
        | some [] => ({ b' with area := .uncommitted }, .endOfFile)
        | some (c :: cs) =>
          ({ b' with offset := b'.offset + (c :: cs).length, area := .get (c :: cs) }, .all)
      (content.drop b.offset = [] → result.2 = .endOfFile) ∧
      (content.drop b.offset ≠ [] → result.2 = .all ∧
        ∃ c cs, result.1 = ⟨file, b.offset + (c :: cs).length, .get (c :: cs)⟩ ∧
          (c :: cs) ++ content.drop (b.offset + (c :: cs).length) = content.drop b.offset) := by
    intro b' hfile' hoffset
    rw [hfile', hoffset, hread]
    rcases htake : (content.drop b.offset).take bufferLength with _ | ⟨c, cs⟩
    · have hnil : content.drop b.offset = [] := by
        rcases List.take_eq_nil_iff.1 htake with h | h
        · cases h
        · exact h
      exact ⟨fun _ => rfl, fun h => absurd hnil h⟩
    · refine ⟨fun h => by simp [h] at htake, fun _ => ⟨rfl, c, cs, rfl, ?_⟩⟩
      have hlength := congrArg List.length htake
      rw [List.length_take] at hlength
      rw [← htake, ← List.drop_drop, List.length_take]
      rcases le_total bufferLength (content.drop b.offset).length with h | h
      · rw [min_eq_left h, List.take_append_drop]
      · rw [min_eq_right h, List.drop_length, List.append_nil, List.take_of_length_le h]
  unfold underflow
  rcases harea : b.area with _ | unread | pending
  · exact hfill b hfile rfl
  · exact hfill b hfile rfl
  · obtain rfl := hb pending harea
    simp only [overflow, harea]
    exact hfill { b with area := .uncommitted } hfile rfl

omit [File σ β] in
/-- Without elements in the get area there is the rest of the file. -/
theorem remaining_of_not_get (content : List β) {b : Filebuf σ β}
    (h : ∀ c cs, b.area ≠ .get (c :: cs)) : b.remaining content = content.drop b.offset := by
  unfold remaining
  rcases harea : b.area with _ | _ | _
  · rfl
  · rename_i unread
    rcases unread with _ | ⟨c, cs⟩
    · rfl
    · exact absurd harea (h c cs)
  · rfl

omit [File σ β] in
/-- One element more is taken, and there is one more to take. -/
theorem got_cons {taken rest : List β} {n : ℕ} {got : Got}
    (h : taken = rest.take n ∧ got = if n ≤ rest.length then .all else .endOfFile) (c : β) :
    c :: taken = (c :: rest).take (n + 1) ∧
      got = if n + 1 ≤ (c :: rest).length then .all else .endOfFile := by
  obtain ⟨rfl, rfl⟩ := h
  refine ⟨rfl, ?_⟩
  by_cases hle : n ≤ rest.length
  · have hle' : n + 1 ≤ (c :: rest).length := Nat.succ_le_succ hle
    rw [if_pos hle, if_pos hle']
  · have hle' : ¬n + 1 ≤ (c :: rest).length := fun h => hle (Nat.le_of_succ_le_succ h)
    rw [if_neg hle, if_neg hle']

/-- **Taking elements takes them off what remains**, and succeeds exactly if there are
enough. -/
theorem sgetn_of_reads
    (hread : ∀ offset count, File.read file offset count = some ((content.drop offset).take count))
    (n : ℕ) {b : Filebuf σ β} (hfile : b.file = file) (hb : b.Drained) :
    (b.sgetn n).1 = (b.remaining content).take n ∧
      (b.sgetn n).2.2 = if n ≤ (b.remaining content).length then .all else .endOfFile := by
  induction n generalizing b with
  | zero => simp [sgetn]
  | succ n ih =>
    have hget : ∀ (offset : ℕ) (c : β) (cs : List β),
        let b' : Filebuf σ β := ⟨file, offset, .get cs⟩
        (c :: (b'.sgetn n).1 = ((c :: cs) ++ content.drop offset).take (n + 1)) ∧
        (b'.sgetn n).2.2
          = if n + 1 ≤ ((c :: cs) ++ content.drop offset).length then .all else .endOfFile := by
      intro offset c cs
      have hrec := @ih ⟨file, offset, .get cs⟩ rfl (by simp [Drained])
      rw [remaining_get] at hrec
      exact got_cons hrec c
    unfold sgetn
    split
    · rename_i c cs harea
      obtain ⟨hgot, hend⟩ := hget b.offset c cs
      rw [show ({ b with area := .get cs } : Filebuf σ β) = ⟨file, b.offset, .get cs⟩ from by
        rw [hfile]]
      simp only [remaining, harea]
      exact ⟨hgot, hend⟩
    · rename_i hnot
      rw [remaining_of_not_get content hnot]
      obtain ⟨hempty, hsome⟩ := underflow_of_reads hread hfile hb
      by_cases hnil : content.drop b.offset = []
      · have hend := hempty hnil
        rw [hnil]
        rcases hunder : b.underflow with ⟨b', got⟩
        rw [hunder] at hend
        simp only at hend
        subst hend
        simp
      · obtain ⟨hall, c, cs, hb', hrest⟩ := hsome hnil
        obtain ⟨hgot, hend⟩ := hget (b.offset + (c :: cs).length) c cs
        rw [hrest] at hgot hend
        rcases hunder : b.underflow with ⟨b', got⟩
        rw [hunder] at hall hb'
        simp only at hall hb'
        subst hall hb'
        exact ⟨hgot, hend⟩

end Filebuf

namespace Fstream

variable {σ β : Type} [File σ β]

/-- Reading from a working stream on which nothing throws: what was taken, and whether
that was all. -/
theorem read_of_reads {s : Fstream σ β} {content : List β}
    (hread : ∀ offset count,
      File.read s.buf.file offset count = some ((content.drop offset).take count))
    (hstate : s.state = .good) (hmask : s.mask = .good) (hdrained : s.buf.Drained) (n : ℕ) :
    ∃ b, b.Drained ∧ b.file = s.buf.file ∧
      (read n).run s = .ok ((s.buf.remaining content).take n)
        ⟨b, if n ≤ (s.buf.remaining content).length then .good else ⟨true, true, false⟩,
          .good⟩ := by
  obtain ⟨htaken, hgot⟩ := Filebuf.sgetn_of_reads hread n rfl hdrained
  obtain ⟨hfile, hdrained'⟩ := hdrained.sgetn n
  refine ⟨(s.buf.sgetn n).2.1, hdrained', hfile, ?_⟩
  have hsentry : inputSentry.run s = .ok true s := by simp [inputSentry, hstate]
  unfold read
  simp only [EStateM.run_bind, hsentry, if_true, EStateM.run_get, EStateM.run_modify, hgot]
  split_ifs with hlen
  · simp only [EStateM.run_pure, htaken, hstate, hmask]
  · simp only [EStateM.run_bind, setstate_run, hstate, hmask, htaken]
    rfl

end Fstream
end Iostream

end TjTools
