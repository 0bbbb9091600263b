/-
# The firmware blob in a vendor's driver

`src/src/extract_bmi260_fw.cpp` looks for the blob of a motion sensor in a file: 8192 bytes
whose header holds fourteen sequences of 16-bit words at fixed places (`kHeader`).
`ExtractBMI260FW` jumps from one occurrence of the first sequence to the next, gives up
where a blob no longer fits, compares the header, and goes on one byte further when it does
not match.

A turn of its loop is `turn`, on the position of the iterator; it also keeps what has been
read so far, of the buffer with the file and of the copy of the header.  The two streams
work: what an exception of theirs changes is not looked at here.

The loop leaves with the first blob of the file or, where there is none, with an exception
and without an output file (`extracts_first_blob`).
-/

import TjTools.Basis.LittleEndian
import TjTools.Basis.Loop
import TjTools.Basis.Search

namespace TjTools
namespace Bmi260

open Loop Search

structure Sequence where
  /-- At which offset do we expect the sequence? -/
  offset : UInt16
  data : List UInt16
  deriving DecidableEq, Repr

/-- The words as they lie in memory. -/
def wordBytes (words : List UInt16) : List UInt8 := words.flatMap LittleEndian.ofU16

/-- `kOutputName` -/
def kOutputName : String := "bmi260-init-data.fw"

/-- `kBlobSize` -/
def kBlobSize : ℕ := 8 * 1024

/-- `kMagic0` -/
def kMagic0 : UInt16 := 0x2ec8

/-- `kMagic1` -/
def kMagic1 : UInt16 := 0x2e80

/-- `kMagic2` -/
def kMagic2 : UInt16 := 0x2e00

/-- `kMagic3` -/
def kMagic3 : UInt16 := 0xc100

/-- `kIdent0` -/
def kIdent0 : List UInt16 := [kMagic0, kMagic2, kMagic1]

/-- `kIdent1` -/
def kIdent1 : List UInt16 := [0x3050, 0x2e21, 0xf559, 0x3010, 0x2e21]

/-- `kPadding` -/
def kPadding : List UInt16 := [kMagic1, kMagic3]

/-- `kHeaderSize` -/
def kHeaderSize : ℕ := 96

/-- `kHeader` -/
def kHeader : List Sequence :=
  [⟨0x00, kIdent0⟩, ⟨0x08, [kMagic0]⟩, ⟨0x0a, [kMagic2]⟩,
    ⟨0x10, [kMagic1]⟩, ⟨0x18, [kMagic0]⟩, ⟨0x1c, [kMagic1]⟩,
    ⟨0x20, kIdent1⟩,
    ⟨0x44, kPadding⟩, ⟨0x48, kPadding⟩, ⟨0x4c, kPadding⟩, ⟨0x50, kPadding⟩,
    ⟨0x54, kPadding⟩, ⟨0x58, kPadding⟩, ⟨0x5c, kPadding⟩]

/-! ### What is read -/

inductive Object where
  /-- The vector with the whole file. -/
  | buffer
  /-- The vector the header is copied to. -/
  | header
  deriving DecidableEq, Repr

structure Read where
  source : Object
  start : ℕ
  size : ℕ
  deriving DecidableEq, Repr

def Object.size (buffer : List UInt8) : Object → ℕ
  | .buffer => buffer.length
  | .header => kHeaderSize

def Read.InBounds (buffer : List UInt8) (r : Read) : Prop :=
  r.start + r.size ≤ r.source.size buffer

/-! ### The program -/

/-- The comparisons stop at the first sequence that differs. -/
def check (header : List UInt8) : List Sequence → Bool × List Read
  | [] => (true, [])
  | seq :: hdr =>
    let len := (wordBytes seq.data).length
    let read : Read := ⟨.header, seq.offset.toNat, len⟩
    if (header.drop seq.offset.toNat).take len ≠ wordBytes seq.data then (false, [read])
    else ((check header hdr).1, read :: (check header hdr).2)

/-- The position of `pattern` at or after `first`, or the end of the buffer. -/
def locate (buffer : List UInt8) (first : ℕ) (pattern : List UInt16) : ℕ :=
  match search (wordBytes pattern) (buffer.drop first) with
  | none => buffer.length
  | some offset => first + offset

/-- The state of the loop of `ExtractBMI260FW`. -/
structure Scanner where
  it : ℕ
  reads : List Read

/-- How `ExtractBMI260FW` ends. -/
structure Ending where
  reads : List Read
  /-- The text of the exception. -/
  result : Except String Unit
  /-- The output file with its name. -/
  blob : Option (String × List UInt8)

def turn (buffer : List UInt8) (s : Scanner) : Turn Scanner Ending :=
  let it := locate buffer s.it kIdent0
  let reads := s.reads ++ [⟨.buffer, s.it, buffer.length - s.it⟩]
  if it = buffer.length then .leave ⟨reads, .error "blob not found", none⟩
  else if buffer.length - it < kBlobSize then .leave ⟨reads, .error "no space left", none⟩
  else
    let header := (buffer.drop it).take kHeaderSize
    let reads := reads ++ (⟨.buffer, it, kHeaderSize⟩ :: (check header kHeader).2)
    if (check header kHeader).1 then
      .leave ⟨reads ++ [⟨.buffer, it, kBlobSize⟩], .ok (),
        some (kOutputName, (buffer.drop it).take kBlobSize)⟩
    else .again ⟨it + 1, reads⟩

def start : Scanner := ⟨0, []⟩

/-! ### Blobs -/

/-- There is a blob at position `p` of the file. -/
def BlobAt (buffer : List UInt8) (p : ℕ) : Prop :=
  p + kBlobSize ≤ buffer.length ∧
    ∀ seq ∈ kHeader, OccursAt (wordBytes seq.data) buffer (p + seq.offset.toNat)

theorem sequence_fits {seq : Sequence} (h : seq ∈ kHeader) :
    seq.offset.toNat + (wordBytes seq.data).length ≤ kHeaderSize := by
  have hall : ∀ seq ∈ kHeader,
      seq.offset.toNat + (wordBytes seq.data).length ≤ kHeaderSize := by decide
  exact hall seq h

theorem check_iff {header : List UInt8} {hdr : List Sequence}
    (h : ∀ seq ∈ hdr, seq.offset.toNat + (wordBytes seq.data).length ≤ header.length) :
    (check header hdr).1 = true ↔
      ∀ seq ∈ hdr, OccursAt (wordBytes seq.data) header seq.offset.toNat := by
  induction hdr with
  | nil => simp [check]
  | cons seq hdr ih =>
    have hseq := take_drop_eq_iff (h seq List.mem_cons_self)
    rw [check, List.forall_mem_cons, ← ih fun s hs => h s (List.mem_cons_of_mem seq hs), ← hseq]
    split_ifs with hdiffers
    · simp [hdiffers]
    · simp [not_not.1 hdiffers]

/-- The comparisons read inside the copy of the header. -/
theorem check_reads {header : List UInt8} {hdr : List Sequence} {r : Read}
    (h : r ∈ (check header hdr).2) :
    ∃ seq ∈ hdr, r = ⟨.header, seq.offset.toNat, (wordBytes seq.data).length⟩ := by
  induction hdr with
  | nil => cases h
  | cons seq hdr ih =>
    rw [check] at h
    split_ifs at h with hdiffers
    · exact ⟨seq, List.mem_cons_self, List.mem_singleton.1 h⟩
    · rcases List.mem_cons.1 h with rfl | hlater
      · exact ⟨seq, List.mem_cons_self, rfl⟩
      · obtain ⟨s, hs, heq⟩ := ih hlater
        exact ⟨s, List.mem_cons_of_mem seq hs, heq⟩

/-- The copied header tells whether there is a blob. -/
theorem check_header_iff {buffer : List UInt8} {p : ℕ} (h : p + kBlobSize ≤ buffer.length) :
    (check ((buffer.drop p).take kHeaderSize) kHeader).1 = true ↔ BlobAt buffer p := by
  have hsize : kHeaderSize ≤ kBlobSize := by decide
  have hlength : ((buffer.drop p).take kHeaderSize).length = kHeaderSize := by
    rw [List.length_take, List.length_drop]
    omega
  rw [check_iff fun seq hseq => hlength.symm ▸ sequence_fits hseq, BlobAt, and_iff_right h]
  refine forall₂_congr fun seq hseq => ?_
  exact occursAt_window (by omega) (sequence_fits hseq)

/-- A blob begins with the first sequence. -/
theorem BlobAt.ident {buffer : List UInt8} {p : ℕ} (h : BlobAt buffer p) :
    OccursAt (wordBytes kIdent0) buffer p :=
  h.2 ⟨0x00, kIdent0⟩ List.mem_cons_self

/-- There is no blob between `first` and the position `locate` gives, and that position is
in the file. -/
theorem locate_spec {buffer : List UInt8} {first : ℕ} (h : first ≤ buffer.length) :
    first ≤ locate buffer first kIdent0 ∧ locate buffer first kIdent0 ≤ buffer.length ∧
      ∀ p, first ≤ p → p < locate buffer first kIdent0 → ¬BlobAt buffer p := by
  unfold locate
  have hoccurs : ∀ p, first ≤ p → BlobAt buffer p →
      OccursAt (wordBytes kIdent0) (buffer.drop first) (p - first) := by
    intro p hp hblob
    rw [occursAt_drop h, Nat.add_sub_cancel' hp]
    exact hblob.ident
  cases hsearch : search (wordBytes kIdent0) (buffer.drop first) with
  | none =>
    refine ⟨h, le_rfl, ?_⟩
    intro p hp _ hblob
    exact search_eq_none_iff.1 hsearch (p - first) (hoccurs p hp hblob)
  | some offset =>
    obtain ⟨hfound, hleast⟩ := search_eq_some_iff.1 hsearch
    have hlt := ((occursAt_drop h).1 hfound).1
    refine ⟨Nat.le_add_right first offset, by simp only; omega, ?_⟩
    intro p hp hlater hblob
    have hle := hleast (hoccurs p hp hblob)
    simp only at hlater
    omega

/-! ### The run -/

/-- What holds before every turn: no blob begins before the iterator. -/
structure Scanned (buffer : List UInt8) (s : Scanner) : Prop where
  it_le : s.it ≤ buffer.length
  none_before : ∀ p < s.it, ¬BlobAt buffer p
  reads : ∀ r ∈ s.reads, r.InBounds buffer

/-- What `ExtractBMI260FW` is for. -/
structure Extracted (buffer : List UInt8) (e : Ending) : Prop where
  blob_iff : e.blob.isSome = true ↔ ∃ p, BlobAt buffer p
  first : ∀ p, IsLeast {p | BlobAt buffer p} p →
    e.result = .ok () ∧ e.blob = some (kOutputName, (buffer.drop p).take kBlobSize)
  throws : (∀ p, ¬BlobAt buffer p) → (∃ what, e.result = .error what) ∧ e.blob = none
  reads : ∀ r ∈ e.reads, r.InBounds buffer

theorem scanned_start (buffer : List UInt8) : Scanned buffer start where
  it_le := Nat.zero_le _
  none_before := fun p hp => absurd hp (Nat.not_lt_zero p)
  reads := fun _ hr => absurd hr List.not_mem_nil

/-- An ending without a blob is right where there is none. -/
theorem extracted_error {buffer : List UInt8} {reads : List Read} (what : String)
    (hnone : ∀ p, ¬BlobAt buffer p) (hreads : ∀ r ∈ reads, r.InBounds buffer) :
    Extracted buffer ⟨reads, .error what, none⟩ where
  blob_iff := iff_of_false (by simp) fun ⟨p, hp⟩ => hnone p hp
  first := fun p hp => absurd hp.1 (hnone p)
  throws := fun _ => ⟨⟨what, rfl⟩, rfl⟩
  reads := hreads

/-- The first blob is the one to write. -/
theorem extracted_blob {buffer : List UInt8} {reads : List Read} {p : ℕ}
    (hfirst : IsLeast {p | BlobAt buffer p} p) (hreads : ∀ r ∈ reads, r.InBounds buffer) :
    Extracted buffer ⟨reads, .ok (), some (kOutputName, (buffer.drop p).take kBlobSize)⟩ where
  blob_iff := iff_of_true rfl ⟨p, hfirst.1⟩
  first := by
    intro q hq
    obtain rfl : q = p := hq.unique hfirst
    exact ⟨rfl, rfl⟩
  throws := fun hnone => absurd hfirst.1 (hnone p)
  reads := hreads

/-- No blob begins before the next candidate. -/
theorem Scanned.none_before_locate {buffer : List UInt8} {s : Scanner} (h : Scanned buffer s) :
    ∀ p < locate buffer s.it kIdent0, ¬BlobAt buffer p := by
  intro p hp
  rcases Nat.lt_or_ge p s.it with hbefore | hafter
  · exact h.none_before p hbefore
  · exact (locate_spec h.it_le).2.2 p hafter hp

theorem Scanned.reads_locate {buffer : List UInt8} {s : Scanner} (h : Scanned buffer s) :
    ∀ r ∈ s.reads ++ [⟨.buffer, s.it, buffer.length - s.it⟩], Read.InBounds buffer r := by
  intro r hr
  rcases List.mem_append.1 hr with hr | hr
  · exact h.reads r hr
  · obtain rfl := List.mem_singleton.1 hr
    exact (Nat.add_sub_cancel' h.it_le).le

/-- Copying the header of a candidate and comparing it stays inside the two vectors. -/
theorem Scanned.reads_check {buffer : List UInt8} {s : Scanner} (h : Scanned buffer s) {it : ℕ}
    (hit : it + kBlobSize ≤ buffer.length) (header : List UInt8) :
    ∀ r ∈ s.reads ++ [⟨.buffer, s.it, buffer.length - s.it⟩]
      ++ (⟨.buffer, it, kHeaderSize⟩ :: (check header kHeader).2), Read.InBounds buffer r := by
  have hsize : kHeaderSize ≤ kBlobSize := by decide
  intro r hr
  rcases List.mem_append.1 hr with hr | hr
  · exact h.reads_locate r hr
  rcases List.mem_cons.1 hr with rfl | hr
  · exact (Nat.add_le_add_left hsize it).trans hit
  · obtain ⟨seq, hseq, rfl⟩ := check_reads hr
    exact sequence_fits hseq

theorem turn_again {buffer : List UInt8} {s s' : Scanner} (hs : Scanned buffer s)
    (h : turn buffer s = .again s') :
    Scanned buffer s' ∧ buffer.length - s'.it < buffer.length - s.it := by
  obtain ⟨hge, hle, -⟩ := locate_spec hs.it_le
  have hnone := hs.none_before_locate
  unfold turn at h
  simp only at h
  split_ifs at h with hend hspace hcheck
  cases h
  have hfits : locate buffer s.it kIdent0 + kBlobSize ≤ buffer.length := by omega
  refine ⟨⟨by simp only; omega, ?_, hs.reads_check hfits _⟩, by simp only; omega⟩
  intro p hp
  rcases Nat.lt_succ_iff_lt_or_eq.1 hp with hlt | rfl
  · exact hnone p hlt
  · exact mt (check_header_iff hfits).2 hcheck

theorem turn_leave {buffer : List UInt8} {s : Scanner} {e : Ending} (hs : Scanned buffer s)
    (h : turn buffer s = .leave e) : Extracted buffer e := by
  obtain ⟨-, hle, -⟩ := locate_spec hs.it_le
  have hnone := hs.none_before_locate
  -- a blob at the candidate or after it needs 8192 bytes
  have hshort : buffer.length - locate buffer s.it kIdent0 < kBlobSize →
      ∀ p, ¬BlobAt buffer p := by
    intro hspace p hblob
    have hfits := hblob.1
    exact hnone p (by omega) hblob
  unfold turn at h
  simp only at h
  split_ifs at h with hend hspace hcheck
  · cases h
    exact extracted_error _ (hshort (by rw [hend]; unfold kBlobSize; omega)) hs.reads_locate
  · cases h
    exact extracted_error _ (hshort hspace) hs.reads_locate
  · cases h
    have hfits : locate buffer s.it kIdent0 + kBlobSize ≤ buffer.length := by omega
    refine extracted_blob ⟨(check_header_iff hfits).1 hcheck, ?_⟩ ?_
    · intro p hblob
      by_contra hlt
      exact hnone p (Nat.lt_of_not_le hlt) hblob
    · intro r hr
      rcases List.mem_append.1 hr with hr | hr
      · exact hs.reads_check hfits _ r hr
      · obtain rfl := List.mem_singleton.1 hr
        exact hfits

/-- **`ExtractBMI260FW` ends on every file, in one way: with the first blob, or with an
exception and no output where the file has no blob.**  It reads nothing outside the file. -/
theorem extracts_first_blob (buffer : List UInt8) :
    ∃ e, Ends (turn buffer) start e ∧ (∀ e', Ends (turn buffer) start e' → e' = e) ∧
      (e.blob.isSome = true ↔ ∃ p, BlobAt buffer p) ∧
      (∀ p, IsLeast {p | BlobAt buffer p} p →
        e.result = .ok () ∧ e.blob = some (kOutputName, (buffer.drop p).take kBlobSize)) ∧
      ((∀ p, ¬BlobAt buffer p) → (∃ what, e.result = .error what) ∧ e.blob = none) ∧
      ∀ r ∈ e.reads, r.InBounds buffer := by
  obtain ⟨e, hends, hextracted⟩ := ends_of_measure (Scanned buffer) (Extracted buffer)
    (fun s => buffer.length - s.it) (fun s s' hs => turn_again hs) (fun s e hs => turn_leave hs)
    (scanned_start buffer)
  exact ⟨e, hends, fun e' he' => he'.unique hends, hextracted.blob_iff, hextracted.first,
    hextracted.throws, hextracted.reads⟩

/-- The first sequence at the end of a file is no blob. -/
example :
    ∃ e, Ends (turn (0 :: wordBytes kIdent0)) start e ∧ e.result = .error "no space left" :=
  ⟨_, ends_iff.2 ⟨1, rfl⟩, rfl⟩

end Bmi260
end TjTools
