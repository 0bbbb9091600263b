/-
# The container format

The packed structures of `src/src/amd_microcode.cpp` (lines 22-80) as byte strings, and
how a container is put together from them: an outer header, a table of entries that may
end early at one without a CPU, and for every entry before that a section, which is an
inner header and its payload.

`Table` and `Sections` are what the loops of `main` accept, as relations between bytes
and the bytes that follow.  A section is accepted with a payload shorter than a microcode
header as long as the file goes on for long enough.
-/

import TjTools.Basis.LittleEndian

namespace TjTools
namespace AmdMicrocode

open LittleEndian

/-- `kMagic` -/
def kMagic : UInt32 := 0x414d44

/-- `kEquivCPUTableType` -/
def kEquivCPUTableType : UInt32 := 0

/-- `kUCodeType` -/
def kUCodeType : UInt32 := 1

/-! ### The structures -/

structure OuterHeader where
  magic : UInt32
  tableType : UInt32
  tableLen : UInt32
  deriving DecidableEq, Repr

structure EquivCPUEntry where
  installedCpu : UInt32
  fixedErrataMask : UInt32
  fixedErrataCompare : UInt32
  equivCpu : UInt16
  res : UInt16
  deriving DecidableEq, Repr

structure InnerHeader where
  patchType : UInt32
  patchSize : UInt32
  deriving DecidableEq, Repr

/-- `sizeof(OuterHeader)` -/
def sizeofOuterHeader : ℕ := 12

/-- `sizeof(EquivCPUEntry)` -/
def sizeofEquivCPUEntry : ℕ := 16

/-- `sizeof(InnerHeader)` -/
def sizeofInnerHeader : ℕ := 8

/-- `sizeof(MicrocodeHeader)` -/
def sizeofMicrocodeHeader : ℕ := 64

/-- Where `patch_id` lies in a `MicrocodeHeader`. -/
def offsetofPatchId : ℕ := 4

/-- `patch_id` of the `MicrocodeHeader` a payload begins with. -/
def patchId (payload : List UInt8) : UInt32 := u32 (payload.drop offsetofPatchId)

namespace OuterHeader

def ofBytes (bs : List UInt8) : OuterHeader := ⟨u32 bs, u32 (bs.drop 4), u32 (bs.drop 8)⟩

def bytes (h : OuterHeader) : List UInt8 := ofU32 h.magic ++ (ofU32 h.tableType ++ ofU32 h.tableLen)

@[simp] theorem length_bytes (h : OuterHeader) : h.bytes.length = sizeofOuterHeader := by
  simp [bytes, sizeofOuterHeader]

@[simp] theorem ofBytes_bytes (h : OuterHeader) : ofBytes h.bytes = h := by
  simp [ofBytes, bytes]

theorem bytes_ofBytes {bs : List UInt8} (h : bs.length = sizeofOuterHeader) :
    (ofBytes bs).bytes = bs := by
  unfold sizeofOuterHeader at h
  have h0 := ofU32_u32_of_le bs (by omega)
  have h4 := ofU32_u32_of_le (bs.drop 4) (by rw [List.length_drop]; omega)
  have h8 := ofU32_u32_of_le (bs.drop 8) (by rw [List.length_drop]; omega)
  have hend : (bs.drop 8).take 4 = bs.drop 8 := List.take_of_length_le (by simp [h])
  have hdrop : bs.drop 8 = (bs.drop 4).drop 4 := by rw [List.drop_drop]
  rw [bytes, ofBytes, h0, h4, h8, hend, hdrop, List.take_append_drop, List.take_append_drop]

end OuterHeader

namespace EquivCPUEntry

def ofBytes (bs : List UInt8) : EquivCPUEntry :=
  ⟨u32 bs, u32 (bs.drop 4), u32 (bs.drop 8), u16 (bs.drop 12), u16 (bs.drop 14)⟩

def bytes (e : EquivCPUEntry) : List UInt8 :=
  ofU32 e.installedCpu ++ (ofU32 e.fixedErrataMask ++ (ofU32 e.fixedErrataCompare
    ++ (ofU16 e.equivCpu ++ ofU16 e.res)))

@[simp] theorem length_bytes (e : EquivCPUEntry) : e.bytes.length = sizeofEquivCPUEntry := by
  simp [bytes, sizeofEquivCPUEntry]

@[simp] theorem ofBytes_bytes (e : EquivCPUEntry) : ofBytes e.bytes = e := by
  simp [ofBytes, bytes]

theorem bytes_ofBytes {bs : List UInt8} (h : bs.length = sizeofEquivCPUEntry) :
    (ofBytes bs).bytes = bs := by
  unfold sizeofEquivCPUEntry at h
  have h0 := ofU32_u32_of_le bs (by omega)
  have h4 := ofU32_u32_of_le (bs.drop 4) (by rw [List.length_drop]; omega)
  have h8 := ofU32_u32_of_le (bs.drop 8) (by rw [List.length_drop]; omega)
  have h12 := ofU16_u16_of_le (bs.drop 12) (by rw [List.length_drop]; omega)
  have h14 := ofU16_u16_of_le (bs.drop 14) (by rw [List.length_drop]; omega)
  have hend : (bs.drop 14).take 2 = bs.drop 14 := List.take_of_length_le (by simp [h])
  have h14' : bs.drop 14 = (bs.drop 12).drop 2 := by rw [List.drop_drop]
  have h12' : bs.drop 12 = (bs.drop 8).drop 4 := by rw [List.drop_drop]
  have h8' : bs.drop 8 = (bs.drop 4).drop 4 := by rw [List.drop_drop]
  rw [bytes, ofBytes, h0, h4, h8, h12, h14, hend, h14', List.take_append_drop, h12',
    List.take_append_drop, h8', List.take_append_drop, List.take_append_drop]

end EquivCPUEntry

namespace InnerHeader

def ofBytes (bs : List UInt8) : InnerHeader := ⟨u32 bs, u32 (bs.drop 4)⟩

def bytes (h : InnerHeader) : List UInt8 := ofU32 h.patchType ++ ofU32 h.patchSize

@[simp] theorem length_bytes (h : InnerHeader) : h.bytes.length = sizeofInnerHeader := by
  simp [bytes, sizeofInnerHeader]

@[simp] theorem ofBytes_bytes (h : InnerHeader) : ofBytes h.bytes = h := by
  simp [ofBytes, bytes]

theorem bytes_ofBytes {bs : List UInt8} (h : bs.length = sizeofInnerHeader) :
    (ofBytes bs).bytes = bs := by
  unfold sizeofInnerHeader at h
  have h0 := ofU32_u32_of_le bs (by omega)
  have h4 := ofU32_u32_of_le (bs.drop 4) (by rw [List.length_drop]; omega)
  have hend : (bs.drop 4).take 4 = bs.drop 4 := List.take_of_length_le (by simp [h])
  rw [bytes, ofBytes, h0, h4, hend, List.take_append_drop]

end InnerHeader

/-! ### The layout -/

/-- The outer header of a table of `n` entries. -/
def tableHeader (n : ℕ) : OuterHeader :=
  ⟨kMagic, kEquivCPUTableType, UInt32.ofNat (sizeofEquivCPUEntry * n)⟩

/-- A table of at most `n` entries, before the bytes `rest`. -/
inductive Table : ℕ → List EquivCPUEntry → List UInt8 → List UInt8 → Prop
  | full (rest : List UInt8) : Table 0 [] rest rest
  /-- The terminator. -/
  | stop (n : ℕ) {entry : EquivCPUEntry} (rest : List UInt8) :
      entry.installedCpu = 0 → Table (n + 1) [] (entry.bytes ++ rest) rest
  | entry {n : ℕ} {entry : EquivCPUEntry} {entries : List EquivCPUEntry}
      {bytes rest : List UInt8} :
      entry.installedCpu ≠ 0 → Table n entries bytes rest →
        Table (n + 1) (entry :: entries) (entry.bytes ++ bytes) rest

/-- A payload with the inner header in front. -/
def sectionBytes (payload : List UInt8) : List UInt8 :=
  (InnerHeader.mk kUCodeType (UInt32.ofNat payload.length)).bytes ++ payload

/-- Sections with these payloads, before the bytes `rest`. -/
inductive Sections : List (List UInt8) → List UInt8 → List UInt8 → Prop
  | nil (rest : List UInt8) : Sections [] rest rest
  | cons {payload : List UInt8} {payloads : List (List UInt8)} {bytes rest : List UInt8} :
      offsetofPatchId + 4 ≤ payload.length → payload.length < 2 ^ 32 →
        sizeofMicrocodeHeader ≤ payload.length + bytes.length →
          Sections payloads bytes rest →
            Sections (payload :: payloads) (sectionBytes payload ++ bytes) rest

/-- An inner header that announces a payload without a whole `patch_id`, in a file that goes
on for as long as a microcode header. -/
def ShortSection (bytes : List UInt8) : Prop :=
  ∃ (patchSize : UInt32) (rest : List UInt8), patchSize.toNat < offsetofPatchId + 4 ∧
    sizeofMicrocodeHeader ≤ rest.length ∧
      bytes = (InnerHeader.mk kUCodeType patchSize).bytes ++ rest

theorem length_sectionBytes (payload : List UInt8) :
    (sectionBytes payload).length = sizeofInnerHeader + payload.length := by
  simp [sectionBytes]

end AmdMicrocode
end TjTools
