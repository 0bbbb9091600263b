/-
# Reads inside their objects

Every byte that `main` of `src/src/amd_microcode.cpp` reads lies inside the object it is read
from, except in one kind of file (`safe_iff`).  Line 227 compares the size of a microcode
header with what is left of the file, not with `patch_size`; so a section may be accepted
whose payload ends before its `patch_id` does, and line 248 reads past it.
-/

import TjTools.AmdMicrocode.Layout

namespace TjTools
namespace AmdMicrocode

/-- After the table and less sections than it has entries comes one that is short. -/
def ReachesShortSection (bytes : List UInt8) : Prop :=
  ∃ entries body payloads rest, TableOf entries bytes body ∧
    payloads.length < entries.length ∧ Sections payloads body rest ∧ ShortSection rest

theorem safe_parse_iff (file : File) :
    (final (parse file)).Safe file ↔ (scan file.bytes).2 ≠ .error .fault := by
  have hends := ends_parse file
  rcases hscan : (scan file.bytes).2 with e | ⟨a, rest⟩
  · rw [hscan] at hends
    obtain ⟨s, hrun, hsafe, -⟩ := hends
    rw [hrun, final, hsafe]
    simp
  · rw [hscan] at hends
    obtain ⟨s, hrun, hgood, -⟩ := hends
    rw [hrun, final]
    exact iff_of_true hgood.toSafe (by simp)

theorem scan_fault_iff (bytes : List UInt8) :
    (scan bytes).2 = .error .fault ↔ ReachesShortSection bytes := by
  constructor
  · intro hfault
    rcases tableOf_or bytes with ⟨entries, body, htable⟩ | ⟨what, hscan⟩
    · rw [scan_tableOf htable, scanMicrocodes_fault_iff] at hfault
      obtain ⟨payloads, rest, hreaches⟩ := hfault
      exact ⟨entries, body, payloads, rest, htable, hreaches⟩
    · rw [hscan] at hfault
      cases hfault
  · rintro ⟨entries, body, payloads, rest, htable, hreaches⟩
    rw [scan_tableOf htable, scanMicrocodes_fault_iff]
    exact ⟨payloads, rest, hreaches⟩

/-- **Every read is inside its object, and the cursor counts every byte, unless the file
reaches a short section.** -/
theorem safe_iff (file : File) :
    (final (parse file)).Safe file ↔ ¬ReachesShortSection file.bytes := by
  rw [safe_parse_iff, ne_eq, scan_fault_iff]

/-- A file with one entry, and a section of four bytes that more bytes follow. -/
def sampleShortFile : File where
  bytes := (tableHeader 1).bytes ++ (EquivCPUEntry.mk 1 0 0 0 0).bytes
    ++ (InnerHeader.mk kUCodeType 4).bytes ++ List.replicate 64 0
  size_lt := by decide +kernel

/-- `patch_id` is read past the payload of that section. -/
theorem not_safe : ¬∀ file : File, (final (parse file)).Safe file := by
  intro h
  have hbounds := (h sampleShortFile).accesses ⟨.payload, 4, 4, 4⟩ (by decide +kernel)
  revert hbounds
  decide

end AmdMicrocode
end TjTools
