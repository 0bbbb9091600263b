/-
# Containers

A container as one would build it for `main` of `src/src/amd_microcode.cpp`: entries with a
CPU, a terminator, any entries after that up to the length the outer header gives, and a
section for each of the first entries.

The parser leaves the table at the terminator and looks for the sections right there, not
where the table ends.  So it gives back what the container was built from if and only if
the bytes after the terminator begin with those of the sections (`reports_patches_iff`),
as they do where the terminator is the last entry.
-/

import TjTools.AmdMicrocode.Layout

namespace TjTools
namespace AmdMicrocode

structure Container where
  /-- The entries before the terminator, each with the payload of its section. -/
  members : List (EquivCPUEntry × List UInt8)
  terminator : EquivCPUEntry
  /-- The entries after the terminator. -/
  others : List EquivCPUEntry
  installed : ∀ member ∈ members, member.1.installedCpu ≠ 0
  terminates : terminator.installedCpu = 0
  payload_size : ∀ member ∈ members,
    sizeofMicrocodeHeader ≤ member.2.length ∧ member.2.length < 2 ^ 32
  table_fits : sizeofEquivCPUEntry * (members.length + 1 + others.length) < 2 ^ 32

/-- The sections of some payloads, one after the other. -/
def sectionsBytes (payloads : List (List UInt8)) : List UInt8 := payloads.flatMap sectionBytes

namespace Container

variable (c : Container)

def entries : List EquivCPUEntry := c.members.map Prod.fst

def payloads : List (List UInt8) := c.members.map Prod.snd

/-- The bytes of the entries after the terminator. -/
def othersBytes : List UInt8 := c.others.flatMap EquivCPUEntry.bytes

def bytes : List UInt8 :=
  (tableHeader (c.members.length + 1 + c.others.length)).bytes
    ++ (c.entries.flatMap EquivCPUEntry.bytes ++ (c.terminator.bytes
      ++ (c.othersBytes ++ sectionsBytes c.payloads)))

/-- What a container says: the CPU, the patch and the payload of each section. -/
def patches : List Patch :=
  c.members.map fun (it, payload) => ⟨it.installedCpu, patchId payload, payload⟩

theorem patches_eq : c.patches = patchesOf c.entries c.payloads := by
  unfold patches patchesOf entries payloads
  induction c.members with
  | nil => rfl
  | cons member members ih =>
    rw [List.map_cons, List.map_cons, List.map_cons, List.zipWith_cons_cons, ih]

end Container

/-! ### The length of a container -/

theorem length_entriesBytes (entries : List EquivCPUEntry) :
    (entries.flatMap EquivCPUEntry.bytes).length = sizeofEquivCPUEntry * entries.length := by
  induction entries with
  | nil => rfl
  | cons entry entries ih =>
    rw [List.flatMap_cons, List.length_append, EquivCPUEntry.length_bytes, ih, List.length_cons,
      Nat.mul_succ, Nat.add_comm]

theorem length_sectionsBytes_le (payloads : List (List UInt8))
    (h : ∀ payload ∈ payloads, payload.length < 2 ^ 32) :
    (sectionsBytes payloads).length ≤ (sizeofInnerHeader + 2 ^ 32) * payloads.length := by
  induction payloads with
  | nil => exact Nat.zero_le _
  | cons payload payloads ih =>
    have hpayload := h payload List.mem_cons_self
    have hrest := ih fun p hp => h p (List.mem_cons_of_mem payload hp)
    rw [sectionsBytes] at hrest ⊢
    rw [List.flatMap_cons, List.length_append, length_sectionBytes, List.length_cons, Nat.mul_succ]
    omega

/-- A container is short enough for a file: its table has a length of 32 bits, and so has
every payload. -/
def Container.file (c : Container) : File where
  bytes := c.bytes
  size_lt := by
    have htable := c.table_fits
    have hsections := length_sectionsBytes_le c.payloads fun payload hpayload => by
      obtain ⟨member, hmember, rfl⟩ := List.mem_map.1 hpayload
      exact (c.payload_size member hmember).2
    rw [Container.payloads, List.length_map] at hsections
    rw [Container.bytes, List.length_append, List.length_append, List.length_append,
      List.length_append, OuterHeader.length_bytes, EquivCPUEntry.length_bytes, Container.entries,
      Container.othersBytes, length_entriesBytes, length_entriesBytes, List.length_map,
      Container.payloads]
    unfold sizeofOuterHeader sizeofEquivCPUEntry sizeofInnerHeader at *
    omega

/-! ### Parsing undoes building -/

/-- Entries with a CPU, a terminator and `n` places after it. -/
theorem table_entries {entries : List EquivCPUEntry} {terminator : EquivCPUEntry}
    (hentries : ∀ entry ∈ entries, entry.installedCpu ≠ 0) (hstop : terminator.installedCpu = 0)
    (n : ℕ) (rest : List UInt8) :
    Table (entries.length + 1 + n) entries
      (entries.flatMap EquivCPUEntry.bytes ++ (terminator.bytes ++ rest)) rest := by
  induction entries with
  | nil =>
    rw [List.length_nil, Nat.zero_add, Nat.add_comm]
    exact .stop n rest hstop
  | cons entry entries ih =>
    rw [List.flatMap_cons, List.append_assoc, List.length_cons,
      show entries.length + 1 + 1 + n = entries.length + 1 + n + 1 by omega]
    exact .entry (hentries entry List.mem_cons_self)
      (ih fun e he => hentries e (List.mem_cons_of_mem entry he))

theorem tableOf_container (c : Container) :
    TableOf c.entries c.bytes (c.othersBytes ++ sectionsBytes c.payloads) := by
  refine ⟨c.members.length + 1 + c.others.length, _, c.table_fits, rfl, ?_⟩
  have hlength : c.entries.length = c.members.length := List.length_map _
  rw [← hlength]
  refine table_entries ?_ c.terminates c.others.length _
  intro entry hentry
  obtain ⟨member, hmember, rfl⟩ := List.mem_map.1 hentry
  exact c.installed member hmember

/-- Sections are their bytes, one after the other. -/
theorem Sections.bytes_eq {payloads : List (List UInt8)} {bytes rest : List UInt8}
    (h : Sections payloads bytes rest) : bytes = sectionsBytes payloads ++ rest := by
  induction h with
  | nil rest => rfl
  | cons hid hlt hlong hsections ih =>
    rw [ih, sectionsBytes, sectionsBytes, List.flatMap_cons, List.append_assoc]

/-- Payloads that begin with a whole microcode header make sections, whatever follows. -/
theorem sections_of_size {payloads : List (List UInt8)}
    (h : ∀ payload ∈ payloads, sizeofMicrocodeHeader ≤ payload.length ∧ payload.length < 2 ^ 32)
    (rest : List UInt8) : Sections payloads (sectionsBytes payloads ++ rest) rest := by
  induction payloads with
  | nil => exact .nil rest
  | cons payload payloads ih =>
    obtain ⟨hlong, hlt⟩ := h payload List.mem_cons_self
    rw [sectionsBytes, List.flatMap_cons, List.append_assoc]
    refine .cons ?_ hlt (Nat.le_add_right_of_le hlong)
      (ih fun p hp => h p (List.mem_cons_of_mem payload hp))
    unfold sizeofMicrocodeHeader at hlong
    unfold offsetofPatchId
    omega

/-- A report tells the payloads. -/
theorem payloads_patchesOf {entries : List EquivCPUEntry} {payloads : List (List UInt8)}
    (h : payloads.length = entries.length) :
    (patchesOf entries payloads).map Patch.payload = payloads := by
  induction entries generalizing payloads with
  | nil => exact (List.length_eq_zero_iff.1 h).symm
  | cons it entries ih =>
    cases payloads with
    | nil => cases h
    | cons payload payloads =>
      rw [patchesOf, List.zipWith_cons_cons, List.map_cons]
      exact congrArg _ (ih (Nat.succ.inj h))

/-- What `main` accepts, with its report. -/
theorem parse_eq_ok {file : File} {patches : List Patch} :
    (∃ s, parse file = .ok () s ∧ s.report = patches) ↔
      ∃ rest, scan file.bytes = (patches, .ok ((), rest)) := by
  have hends := ends_parse file
  rcases hscan : scan file.bytes with ⟨scanned, e | ⟨⟨⟩, rest⟩⟩
  · rw [hscan] at hends
    obtain ⟨s, hrun, -⟩ := hends
    simp [hrun]
  · rw [hscan] at hends
    obtain ⟨s, hrun, -, -, hreport⟩ := hends
    have hscanned : s.report = scanned := by simpa [start] using hreport
    simp [hrun, hscanned]

/-- **Parsing undoes building, if and only if the bytes after the terminator begin with the
sections.** -/
theorem reports_patches_iff (c : Container) :
    (∃ s, parse c.file = .ok () s ∧ s.report = c.patches) ↔
      sectionsBytes c.payloads <+: c.othersBytes ++ sectionsBytes c.payloads := by
  have hlength : c.payloads.length = c.entries.length := by
    rw [Container.payloads, Container.entries, List.length_map, List.length_map]
  have hscan : scan c.file.bytes
      = scanMicrocodes c.entries (c.othersBytes ++ sectionsBytes c.payloads) :=
    scan_tableOf (tableOf_container c)
  rw [parse_eq_ok, hscan, c.patches_eq]
  constructor
  · rintro ⟨rest, haccepts⟩
    obtain ⟨payloads, hlength', hsections, hpatches⟩ := scanMicrocodes_eq_ok.1 haccepts
    obtain rfl : c.payloads = payloads := by
      rw [← payloads_patchesOf hlength, hpatches, payloads_patchesOf hlength']
    exact ⟨rest, hsections.bytes_eq.symm⟩
  · rintro ⟨rest, hbytes⟩
    refine ⟨rest, scanMicrocodes_eq_ok.2 ⟨c.payloads, hlength, ?_, rfl⟩⟩
    rw [← hbytes]
    refine sections_of_size ?_ rest
    intro payload hpayload
    obtain ⟨member, hmember, rfl⟩ := List.mem_map.1 hpayload
    exact c.payload_size member hmember

/-- A container with one section, and an entry after the terminator. -/
def sampleContainer : Container where
  members := [(⟨1, 0, 0, 2, 0⟩, List.replicate 64 3)]
  terminator := ⟨0, 0, 0, 0, 0⟩
  others := [⟨0, 0, 0, 0, 0⟩]
  installed := by decide
  terminates := rfl
  payload_size := by decide +kernel
  table_fits := by decide

/-- The entry after the terminator is taken for an inner header. -/
theorem not_reports_patches :
    ¬∀ c : Container, ∃ s, parse c.file = .ok () s ∧ s.report = c.patches := by
  intro h
  obtain ⟨s, hrun, -⟩ := h sampleContainer
  have hfails : threw (parse sampleContainer.file) = true := by decide +kernel
  rw [hrun] at hfails
  exact Bool.noConfusion hfails

/-- Without that entry the section is reported. -/
example :
    let c : Container := { sampleContainer with others := [], table_fits := by decide }
    (final (parse c.file)).report = c.patches := by
  decide +kernel

end AmdMicrocode
end TjTools
