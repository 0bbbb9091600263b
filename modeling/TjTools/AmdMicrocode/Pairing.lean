/-
# Which patch belongs to which CPU

An entry of the equivalence table names the section of its CPU: `equiv_cpu` of the entry is
`processor_rev_id` of the microcode header the section's payload begins with.  Several
entries may name one section, and the sections lie in any order.

`main` of `src/src/amd_microcode.cpp` reads neither number.  It takes one section for each
entry, in the order of the file (lines 217-252), so what it reports is a pairing by
position (`scan_equivContainer`).  That is the pairing of the two numbers if and only if
there are as many sections as entries and the sections come in the order of the CPUs that
name them (`pairs_own_patch_iff`).
-/

import TjTools.AmdMicrocode.Container

namespace TjTools
namespace AmdMicrocode

open LittleEndian

/-- Where `processor_rev_id` lies in a `MicrocodeHeader`. -/
def offsetofProcessorRevId : ℕ := 24

/-- `processor_rev_id` of the `MicrocodeHeader` a payload begins with. -/
def processorRevId (payload : List UInt8) : UInt16 := u16 (payload.drop offsetofProcessorRevId)

/-- A well-formed file: a table whose last entry is its only terminator, then the sections.
Each entry names one of them. -/
structure EquivContainer where
  entries : List EquivCPUEntry
  terminator : EquivCPUEntry
  /-- The payloads of the sections. -/
  sections : List (List UInt8)
  installed : ∀ it ∈ entries, it.installedCpu ≠ 0
  terminates : terminator.installedCpu = 0
  payload_size : ∀ payload ∈ sections,
    sizeofMicrocodeHeader ≤ payload.length ∧ payload.length < 2 ^ 32
  resolves : ∀ it ∈ entries,
    sections.countP (fun payload => processorRevId payload == it.equivCpu) = 1
  table_fits : sizeofEquivCPUEntry * (entries.length + 1) < 2 ^ 32
  size_lt : ((tableHeader (entries.length + 1)).bytes ++ (entries.flatMap EquivCPUEntry.bytes
    ++ (terminator.bytes ++ sectionsBytes sections))).length < 2 ^ 63

namespace EquivContainer

variable (c : EquivContainer)

def file : File where
  bytes := (tableHeader (c.entries.length + 1)).bytes ++ (c.entries.flatMap EquivCPUEntry.bytes
    ++ (c.terminator.bytes ++ sectionsBytes c.sections))
  size_lt := c.size_lt

/-- The patch is that of a section whose `processor_rev_id` is `equiv_cpu` of the entry, and
it is reported for the CPU of the entry. -/
def Pairs (it : EquivCPUEntry) (patch : Patch) : Prop :=
  patch.installedCpu = it.installedCpu ∧ patch.payload ∈ c.sections ∧
    patch.patchId = patchId patch.payload ∧ processorRevId patch.payload = it.equivCpu

/-- Every entry is reported once, with a section of its own, and no section is missed. -/
def Paired (patches : List Patch) : Prop :=
  (∃ order, c.entries.Perm order ∧ List.Forall₂ c.Pairs order patches) ∧
    ∀ payload ∈ c.sections, ∃ patch ∈ patches, patch.payload = payload

/-- The numbers a table gives to its CPUs. -/
def named : List (UInt32 × UInt16) := c.entries.map fun it => (it.installedCpu, it.equivCpu)

/-- The numbers of the sections, given to the CPUs in the order of the file. -/
def aligned : List (UInt32 × UInt16) :=
  c.entries.zipWith (fun it payload => (it.installedCpu, processorRevId payload)) c.sections

/-- As many sections as entries, each in the place of a CPU that names it. -/
def InStep : Prop := c.sections.length = c.entries.length ∧ c.named.Perm c.aligned

end EquivContainer

/-! ### The sections a file is read as -/

/-- Bytes are read as one sequence of sections only. -/
theorem Sections.isPrefix {payloads sections : List (List UInt8)} {bytes rest : List UInt8}
    (h : Sections payloads bytes rest) (hsections : Sections sections bytes []) :
    payloads <+: sections := by
  induction h generalizing sections with
  | nil rest => exact List.nil_prefix
  | @cons payload payloads bytes rest hid hlt hlong _ ih =>
    generalize hall : sectionBytes payload ++ bytes = all at hsections
    cases hsections with
    | nil =>
      have hlength := congrArg List.length hall
      rw [List.length_append, length_sectionBytes, List.length_nil] at hlength
      unfold sizeofInnerHeader at hlength
      omega
    | @cons payload' payloads' bytes' _ _ hlt' hlong' hsections =>
      have hread := scanMicrocode_sectionBytes hlt hlong
      rw [hall, scanMicrocode_sectionBytes hlt' hlong'] at hread
      injection hread with hread
      obtain ⟨hmc, rfl⟩ := Prod.mk.inj hread
      obtain ⟨-, rfl⟩ := Microcode.mk.inj hmc
      exact (List.prefix_cons_inj _).2 (ih hsections)

/-- Sections past the last entry are not reported. -/
theorem patchesOf_append {entries : List EquivCPUEntry} {payloads : List (List UInt8)}
    (h : entries.length = payloads.length) (more : List (List UInt8)) :
    patchesOf entries (payloads ++ more) = patchesOf entries payloads := by
  have happend : patchesOf (entries ++ []) (payloads ++ more)
      = patchesOf entries payloads ++ patchesOf [] more := List.zipWith_append h
  have hnil : patchesOf [] more = [] := List.zipWith_nil_left
  rw [List.append_nil, hnil, List.append_nil] at happend
  exact happend

/-- **What `main` reports of a well-formed file**: the sections in the order of the file, one
for each entry; without a section for every entry it fails. -/
theorem scan_equivContainer (c : EquivContainer) (patches : List Patch) :
    (∃ rest, scan c.file.bytes = (patches, .ok ((), rest))) ↔
      c.entries.length ≤ c.sections.length ∧ patches = patchesOf c.entries c.sections := by
  have htable : TableOf c.entries c.file.bytes (sectionsBytes c.sections) :=
    ⟨c.entries.length + 1, _, c.table_fits, rfl, table_entries c.installed c.terminates 0 _⟩
  rw [scan_tableOf htable]
  constructor
  · rintro ⟨rest, hscan⟩
    obtain ⟨payloads, hlength, hread, rfl⟩ := scanMicrocodes_eq_ok.1 hscan
    have hsections := sections_of_size c.payload_size []
    rw [List.append_nil] at hsections
    obtain ⟨more, hmore⟩ := hread.isPrefix hsections
    rw [← hmore, List.length_append, patchesOf_append hlength.symm]
    exact ⟨by omega, rfl⟩
  · rintro ⟨hle, rfl⟩
    have htake : (c.sections.take c.entries.length).length = c.entries.length :=
      List.length_take_of_le hle
    have hsize : ∀ payload ∈ c.sections.take c.entries.length,
        sizeofMicrocodeHeader ≤ payload.length ∧ payload.length < 2 ^ 32 := by
      intro payload hpayload
      exact c.payload_size payload (List.mem_of_mem_take hpayload)
    have hread := sections_of_size hsize (sectionsBytes (c.sections.drop c.entries.length))
    rw [sectionsBytes, sectionsBytes, ← List.flatMap_append, List.take_append_drop] at hread
    refine ⟨_, scanMicrocodes_eq_ok.2 ⟨_, htake, hread, ?_⟩⟩
    rw [← patchesOf_append htake.symm (c.sections.drop c.entries.length),
      List.take_append_drop]

/-! ### Pairing -/

namespace EquivContainer

variable (c : EquivContainer)

/-- The CPU a patch is reported for, with the number of the section it comes from. -/
def reportedFor (patch : Patch) : UInt32 × UInt16 :=
  (patch.installedCpu, processorRevId patch.payload)

theorem map_reportedFor : (patchesOf c.entries c.sections).map reportedFor = c.aligned := by
  rw [patchesOf, aligned, List.map_zipWith]
  rfl

theorem mem_patchesOf {patch : Patch} (h : patch ∈ patchesOf c.entries c.sections) :
    patch.payload ∈ c.sections ∧ patch.patchId = patchId patch.payload := by
  obtain ⟨i, hi, rfl⟩ := List.getElem_of_mem h
  simp only [patchesOf, List.getElem_zipWith]
  exact ⟨List.getElem_mem _, trivial⟩

/-- A patch of the file is paired with an entry by the numbers alone. -/
theorem pairs_iff {it : EquivCPUEntry} {patch : Patch}
    (h : patch ∈ patchesOf c.entries c.sections) :
    c.Pairs it patch ↔ (it.installedCpu, it.equivCpu) = reportedFor patch := by
  obtain ⟨hpayload, hid⟩ := c.mem_patchesOf h
  rw [Pairs, reportedFor, Prod.mk.injEq]
  constructor
  · rintro ⟨hcpu, -, -, hrev⟩
    exact ⟨hcpu.symm, hrev.symm⟩
  · rintro ⟨hcpu, hrev⟩
    exact ⟨hcpu.symm, hpayload, hid, hrev.symm⟩

theorem forall₂_pairs_iff {order : List EquivCPUEntry} {patches : List Patch}
    (h : ∀ patch ∈ patches, patch ∈ patchesOf c.entries c.sections) :
    List.Forall₂ c.Pairs order patches ↔
      patches.map reportedFor = order.map fun it => (it.installedCpu, it.equivCpu) := by
  induction order generalizing patches with
  | nil => cases patches <;> simp
  | cons it order ih =>
    cases patches with
    | nil => simp
    | cons patch patches =>
      rw [List.forall₂_cons, c.pairs_iff (h patch List.mem_cons_self),
        ih fun p hp => h p (List.mem_cons_of_mem patch hp), List.map_cons, List.map_cons,
        List.cons.injEq, eq_comm]

/-- The entries can be put in an order that pairs them up when the report gives the CPUs the
numbers the table gives them. -/
theorem exists_order_iff :
    (∃ order, c.entries.Perm order ∧
      List.Forall₂ c.Pairs order (patchesOf c.entries c.sections)) ↔ c.named.Perm c.aligned := by
  rw [← c.map_reportedFor]
  constructor
  · rintro ⟨order, hperm, horder⟩
    rw [(c.forall₂_pairs_iff fun _ h => h).1 horder]
    exact hperm.map _
  · intro hperm
    have hcomp := congrFun (congrFun (List.eq_map_comp_perm
      fun it : EquivCPUEntry => (it.installedCpu, it.equivCpu))
      ((patchesOf c.entries c.sections).map reportedFor)) c.entries
    obtain ⟨order, hmap, horder⟩ := hcomp.mpr hperm.symm
    exact ⟨order, horder.symm, (c.forall₂_pairs_iff fun _ h => h).2 hmap⟩

/-- The number of a section that is paired belongs to that section alone. -/
theorem countP_of_aligned (hperm : c.named.Perm c.aligned) {patch : Patch}
    (h : patch ∈ patchesOf c.entries c.sections) :
    c.sections.countP (fun payload => processorRevId payload == processorRevId patch.payload)
      = 1 := by
  have hmem : reportedFor patch ∈ c.named := by
    rw [hperm.mem_iff, ← c.map_reportedFor]
    exact List.mem_map_of_mem h
  obtain ⟨it, hit, heq⟩ := List.mem_map.1 hmem
  have hrev : it.equivCpu = processorRevId patch.payload := congrArg Prod.snd heq
  rw [← hrev]
  exact c.resolves it hit

/-- When every section is reported there are not more sections than entries: a section past
the last entry would have the number of an earlier one. -/
theorem length_le_of_covered (hperm : c.named.Perm c.aligned)
    (hle : c.entries.length ≤ c.sections.length)
    (hcovered : ∀ payload ∈ c.sections,
      ∃ patch ∈ patchesOf c.entries c.sections, patch.payload = payload) :
    c.sections.length ≤ c.entries.length := by
  by_contra hmore
  have hsplit := List.take_append_drop c.entries.length c.sections
  have htake : (c.sections.take c.entries.length).length = c.entries.length :=
    List.length_take_of_le hle
  obtain ⟨payload, hlast⟩ := List.exists_mem_of_ne_nil (c.sections.drop c.entries.length)
    (List.ne_nil_of_length_pos (by rw [List.length_drop]; omega))
  obtain ⟨patch, hpatch, rfl⟩ := hcovered payload (List.mem_of_mem_drop hlast)
  have hone := c.countP_of_aligned hperm hpatch
  have hfirst : patch.payload ∈ c.sections.take c.entries.length := by
    rw [← hsplit, patchesOf_append htake.symm] at hpatch
    rw [← payloads_patchesOf htake]
    exact List.mem_map_of_mem hpatch
  rw [← hsplit, List.countP_append] at hone
  have hpos : ∀ payloads : List (List UInt8), patch.payload ∈ payloads →
      0 < payloads.countP fun payload => processorRevId payload == processorRevId patch.payload :=
    fun payloads hmem => List.countP_pos_iff.2 ⟨patch.payload, hmem, beq_self_eq_true _⟩
  have h₁ := hpos _ hfirst
  have h₂ := hpos _ hlast
  omega

end EquivContainer

/-- **Every CPU is reported with its own patch if and only if there are as many sections as
entries and the section in the place of a CPU is one that the CPU names.** -/
theorem pairs_own_patch_iff (c : EquivContainer) :
    (∃ s, parse c.file = .ok () s ∧ c.Paired s.report) ↔ c.InStep := by
  have hparse : (∃ s, parse c.file = .ok () s ∧ c.Paired s.report) ↔
      c.entries.length ≤ c.sections.length ∧ c.Paired (patchesOf c.entries c.sections) := by
    constructor
    · rintro ⟨s, hrun, hpaired⟩
      obtain ⟨hle, hreport⟩ :=
        (scan_equivContainer c s.report).1 (parse_eq_ok.1 ⟨s, hrun, rfl⟩)
      exact ⟨hle, hreport ▸ hpaired⟩
    · rintro ⟨hle, hpaired⟩
      obtain ⟨s, hrun, hreport⟩ := parse_eq_ok.2 ((scan_equivContainer c _).2 ⟨hle, rfl⟩)
      exact ⟨s, hrun, hreport.symm ▸ hpaired⟩
  rw [hparse, EquivContainer.Paired, c.exists_order_iff, EquivContainer.InStep]
  constructor
  · rintro ⟨hle, hperm, hcovered⟩
    exact ⟨le_antisymm (c.length_le_of_covered hperm hle hcovered) hle, hperm⟩
  · rintro ⟨hlength, hperm⟩
    refine ⟨hlength.ge, hperm, ?_⟩
    intro payload hpayload
    rw [← payloads_patchesOf hlength] at hpayload
    exact List.mem_map.1 hpayload

/-- A payload of zeroes with a `processor_rev_id` and a `patch_id` below 256. -/
def samplePayload (patchId revId : UInt8) : List UInt8 :=
  List.replicate 4 0 ++ (patchId :: List.replicate 19 0) ++ (revId :: List.replicate 39 0)

/-- The entry at the end of a table. -/
def zeroEntry : EquivCPUEntry := ⟨0, 0, 0, 0, 0⟩

/-- Two CPUs that share the only section. -/
def sharedContainer : EquivContainer where
  entries := [⟨1, 0, 0, 7, 0⟩, ⟨2, 0, 0, 7, 0⟩]
  terminator := zeroEntry
  sections := [samplePayload 5 7]
  installed := by decide
  terminates := rfl
  payload_size := by decide +kernel
  resolves := by decide +kernel
  table_fits := by decide
  size_lt := by decide +kernel

/-- The second of the CPUs is taken to have a section of its own. -/
theorem not_pairs_own_patch :
    ¬∀ c : EquivContainer, ∃ s, parse c.file = .ok () s ∧ c.Paired s.report := by
  intro h
  obtain ⟨s, hrun, -⟩ := h sharedContainer
  have hfails : threw (parse sharedContainer.file) = true := by decide +kernel
  rw [hrun] at hfails
  exact Bool.noConfusion hfails

/-- Two CPUs whose sections lie in the other order: each is reported with the patch of the
other. -/
example :
    let c : EquivContainer := { sharedContainer with
      entries := [⟨1, 0, 0, 7, 0⟩, ⟨2, 0, 0, 8, 0⟩]
      sections := [samplePayload 6 8, samplePayload 5 7]
      installed := by decide
      payload_size := by decide +kernel
      resolves := by decide +kernel
      table_fits := by decide
      size_lt := by decide +kernel }
    (final (parse c.file)).report.map (fun patch => (patch.installedCpu, patch.patchId))
      = [(1, 6), (2, 5)] := by
  decide +kernel

end AmdMicrocode
end TjTools
