/-
# The language of the parser

Which files `main` of `src/src/amd_microcode.cpp` accepts, and what it prints of any file,
accepted or not, that does not lead it to a short section, behind which it reads whatever
follows.  A file with a table can be read in one way only: its entries, and the longest run of
sections after the table, at most one for each entry.  `main` prints exactly the sections of
that run and accepts the file exactly if there is one for each entry; a file without a table
is an exception, with nothing printed (`parse_reports`).
-/

import TjTools.AmdMicrocode.Bounds
import TjTools.AmdMicrocode.Truncation

namespace TjTools
namespace AmdMicrocode

/-- What a file is read as: the entries of its table, the payloads of the sections, and the
bytes after them. -/
structure Reading where
  entries : List EquivCPUEntry
  payloads : List (List UInt8)
  rest : List UInt8

/-- The sections are as many as there are, up to the number of entries. -/
structure Reading.Of (r : Reading) (file : File) : Prop where
  layout : ∃ after, TableOf r.entries file.bytes after ∧ Sections r.payloads after r.rest
  atMost : r.payloads.length ≤ r.entries.length
  longest : r.payloads.length < r.entries.length →
    ∀ payload rest, ¬Sections [payload] r.rest rest

/-! ### One reading -/

theorem TableOf.unique {entries entries' : List EquivCPUEntry} {bytes rest rest' : List UInt8}
    (h : TableOf entries bytes rest) (h' : TableOf entries' bytes rest') :
    entries = entries' ∧ rest = rest' := by
  obtain ⟨n, table, hlt, hbytes, htable⟩ := h
  obtain ⟨n', table', hlt', hbytes', htable'⟩ := h'
  have hheader := scanHeader_eq_ok.2 ⟨hlt, hbytes⟩
  rw [scanHeader_eq_ok.2 ⟨hlt', hbytes'⟩] at hheader
  cases hheader
  have hscan := scanTable_eq_ok.2 htable
  rw [scanTable_eq_ok.2 htable'] at hscan
  cases hscan
  exact ⟨rfl, rfl⟩

/-- A section at the front is what the scan finds there. -/
theorem scanMicrocode_of_sections {payload bytes rest : List UInt8}
    {payloads : List (List UInt8)} (h : Sections (payload :: payloads) bytes rest) :
    ∃ mc after, scanMicrocode bytes = .ok (mc, after) ∧ mc.payload = payload ∧
      offsetofPatchId + 4 ≤ payload.length ∧ Sections payloads after rest := by
  cases h with
  | @cons _ _ after _ hid hlt hlong hsections =>
    exact ⟨_, after, scanMicrocode_sectionBytes hlt hlong, rfl, hid, hsections⟩

/-- Two runs of sections go the same way as long as both last. -/
theorem Sections.unique {payloads payloads' : List (List UInt8)} {bytes rest rest' : List UInt8}
    (h : Sections payloads bytes rest) (h' : Sections payloads' bytes rest')
    (hlength : payloads.length = payloads'.length) : payloads = payloads' ∧ rest = rest' := by
  induction payloads generalizing payloads' bytes with
  | nil =>
    obtain rfl := List.length_eq_zero_iff.1 hlength.symm
    cases h
    cases h'
    exact ⟨rfl, rfl⟩
  | cons payload payloads ih =>
    obtain ⟨payload', payloads', rfl⟩ := List.exists_cons_of_length_eq_add_one hlength.symm
    obtain ⟨mc, after, hscan, rfl, -, hsections⟩ := scanMicrocode_of_sections h
    obtain ⟨mc', after', hscan', rfl, -, hsections'⟩ := scanMicrocode_of_sections h'
    rw [hscan] at hscan'
    cases hscan'
    obtain ⟨rfl, rfl⟩ := ih hsections hsections' (Nat.succ.inj hlength)
    exact ⟨rfl, rfl⟩

/-- A run of sections goes on where a longer one does. -/
theorem Sections.next {payloads payloads' : List (List UInt8)} {bytes rest rest' : List UInt8}
    (h : Sections payloads bytes rest) (h' : Sections payloads' bytes rest')
    (hlt : payloads.length < payloads'.length) :
    ∃ payload after, Sections [payload] rest after := by
  induction payloads generalizing payloads' bytes with
  | nil =>
    obtain ⟨payload, payloads', rfl⟩ := List.exists_cons_of_length_pos hlt
    cases h
    cases h' with
    | @cons _ _ after _ hid hlt hlong hsections =>
      exact ⟨payload, after, .cons hid hlt hlong (.nil after)⟩
  | cons payload payloads ih =>
    obtain ⟨payload', payloads', rfl⟩ :=
      List.exists_cons_of_length_pos (Nat.lt_of_le_of_lt (Nat.zero_le _) hlt)
    obtain ⟨mc, after, hscan, rfl, -, hsections⟩ := scanMicrocode_of_sections h
    obtain ⟨mc', after', hscan', rfl, -, hsections'⟩ := scanMicrocode_of_sections h'
    rw [hscan] at hscan'
    cases hscan'
    exact ih hsections hsections' (Nat.lt_of_succ_lt_succ hlt)

/-- **The format is unambiguous.** -/
theorem Reading.Of.unique {r r' : Reading} {file : File} (h : r.Of file) (h' : r'.Of file) :
    r = r' := by
  obtain ⟨⟨after, htable, hsections⟩, hatMost, hlongest⟩ := h
  obtain ⟨⟨after', htable', hsections'⟩, hatMost', hlongest'⟩ := h'
  rcases r with ⟨entries, payloads, rest⟩
  rcases r' with ⟨entries', payloads', rest'⟩
  simp only at *
  obtain ⟨rfl, rfl⟩ := htable.unique htable'
  rcases Nat.lt_trichotomy payloads.length payloads'.length with hlt | heq | hgt
  · obtain ⟨payload, next, hnext⟩ := hsections.next hsections' hlt
    exact absurd hnext (hlongest (by omega) payload next)
  · obtain ⟨rfl, rfl⟩ := hsections.unique hsections' heq
    rfl
  · obtain ⟨payload, next, hnext⟩ := hsections'.next hsections hgt
    exact absurd hnext (hlongest' (by omega) payload next)

/-! ### What is printed -/

/-- The section loop prints the longest run of sections, and ends well if that is long enough. -/
theorem scanMicrocodes_reports (entries : List EquivCPUEntry) (bytes : List UInt8) :
    ∃ payloads rest, Sections payloads bytes rest ∧ payloads.length ≤ entries.length ∧
      (payloads.length < entries.length → ∀ payload after, ¬Sections [payload] rest after) ∧
      (scanMicrocodes entries bytes).1 = patchesOf entries payloads ∧
      ((∃ after, (scanMicrocodes entries bytes).2 = .ok ((), after)) ↔
        payloads.length = entries.length) := by
  induction entries generalizing bytes with
  | nil => exact ⟨[], bytes, .nil bytes, le_rfl, by simp, rfl, iff_of_true ⟨bytes, rfl⟩ rfl⟩
  | cons it entries ih =>
    rw [scanMicrocodes]
    rcases hscan : scanMicrocode bytes with e | ⟨mc, after⟩
    · -- no section starts here
      refine ⟨[], bytes, .nil bytes, Nat.zero_le _, fun _ payload after hsection => ?_, ?_, ?_⟩
      · obtain ⟨mc, _, hscan', -⟩ := scanMicrocode_of_sections hsection
        rw [hscan] at hscan'
        cases hscan'
      · rfl
      · refine iff_of_false ?_ (by simp)
        rintro ⟨_, hok⟩
        cases hok
    · obtain ⟨hbytes, hlt, hlong⟩ := scanMicrocode_section hscan
      simp only
      split_ifs with hshort
      · -- what starts here is too short
        refine ⟨[], bytes, .nil bytes, Nat.zero_le _, fun _ payload after hsection => ?_, ?_, ?_⟩
        · obtain ⟨mc', _, hscan', rfl, hid, -⟩ := scanMicrocode_of_sections hsection
          rw [hscan] at hscan'
          cases hscan'
          omega
        · rfl
        · refine iff_of_false ?_ (by simp)
          rintro ⟨_, hok⟩
          cases hok
      · obtain ⟨payloads, rest, hsections, hatMost, hlongest, hreport, haccepts⟩ := ih after
        refine ⟨mc.payload :: payloads, rest, ?_, by simpa using hatMost, ?_, ?_, ?_⟩
        · rw [hbytes]
          exact .cons (by omega) hlt hlong hsections
        · simpa using hlongest
        · rw [hreport]
          rfl
        · rw [haccepts]
          simp

theorem report_eq (file : File) : (final (parse file)).report = (scan file.bytes).1 := by
  rcases hscan : scan file.bytes with ⟨patches, e | ⟨⟨⟩, rest⟩⟩
  · obtain ⟨s, hrun, hreport⟩ := parse_of_scan hscan
    rw [hrun]
    exact hreport
  · obtain ⟨s, hrun, hreport⟩ := parse_eq_ok.2 ⟨rest, hscan⟩
    rw [hrun]
    exact hreport

theorem accepts_iff (file : File) :
    (∃ s, parse file = .ok () s) ↔ ∃ rest, (scan file.bytes).2 = .ok ((), rest) := by
  constructor
  · rintro ⟨s, hrun⟩
    obtain ⟨rest, hscan⟩ := parse_eq_ok.1 ⟨s, hrun, rfl⟩
    exact ⟨rest, by rw [hscan]⟩
  · rintro ⟨rest, hscan⟩
    obtain ⟨s, hrun, -⟩ := parse_eq_ok.2 ⟨rest, Prod.ext_iff.2 ⟨rfl, hscan⟩⟩
    exact ⟨s, hrun⟩

/-- Where no short section is reached, a file that is not accepted is an exception. -/
theorem throws_of_not_accepted {file : File} (hsafe : ¬ReachesShortSection file.bytes)
    (h : ¬∃ s, parse file = .ok () s) : ∃ what s, parse file = .error (.exception what) s := by
  rcases hscan : scan file.bytes with ⟨patches, (what | _) | ⟨⟨⟩, rest⟩⟩
  · obtain ⟨s, hrun, -⟩ := parse_of_scan hscan
    exact ⟨what, s, hrun⟩
  · exact absurd (scan_fault_iff file.bytes |>.1 (by rw [hscan])) hsafe
  · obtain ⟨s, hrun, -⟩ := parse_eq_ok.2 ⟨rest, hscan⟩
    exact absurd ⟨s, hrun⟩ h

/-- **What `main` prints and accepts**, unless it reaches a short section.  A file has exactly one
reading, and then `main` prints the patches of its sections and accepts it if and only if there is
a section for each entry; or it has none, and nothing is printed.  A file that is not accepted is
an exception. -/
theorem parse_reports {file : File} (hsafe : ¬ReachesShortSection file.bytes) :
    ((∃ r : Reading, r.Of file ∧ (∀ r', Reading.Of r' file → r' = r) ∧
      (final (parse file)).report = patchesOf r.entries r.payloads ∧
      ((∃ s, parse file = .ok () s) ↔ r.payloads.length = r.entries.length)) ∨
    (¬(∃ r : Reading, r.Of file) ∧ (final (parse file)).report = [] ∧
      ¬∃ s, parse file = .ok () s)) ∧
    ((¬∃ s, parse file = .ok () s) → ∃ what s, parse file = .error (.exception what) s) := by
  refine ⟨?_, throws_of_not_accepted hsafe⟩
  by_cases htable : ∃ entries rest, TableOf entries file.bytes rest
  · obtain ⟨entries, after, htable⟩ := htable
    obtain ⟨payloads, rest, hsections, hatMost, hlongest, hreport, haccepts⟩ :=
      scanMicrocodes_reports entries after
    have hof : Reading.Of ⟨entries, payloads, rest⟩ file :=
      ⟨⟨after, htable, hsections⟩, hatMost, hlongest⟩
    refine .inl ⟨⟨entries, payloads, rest⟩, hof, fun r' hof' => hof'.unique hof, ?_, ?_⟩
    · rw [report_eq, scan_tableOf htable, hreport]
    · rw [accepts_iff, scan_tableOf htable, haccepts]
  · obtain ⟨what, hscan⟩ := (tableOf_or file.bytes).resolve_left htable
    refine .inr ⟨?_, ?_, ?_⟩
    · rintro ⟨r, hof⟩
      obtain ⟨after, htable', -⟩ := hof.layout
      exact htable ⟨r.entries, after, htable'⟩
    · rw [report_eq, hscan]
    · rw [accepts_iff, hscan]
      rintro ⟨_, hok⟩
      cases hok

/-- The cut file has one section less than it has entries. -/
theorem parse_reports_sampleCut :
    ((∃ r : Reading, r.Of sampleCut ∧ (∀ r', Reading.Of r' sampleCut → r' = r) ∧
      (final (parse sampleCut)).report = patchesOf r.entries r.payloads ∧
      ((∃ s, parse sampleCut = .ok () s) ↔ r.payloads.length = r.entries.length)) ∨
    (¬(∃ r : Reading, r.Of sampleCut) ∧ (final (parse sampleCut)).report = [] ∧
      ¬∃ s, parse sampleCut = .ok () s)) ∧
    ((¬∃ s, parse sampleCut = .ok () s) →
      ∃ what s, parse sampleCut = .error (.exception what) s) := by
  refine parse_reports fun hreaches => ?_
  have hfault := (scan_fault_iff sampleCut.bytes).2 hreaches
  have hexception : (match (scan sampleCut.bytes).2 with
      | .error .fault => true
      | _ => false) = false := by decide +kernel
  rw [hfault] at hexception
  exact Bool.noConfusion hexception

end AmdMicrocode
end TjTools
