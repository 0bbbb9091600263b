/-
# Files that are cut short

Two runs of `main` of `src/src/amd_microcode.cpp` on files of which one begins with the
other.  A part of the file that is accepted is accepted just so when more bytes follow it
(`TableOf.append`, `scanMicrocode_append`), because every length that is compared with
`available_bytes` is compared from below.  So the longer file is reported as the shorter
one is, and goes on from there (`scan_continues`).

A file that is accepted is therefore accepted with the same report when bytes are added to
its end, and not accepted when one of the bytes that were consumed is missing
(`detects_truncation`).
-/

import TjTools.AmdMicrocode.Container

namespace TjTools
namespace AmdMicrocode

/-! ### The parts of a file with more bytes after them -/

theorem Table.append {n : ℕ} {entries : List EquivCPUEntry} {bytes rest : List UInt8}
    (h : Table n entries bytes rest) (more : List UInt8) :
    Table n entries (bytes ++ more) (rest ++ more) := by
  induction h with
  | full rest => exact .full _
  | stop n rest hcpu =>
    rw [List.append_assoc]
    exact .stop n _ hcpu
  | entry hcpu _ ih =>
    rw [List.append_assoc]
    exact .entry hcpu ih

theorem TableOf.append {entries : List EquivCPUEntry} {bytes rest : List UInt8}
    (h : TableOf entries bytes rest) (more : List UInt8) :
    TableOf entries (bytes ++ more) (rest ++ more) := by
  obtain ⟨n, table, hlt, rfl, htable⟩ := h
  exact ⟨n, table ++ more, hlt, List.append_assoc _ _ _, htable.append more⟩

theorem scanMicrocode_append {mc : Microcode} {bytes rest : List UInt8}
    (h : scanMicrocode bytes = .ok (mc, rest)) (more : List UInt8) :
    scanMicrocode (bytes ++ more) = .ok (mc, rest ++ more) := by
  obtain ⟨rfl, htype, hsize, hlong⟩ := scanMicrocode_eq_ok.1 h
  refine scanMicrocode_eq_ok.2 ⟨?_, htype, hsize, ?_⟩
  · rw [List.append_assoc, List.append_assoc]
  · rw [List.length_append]
    omega

/-! ### The report of a file with more bytes after it -/

/-- The scan `y` goes on from where `x` ended, with the bytes `more` after those of `x`. -/
structure Continues (more : List UInt8) (x y : List Patch × Except Stop (Unit × List UInt8)) :
    Prop where
  report : x.1 <+: y.1
  accepted : ∀ rest, x.2 = .ok ((), rest) → y = (x.1, .ok ((), rest ++ more))
  fault : x.2 = .error .fault → y.2 = .error .fault

/-- Nothing is known about the bytes that are missing. -/
theorem continues_exception (more : List UInt8) (what : String)
    (y : List Patch × Except Stop (Unit × List UInt8)) :
    Continues more ([], .error (.exception what)) y := by
  refine ⟨List.nil_prefix, ?_, ?_⟩
  · intro rest hok
    cases hok
  · intro hfault
    cases hfault

theorem scanMicrocodes_continues (entries : List EquivCPUEntry) (bytes more : List UInt8) :
    Continues more (scanMicrocodes entries bytes) (scanMicrocodes entries (bytes ++ more)) := by
  induction entries generalizing bytes with
  | nil =>
    refine ⟨List.nil_prefix, ?_, ?_⟩
    · intro rest hok
      cases hok
      rfl
    · intro hfault
      cases hfault
  | cons it entries ih =>
    rcases hscan : scanMicrocode bytes with (what | _) | ⟨mc, rest⟩
    · rw [scanMicrocodes, hscan]
      exact continues_exception more what _
    · exact absurd hscan (scanMicrocode_ne_fault bytes)
    rw [scanMicrocodes, scanMicrocodes, hscan, scanMicrocode_append hscan more]
    simp only
    by_cases hshort : mc.payload.length < offsetofPatchId + 4
    · -- both runs read past this payload
      rw [if_pos hshort, if_pos hshort]
      refine ⟨List.nil_prefix, ?_, fun hfault => hfault⟩
      intro rest' hok
      cases hok
    · rw [if_neg hshort, if_neg hshort]
      obtain ⟨hreport, haccepted, hfault⟩ := ih rest
      refine ⟨(List.prefix_cons_inj _).2 hreport, ?_, hfault⟩
      intro rest' hok
      rw [haccepted rest' hok]

/-- **More bytes do not change what was reported without them**, nor that a file was
accepted. -/
theorem scan_continues (bytes more : List UInt8) :
    Continues more (scan bytes) (scan (bytes ++ more)) := by
  rcases tableOf_or bytes with ⟨entries, rest, htable⟩ | ⟨what, hscan⟩
  · rw [scan_tableOf htable, scan_tableOf (htable.append more)]
    exact scanMicrocodes_continues entries rest more
  · rw [hscan]
    exact continues_exception more what _

/-! ### The bytes that are consumed -/

/-- A run that ends well has consumed all but the bytes the scan leaves. -/
theorem scan_of_parse {file : File} {s : Parser} (h : parse file = .ok () s) :
    scan file.bytes = (s.report, .ok ((), file.bytes.drop s.cursor.buffer)) ∧
      s.cursor.buffer ≤ file.bytes.length := by
  have hends := ends_parse file
  rcases hscan : scan file.bytes with ⟨patches, e | ⟨⟨⟩, rest⟩⟩
  · rw [hscan, h] at hends
    obtain ⟨s', hrun, -⟩ := hends
    cases hrun
  · rw [hscan, h] at hends
    obtain ⟨s', hrun, hgood, hrest, hreport⟩ := hends
    cases hrun
    have hpatches : s.report = patches := by simpa [start] using hreport
    have hsum := hgood.sum
    refine ⟨?_, by omega⟩
    rw [hpatches, ← hrest, Parser.rest]

/-- A run that does not end well has printed what the scan reports. -/
theorem parse_of_scan {file : File} {patches : List Patch} {e : Stop}
    (h : scan file.bytes = (patches, .error e)) :
    ∃ s, parse file = .error e s ∧ s.report = patches := by
  have hends := ends_parse file
  rw [h] at hends
  obtain ⟨s, hrun, -, hreport⟩ := hends
  exact ⟨s, hrun, by simpa [start] using hreport⟩

/-- **Every truncation is detected.**  A file that lacks one of the bytes that were consumed
ends with an exception, after the report of the sections before; bytes after those that were
consumed change nothing. -/
theorem detects_truncation {file : File} {s : Parser} (h : parse file = .ok () s) :
    (∀ cut : File, cut.bytes <+: file.bytes → cut.bytes.length < s.cursor.buffer →
      ∃ what s', parse cut = .error (.exception what) s' ∧ s'.report <+: s.report) ∧
    (∀ longer : File, file.bytes <+: longer.bytes →
      ∃ s', parse longer = .ok () s' ∧ s'.report = s.report) := by
  obtain ⟨hscan, hle⟩ := scan_of_parse h
  constructor
  · intro cut hcut hlt
    obtain ⟨more, hmore⟩ := hcut
    obtain ⟨hreport, haccepted, hfault⟩ := scan_continues cut.bytes more
    rw [hmore, hscan] at hreport haccepted hfault
    rcases hscan' : scan cut.bytes with ⟨patches, (what | _) | ⟨⟨⟩, rest⟩⟩
    · rw [hscan'] at hreport
      obtain ⟨s', hrun, hprinted⟩ := parse_of_scan hscan'
      refine ⟨what, s', hrun, ?_⟩
      rw [hprinted]
      exact hreport
    · have hok := hfault (by rw [hscan'])
      cases hok
    · -- an accepted cut would leave as many bytes of its own as `file` leaves, less the cut ones
      have hsame := haccepted rest (by rw [hscan'])
      injection hsame with _ hends
      injection hends with hrest
      injection hrest with _ hrest
      have hlengths := congrArg List.length hrest
      have htotal := congrArg List.length hmore
      rw [List.length_drop, List.length_append] at hlengths
      rw [List.length_append] at htotal
      omega
  · intro longer hlonger
    obtain ⟨more, hmore⟩ := hlonger
    have hscan' := (scan_continues file.bytes more).accepted _ (by rw [hscan])
    rw [hmore, hscan] at hscan'
    exact parse_eq_ok.2 ⟨_, hscan'⟩

/-- Two sections, the second longer than a microcode header. -/
def sampleWhole : Container where
  members := [(⟨3, 0, 0, 4, 0⟩, List.replicate 64 5), (⟨6, 0, 0, 7, 0⟩, List.replicate 80 8)]
  terminator := ⟨0, 0, 0, 0, 9⟩
  others := []
  installed := by decide
  terminates := rfl
  payload_size := by decide +kernel
  table_fits := by decide

/-- Its file without the last byte. -/
def sampleCut : File where
  bytes := sampleWhole.file.bytes.take 219
  size_lt := by decide +kernel

/-- The first section is reported before the last byte is missed. -/
theorem detects_truncation_sampleCut :
    (final (parse sampleWhole.file)).cursor.buffer = 220 ∧ (final (parse sampleCut)).report ≠ [] ∧
      ∃ what s', parse sampleCut = .error (.exception what) s' ∧
        s'.report <+: (final (parse sampleWhole.file)).report := by
  have haccepted : threw (parse sampleWhole.file) = false := by decide +kernel
  rcases hrun : parse sampleWhole.file with ⟨⟨⟩, s⟩ | ⟨e, s⟩
  · have hconsumed : (final (parse sampleWhole.file)).cursor.buffer = 220 := by decide +kernel
    rw [hrun] at hconsumed
    refine ⟨hconsumed, by decide +kernel, ?_⟩
    refine (detects_truncation hrun).1 sampleCut (List.take_prefix _ _) ?_
    rw [show s.cursor.buffer = 220 from hconsumed]
    decide +kernel
  · rw [hrun] at haccepted
    exact Bool.noConfusion haccepted

end AmdMicrocode
end TjTools
