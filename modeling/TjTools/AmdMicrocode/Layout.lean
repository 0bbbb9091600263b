/-
# What the parser accepts

The scan of `TjTools.AmdMicrocode.Scan` against the layout of
`TjTools.AmdMicrocode.Format`, one equivalence for each part: the outer header, the table
(`scanTable_eq_ok`), a section, and all of them (`scanMicrocodes_eq_ok`).  The scan of the
sections ends in a fault exactly if a `ShortSection` comes where a section is due
(`scanMicrocodes_fault_iff`); no other part does.
-/

import TjTools.AmdMicrocode.Scan

namespace TjTools
namespace AmdMicrocode

open LittleEndian

/-- The bytes from the outer header to the sections. -/
def TableOf (entries : List EquivCPUEntry) (bytes rest : List UInt8) : Prop :=
  ∃ n table, sizeofEquivCPUEntry * n < 2 ^ 32 ∧ bytes = (tableHeader n).bytes ++ table ∧
    Table n entries table rest

/-- What is reported of entries and their payloads. -/
def patchesOf (entries : List EquivCPUEntry) (payloads : List (List UInt8)) : List Patch :=
  entries.zipWith (fun it payload => ⟨it.installedCpu, patchId payload, payload⟩) payloads

/-! ### The header and the table -/

theorem scanBytes_append {n : ℕ} (what : String) {head : List UInt8} (h : head.length = n)
    (rest : List UInt8) : scanBytes n what (head ++ rest) = .ok (head, rest) :=
  scanBytes_eq_ok.2 ⟨rfl, h⟩

theorem bind_ne_fault {α β : Type} {x : Except Stop α} {g : α → Except Stop β}
    (hx : x ≠ .error .fault) (hg : ∀ a, g a ≠ .error .fault) : (x >>= g) ≠ .error .fault := by
  rcases x with e | a
  · intro hfault
    cases hfault
    exact hx rfl
  · exact hg a

theorem throw_ne_fault {α : Type} (what : String) :
    (throw (.exception what) : Except Stop α) ≠ .error .fault := by
  intro hfault
  cases hfault

theorem pure_ne_fault {α : Type} (a : α) : (pure a : Except Stop α) ≠ .error .fault := by
  intro hfault
  cases hfault

theorem scanBytes_ne_fault (n : ℕ) (what : String) (bytes : List UInt8) :
    scanBytes n what bytes ≠ .error .fault := by
  unfold scanBytes
  split_ifs
  all_goals simp

theorem scanHeader_eq_ok {n : ℕ} {bytes rest : List UInt8} :
    scanHeader bytes = .ok (n, rest) ↔
      sizeofEquivCPUEntry * n < 2 ^ 32 ∧ bytes = (tableHeader n).bytes ++ rest := by
  unfold scanHeader
  constructor
  · intro h
    rcases hhead : scanBytes sizeofOuterHeader "no outer header" bytes with e | ⟨head, tail⟩
    · rw [hhead] at h
      cases h
    rw [hhead] at h
    obtain ⟨rfl, hlength⟩ := scanBytes_eq_ok.1 hhead
    simp only [bind, Except.bind] at h
    split_ifs at h with hmagic htype hlen
    cases h
    have hdvd : sizeofEquivCPUEntry
        * ((OuterHeader.ofBytes head).tableLen.toNat / sizeofEquivCPUEntry)
          = (OuterHeader.ofBytes head).tableLen.toNat :=
      Nat.mul_div_cancel' (Nat.dvd_of_mod_eq_zero (by simpa using hlen))
    rw [hdvd]
    refine ⟨UInt32.toNat_lt _, ?_⟩
    have hheader : tableHeader
        ((OuterHeader.ofBytes head).tableLen.toNat / sizeofEquivCPUEntry)
          = OuterHeader.ofBytes head := by
      simp only [not_not] at hmagic htype
      rw [tableHeader, hdvd, UInt32.ofNat_toNat, ← hmagic, ← htype]
    rw [hheader, OuterHeader.bytes_ofBytes hlength]
  · rintro ⟨hlt, rfl⟩
    have htoNat : (UInt32.ofNat (sizeofEquivCPUEntry * n)).toNat = sizeofEquivCPUEntry * n :=
      UInt32.toNat_ofNat_of_lt' hlt
    rw [scanBytes_append _ (OuterHeader.length_bytes _)]
    simp only [bind, Except.bind, OuterHeader.ofBytes_bytes, tableHeader, htoNat]
    simp [sizeofEquivCPUEntry, pure, Except.pure]

theorem scanHeader_ne_fault (bytes : List UInt8) : scanHeader bytes ≠ .error .fault := by
  refine bind_ne_fault (scanBytes_ne_fault _ _ _) ?_
  rintro ⟨head, tail⟩
  simp only
  split_ifs
  · exact throw_ne_fault _
  · exact throw_ne_fault _
  · exact throw_ne_fault _
  · exact pure_ne_fault _

/-- **The table loop stops where the table does.** -/
theorem scanTable_eq_ok {n : ℕ} {entries : List EquivCPUEntry} {bytes rest : List UInt8} :
    scanTable n bytes = .ok (entries, rest) ↔ Table n entries bytes rest := by
  constructor
  · intro h
    induction n generalizing entries bytes with
    | zero =>
      cases h
      exact .full _
    | succ n ih =>
      rw [scanTable] at h
      rcases hhead : scanBytes sizeofEquivCPUEntry "short entry" bytes with e | ⟨head, tail⟩
      · rw [hhead] at h
        cases h
      rw [hhead] at h
      obtain ⟨rfl, hlength⟩ := scanBytes_eq_ok.1 hhead
      rw [← EquivCPUEntry.bytes_ofBytes hlength]
      simp only [bind, Except.bind] at h
      split_ifs at h with hcpu
      · cases h
        exact .stop n _ hcpu
      · rcases htail : scanTable n tail with e | ⟨entries', rest'⟩
        · rw [htail] at h
          cases h
        · rw [htail] at h
          cases h
          exact .entry hcpu (ih htail)
  · intro h
    induction h with
    | full rest => rfl
    | stop n rest hcpu =>
      rw [scanTable, scanBytes_append _ (EquivCPUEntry.length_bytes _)]
      simp [bind, Except.bind, hcpu, pure, Except.pure]
    | entry hcpu htable ih =>
      rw [scanTable, scanBytes_append _ (EquivCPUEntry.length_bytes _)]
      simp [bind, Except.bind, hcpu, ih, pure, Except.pure]

theorem scanTable_ne_fault (n : ℕ) (bytes : List UInt8) : scanTable n bytes ≠ .error .fault := by
  induction n generalizing bytes with
  | zero => exact pure_ne_fault _
  | succ n ih =>
    refine bind_ne_fault (scanBytes_ne_fault _ _ _) ?_
    rintro ⟨head, tail⟩
    simp only
    split_ifs
    · exact pure_ne_fault _
    · exact bind_ne_fault (ih tail) fun _ => pure_ne_fault _

/-! ### The sections -/

theorem scanMicrocode_eq_ok {mc : Microcode} {bytes rest : List UInt8} :
    scanMicrocode bytes = .ok (mc, rest) ↔
      bytes = mc.hdr.bytes ++ (mc.payload ++ rest) ∧ mc.hdr.patchType = kUCodeType ∧
        mc.payload.length = mc.hdr.patchSize.toNat ∧
          sizeofMicrocodeHeader ≤ mc.payload.length + rest.length := by
  unfold scanMicrocode
  constructor
  · intro h
    rcases hhead : scanBytes sizeofInnerHeader "short inner header" bytes with e | ⟨head, tail⟩
    · rw [hhead] at h
      cases h
    rw [hhead] at h
    obtain ⟨rfl, hlength⟩ := scanBytes_eq_ok.1 hhead
    simp only [bind, Except.bind] at h
    split_ifs at h with htype hshort
    rcases hpayload : scanBytes (InnerHeader.ofBytes head).patchSize.toNat "short payload" tail
      with e | ⟨payload, tail'⟩
    · rw [hpayload] at h
      cases h
    rw [hpayload] at h
    obtain ⟨rfl, hsize⟩ := scanBytes_eq_ok.1 hpayload
    cases h
    rw [InnerHeader.bytes_ofBytes hlength]
    refine ⟨rfl, by simpa using htype, hsize, ?_⟩
    rw [List.length_append] at hshort
    simp only
    omega
  · rcases mc with ⟨hdr, payload⟩
    rintro ⟨rfl, htype, hsize, hlong⟩
    simp only at htype hsize hlong
    have hnotShort : ¬(payload ++ rest).length < sizeofMicrocodeHeader := by
      rw [List.length_append]
      omega
    rw [scanBytes_append _ (InnerHeader.length_bytes _)]
    simp only [bind, Except.bind, InnerHeader.ofBytes_bytes, htype, ne_eq, not_true_eq_false,
      if_false, if_neg hnotShort, scanBytes_append _ hsize]
    rfl

theorem scanMicrocode_ne_fault (bytes : List UInt8) : scanMicrocode bytes ≠ .error .fault := by
  refine bind_ne_fault (scanBytes_ne_fault _ _ _) ?_
  rintro ⟨head, tail⟩
  simp only
  split_ifs
  · exact throw_ne_fault _
  · exact throw_ne_fault _
  · exact bind_ne_fault (scanBytes_ne_fault _ _ _) fun _ => pure_ne_fault _

/-- A section that is read is its payload with an inner header in front. -/
theorem scanMicrocode_section {mc : Microcode} {bytes rest : List UInt8}
    (h : scanMicrocode bytes = .ok (mc, rest)) :
    bytes = sectionBytes mc.payload ++ rest ∧ mc.payload.length < 2 ^ 32 ∧
      sizeofMicrocodeHeader ≤ mc.payload.length + rest.length := by
  obtain ⟨rfl, htype, hsize, hlong⟩ := scanMicrocode_eq_ok.1 h
  rcases mc with ⟨⟨patchType, patchSize⟩, payload⟩
  simp only at htype hsize hlong
  refine ⟨?_, ?_, hlong⟩
  · rw [sectionBytes, htype, hsize, UInt32.ofNat_toNat, List.append_assoc]
  · simp only [hsize]
    exact patchSize.toNat_lt

/-- A section is read, whatever follows it. -/
theorem scanMicrocode_sectionBytes {payload bytes : List UInt8} (hlt : payload.length < 2 ^ 32)
    (hlong : sizeofMicrocodeHeader ≤ payload.length + bytes.length) :
    scanMicrocode (sectionBytes payload ++ bytes)
      = .ok (⟨⟨kUCodeType, UInt32.ofNat payload.length⟩, payload⟩, bytes) := by
  refine scanMicrocode_eq_ok.2 ⟨?_, rfl, (UInt32.toNat_ofNat_of_lt' hlt).symm, hlong⟩
  rw [sectionBytes, List.append_assoc]

/-- One turn of the loop on a section that is accepted. -/
theorem scanMicrocodes_cons (it : EquivCPUEntry) (entries : List EquivCPUEntry)
    {payload bytes : List UInt8} (hid : offsetofPatchId + 4 ≤ payload.length)
    (hlt : payload.length < 2 ^ 32)
    (hlong : sizeofMicrocodeHeader ≤ payload.length + bytes.length) :
    scanMicrocodes (it :: entries) (sectionBytes payload ++ bytes)
      = (⟨it.installedCpu, patchId payload, payload⟩ :: (scanMicrocodes entries bytes).1,
        (scanMicrocodes entries bytes).2) := by
  rw [scanMicrocodes, scanMicrocode_sectionBytes hlt hlong]
  simp only [if_neg (show ¬payload.length < offsetofPatchId + 4 by omega)]

/-- A short section ends the loop in a fault. -/
theorem scanMicrocodes_shortSection (it : EquivCPUEntry) (entries : List EquivCPUEntry)
    {bytes : List UInt8} (h : ShortSection bytes) :
    (scanMicrocodes (it :: entries) bytes).2 = .error .fault := by
  obtain ⟨patchSize, rest, hsize, hlong, rfl⟩ := h
  have hle : patchSize.toNat ≤ rest.length := by
    unfold offsetofPatchId at hsize
    unfold sizeofMicrocodeHeader at hlong
    omega
  have hscan : scanMicrocode ((InnerHeader.mk kUCodeType patchSize).bytes ++ rest)
      = .ok (⟨⟨kUCodeType, patchSize⟩, rest.take patchSize.toNat⟩,
        rest.drop patchSize.toNat) := by
    refine scanMicrocode_eq_ok.2 ⟨?_, rfl, List.length_take_of_le hle, ?_⟩
    · rw [List.take_append_drop]
    · rw [← List.length_append, List.take_append_drop]
      exact hlong
  rw [scanMicrocodes, hscan]
  simp only [List.length_take_of_le hle, if_pos hsize]

/-- **The section loop accepts the sections and reports their payloads.** -/
theorem scanMicrocodes_eq_ok {entries : List EquivCPUEntry} {patches : List Patch}
    {bytes rest : List UInt8} :
    scanMicrocodes entries bytes = (patches, .ok ((), rest)) ↔
      ∃ payloads, payloads.length = entries.length ∧ Sections payloads bytes rest ∧
        patches = patchesOf entries payloads := by
  induction entries generalizing patches bytes with
  | nil =>
    constructor
    · intro h
      cases h
      exact ⟨[], rfl, .nil _, rfl⟩
    · rintro ⟨payloads, hlength, hsections, rfl⟩
      obtain rfl := List.length_eq_zero_iff.1 hlength
      cases hsections
      rfl
  | cons it entries ih =>
    constructor
    · intro h
      rw [scanMicrocodes] at h
      rcases hscan : scanMicrocode bytes with e | ⟨mc, tail⟩
      · rw [hscan] at h
        cases h
      rw [hscan] at h
      obtain ⟨rfl, hlt, hlong⟩ := scanMicrocode_section hscan
      simp only at h
      split_ifs at h with hshort
      · cases h
      rcases hrest : scanMicrocodes entries tail with ⟨patches', ending⟩
      rw [hrest] at h
      cases h
      obtain ⟨payloads, hlength, hsections, rfl⟩ := ih.1 hrest
      exact ⟨mc.payload :: payloads, by simp [hlength], .cons (by omega) hlt hlong hsections, rfl⟩
    · rintro ⟨payloads, hlength, hsections, rfl⟩
      cases hsections with
      | nil => cases hlength
      | @cons payload payloads bytes rest hid hlt hlong hsections =>
        have hrest := ih.2 ⟨payloads, Nat.succ.inj hlength, hsections, rfl⟩
        rw [scanMicrocodes_cons it entries hid hlt hlong, hrest]
        rfl

/-- **The section loop reads past a payload** in a short section that comes where a section is
due. -/
theorem scanMicrocodes_fault_iff {entries : List EquivCPUEntry} {bytes : List UInt8} :
    (scanMicrocodes entries bytes).2 = .error .fault ↔
      ∃ payloads rest, payloads.length < entries.length ∧ Sections payloads bytes rest ∧
        ShortSection rest := by
  induction entries generalizing bytes with
  | nil =>
    refine iff_of_false (fun h => by cases h) ?_
    rintro ⟨payloads, rest, hlength, -⟩
    rw [List.length_nil] at hlength
    omega
  | cons it entries ih =>
    constructor
    · intro h
      rw [scanMicrocodes] at h
      rcases hscan : scanMicrocode bytes with e | ⟨mc, tail⟩
      · rw [hscan] at h
        cases h
        exact absurd hscan (scanMicrocode_ne_fault bytes)
      rw [hscan] at h
      simp only at h
      split_ifs at h with hshort
      · -- the section at hand is the short one
        obtain ⟨rfl, htype, hsize, hlong⟩ := scanMicrocode_eq_ok.1 hscan
        refine ⟨[], _, by simp, .nil _, mc.hdr.patchSize, mc.payload ++ tail, by omega, ?_, ?_⟩
        · rw [List.length_append]
          exact hlong
        · rw [← htype]
      · obtain ⟨rfl, hlt, hlong⟩ := scanMicrocode_section hscan
        obtain ⟨payloads, rest, hlength, hsections, hrest⟩ := ih.1 h
        exact ⟨mc.payload :: payloads, rest, by simpa using hlength,
          .cons (by omega) hlt hlong hsections, hrest⟩
    · rintro ⟨payloads, rest, hlength, hsections, hrest⟩
      cases hsections with
      | nil => exact scanMicrocodes_shortSection it entries hrest
      | @cons payload payloads bytes rest hid hlt hlong hsections =>
        rw [scanMicrocodes_cons it entries hid hlt hlong]
        exact ih.2 ⟨payloads, rest, by simpa using hlength, hsections, hrest⟩

/-! ### The file -/

/-- What is left of a file after its table. -/
theorem scan_tableOf {entries : List EquivCPUEntry} {bytes rest : List UInt8}
    (h : TableOf entries bytes rest) : scan bytes = scanMicrocodes entries rest := by
  obtain ⟨n, table, hlt, rfl, htable⟩ := h
  have hnonempty : ((tableHeader n).bytes ++ table).length ≠ 0 := by
    simp [sizeofOuterHeader]
  rw [scan, if_neg hnonempty, scanHeader_eq_ok.2 ⟨hlt, rfl⟩]
  simp only [scanTable_eq_ok.2 htable]

/-- A file has a table, or the scan ends with an exception and no patch. -/
theorem tableOf_or (bytes : List UInt8) :
    (∃ entries rest, TableOf entries bytes rest) ∨
      ∃ what, scan bytes = ([], .error (.exception what)) := by
  rw [scan]
  split_ifs with hempty
  · exact .inr ⟨_, rfl⟩
  rcases hheader : scanHeader bytes with (what | _) | ⟨n, table⟩
  · exact .inr ⟨what, rfl⟩
  · exact absurd hheader (scanHeader_ne_fault bytes)
  rcases htable : scanTable n table with (what | _) | ⟨entries, rest⟩
  · exact .inr ⟨what, by simp only [htable]⟩
  · exact absurd htable (scanTable_ne_fault n table)
  obtain ⟨hlt, heq⟩ := scanHeader_eq_ok.1 hheader
  exact .inl ⟨entries, rest, n, table, hlt, heq, scanTable_eq_ok.1 htable⟩

end AmdMicrocode
end TjTools
