/-
# The parser on the remaining bytes

What `main` computes, as functions of the bytes from the cursor on: `scan` gives the
patches and how the file ends.  `ends_parse` says that the parser, with its cursor, its
64-bit count of bytes and its record of reads, comes to the same, and that it stays
`Safe` exactly if the scan does not end in a fault.
-/

import TjTools.Basis.Triple
import TjTools.AmdMicrocode.Parser

namespace TjTools
namespace AmdMicrocode

/-- The next `n` bytes and those after, if there are so many. -/
def scanBytes (n : ℕ) (what : String) (bytes : List UInt8) :
    Except Stop (List UInt8 × List UInt8) :=
  if bytes.length < n then .error (.exception what) else .ok (bytes.take n, bytes.drop n)

def scanHeader (bytes : List UInt8) : Except Stop (ℕ × List UInt8) := do
  let (header, rest) ← scanBytes sizeofOuterHeader "no outer header" bytes
  let ohdr := OuterHeader.ofBytes header
  if ohdr.magic ≠ kMagic then throw (.exception "wrong magic")
  else if ohdr.tableType ≠ kEquivCPUTableType then throw (.exception "no equiv CPU table")
  else if ohdr.tableLen.toNat % sizeofEquivCPUEntry ≠ 0 then
    throw (.exception "wrong table length")
  else return (ohdr.tableLen.toNat / sizeofEquivCPUEntry, rest)

def scanTable : ℕ → List UInt8 → Except Stop (List EquivCPUEntry × List UInt8)
  | 0, bytes => return ([], bytes)
  | n + 1, bytes => do
    let (head, rest) ← scanBytes sizeofEquivCPUEntry "short entry" bytes
    let entry := EquivCPUEntry.ofBytes head
    if entry.installedCpu = 0 then return ([], rest)
    else
      let (entries, rest) ← scanTable n rest
      return (entry :: entries, rest)

/-- The next section, and the bytes after it. -/
def scanMicrocode (bytes : List UInt8) : Except Stop (Microcode × List UInt8) := do
  let (head, rest) ← scanBytes sizeofInnerHeader "short inner header" bytes
  let hdr := InnerHeader.ofBytes head
  if hdr.patchType ≠ kUCodeType then throw (.exception "wrong patch type")
  else if rest.length < sizeofMicrocodeHeader then throw (.exception "short mc header")
  else
    let (payload, rest) ← scanBytes hdr.patchSize.toNat "short payload" rest
    return (⟨hdr, payload⟩, rest)

/-- The patches before the end or the first section that is not accepted. -/
def scanMicrocodes : List EquivCPUEntry → List UInt8 → List Patch × Except Stop (Unit × List UInt8)
  | [], bytes => ([], .ok ((), bytes))
  | it :: entries, bytes =>
    match scanMicrocode bytes with
    | .error e => ([], .error e)
    | .ok (mc, rest) =>
      if mc.payload.length < offsetofPatchId + 4 then ([], .error .fault)
      else
        let (patches, ending) := scanMicrocodes entries rest
        (⟨it.installedCpu, patchId mc.payload, mc.payload⟩ :: patches, ending)

def scan (bytes : List UInt8) : List Patch × Except Stop (Unit × List UInt8) :=
  if bytes.length = 0 then ([], .error (.exception "empty file"))
  else
    match scanHeader bytes with
    | .error e => ([], .error e)
    | .ok (numEntries, rest) =>
      match scanTable numEntries rest with
      | .error e => ([], .error e)
      | .ok (entries, rest) => scanMicrocodes entries rest

/-! ### The cursor -/

namespace Parser

variable (file : File)

/-- The bytes from the cursor on. -/
def rest (s : Parser) : List UInt8 := file.bytes.drop s.cursor.buffer

/-- The parser is safe, and the cursor in order. -/
structure Good (s : Parser) : Prop extends s.Safe file where
  sum : s.cursor.buffer + s.cursor.availableBytes.toNat = file.bytes.length

variable {file}

theorem good_start (file : File) : (start file).Good file := by
  have hlength : (UInt64.ofNat file.bytes.length).toNat = file.bytes.length := by
    have hlt := file.size_lt
    exact UInt64.toNat_ofNat_of_lt' (show file.bytes.length < 2 ^ 64 by omega)
  refine ⟨⟨?_, ?_⟩, ?_⟩
  · intro a ha
    simp [start] at ha
  · intro c hc
    obtain rfl : c = ⟨0, UInt64.ofNat file.bytes.length⟩ := by simpa [start] using hc
    simpa using hlength
  · simpa [start] using hlength

theorem Good.length_rest {s : Parser} (h : s.Good file) :
    (s.rest file).length = s.cursor.availableBytes.toNat := by
  have hsum := h.sum
  rw [rest, List.length_drop]
  omega

theorem Good.available_lt {s : Parser} (h : s.Good file) {n : ℕ} (hn : n < 2 ^ 64) :
    s.cursor.availableBytes < UInt64.ofNat n ↔ (s.rest file).length < n := by
  rw [UInt64.lt_iff_toNat_lt, UInt64.toNat_ofNat_of_lt' hn, h.length_rest]

theorem Good.note {s : Parser} (h : s.Good file) {a : Access} (ha : a.InBounds) :
    (s.note a).Good file := by
  refine ⟨⟨?_, h.trail⟩, h.sum⟩
  intro b hb
  rcases List.mem_append.1 hb with hb | hb
  · exact h.accesses b hb
  · rw [List.mem_singleton.1 hb]
    exact ha

theorem Good.print {s : Parser} (h : s.Good file) (p : Patch) : (s.print p).Good file :=
  ⟨⟨h.accesses, h.trail⟩, h.sum⟩

/-- **The cursor does not lose a byte** that was there. -/
theorem Good.advance {s : Parser} (h : s.Good file) {n : ℕ} (hn : n ≤ (s.rest file).length) :
    (s.advance n).Good file := by
  have hlength := h.length_rest
  have hlt := s.cursor.availableBytes.toNat_lt
  have htoNat : (UInt64.ofNat n).toNat = n :=
    UInt64.toNat_ofNat_of_lt' (show n < 2 ^ 64 by omega)
  have hle : UInt64.ofNat n ≤ s.cursor.availableBytes := by
    rw [UInt64.le_iff_toNat_le, htoNat]
    omega
  have hsub : (s.cursor.availableBytes - UInt64.ofNat n).toNat
      = s.cursor.availableBytes.toNat - n := by
    rw [UInt64.toNat_sub_of_le _ _ hle, htoNat]
  have hsum : s.cursor.buffer + n + (s.cursor.availableBytes - UInt64.ofNat n).toNat
      = file.bytes.length := by
    have hbefore := h.sum
    omega
  refine ⟨⟨h.accesses, ?_⟩, hsum⟩
  intro c hc
  rcases List.mem_append.1 hc with hc | hc
  · exact h.trail c hc
  · rw [List.mem_singleton.1 hc]
    exact hsum

theorem rest_advance (s : Parser) (n : ℕ) : (s.advance n).rest file = (s.rest file).drop n := by
  simp [rest, Parser.advance, List.drop_drop]

end Parser

/-! ### The steps of the parser -/

section

variable {file : File} {s : Parser}

theorem run_access {a : Access} (ha : a.InBounds) : (access a).run s = .ok () (s.note a) := by
  rw [access, EStateM.run_bind]
  simp only [EStateM.run_modify, if_pos ha]
  rfl

theorem run_access_fault {a : Access} (ha : ¬a.InBounds) :
    (access a).run s = .error .fault (s.note a) := by
  rw [access, EStateM.run_bind]
  simp only [EStateM.run_modify, if_neg ha]
  rfl

/-- A computation ends as the scan `x` of the remaining bytes does, having printed `patches`. -/
def Ends {α : Type} (file : File) (s : Parser) (r : EStateM.Result Stop Parser α)
    (patches : List Patch) : Except Stop (α × List UInt8) → Prop
  | .ok (a, rest) =>
    ∃ s', r = .ok a s' ∧ s'.Good file ∧ s'.rest file = rest ∧ s'.report = s.report ++ patches
  | .error e =>
    ∃ s', r = .error e s' ∧ (s'.Safe file ↔ e ≠ .fault) ∧ s'.report = s.report ++ patches

theorem ends_pure {α : Type} (h : s.Good file) (a : α) :
    Ends file s ((pure a : ParserM α).run s) [] (.ok (a, s.rest file)) :=
  ⟨s, rfl, h, rfl, (List.append_nil _).symm⟩

theorem ends_throw {α : Type} (h : s.Good file) (what : String) :
    Ends file s ((throw (.exception what) : ParserM α).run s) [] (.error (.exception what)) :=
  ⟨s, rfl, iff_of_true h.toSafe (by simp), (List.append_nil _).symm⟩

/-- **Sequencing.**  What comes after a computation that ends well goes on from the bytes it
left. -/
theorem Ends.bind {α β : Type} {m : ParserM α} {f : α → ParserM β}
    {x : Except Stop (α × List UInt8)} {g : α × List UInt8 → Except Stop (β × List UInt8)}
    (hm : Ends file s (m.run s) [] x)
    (hf : ∀ a s', x = .ok (a, s'.rest file) → s'.Good file →
      Ends file s' ((f a).run s') [] (g (a, s'.rest file))) :
    Ends file s ((m >>= f).run s) [] (x >>= g) := by
  rw [EStateM.run_bind]
  rcases x with e | ⟨a, rest⟩
  · obtain ⟨s', hrun, hsafe, hreport⟩ := hm
    rw [hrun]
    exact ⟨s', rfl, hsafe, hreport⟩
  · obtain ⟨s', hrun, hgood, rfl, hreport⟩ := hm
    have hends := hf a s' rfl hgood
    rw [List.append_nil] at hreport
    rw [hrun]
    show Ends file s ((f a).run s') [] (g (a, s'.rest file))
    rcases hg : g (a, s'.rest file) with e | ⟨b, rest⟩
    all_goals
      rw [hg] at hends
      obtain ⟨s'', hrun', hsame, hrest⟩ := hends
      rw [hreport] at hrest
      exact ⟨s'', hrun', hsame, hrest⟩

theorem ends_take (h : s.Good file) {n : ℕ} (hn : n < 2 ^ 64) (what : String) :
    Ends file s ((take file n what).run s) [] (scanBytes n what (s.rest file)) := by
  rw [take, EStateM.run_bind, EStateM.run_get, scanBytes]
  simp only
  by_cases hshort : (s.rest file).length < n
  · rw [if_pos hshort, if_pos ((h.available_lt hn).2 hshort)]
    exact ends_throw h what
  · have hbounds : Access.InBounds ⟨.mapping, s.cursor.buffer, n, file.bytes.length⟩ := by
      have hsum := h.sum
      have hlength := h.length_rest
      unfold Access.InBounds
      simp only
      omega
    rw [if_neg hshort, if_neg (mt (h.available_lt hn).1 hshort), EStateM.run_bind, memcpy,
      EStateM.run_bind, EStateM.run_get]
    simp only
    rw [EStateM.run_bind, run_access hbounds]
    refine ⟨_, rfl, (h.note hbounds).advance ?_, s.rest_advance n, (List.append_nil _).symm⟩
    exact Nat.not_lt.1 hshort

theorem ends_outerHeader (h : s.Good file) :
    Ends file s ((outerHeader file).run s) [] (scanHeader (s.rest file)) := by
  refine (ends_take h (by decide) _).bind fun bytes s' _ h' => ?_
  simp only
  split_ifs
  · exact ends_throw h' _
  · exact ends_throw h' _
  · exact ends_throw h' _
  · exact ends_pure h' _

/-- The table, with the entries before it. -/
theorem ends_equivTable (n : ℕ) (before : List EquivCPUEntry) (h : s.Good file) :
    Ends file s ((equivTable file n before).run s) []
      (scanTable n (s.rest file) >>= fun scanned => .ok (before ++ scanned.1, scanned.2)) := by
  induction n generalizing s before with
  | zero =>
    simpa [equivTable, scanTable, pure, Except.pure, bind, Except.bind] using ends_pure h before
  | succ n ih =>
    rw [equivTable, scanTable, bind_assoc]
    refine (ends_take h (by decide) _).bind fun bytes s' _ h' => ?_
    simp only
    split_ifs
    · simpa [pure, Except.pure, bind, Except.bind] using ends_pure h' before
    · have hends := ih (before ++ [EquivCPUEntry.ofBytes bytes]) h'
      rw [bind_assoc]
      simpa [pure, Except.pure, bind, Except.bind] using hends

theorem ends_readMicrocode (h : s.Good file) :
    Ends file s ((readMicrocode file).run s) [] (scanMicrocode (s.rest file)) := by
  refine (ends_take h (by decide) _).bind fun bytes s' _ h' => ?_
  simp only
  by_cases htype : (InnerHeader.ofBytes bytes).patchType ≠ kUCodeType
  · rw [if_pos htype, if_pos htype]
    exact ends_throw h' _
  rw [if_neg htype, if_neg htype, EStateM.run_bind, EStateM.run_get]
  simp only
  have hlt : (InnerHeader.ofBytes bytes).patchSize.toNat < 2 ^ 64 :=
    Nat.lt_trans (UInt32.toNat_lt _) (by decide)
  have havailable := h'.available_lt (n := sizeofMicrocodeHeader) (by decide)
  by_cases hshort : (s'.rest file).length < sizeofMicrocodeHeader
  · rw [if_pos (havailable.2 hshort), if_pos hshort]
    exact ends_throw h' _
  rw [if_neg (mt havailable.1 hshort), if_neg hshort]
  exact (ends_take h' hlt _).bind fun payload s'' _ h'' => ends_pure h'' _

theorem scanBytes_eq_ok {n : ℕ} {what : String} {bytes head rest : List UInt8} :
    scanBytes n what bytes = .ok (head, rest) ↔ bytes = head ++ rest ∧ head.length = n := by
  unfold scanBytes
  split_ifs with hshort
  · refine iff_of_false (by simp) ?_
    rintro ⟨rfl, rfl⟩
    simp at hshort
  · rw [Except.ok.injEq, Prod.mk.injEq]
    constructor
    · rintro ⟨rfl, rfl⟩
      exact ⟨(List.take_append_drop n bytes).symm, List.length_take_of_le (by omega)⟩
    · rintro ⟨rfl, rfl⟩
      simp

/-- A copied payload is as long as its header says. -/
theorem length_payload {bytes rest : List UInt8} {mc : Microcode}
    (h : scanMicrocode bytes = .ok (mc, rest)) : mc.payload.length = mc.hdr.patchSize.toNat := by
  unfold scanMicrocode at h
  rcases hhead : scanBytes sizeofInnerHeader "short inner header" bytes with e | ⟨head, tail⟩
  · rw [hhead] at h
    cases h
  · rw [hhead] at h
    simp only [bind, Except.bind] at h
    split_ifs at h
    rcases hpayload : scanBytes (InnerHeader.ofBytes head).patchSize.toNat "short payload" tail
      with e | ⟨payload, tail'⟩
    · rw [hpayload] at h
      cases h
    · rw [hpayload] at h
      cases h
      exact (scanBytes_eq_ok.1 hpayload).2

/-- **`patch_id` is read inside the payload exactly if that is long enough.** -/
theorem ends_printMicrocode (h : s.Good file) (it : EquivCPUEntry) {mc : Microcode}
    (hsize : mc.payload.length = mc.hdr.patchSize.toNat) :
    if mc.payload.length < offsetofPatchId + 4 then
      Ends file s ((printMicrocode it mc).run s) [] (.error .fault)
    else
      Ends file s ((printMicrocode it mc).run s)
        [⟨it.installedCpu, patchId mc.payload, mc.payload⟩] (.ok ((), s.rest file)) := by
  unfold printMicrocode
  rw [EStateM.run_bind]
  split_ifs with hshort
  · have hbounds : ¬Access.InBounds ⟨.payload, offsetofPatchId, 4, mc.payload.length⟩ :=
      Nat.not_le.2 hshort
    rw [run_access_fault hbounds]
    refine ⟨_, rfl, iff_of_false (fun hsafe => hbounds ?_) (by simp), (List.append_nil _).symm⟩
    exact hsafe.accesses _ (List.mem_append_right _ (List.mem_singleton.2 rfl))
  · have hid : Access.InBounds ⟨.payload, offsetofPatchId, 4, mc.payload.length⟩ :=
      Nat.not_lt.1 hshort
    have hhash : Access.InBounds ⟨.payload, 0, mc.hdr.patchSize.toNat, mc.payload.length⟩ := by
      simp [Access.InBounds, hsize]
    rw [run_access hid]
    simp only
    rw [EStateM.run_bind, run_access hhash]
    exact ⟨_, rfl, ((h.note hid).note hhash).print _, rfl, rfl⟩

theorem ends_microcodes (entries : List EquivCPUEntry) (h : s.Good file) :
    Ends file s ((microcodes file entries).run s) (scanMicrocodes entries (s.rest file)).1
      (scanMicrocodes entries (s.rest file)).2 := by
  induction entries generalizing s with
  | nil => exact ends_pure h ()
  | cons it entries ih =>
    have hread := ends_readMicrocode h
    rw [microcodes, EStateM.run_bind, scanMicrocodes]
    rcases hscan : scanMicrocode (s.rest file) with e | ⟨mc, rest⟩
    · rw [hscan] at hread
      obtain ⟨s', hrun, hstopped⟩ := hread
      rw [hrun]
      exact ⟨s', rfl, hstopped⟩
    rw [hscan] at hread
    obtain ⟨s', hrun, hgood, rfl, hreport⟩ := hread
    rw [List.append_nil] at hreport
    have hprint := ends_printMicrocode hgood it (length_payload hscan)
    rw [hrun]
    simp only
    rw [EStateM.run_bind]
    by_cases hshort : mc.payload.length < offsetofPatchId + 4
    · rw [if_pos hshort] at hprint
      obtain ⟨s'', hrun', hsafe, hreport'⟩ := hprint
      rw [if_pos hshort, hrun']
      exact ⟨s'', rfl, hsafe, by rw [hreport', hreport]⟩
    · rw [if_neg hshort] at hprint
      obtain ⟨s'', hrun', hgood', hrest, hreport'⟩ := hprint
      have hloop := ih hgood'
      rw [if_neg hshort, hrun', ← hrest]
      simp only
      rcases hscans : scanMicrocodes entries (s''.rest file) with ⟨patches, _ | ⟨⟨⟩, rest⟩⟩
      all_goals
        rw [hscans] at hloop
        obtain ⟨t, hrun'', hsame, hreport''⟩ := hloop
      · exact ⟨t, hrun'', hsame, by rw [hreport'', hreport', hreport]; simp⟩
      · exact ⟨t, hrun'', hsame, hreport''.1, by rw [hreport''.2, hreport', hreport]; simp⟩

/-- **The parser comes to what the scan does**, and is safe exactly if that ends without a
fault. -/
theorem ends_parse (file : File) :
    Ends file (start file) (parse file) (scan file.bytes).1 (scan file.bytes).2 := by
  have hgood := Parser.good_start file
  have hrest : (start file).rest file = file.bytes := by simp [Parser.rest, start]
  unfold parse main scan
  split_ifs with hempty
  · exact ends_throw hgood _
  have hheader := ends_outerHeader hgood
  rw [hrest] at hheader
  rw [EStateM.run_bind]
  rcases hscan : scanHeader file.bytes with e | ⟨numEntries, rest⟩
  · rw [hscan] at hheader
    obtain ⟨s', hrun, hstopped⟩ := hheader
    rw [hrun]
    exact ⟨s', rfl, hstopped⟩
  rw [hscan] at hheader
  obtain ⟨s', hrun, hgood', rfl, hreport⟩ := hheader
  have htable := ends_equivTable numEntries [] hgood'
  rw [hrun]
  simp only
  rw [EStateM.run_bind]
  rcases hscan' : scanTable numEntries (s'.rest file) with e | ⟨entries, rest⟩
  · rw [hscan'] at htable
    obtain ⟨s'', hrun', hsafe, hreport'⟩ := htable
    rw [hrun']
    exact ⟨s'', rfl, hsafe, by rw [hreport', hreport]; simp⟩
  rw [hscan'] at htable
  obtain ⟨s'', hrun', hgood'', rfl, hreport'⟩ := htable
  have hloop := ends_microcodes entries hgood''
  have hsame : s''.report = (start file).report := by
    rw [hreport', hreport, List.append_nil, List.append_nil]
  rw [hrun']
  simp only [List.nil_append]
  rcases hscan'' : scanMicrocodes entries (s''.rest file) with ⟨patches, _ | ⟨⟨⟩, rest⟩⟩
  all_goals
    rw [hscan''] at hloop
    simpa only [Ends, hsame] using hloop

end

end AmdMicrocode
end TjTools
