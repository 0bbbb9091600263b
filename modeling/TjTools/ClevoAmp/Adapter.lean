/-
# The I2C adapter of the amplifier

`open_amplifier` of `src/src/clevo_amp_control.c` (lines 295-377) looks through
`/sys/class/i2c-dev` for the adapter with a given name, and opens the device node with the
index of the entry.

The index lives in one variable.  `sscanf` writes it for every entry whose name it
understands, before the name file is opened; it is reset after a name that does not match, but
not when the file cannot be opened, and it is not set before the loop.  The names are compared
on as many bytes as were read, so that an empty file matches.  `openAmplifier_right_iff` says
on which listings the device that is opened is nevertheless the right one.

The model keeps, beside the index, the entry it was read off.
-/

import TjTools.Basis.Numerals
import Mathlib.Algebra.Group.Nat.Defs
import Mathlib.Tactic.SplitIfs

namespace TjTools
namespace ClevoAmp

open Numerals

/-- `identifier` -/
def identifier : List Char := "SMBus I801 adapter at".toList

/-- `sizeof(buffer)` -/
def sizeofBuffer : ℕ := 512

/-- What becomes of opening and reading a name file. -/
inductive NameFile where
  | notOpened
  | notRead
  | content (text : List Char)
  deriving DecidableEq, Repr

/-- An entry of `/sys/class/i2c-dev`. -/
structure Entry where
  dName : List Char
  name : NameFile
  deriving DecidableEq, Repr

/-- What becomes of opening a device node and addressing the amplifier. -/
structure Device where
  opens : Bool
  inits : Bool

/-- How opening the device node ends. -/
inductive Ending where
  | openFailed
  | initFailed
  | opened
  deriving DecidableEq, Repr

/-- How `open_amplifier` ends; `source` is the entry the index was read off. -/
inductive Outcome where
  /-- "missing i2c device sysfs" -/
  | missingSysfs
  /-- The index is looked at and was never written. -/
  | unassigned
  /-- "no matching I2C device found" -/
  | noMatch
  | tried (i2cIdx : ℤ) (source : Option Entry) (ending : Ending)
  deriving DecidableEq, Repr

/-- `%d` of a number that `strtol` read: clipped to `long`, then cut off to `int`. -/
def toInt (z : ℤ) : ℤ := Int.bmod (max (-2 ^ 63) (min z (2 ^ 63 - 1))) (2 ^ 32)

/-- `sscanf(name, "i2c-%d", …)`, where it converts a number. -/
def scanIndex (dName : List Char) : Option ℤ :=
  if "i2c-".toList <+: dName then (strtol (dName.drop 4)).map toInt else none

/-- `found` after the name file has been read. -/
def Entry.found (ep : Entry) : Bool :=
  match ep.name with
  | .notOpened => false
  | .notRead => false
  | .content text =>
    let len := min (min text.length sizeofBuffer) identifier.length
    identifier.take len = text.take len

/-- `i2c_idx`, with the entry it was read off. -/
structure Index where
  i2cIdx : Option ℤ
  source : Option Entry
  deriving DecidableEq, Repr

/-- The loop over the entries. -/
def scanEntries (idx : Index) : List Entry → Index
  | [] => idx
  | ep :: eps =>
    match scanIndex ep.dName with
    | none => scanEntries idx eps
    | some i2cIdx =>
      if ep.name = .notOpened then scanEntries ⟨some i2cIdx, some ep⟩ eps
      else if ep.found then ⟨some i2cIdx, some ep⟩
      else scanEntries ⟨some (-1), none⟩ eps

/-- Opening the device node. -/
def tryDevice (device : Device) : Ending :=
  if !device.opens then .openFailed else if !device.inits then .initFailed else .opened

/-- What follows the loop. -/
def openDevice (devices : ℤ → Device) (idx : Index) : Outcome :=
  match idx.i2cIdx with
  | none => .unassigned
  | some i2cIdx =>
    if i2cIdx < 0 then .noMatch else .tried i2cIdx idx.source (tryDevice (devices i2cIdx))

/-- `open_amplifier`, given the listing if there is one. -/
def openAmplifier (listing : Option (List Entry)) (devices : ℤ → Device) : Outcome :=
  match listing with
  | none => .missingSysfs
  | some entries => openDevice devices (scanEntries ⟨none, none⟩ entries)

/-! ### The right adapter -/

/-- The entry is `i2c-n`, and its name file was read and starts with the identifier. -/
def Entry.IsAdapter (ep : Entry) (n : ℤ) : Prop :=
  ∃ index : ℕ, n = index ∧ ep.dName = "i2c-".toList ++ Numerals.toString index ∧
    ∃ text, ep.name = .content text ∧ identifier <+: text

/-- Only an adapter that is listed is opened, under the index read off it; without one the
search says so. -/
structure Right (entries : List Entry) (o : Outcome) : Prop where
  listed : ∀ n source ending, o = .tried n source ending → ∃ ep ∈ entries, ep.IsAdapter n
  read_off : ∀ n source ending, o = .tried n source ending →
    ∃ ep ∈ entries, source = some ep ∧ ep.IsAdapter n
  reports : (∀ ep ∈ entries, ∀ n, ¬ep.IsAdapter n) → o = .noMatch
  assigned : o ≠ .unassigned

/-! ### The loop -/

/-- `sscanf` converts a number. -/
def Entry.scanned (ep : Entry) : Bool := (scanIndex ep.dName).isSome

/-- The entry ends the loop. -/
def Entry.taken (ep : Entry) : Bool := ep.scanned && ep.found

theorem scanned_iff {ep : Entry} : ep.scanned = true ↔ ∃ n, scanIndex ep.dName = some n :=
  Option.isSome_iff_exists

theorem found_notOpened {ep : Entry} (h : ep.name = .notOpened) : ep.found = false := by
  rw [Entry.found, h]

/-- The index after an entry that does not end the loop. -/
def Entry.passed (ep : Entry) : Index :=
  if ep.name = .notOpened then ⟨scanIndex ep.dName, some ep⟩ else ⟨some (-1), none⟩

theorem scanEntries_of_taken {ep : Entry} (h : ep.taken = true) (idx : Index) (eps : List Entry) :
    scanEntries idx (ep :: eps) = ⟨scanIndex ep.dName, some ep⟩ := by
  obtain ⟨hscanned, hfound⟩ := Bool.and_eq_true_iff.1 h
  obtain ⟨n, hn⟩ := scanned_iff.1 hscanned
  have hopened : ep.name ≠ .notOpened := by
    intro hnot
    rw [found_notOpened hnot] at hfound
    cases hfound
  rw [scanEntries, hn]
  simp only [if_neg hopened, if_pos hfound]

theorem scanEntries_of_not_taken {ep : Entry} (h : ep.taken = false) (idx : Index)
    (eps : List Entry) :
    scanEntries idx (ep :: eps) = scanEntries (if ep.scanned then ep.passed else idx) eps := by
  rw [scanEntries]
  cases hn : scanIndex ep.dName with
  | none =>
    have hscanned : ep.scanned = false := by rw [Entry.scanned, hn]; rfl
    simp [hscanned]
  | some n =>
    have hscanned : ep.scanned = true := scanned_iff.2 ⟨n, hn⟩
    have hfound : ep.found = false := by simpa [Entry.taken, hscanned] using h
    simp only [hscanned, hfound, Entry.passed, hn]
    split_ifs <;> simp_all

/-- The first entry that ends the loop gives the index. -/
theorem scanEntries_taken {entries : List Entry} {ep : Entry}
    (h : entries.find? Entry.taken = some ep) (idx : Index) :
    scanEntries idx entries = ⟨scanIndex ep.dName, some ep⟩ := by
  induction entries generalizing idx with
  | nil => cases h
  | cons e entries ih =>
    cases htaken : e.taken with
    | true =>
      rw [List.find?_cons_of_pos htaken] at h
      cases h
      exact scanEntries_of_taken htaken idx entries
    | false =>
      rw [List.find?_cons_of_neg (by simp [htaken])] at h
      rw [scanEntries_of_not_taken htaken]
      exact ih h _

/-- Without one the index is what the last entry that was scanned leaves. -/
theorem scanEntries_none {entries : List Entry} (h : entries.find? Entry.taken = none)
    (idx : Index) :
    scanEntries idx entries
      = ((entries.filter Entry.scanned).getLast?.map Entry.passed).getD idx := by
  induction entries generalizing idx with
  | nil => rfl
  | cons e entries ih =>
    have htaken : e.taken = false := by
      simpa using List.find?_eq_none.1 h e List.mem_cons_self
    rw [List.find?_cons_of_neg (by simp [htaken])] at h
    rw [scanEntries_of_not_taken htaken, ih h, List.filter_cons]
    split_ifs with hscanned
    · rw [List.getLast?_cons]
      cases (entries.filter Entry.scanned).getLast? <;> rfl
    · rfl

/-! ### When the right adapter is opened -/

theorem right_noMatch (entries : List Entry) : Right entries .noMatch where
  listed := fun _ _ _ h => by cases h
  read_off := fun _ _ _ h => by cases h
  reports := fun _ => rfl
  assigned := fun h => by cases h

/-- An index that was read off an entry is right when it is negative or the entry is an
adapter with that index. -/
theorem right_openDevice_iff {entries : List Entry} {devices : ℤ → Device} {n : ℤ}
    {source : Option Entry} :
    Right entries (openDevice devices ⟨some n, source⟩) ↔
      (0 ≤ n → ∃ ep ∈ entries, source = some ep ∧ ep.IsAdapter n) := by
  unfold openDevice
  simp only
  split_ifs with hneg
  · refine iff_of_true (right_noMatch entries) ?_
    intro hn
    omega
  · constructor
    · intro h _
      exact h.read_off n source _ rfl
    · intro h
      obtain ⟨ep, hep, rfl, hadapter⟩ := h (by omega)
      refine ⟨?_, ?_, fun hnone => absurd hadapter (hnone ep hep n), fun h => by cases h⟩
      · intro m source' ending' heq
        cases heq
        exact ⟨ep, hep, hadapter⟩
      · intro m source' ending' heq
        cases heq
        exact ⟨ep, hep, rfl, hadapter⟩

section

variable {entries : List Entry} {devices : ℤ → Device} {ep : Entry} {n : ℤ}

/-- Where an entry ends the loop, it has to be the adapter. -/
theorem right_taken_iff (htaken : entries.find? Entry.taken = some ep)
    (hn : scanIndex ep.dName = some n) :
    Right entries (openAmplifier (some entries) devices) ↔ (0 ≤ n → ep.IsAdapter n) := by
  have hep : ep ∈ entries := List.mem_of_find?_eq_some htaken
  rw [openAmplifier, scanEntries_taken htaken, hn, right_openDevice_iff]
  constructor
  · intro h hle
    obtain ⟨ep', -, heq, hadapter⟩ := h hle
    cases heq
    exact hadapter
  · intro h hle
    exact ⟨ep, hep, rfl, h hle⟩

/-- Where none does, the last entry that was scanned must not leave an index. -/
theorem right_passed_iff (htaken : entries.find? Entry.taken = none)
    (hlast : (entries.filter Entry.scanned).getLast? = some ep)
    (hn : scanIndex ep.dName = some n) :
    Right entries (openAmplifier (some entries) devices) ↔ (ep.name ≠ .notOpened ∨ n < 0) := by
  rw [openAmplifier, scanEntries_none htaken, hlast, Option.map_some, Option.getD_some,
    Entry.passed]
  split_ifs with hname
  · rw [hn, right_openDevice_iff]
    constructor
    · intro h
      right
      by_contra hle
      obtain ⟨ep', -, heq, _, -, -, text, htext, -⟩ := h (by omega)
      cases heq
      rw [hname] at htext
      cases htext
    · rintro (hopened | hneg) hle
      · exact absurd hname hopened
      · omega
  · refine iff_of_true (right_openDevice_iff.2 fun hle => ?_) (.inl hname)
    omega

/-- Where no entry was scanned the index is not assigned. -/
theorem not_right_unscanned (htaken : entries.find? Entry.taken = none)
    (hlast : (entries.filter Entry.scanned).getLast? = none) :
    ¬Right entries (openAmplifier (some entries) devices) := by
  intro h
  refine h.assigned ?_
  rw [openAmplifier, scanEntries_none htaken, hlast]
  rfl

end

/-- **Only the right adapter is opened if and only if the first entry that is taken for it has
a negative index or is an adapter, or, where none is taken for it, some entry was scanned and
the name file of the last one could be opened (or its index is negative).** -/
theorem openAmplifier_right_iff (entries : List Entry) (devices : ℤ → Device) :
    Right entries (openAmplifier (some entries) devices) ↔
      (∃ ep n, entries.find? Entry.taken = some ep ∧ scanIndex ep.dName = some n ∧
        (0 ≤ n → ep.IsAdapter n)) ∨
      (entries.find? Entry.taken = none ∧ ∃ ep n,
        (entries.filter Entry.scanned).getLast? = some ep ∧ scanIndex ep.dName = some n ∧
          (ep.name ≠ .notOpened ∨ n < 0)) := by
  cases htaken : entries.find? Entry.taken with
  | some ep =>
    have hends : ep.taken = true := List.find?_some htaken
    obtain ⟨n, hn⟩ := scanned_iff.1 (Bool.and_eq_true_iff.1 hends).1
    rw [right_taken_iff htaken hn]
    constructor
    · intro h
      exact .inl ⟨ep, n, rfl, hn, h⟩
    · rintro (⟨ep', n', heq, hn', hadapter⟩ | ⟨hnone, -⟩)
      · cases heq
        obtain rfl : n = n' := Option.some.inj (hn.symm.trans hn')
        exact hadapter
      · cases hnone
  | none =>
    rw [or_iff_right (by rintro ⟨_, _, h, -⟩; cases h), and_iff_right rfl]
    cases hlast : (entries.filter Entry.scanned).getLast? with
    | none =>
      refine iff_of_false (not_right_unscanned htaken hlast) ?_
      rintro ⟨_, _, h, -⟩
      cases h
    | some ep =>
      obtain ⟨n, hn⟩ := scanned_iff.1 (List.mem_filter.1 (List.mem_of_getLast? hlast)).2
      rw [right_passed_iff htaken hlast hn]
      constructor
      · intro h
        exact ⟨ep, n, rfl, hn, h⟩
      · rintro ⟨ep', n', heq, hn', h⟩
        cases heq
        obtain rfl : n = n' := Option.some.inj (hn.symm.trans hn')
        exact h

/-- A directory with one adapter of another kind, whose name file cannot be opened. -/
def closedListing : List Entry :=
  [⟨".".toList, .notOpened⟩, ⟨"..".toList, .notOpened⟩, ⟨"i2c-5".toList, .notOpened⟩]

/-- The adapter is opened all the same. -/
theorem not_openAmplifier_right :
    ¬∀ (entries : List Entry) (devices : ℤ → Device),
      Right entries (openAmplifier (some entries) devices) := by
  intro h
  have htried : openAmplifier (some closedListing) (fun _ => ⟨true, true⟩)
      = .tried 5 (some ⟨"i2c-5".toList, .notOpened⟩) .opened := by
    decide
  obtain ⟨ep, hep, _, -, -, text, htext, -⟩ :=
    (h closedListing fun _ => ⟨true, true⟩).listed _ _ _ htried
  simp only [closedListing, List.mem_cons, List.not_mem_nil, or_false] at hep
  rcases hep with rfl | rfl | rfl
  all_goals cases htext

/-- Without any adapter the index is looked at although nothing was written to it. -/
example :
    openAmplifier (some [⟨".".toList, .notOpened⟩]) (fun _ => ⟨true, true⟩) = .unassigned := by
  decide

end ClevoAmp
end TjTools
