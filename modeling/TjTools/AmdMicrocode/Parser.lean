/-
# The parser

`main` of `src/src/amd_microcode.cpp` (lines 156-257) on a file that is mapped.  The cursor is
the pair of `buffer`, here an offset into the mapping, and `available_bytes`, a `size_t`.
The parser records every value of the cursor and every read of the mapping or of a
payload, with the size of the object read; a read past the end of its object is a fault,
after which nothing is known.

What `main` prints is a list of patches: `installed_cpu`, `patch_id` and the bytes it
hashes.  The hash itself and the copies of the payload, which allocate, do not fail.
-/

import TjTools.AmdMicrocode.Format

namespace TjTools
namespace AmdMicrocode

/-- The bytes of a file, whose length is an `off_t`. -/
structure File where
  bytes : List UInt8
  size_lt : bytes.length < 2 ^ 63

/-- How `main` can end early. -/
inductive Stop where
  /-- `std::runtime_error` -/
  | exception (what : String)
  /-- A read past the end of an object. -/
  | fault
  deriving DecidableEq, Repr

inductive Object where
  | mapping
  | payload
  deriving DecidableEq, Repr

/-- A read of `size` bytes of an object. -/
structure Access where
  object : Object
  start : ℕ
  size : ℕ
  objectSize : ℕ
  deriving DecidableEq, Repr

def Access.InBounds (a : Access) : Prop := a.start + a.size ≤ a.objectSize

instance (a : Access) : Decidable a.InBounds := inferInstanceAs (Decidable (_ ≤ _))

structure Cursor where
  buffer : ℕ
  availableBytes : UInt64
  deriving DecidableEq, Repr

/-- A section, without the pointer into its payload. -/
structure Microcode where
  hdr : InnerHeader
  payload : List UInt8
  deriving DecidableEq, Repr

/-- What is printed about a section. -/
structure Patch where
  installedCpu : UInt32
  patchId : UInt32
  /-- The bytes that are hashed. -/
  payload : List UInt8
  deriving DecidableEq, Repr

structure Parser where
  cursor : Cursor
  /-- Every value of the cursor so far. -/
  trail : List Cursor
  accesses : List Access
  report : List Patch
  deriving DecidableEq

abbrev ParserM := EStateM Stop Parser

namespace Parser

def note (s : Parser) (a : Access) : Parser := { s with accesses := s.accesses ++ [a] }

def print (s : Parser) (p : Patch) : Parser := { s with report := s.report ++ [p] }

/-- `buffer += n`, `available_bytes -= n` -/
def advance (s : Parser) (n : ℕ) : Parser :=
  let cursor := ⟨s.cursor.buffer + n, s.cursor.availableBytes - UInt64.ofNat n⟩
  { s with cursor := cursor, trail := s.trail ++ [cursor] }

end Parser

/-- A read of an object. -/
def access (a : Access) : ParserM Unit := do
  modify fun s => s.note a
  if a.InBounds then return () else throw .fault

section

variable (file : File)

/-- `std::memcpy(…, buffer, n)` -/
def memcpy (n : ℕ) : ParserM (List UInt8) := do
  let s ← get
  access ⟨.mapping, s.cursor.buffer, n, file.bytes.length⟩
  return (file.bytes.drop s.cursor.buffer).take n

/-- The next `n` bytes, if they are available. -/
def take (n : ℕ) (what : String) : ParserM (List UInt8) := do
  let s ← get
  if s.cursor.availableBytes < UInt64.ofNat n then throw (.exception what)
  else
    let bytes ← memcpy file n
    modify fun s => s.advance n
    return bytes

/-- The outer header, and the number of entries it announces. -/
def outerHeader : ParserM ℕ := do
  let bytes ← take file sizeofOuterHeader "no outer header"
  let ohdr := OuterHeader.ofBytes bytes
  if ohdr.magic ≠ kMagic then throw (.exception "wrong magic")
  else if ohdr.tableType ≠ kEquivCPUTableType then throw (.exception "no equiv CPU table")
  else if ohdr.tableLen.toNat % sizeofEquivCPUEntry ≠ 0 then
    throw (.exception "wrong table length")
  else return ohdr.tableLen.toNat / sizeofEquivCPUEntry

/-- The loop over the table, with as many entries to come. -/
def equivTable : ℕ → List EquivCPUEntry → ParserM (List EquivCPUEntry)
  | 0, entries => return entries
  | n + 1, entries => do
    let bytes ← take file sizeofEquivCPUEntry "short entry"
    let entry := EquivCPUEntry.ofBytes bytes
    if entry.installedCpu = 0 then return entries
    else equivTable n (entries ++ [entry])

/-- The section at the cursor. -/
def readMicrocode : ParserM Microcode := do
  let bytes ← take file sizeofInnerHeader "short inner header"
  let hdr := InnerHeader.ofBytes bytes
  if hdr.patchType ≠ kUCodeType then throw (.exception "wrong patch type")
  else
    let s ← get
    if s.cursor.availableBytes < UInt64.ofNat sizeofMicrocodeHeader then
      throw (.exception "short mc header")
    else
      let payload ← take file hdr.patchSize.toNat "short payload"
      return ⟨hdr, payload⟩

/-- What is printed about a section, with `patch_id` read through `mc.mchdr`. -/
def printMicrocode (it : EquivCPUEntry) (mc : Microcode) : ParserM Unit := do
  access ⟨.payload, offsetofPatchId, 4, mc.payload.length⟩
  access ⟨.payload, 0, mc.hdr.patchSize.toNat, mc.payload.length⟩
  modify fun s => s.print ⟨it.installedCpu, patchId mc.payload, mc.payload⟩

/-- The loop over the entries. -/
def microcodes : List EquivCPUEntry → ParserM Unit
  | [] => return ()
  | it :: entries => do
    let mc ← readMicrocode file
    printMicrocode it mc
    microcodes entries

def main : ParserM Unit := do
  if file.bytes.length = 0 then throw (.exception "empty file")
  else
    let numEntries ← outerHeader file
    let entries ← equivTable file numEntries []
    microcodes file entries

/-- At the first byte of the file. -/
def start : Parser :=
  let cursor := ⟨0, UInt64.ofNat file.bytes.length⟩
  ⟨cursor, [cursor], [], []⟩

/-- What `main` comes to. -/
def parse : EStateM.Result Stop Parser Unit := (main file).run (start file)

end

/-- Every read so far was inside its object, and the cursor never lost a byte. -/
structure Parser.Safe (file : File) (s : Parser) : Prop where
  accesses : ∀ a ∈ s.accesses, a.InBounds
  trail : ∀ c ∈ s.trail, c.buffer + c.availableBytes.toNat = file.bytes.length

end AmdMicrocode
end TjTools
