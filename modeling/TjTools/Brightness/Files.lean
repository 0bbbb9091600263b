/-
# The two files of the brightness daemon

`src/src/brightness_daemon.cpp` keeps one stream open on the sysfs attribute
`brightness` of the backlight node and one on the state file.

The attribute is a text.  Reading gives it; each write stores the decimal number
it carries, whatever the offset, or fails and stores nothing.  The node also
remembers every text that was handed to it, taken or not, which is what the range
of values sent to the hardware is stated about.

The state file is a string of bytes.  Each system call on it succeeds or fails
without effect; it remembers what was handed to it as the node does.  `Outcomes`
says which calls succeed while the daemon handles one command; it is chosen by the
environment.
-/

import TjTools.Basis.LittleEndian
import TjTools.Basis.Numerals
import TjTools.Iostream.Fstream

namespace TjTools
namespace Brightness

open Iostream

/-- Which system calls succeed: writes to the node, and reads, writes and
truncations of the state file. -/
structure Outcomes where
  node : Bool
  read : Bool
  write : Bool
  truncate : Bool
  deriving DecidableEq, Repr

/-- Every call succeeds. -/
def Outcomes.good : Outcomes := ⟨true, true, true, true⟩

/-- The sysfs attribute `brightness`. -/
structure Node where
  text : List Char
  /-- Whether the next write succeeds. -/
  accepts : Bool
  /-- Every text handed to the attribute so far, the oldest first. -/
  handed : List (List Char)
  deriving DecidableEq, Repr

namespace Node

/-- The brightness the attribute shows, as the daemon reads it. -/
def value (n : Node) : Option UInt32 :=
  (Numerals.strtol (Numerals.firstWord (n.text.take bufferLength))).map UInt32.ofInt

/-- Some text is handed over, and stored if the node accepts it and it is a number. -/
def store (n : Node) (text : List Char) : Node × Bool :=
  let n := { n with handed := n.handed ++ [text] }
  if n.accepts && text.all Char.isDigit && text ≠ [] then ({ n with text := text ++ ['\n'] }, true)
  else (n, false)

instance : File Node Char where
  read n offset count := some ((n.text.drop offset).take count)
  write n _ text := n.store text

/-- The node after it took the number `v`. -/
def took (n : Node) (v : UInt32) : Node :=
  { n with
    text := Numerals.toString v.toNat ++ ['\n']
    handed := n.handed ++ [Numerals.toString v.toNat] }

/-- The node after it refused the number `v`. -/
def refused (n : Node) (v : UInt32) : Node :=
  { n with handed := n.handed ++ [Numerals.toString v.toNat] }

theorem store_of_accepts {n : Node} (h : n.accepts = true) (v : UInt32) :
    n.store (Numerals.toString v.toNat) = (n.took v, true) := by
  have hdigits : (Numerals.toString v.toNat).all Char.isDigit = true :=
    List.all_eq_true.2 fun c hc => Numerals.isDigit_of_mem_toString hc
  simp [store, took, h, hdigits, Numerals.toString_ne_nil]

theorem store_of_refuses {n : Node} (h : n.accepts = false) (v : UInt32) :
    n.store (Numerals.toString v.toNat) = (n.refused v, false) := by
  simp [store, refused, h]

/-- What was stored is what is shown. -/
@[simp] theorem value_took (n : Node) (v : UInt32) : (n.took v).value = some v := by
  have hword : Numerals.firstWord (Numerals.toString v.toNat ++ ['\n'])
      = Numerals.toString v.toNat :=
    Numerals.firstWord_toString_append (by simp [Numerals.isspace])
  have hlt := v.toNat_lt
  have hlength : (Numerals.toString v.toNat).length ≤ 10 := by
    rw [Numerals.toString, Nat.length_toDigits_le_iff (by decide) (by decide)]
    omega
  have htake : (Numerals.toString v.toNat ++ ['\n']).take bufferLength
      = Numerals.toString v.toNat ++ ['\n'] := by
    apply List.take_of_length_le
    rw [List.length_append, List.length_singleton, bufferLength]
    omega
  have hmod : ((v.toNat : ℤ) % 2 ^ 32).toNat = v.toNat := by omega
  have hint : UInt32.ofInt (v.toNat : ℤ) = v := by rw [UInt32.ofInt, hmod, UInt32.ofNat_toNat]
  simp [value, took, htake, hword, hint]

@[simp] theorem value_refused (n : Node) (v : UInt32) : (n.refused v).value = n.value := rfl

end Node

/-- The state file, with the outcomes of the calls on it. -/
structure DiskFile where
  content : List UInt8
  /-- Every string handed to the file so far, the oldest first. -/
  handed : List (List UInt8)
  readable : Bool
  writable : Bool
  truncatable : Bool
  deriving DecidableEq, Repr

namespace DiskFile

/-- `write(2)` at an offset: a gap before it is filled with zeros. -/
def overwrite (content : List UInt8) (offset : ℕ) (bs : List UInt8) : List UInt8 :=
  content.take offset ++ List.replicate (offset - content.length) 0 ++ bs
    ++ content.drop (offset + bs.length)

instance : File DiskFile UInt8 where
  read f offset count := if f.readable then some ((f.content.drop offset).take count) else none
  write f offset bs :=
    let f := { f with handed := f.handed ++ [bs] }
    if f.writable then ({ f with content := overwrite f.content offset bs }, true) else (f, false)

/-- `ftruncate(2)` -/
def ftruncate (f : DiskFile) (length : ℕ) : DiskFile × Bool :=
  if f.truncatable then
    ({ f with content := f.content.take length ++ List.replicate (length - f.content.length) 0 },
      true)
  else (f, false)

/-- A file created by opening it for writing. -/
def empty : DiskFile := ⟨[], [], true, true, true⟩

end DiskFile

end Brightness
end TjTools
