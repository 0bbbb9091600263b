/-
# Little-endian numbers in byte strings

A fixed-width unsigned number as a little-endian machine stores it: `w` bytes,
least significant first.  `value` reads such a string as the base-256 digits of
a number (`Nat.ofDigits`), `bytes` writes the `w` low digits, and the two undo
each other on strings of length `w` and on numbers below `256 ^ w`.  `u32` and
`ofU32` are the instance at four bytes, where the number is a `UInt32`, `u16` and
`ofU16` the one at two; `i32` reads four bytes in two's complement.

`bswap32` reverses the bytes of a number, so that a little-endian machine stores it with the
most significant byte first, as `bigEndian` reads it.
-/

import Mathlib.Data.Nat.Digits.Lemmas

namespace TjTools
namespace LittleEndian

/-- What holds of the 256 numbers holds of every byte. -/
theorem forall_byte {p : UInt8 → Prop} (h : ∀ n < 256, p (UInt8.ofNat n)) (b : UInt8) : p b := by
  rw [← UInt8.ofNat_toNat (x := b)]
  exact h b.toNat b.toNat_lt

/-- The number whose base-256 digits are `bs`, least significant first. -/
def value (bs : List UInt8) : ℕ := Nat.ofDigits 256 (bs.map UInt8.toNat)

/-- The `w` low base-256 digits of `n`, least significant first. -/
def bytes : ℕ → ℕ → List UInt8
  | 0, _ => []
  | w + 1, n => UInt8.ofNat n :: bytes w (n / 256)

@[simp] theorem value_nil : value [] = 0 := rfl

@[simp] theorem value_cons (b : UInt8) (bs : List UInt8) :
    value (b :: bs) = b.toNat + 256 * value bs := by
  simp [value, Nat.ofDigits_cons]

theorem value_lt (bs : List UInt8) : value bs < 256 ^ bs.length := by
  have h := Nat.ofDigits_lt_base_pow_length (b := 256) (l := bs.map UInt8.toNat) (by norm_num)
    fun d hd => by
      obtain ⟨b, -, rfl⟩ := List.mem_map.1 hd
      exact b.toNat_lt
  simpa [value] using h

@[simp] theorem length_bytes (w n : ℕ) : (bytes w n).length = w := by
  induction w generalizing n with
  | zero => rfl
  | succ w ih => simp [bytes, ih]

/-- **Reading undoes writing** for a number that fits in the width. -/
theorem value_bytes {w n : ℕ} (hn : n < 256 ^ w) : value (bytes w n) = n := by
  induction w generalizing n with
  | zero => simp only [pow_zero, Nat.lt_one_iff] at hn; simp [bytes, hn]
  | succ w ih =>
    have hdiv : n / 256 < 256 ^ w := Nat.div_lt_of_lt_mul (by rwa [pow_succ'] at hn)
    rw [bytes, value_cons, ih hdiv, UInt8.toNat_ofNat']
    omega

/-- **Writing undoes reading** at the width of the string. -/
theorem bytes_value (bs : List UInt8) : bytes bs.length (value bs) = bs := by
  induction bs with
  | nil => rfl
  | cons b bs ih =>
    have hb := b.toNat_lt
    have hlow : UInt8.ofNat (b.toNat + 256 * value bs) = b := by
      apply UInt8.toNat_inj.1
      rw [UInt8.toNat_ofNat']
      omega
    have hhigh : (b.toNat + 256 * value bs) / 256 = value bs := by omega
    rw [List.length_cons, value_cons, bytes, hlow, hhigh, ih]

/-- The 32-bit number in the first four bytes. -/
def u32 (bs : List UInt8) : UInt32 := UInt32.ofNat (value (bs.take 4))

/-- The four bytes of a 32-bit number. -/
def ofU32 (v : UInt32) : List UInt8 := bytes 4 v.toNat

/-- The first four bytes in two's complement. -/
def i32 (bs : List UInt8) : Int32 := (u32 bs).toInt32

@[simp] theorem length_ofU32 (v : UInt32) : (ofU32 v).length = 4 := length_bytes 4 _

@[simp] theorem drop_ofU32_append (v : UInt32) (rest : List UInt8) (n : ℕ) :
    (ofU32 v ++ rest).drop (n + 4) = rest.drop n := by
  rw [Nat.add_comm, ← List.drop_drop, List.drop_left' (length_ofU32 v)]

/-- The bytes after the fourth do not matter. -/
@[simp] theorem u32_ofU32_append (v : UInt32) (rest : List UInt8) : u32 (ofU32 v ++ rest) = v := by
  have htake : (ofU32 v ++ rest).take 4 = ofU32 v := List.take_left' (length_ofU32 v)
  have hv : value (ofU32 v) = v.toNat := value_bytes v.toNat_lt
  rw [u32, htake, hv, UInt32.ofNat_toNat]

@[simp] theorem u32_ofU32 (v : UInt32) : u32 (ofU32 v) = v := by
  simpa using u32_ofU32_append v []

theorem ofU32_u32 {bs : List UInt8} (h : bs.length = 4) : ofU32 (u32 bs) = bs := by
  have htake : bs.take 4 = bs := List.take_of_length_le h.le
  have hlt : value bs < 2 ^ 32 := by simpa [h] using value_lt bs
  rw [ofU32, u32, htake, UInt32.toNat_ofNat_of_lt' hlt]
  simpa [h] using bytes_value bs

theorem ofU32_u32_of_le (bs : List UInt8) (h : 4 ≤ bs.length) : ofU32 (u32 bs) = bs.take 4 := by
  have hlength : (bs.take 4).length = 4 := List.length_take_of_le h
  have htake : u32 (bs.take 4) = u32 bs := by rw [u32, u32, List.take_take, min_self]
  rw [← htake]
  exact ofU32_u32 hlength

/-- Only the first four bytes are read. -/
theorem u32_take (bs : List UInt8) {n : ℕ} (hn : 4 ≤ n) : u32 (bs.take n) = u32 bs := by
  rw [u32, u32, List.take_take, min_eq_left hn]

theorem u32_append_of_le {bs : List UInt8} (h : 4 ≤ bs.length) (rest : List UInt8) :
    u32 (bs ++ rest) = u32 bs := by
  rw [u32, u32, List.take_append_of_le_length h]

/-- The 16-bit number in the first two bytes. -/
def u16 (bs : List UInt8) : UInt16 := UInt16.ofNat (value (bs.take 2))

/-- The two bytes of a 16-bit number. -/
def ofU16 (v : UInt16) : List UInt8 := bytes 2 v.toNat

@[simp] theorem length_ofU16 (v : UInt16) : (ofU16 v).length = 2 := length_bytes 2 _

@[simp] theorem u16_ofU16_append (v : UInt16) (rest : List UInt8) : u16 (ofU16 v ++ rest) = v := by
  have htake : (ofU16 v ++ rest).take 2 = ofU16 v := List.take_left' (length_ofU16 v)
  have hv : value (ofU16 v) = v.toNat := value_bytes v.toNat_lt
  rw [u16, htake, hv, UInt16.ofNat_toNat]

@[simp] theorem u16_ofU16 (v : UInt16) : u16 (ofU16 v) = v := by
  simpa using u16_ofU16_append v []

theorem ofU16_u16_of_le (bs : List UInt8) (h : 2 ≤ bs.length) : ofU16 (u16 bs) = bs.take 2 := by
  have hlength : (bs.take 2).length = 2 := List.length_take_of_le h
  have hlt : value (bs.take 2) < 2 ^ 16 := by simpa [hlength] using value_lt (bs.take 2)
  rw [ofU16, u16, UInt16.toNat_ofNat_of_lt' hlt]
  simpa [hlength] using bytes_value (bs.take 2)

/-! ### The other byte order -/

/-- `__builtin_bswap32` -/
def bswap32 (v : UInt32) : UInt32 := u32 (ofU32 v).reverse

/-- The number in the first four bytes, the most significant one first. -/
def bigEndian (bs : List UInt8) : ℕ := value (bs.take 4).reverse

theorem ofU32_bswap32 (v : UInt32) : ofU32 (bswap32 v) = (ofU32 v).reverse :=
  ofU32_u32 (by rw [List.length_reverse, length_ofU32])

/-- **A number that is swapped and stored is read back.** -/
@[simp] theorem bigEndian_bswap32_append (v : UInt32) (rest : List UInt8) :
    bigEndian (ofU32 (bswap32 v) ++ rest) = v.toNat := by
  have htake : (ofU32 (bswap32 v) ++ rest).take 4 = (ofU32 v).reverse := by
    rw [List.take_left' (length_ofU32 _), ofU32_bswap32]
  rw [bigEndian, htake, List.reverse_reverse]
  exact value_bytes v.toNat_lt

end LittleEndian
end TjTools
