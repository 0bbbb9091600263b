/-
# Decimal numbers in text

The conversions between numbers and text that C and C++ programs use on attribute
files: `operator>>` into a string takes the first word, `strtol` reads a number
off the front of a text, `std::stoi` does so for the range of `int`, and
`std::to_string` writes a number.  Characters are those of the C locale.

`strtol_toString_append` is the round trip: what was written, with anything but a digit
after it, is read back.
-/

import Mathlib.Algebra.Ring.Int.Defs
import Mathlib.Data.List.TakeWhile

namespace TjTools
namespace Numerals

/-- `isspace`: blank, and the characters 9 to 13. -/
def isspace (c : Char) : Bool := c = ' ' || (9 ≤ c.toNat && c.toNat ≤ 13)

/-- `operator>>` into a string: the first run of characters that are not space. -/
def firstWord (text : List Char) : List Char :=
  (text.dropWhile isspace).takeWhile fun c => !isspace c

/-- The number that the digits at the front of a text denote. -/
def leadingDigits (text : List Char) : Option ℕ :=
  let digits := text.takeWhile Char.isDigit
  if digits = [] then none else some (Nat.ofDigitChars 10 digits 0)

/-- `strtol` in base 10 before its range check: `none` where nothing is converted. -/
def strtol (text : List Char) : Option ℤ :=
  match text.dropWhile isspace with
  | '-' :: rest => (leadingDigits rest).map fun n => -(n : ℤ)
  | '+' :: rest => (leadingDigits rest).map fun n => (n : ℤ)
  | rest => (leadingDigits rest).map fun n => (n : ℤ)

/-- The exceptions of `std::stoi`. -/
inductive StoiError where
  | invalidArgument
  | outOfRange
  deriving DecidableEq, Repr

/-- `std::stoi` -/
def stoi (text : List Char) : Except StoiError ℤ :=
  match strtol text with
  | none => .error .invalidArgument
  | some z => if -2 ^ 31 ≤ z ∧ z < 2 ^ 31 then .ok z else .error .outOfRange

/-- `std::to_string` of an unsigned number. -/
def toString (n : ℕ) : List Char := Nat.toDigits 10 n

theorem toString_ne_nil (n : ℕ) : toString n ≠ [] := Nat.toDigits_ne_nil

theorem isDigit_of_mem_toString {n : ℕ} {c : Char} (h : c ∈ toString n) : c.isDigit = true :=
  Nat.isDigit_of_mem_toDigits (by decide) le_rfl h

theorem exists_toString_cons (n : ℕ) : ∃ c cs, toString n = c :: cs ∧ c.isDigit = true := by
  obtain ⟨c, cs, hcs⟩ := List.exists_cons_of_ne_nil (toString_ne_nil n)
  exact ⟨c, cs, hcs, isDigit_of_mem_toString (n := n) (by simp [hcs])⟩

theorem not_isspace_of_isDigit {c : Char} (h : c.isDigit = true) : isspace c = false := by
  have hc : 48 ≤ c.toNat := by
    simp only [Char.isDigit, Bool.and_eq_true, decide_eq_true_eq] at h
    exact h.1
  have hblank : c ≠ ' ' := fun he => by subst he; revert hc; decide
  simp only [isspace, Bool.or_eq_false_iff, Bool.and_eq_false_iff, decide_eq_false_iff_not]
  exact ⟨hblank, .inr (by omega)⟩

theorem takeWhile_toString_append {p : Char → Bool} {n : ℕ}
    (hp : ∀ c, c.isDigit = true → p c = true) {rest : List Char}
    (hrest : ∀ c ∈ rest.head?, p c = false) :
    (toString n ++ rest).takeWhile p = toString n := by
  rw [List.takeWhile_append_of_pos fun c hc => hp c (isDigit_of_mem_toString hc)]
  cases rest with
  | nil => simp
  | cons c rest => simp [hrest c (by simp)]

theorem dropWhile_toString_append (n : ℕ) (rest : List Char) :
    (toString n ++ rest).dropWhile isspace = toString n ++ rest := by
  obtain ⟨c, cs, hcs, hc⟩ := exists_toString_cons n
  simp [hcs, not_isspace_of_isDigit hc]

/-- A number written at the front of a text is its first word. -/
theorem firstWord_toString_append {n : ℕ} {rest : List Char}
    (hrest : ∀ c ∈ rest.head?, isspace c = true) : firstWord (toString n ++ rest) = toString n := by
  have hspace : ∀ c, c.isDigit = true → (!isspace c) = true := fun c hc => by
    simp [not_isspace_of_isDigit hc]
  rw [firstWord, dropWhile_toString_append]
  exact takeWhile_toString_append hspace fun c hc => by simp [hrest c hc]

/-- **Reading undoes writing.** -/
theorem strtol_toString_append (n : ℕ) {rest : List Char}
    (hrest : ∀ c ∈ rest.head?, c.isDigit = false) : strtol (toString n ++ rest) = some (n : ℤ) := by
  have hlead : leadingDigits (toString n ++ rest) = some n := by
    rw [leadingDigits, takeWhile_toString_append (fun _ h => h) hrest, if_neg (toString_ne_nil n),
      toString, Nat.ofDigitChars_ten_toDigits]
  obtain ⟨c, cs, hcs, hc⟩ := exists_toString_cons n
  have hminus : c ≠ '-' := fun he => by subst he; revert hc; decide
  have hplus : c ≠ '+' := fun he => by subst he; revert hc; decide
  rw [strtol, dropWhile_toString_append]
  split
  · rename_i he; rw [hcs] at he; exact absurd (List.cons.inj he).1 hminus
  · rename_i he; rw [hcs] at he; exact absurd (List.cons.inj he).1 hplus
  · rw [hlead]
    rfl

@[simp] theorem strtol_toString (n : ℕ) : strtol (toString n) = some (n : ℤ) := by
  simpa using @strtol_toString_append n [] (by simp)

end Numerals
end TjTools
