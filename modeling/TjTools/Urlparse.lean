/-
# Percent escapes

`src/src/urlparse.cpp` copies its input line by line and replaces `%` and two hexadecimal
digits by the byte they stand for.  The loop over a line and `parse` share one iterator:
`parse` leaves it on the second digit, and the loop moves it on.

`turn` is one turn of the loop, on the position of the iterator; it keeps the positions that
were read.  `encode` writes some bytes of a string as escapes, and the program takes them
back (`prints_encode`), whatever bytes are chosen as long as every `%` is.
-/

import TjTools.Basis.Loop
import Mathlib.Data.List.TakeWhile
import Mathlib.Tactic.SplitIfs

namespace TjTools
namespace Urlparse

open Loop

/-- `'%'` -/
def percent : UInt8 := 0x25

/-- `'\n'` -/
def newline : UInt8 := 0x0a

/-- `is_valid`, of the character at the iterator: `'0'` to `'9'` and `'A'` to `'F'`. -/
def isValid (c : UInt8) : Bool := (0x30 ≤ c && c ≤ 0x39) || (0x41 ≤ c && c ≤ 0x46)

/-- The number a digit stands for. -/
def digitValue (c : UInt8) : ℕ := if c ≤ 0x39 then c.toNat - 0x30 else c.toNat - 0x37

/-- A turn of the loop in `parse`: the digit at a position, if there is one, and what was
read. -/
def digitAt (line : List UInt8) (p : ℕ) : Option UInt8 × List ℕ :=
  if p = line.length then (none, [])
  else if isValid (line.getD p 0) then (some (line.getD p 0), [p])
  else (none, [p])

/-- `parse`: the byte and where the iterator is left, or nothing; and what was read. -/
def parse (line : List UInt8) (pos : ℕ) : Option (UInt8 × ℕ) × List ℕ :=
  match digitAt line (pos + 1) with
  | (none, reads) => (none, reads)
  | (some high, reads) =>
    match digitAt line (pos + 2) with
    | (none, reads') => (none, reads ++ reads')
    | (some low, reads') =>
      let k := 16 * digitValue high + digitValue low
      if 256 ≤ k then (none, reads ++ reads') else (some (UInt8.ofNat k, pos + 2), reads ++ reads')

/-- The state of the loop over a line. -/
structure Scanner where
  i : ℕ
  lineOut : List UInt8
  /-- The positions read. -/
  reads : List ℕ
  deriving DecidableEq, Repr

/-- A turn of the loop over a line. -/
def turn (line : List UInt8) (s : Scanner) : Turn Scanner Scanner :=
  if s.i = line.length then .leave s
  else if line.getD s.i 0 ≠ percent then
    .again ⟨s.i + 1, s.lineOut ++ [line.getD s.i 0], s.reads ++ [s.i]⟩
  else
    match parse line s.i with
    | (none, reads) => .again ⟨s.i + 1, s.lineOut, s.reads ++ s.i :: reads⟩
    | (some (c, pos), reads) => .again ⟨pos + 1, s.lineOut ++ [c], s.reads ++ s.i :: reads⟩

def start : Scanner := ⟨0, [], []⟩

/-- `getline`: the next line and what follows it; nothing at the end of the input. -/
def getline (input : List UInt8) : Option (List UInt8 × List UInt8) :=
  if input = [] then none
  else some (input.takeWhile (· ≠ newline), (input.dropWhile (· ≠ newline)).drop 1)

/-- `main` prints an output for an input. -/
inductive Prints : List UInt8 → List UInt8 → Prop
  | stop {input : List UInt8} : getline input = none → Prints input []
  | line {input line rest out : List UInt8} {s : Scanner} :
      getline input = some (line, rest) → Ends (turn line) start s → Prints rest out →
        Prints input (s.lineOut ++ newline :: out)

/-! ### Escapes -/

/-- The digit for a number below 16. -/
def hexDigit (n : ℕ) : UInt8 := UInt8.ofNat (if n < 10 then 0x30 + n else 0x37 + n)

/-- `%` and the two digits of a byte. -/
def escape (b : UInt8) : List UInt8 :=
  [percent, hexDigit (b.toNat / 16), hexDigit (b.toNat % 16)]

/-- The bytes of a string, the marked ones as escapes. -/
def encode (marked : List (UInt8 × Bool)) : List UInt8 :=
  marked.flatMap fun (b, chosen) => if chosen then escape b else [b]

/-- The string has no newline, and every `%` in it is to be escaped. -/
def Encodable (marked : List (UInt8 × Bool)) : Prop :=
  ∀ mark ∈ marked, mark.1 ≠ newline ∧ (mark.1 = percent → mark.2 = true)

instance (marked : List (UInt8 × Bool)) : Decidable (Encodable marked) :=
  List.decidableBAll _ marked

theorem isValid_hexDigit {n : ℕ} (h : n < 16) : isValid (hexDigit n) = true := by
  have hall : ∀ n < 16, isValid (hexDigit n) = true := by decide
  exact hall n h

theorem digitValue_hexDigit {n : ℕ} (h : n < 16) : digitValue (hexDigit n) = n := by
  have hall : ∀ n < 16, digitValue (hexDigit n) = n := by decide
  exact hall n h

/-- A digit is found where it stands. -/
theorem digitAt_of_eq {line pre rest : List UInt8} {c : UInt8} {p : ℕ}
    (hline : line = pre ++ c :: rest) (hp : p = pre.length) (hc : isValid c = true) :
    digitAt line p = (some c, [p]) := by
  subst hline hp
  have hget : (pre ++ c :: rest).getD pre.length 0 = c := by simp
  rw [digitAt, if_neg (by simp), hget, if_pos hc]

/-- **`parse` takes an escape back.** -/
theorem parse_escape (pre : List UInt8) (b : UInt8) (rest : List UInt8) :
    parse (pre ++ (escape b ++ rest)) pre.length
      = (some (b, pre.length + 2), [pre.length + 1, pre.length + 2]) := by
  have hb := b.toNat_lt
  have hhigh : b.toNat / 16 < 16 := by omega
  have hlow : b.toNat % 16 < 16 := by omega
  have hk : 16 * digitValue (hexDigit (b.toNat / 16)) + digitValue (hexDigit (b.toNat % 16))
      = b.toNat := by
    rw [digitValue_hexDigit hhigh, digitValue_hexDigit hlow]
    omega
  have hline₁ : pre ++ (escape b ++ rest)
      = (pre ++ [percent]) ++ hexDigit (b.toNat / 16) :: hexDigit (b.toNat % 16) :: rest := by
    simp [escape]
  have hline₂ : pre ++ (escape b ++ rest)
      = (pre ++ [percent, hexDigit (b.toNat / 16)]) ++ hexDigit (b.toNat % 16) :: rest := by
    simp [escape]
  have h₁ : digitAt (pre ++ (escape b ++ rest)) (pre.length + 1)
      = (some (hexDigit (b.toNat / 16)), [pre.length + 1]) :=
    digitAt_of_eq hline₁ (by simp) (isValid_hexDigit hhigh)
  have h₂ : digitAt (pre ++ (escape b ++ rest)) (pre.length + 2)
      = (some (hexDigit (b.toNat % 16)), [pre.length + 2]) :=
    digitAt_of_eq hline₂ (by simp) (isValid_hexDigit hlow)
  simp only [parse, h₁, h₂, hk, if_neg (Nat.not_le.2 hb), UInt8.ofNat_toNat]
  rfl

/-! ### The loop over a line -/

theorem turn_end {line : List UInt8} {s : Scanner} (h : s.i = line.length) :
    turn line s = .leave s := if_pos h

/-- A byte that is not escaped is copied. -/
theorem turn_literal {pre rest : List UInt8} {b : UInt8} (hb : b ≠ percent) (out : List UInt8)
    (reads : List ℕ) :
    turn (pre ++ b :: rest) ⟨pre.length, out, reads⟩
      = .again ⟨pre.length + 1, out ++ [b], reads ++ [pre.length]⟩ := by
  have hget : (pre ++ b :: rest).getD pre.length 0 = b := by simp
  simp only [turn, hget, if_pos hb, if_neg (show ¬pre.length = (pre ++ b :: rest).length by simp)]

/-- An escape is copied as the byte it stands for. -/
theorem turn_escape (pre : List UInt8) (b : UInt8) (rest out : List UInt8) (reads : List ℕ) :
    turn (pre ++ (escape b ++ rest)) ⟨pre.length, out, reads⟩
      = .again ⟨pre.length + 3, out ++ [b],
        reads ++ [pre.length, pre.length + 1, pre.length + 2]⟩ := by
  have hget : (pre ++ (escape b ++ rest)).getD pre.length 0 = percent := by simp [escape]
  have hend : ¬pre.length = (pre ++ (escape b ++ rest)).length := by simp [escape]
  simp only [turn, hget, if_neg hend, parse_escape]
  rfl

/-- **The loop takes the rest of a line back**, from where the encoded rest begins. -/
theorem ends_encode {marked : List (UInt8 × Bool)} (h : Encodable marked)
    (pre out : List UInt8) (reads : List ℕ) :
    ∃ s, Ends (turn (pre ++ encode marked)) ⟨pre.length, out, reads⟩ s ∧
      s.lineOut = out ++ marked.map Prod.fst := by
  induction marked generalizing pre out reads with
  | nil =>
    refine ⟨⟨pre.length, out, reads⟩, .leave (turn_end ?_), (List.append_nil out).symm⟩
    simp [encode]
  | cons mark marked ih =>
    obtain ⟨b, chosen⟩ := mark
    have hrest : Encodable marked := fun m hm => h m (List.mem_cons_of_mem _ hm)
    cases chosen with
    | true =>
      have hencode : encode ((b, true) :: marked) = escape b ++ encode marked := rfl
      obtain ⟨s, hends, hout⟩ := ih hrest (pre ++ escape b) (out ++ [b])
        (reads ++ [pre.length, pre.length + 1, pre.length + 2])
      rw [List.append_assoc, List.length_append] at hends
      rw [hencode]
      exact ⟨s, .again (turn_escape pre b (encode marked) out reads) hends, by simp [hout]⟩
    | false =>
      have hb : b ≠ percent := fun heq => by
        cases (h (b, false) List.mem_cons_self).2 heq
      have hencode : encode ((b, false) :: marked) = b :: encode marked := rfl
      obtain ⟨s, hends, hout⟩ := ih hrest (pre ++ [b]) (out ++ [b]) (reads ++ [pre.length])
      rw [List.append_assoc, List.length_append] at hends
      rw [hencode]
      exact ⟨s, .again (turn_literal hb out reads) hends, by simp [hout]⟩

/-! ### The program -/

theorem newline_not_mem_escape (b : UInt8) : newline ∉ escape b := by
  have hall : ∀ n < 16, newline ≠ hexDigit n := by decide
  have hb := b.toNat_lt
  simp only [escape, List.mem_cons, List.not_mem_nil, or_false, not_or]
  exact ⟨by decide, hall _ (by omega), hall _ (by omega)⟩

theorem newline_not_mem_encode {marked : List (UInt8 × Bool)} (h : Encodable marked) :
    newline ∉ encode marked := by
  intro hmem
  obtain ⟨⟨b, chosen⟩, hmark, hmem⟩ := List.mem_flatMap.1 hmem
  cases chosen with
  | true => exact newline_not_mem_escape b hmem
  | false => exact (h (b, false) hmark).1 (List.mem_singleton.1 hmem).symm

theorem getline_append {line : List UInt8} (h : newline ∉ line) (rest : List UInt8) :
    getline (line ++ newline :: rest) = some (line, rest) := by
  have hall : ∀ c ∈ line, (decide (c ≠ newline)) = true := by
    intro c hc
    simpa using fun heq : c = newline => h (heq ▸ hc)
  rw [getline, if_neg (by simp), List.takeWhile_append_of_pos hall,
    List.dropWhile_append_of_pos hall]
  simp

theorem prints_nil_iff {out : List UInt8} : Prints [] out ↔ out = [] := by
  constructor
  · intro h
    cases h with
    | stop _ => rfl
    | line hline _ _ => cases hline
  · rintro rfl
    exact .stop rfl

/-- A line is printed as the loop leaves it, before what is printed of the rest. -/
theorem prints_line_iff {line rest out : List UInt8} {s : Scanner} (h : newline ∉ line)
    (hends : Ends (turn line) start s) :
    Prints (line ++ newline :: rest) out ↔
      ∃ out', Prints rest out' ∧ out = s.lineOut ++ newline :: out' := by
  constructor
  · intro hprints
    cases hprints with
    | stop hstop =>
      rw [getline_append h] at hstop
      cases hstop
    | @line _ _ _ out' s' hline hends' hrest =>
      rw [getline_append h] at hline
      cases hline
      exact ⟨out', hrest, by rw [hends'.unique hends]⟩
  · rintro ⟨out', hrest, rfl⟩
    exact .line (getline_append h rest) hends hrest

/-- The program takes any number of encoded lines back. -/
theorem prints_encode {lines : List (List (UInt8 × Bool))}
    (h : ∀ marked ∈ lines, Encodable marked) (out : List UInt8) :
    Prints (lines.flatMap fun marked => encode marked ++ [newline]) out ↔
      out = lines.flatMap fun marked => marked.map Prod.fst ++ [newline] := by
  induction lines generalizing out with
  | nil => exact prints_nil_iff
  | cons marked lines ih =>
    have hmarked := h marked List.mem_cons_self
    obtain ⟨s, hends, hout⟩ := ends_encode hmarked [] [] []
    rw [List.flatMap_cons, List.flatMap_cons, List.append_assoc, List.singleton_append,
      prints_line_iff (newline_not_mem_encode hmarked) hends, hout]
    simp only [ih fun m hm => h m (List.mem_cons_of_mem _ hm), exists_eq_left, List.nil_append,
      List.append_assoc, List.singleton_append]

/-- **The program undoes percent-encoding.**  The loop over an encoded line leaves with the
string, in one way, and the program prints the string with a newline for the encoded line with
a newline. -/
theorem decodes_encode (marked : List (UInt8 × Bool)) (h : Encodable marked) :
    (∃ s, Ends (turn (encode marked)) start s ∧
        (∀ s', Ends (turn (encode marked)) start s' → s' = s) ∧
          s.lineOut = marked.map Prod.fst) ∧
      ∀ out, Prints (encode marked ++ [newline]) out ↔
        out = marked.map Prod.fst ++ [newline] := by
  constructor
  · obtain ⟨s, hends, hout⟩ := ends_encode h [] [] []
    exact ⟨s, hends, fun s' hs' => hs'.unique hends, hout⟩
  · intro out
    have hprints : Prints ([marked].flatMap fun marked => encode marked ++ [newline]) out ↔ _ :=
      prints_encode (by simpa using h) out
    simpa using hprints

/-- The bytes 0x25, 0x41, 0xff, 0x62, all but the last as escapes. -/
theorem decodes_encode_sample :
    Prints (encode [(0x25, true), (0x41, true), (0xff, true), (0x62, false)] ++ [newline])
      [0x25, 0x41, 0xff, 0x62, 0x0a] :=
  ((decodes_encode [(0x25, true), (0x41, true), (0xff, true), (0x62, false)] (by decide)).2 _).2
    (by decide)

end Urlparse
end TjTools
