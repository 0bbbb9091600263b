/-
# What a line is decoded to

The line loop of `src/src/urlparse.cpp` (lines 37-84) on any line, with `%` where no two digits
follow.  `Decodes` says what a line becomes, for a given notion of digit: a `%` in front of
two digits and these become one byte, any other `%` disappears alone, and all other bytes
stay.  `decode` computes it.

The loop does this with the digits of `is_valid`, in one way and without a read past the
end of the line (`ends_decode`).  Where the end of a text cannot begin an escape, the rest
of a line is decoded on its own (`Decodes.append`).
-/

import TjTools.Basis.LittleEndian
import TjTools.Urlparse

namespace TjTools
namespace Urlparse

open Loop

/-- The number a hexadecimal digit of either case stands for. -/
def hexValue (c : UInt8) : ℕ :=
  if c ≤ 0x39 then c.toNat - 0x30 else if c ≤ 0x46 then c.toNat - 0x37 else c.toNat - 0x57

/-- The byte that two digits stand for. -/
def byteOf (high low : UInt8) : UInt8 := UInt8.ofNat (16 * hexValue high + hexValue low)

/-- A text begins with two digits. -/
def TwoDigits (digit : UInt8 → Bool) : List UInt8 → Prop
  | high :: low :: _ => digit high = true ∧ digit low = true
  | _ => False

instance (digit : UInt8 → Bool) (text : List UInt8) : Decidable (TwoDigits digit text) :=
  match text with
  | [] => inferInstanceAs (Decidable False)
  | [_] => inferInstanceAs (Decidable False)
  | _ :: _ :: _ => inferInstanceAs (Decidable (_ ∧ _))

/-- A line becomes a text, for a notion of digit. -/
inductive Decodes (digit : UInt8 → Bool) : List UInt8 → List UInt8 → Prop
  | nil : Decodes digit [] []
  | literal {b : UInt8} {rest out : List UInt8} :
      b ≠ percent → Decodes digit rest out → Decodes digit (b :: rest) (b :: out)
  | escape {high low : UInt8} {rest out : List UInt8} :
      digit high = true → digit low = true → Decodes digit rest out →
        Decodes digit (percent :: high :: low :: rest) (byteOf high low :: out)
  | stray {rest out : List UInt8} :
      ¬TwoDigits digit rest → Decodes digit rest out → Decodes digit (percent :: rest) out

/-- What a line becomes. -/
def decode (digit : UInt8 → Bool) : List UInt8 → List UInt8
  | [] => []
  | [b] => if b = percent then [] else [b]
  | b :: high :: rest =>
    if b ≠ percent then b :: decode digit (high :: rest)
    else
      match rest with
      | [] => decode digit [high]
      | low :: rest =>
        if digit high && digit low then byteOf high low :: decode digit rest
        else decode digit (high :: low :: rest)

variable {digit : UInt8 → Bool}

theorem decodes_decode (digit : UInt8 → Bool) (line : List UInt8) :
    Decodes digit line (decode digit line) := by
  fun_induction decode digit line with
  | case1 => exact .nil
  | case2 => exact .stray id .nil
  | case3 b hb => exact .literal hb .nil
  | case4 b high rest hb ih => exact .literal hb ih
  | case5 b high hb ih =>
    obtain rfl := not_not.1 hb
    exact .stray id ih
  | case6 b high hb low rest hdigits ih =>
    obtain rfl := not_not.1 hb
    obtain ⟨hhigh, hlow⟩ := Bool.and_eq_true_iff.1 hdigits
    exact .escape hhigh hlow ih
  | case7 b high hb low rest hdigits ih =>
    obtain rfl := not_not.1 hb
    exact .stray (mt Bool.and_eq_true_iff.2 hdigits) ih

/-- **A line becomes one text only**, the one that is computed. -/
theorem Decodes.eq_decode {line out : List UInt8} (h : Decodes digit line out) :
    out = decode digit line := by
  induction h with
  | nil => rfl
  | @literal b rest out hb _ ih =>
    rw [ih]
    rcases rest with _ | ⟨high, _ | ⟨low, rest⟩⟩
    · exact (if_neg hb).symm
    · simp [decode, hb]
    · simp [decode, hb]
  | @escape high low rest out hhigh hlow _ ih =>
    rw [ih]
    simp [decode, hhigh, hlow]
  | @stray rest out hdigits _ ih =>
    rw [ih]
    rcases rest with _ | ⟨high, _ | ⟨low, rest⟩⟩
    · rfl
    · simp [decode]
    · have hand : ¬(digit high && digit low) = true := mt Bool.and_eq_true_iff.1 hdigits
      simp [decode, hand]

theorem decodes_iff {line out : List UInt8} : Decodes digit line out ↔ out = decode digit line := by
  constructor
  · exact Decodes.eq_decode
  · rintro rfl
    exact decodes_decode digit line

/-! ### Texts one after the other -/

/-- Neither of the last two bytes is a `%`. -/
def NoPercentAtEnd (text : List UInt8) : Prop := ∀ c ∈ text.drop (text.length - 2), c ≠ percent

instance (text : List UInt8) : Decidable (NoPercentAtEnd text) := List.decidableBAll _ _

theorem NoPercentAtEnd.of_append (front : List UInt8) {text : List UInt8}
    (h : NoPercentAtEnd (front ++ text)) : NoPercentAtEnd text := by
  intro c hc
  refine h c ?_
  have hlength : (front ++ text).length - 2 - front.length = text.length - 2 := by
    rw [List.length_append]
    omega
  rw [List.drop_append, hlength]
  exact List.mem_append_right _ hc

/-- **Decoding distributes over concatenation** where no escape can begin at the end of the
first text. -/
theorem Decodes.append {a b x y : List UInt8} (ha : Decodes digit a x) (hb : Decodes digit b y)
    (hend : NoPercentAtEnd a) : Decodes digit (a ++ b) (x ++ y) := by
  induction ha with
  | nil => exact hb
  | @literal c rest out hc _ ih => exact .literal hc (ih (.of_append [c] hend))
  | @escape high low rest out hhigh hlow _ ih =>
    exact .escape hhigh hlow (ih (.of_append [percent, high, low] hend))
  | @stray rest out hdigits _ ih =>
    refine .stray ?_ (ih (.of_append [percent] hend))
    rcases rest with _ | ⟨high, _ | ⟨low, rest⟩⟩
    · exact absurd rfl (hend percent (by simp))
    · exact absurd rfl (hend percent (by simp))
    · exact hdigits

/-! ### The loop -/

theorem hexDigit_digitValue {c : UInt8} (h : isValid c = true) :
    hexDigit (hexValue c) = c ∧ hexValue c < 16 := by
  have hall : ∀ c, isValid c = true → hexDigit (hexValue c) = c ∧ hexValue c < 16 := by
    refine LittleEndian.forall_byte ?_
    decide +kernel
  exact hall c h

/-- Digits that are valid make the escape of the byte they stand for. -/
theorem escape_byteOf {high low : UInt8} (hhigh : isValid high = true) (hlow : isValid low = true) :
    escape (byteOf high low) = [percent, high, low] := by
  obtain ⟨hhigh', hlt⟩ := hexDigit_digitValue hhigh
  obtain ⟨hlow', hlt'⟩ := hexDigit_digitValue hlow
  have hbyte : (byteOf high low).toNat = 16 * hexValue high + hexValue low := by
    rw [byteOf, UInt8.toNat_ofNat']
    omega
  rw [escape, hbyte, show (16 * hexValue high + hexValue low) / 16 = hexValue high by omega,
    show (16 * hexValue high + hexValue low) % 16 = hexValue low by omega, hhigh', hlow']

theorem digitAt_end {line : List UInt8} {p : ℕ} (h : p = line.length) :
    digitAt line p = (none, []) := if_pos h

theorem digitAt_of_invalid {line pre rest : List UInt8} {c : UInt8} {p : ℕ}
    (hline : line = pre ++ c :: rest) (hp : p = pre.length) (hc : isValid c = false) :
    digitAt line p = (none, [p]) := by
  subst hline hp
  have hget : (pre ++ c :: rest).getD pre.length 0 = c := by simp
  rw [digitAt, if_neg (by simp), hget, hc]
  rfl

/-- **A stray `%` leaves the iterator where it is**, and nothing past the end is read. -/
theorem parse_stray (pre : List UInt8) {rest : List UInt8} (h : ¬TwoDigits isValid rest) :
    ∃ more, parse (pre ++ percent :: rest) pre.length = (none, more) ∧
      ∀ p ∈ more, p < (pre ++ percent :: rest).length := by
  rcases rest with _ | ⟨high, rest⟩
  · refine ⟨[], ?_, fun p hp => by cases hp⟩
    rw [parse, digitAt_end (by simp)]
  have hhigh : pre ++ percent :: high :: rest = (pre ++ [percent]) ++ high :: rest := by simp
  cases hvalid : isValid high with
  | false =>
    refine ⟨[pre.length + 1], ?_, ?_⟩
    · rw [parse, digitAt_of_invalid hhigh (by simp) hvalid]
    · intro p hp
      rw [List.mem_singleton.1 hp]
      simp
  | true =>
    have hfirst := digitAt_of_eq (p := pre.length + 1) hhigh (by simp) hvalid
    rcases rest with _ | ⟨low, rest⟩
    · refine ⟨[pre.length + 1], ?_, ?_⟩
      · rw [parse, hfirst]
        simp only [digitAt_end (show pre.length + 2 = (pre ++ [percent, high]).length by simp)]
        rfl
      · intro p hp
        rw [List.mem_singleton.1 hp]
        simp
    · have hlow : pre ++ percent :: high :: low :: rest
          = (pre ++ [percent, high]) ++ low :: rest := by simp
      have hinvalid : isValid low = false := by
        rw [Bool.eq_false_iff]
        exact fun hlow => h ⟨hvalid, hlow⟩
      refine ⟨[pre.length + 1, pre.length + 2], ?_, ?_⟩
      · rw [parse, hfirst]
        simp only [digitAt_of_invalid hlow (show pre.length + 2 = _ by simp) hinvalid]
        rfl
      · intro p hp
        simp only [List.mem_cons, List.not_mem_nil, or_false] at hp
        rw [List.length_append, List.length_cons, List.length_cons, List.length_cons]
        omega

/-- A stray `%` disappears. -/
theorem turn_stray (pre : List UInt8) {rest : List UInt8} (h : ¬TwoDigits isValid rest)
    (out : List UInt8) (reads : List ℕ) :
    ∃ more, turn (pre ++ percent :: rest) ⟨pre.length, out, reads⟩
        = .again ⟨pre.length + 1, out, reads ++ pre.length :: more⟩ ∧
      ∀ p ∈ more, p < (pre ++ percent :: rest).length := by
  obtain ⟨more, hparse, hmore⟩ := parse_stray pre h
  have hget : (pre ++ percent :: rest).getD pre.length 0 = percent := by simp
  have hend : ¬pre.length = (pre ++ percent :: rest).length := by simp
  refine ⟨more, ?_, hmore⟩
  simp only [turn, hget, if_neg hend, hparse]
  rfl

/-- **The loop over the rest of a line** decodes it, and reads no position past its end. -/
theorem ends_decodes {rest out' : List UInt8} (h : Decodes isValid rest out')
    (pre out : List UInt8) {reads : List ℕ} (hreads : ∀ p ∈ reads, p < (pre ++ rest).length) :
    ∃ s, Ends (turn (pre ++ rest)) ⟨pre.length, out, reads⟩ s ∧ s.lineOut = out ++ out' ∧
      ∀ p ∈ s.reads, p < (pre ++ rest).length := by
  induction h generalizing pre out reads with
  | nil =>
    refine ⟨⟨pre.length, out, reads⟩, .leave (turn_end ?_), (List.append_nil out).symm, hreads⟩
    simp
  | @literal b rest out' hb _ ih =>
    have hstep := @turn_literal pre rest b hb out reads
    have hread : ∀ p ∈ reads ++ [pre.length], p < (pre ++ b :: rest).length := by
      intro p hp
      rcases List.mem_append.1 hp with hp | hp
      · exact hreads p hp
      · rw [List.mem_singleton.1 hp]
        simp
    rw [show pre ++ b :: rest = (pre ++ [b]) ++ rest by simp] at hstep hread ⊢
    obtain ⟨s, hends, hout, hbounds⟩ := ih (pre ++ [b]) (out ++ [b]) hread
    rw [List.length_append] at hends
    exact ⟨s, .again hstep hends, by simp [hout], hbounds⟩
  | @escape high low rest out' hhigh hlow _ ih =>
    have hstep := turn_escape pre (byteOf high low) rest out reads
    have hread : ∀ p ∈ reads ++ [pre.length, pre.length + 1, pre.length + 2],
        p < (pre ++ percent :: high :: low :: rest).length := by
      intro p hp
      rcases List.mem_append.1 hp with hp | hp
      · exact hreads p hp
      · simp only [List.mem_cons, List.not_mem_nil, or_false] at hp
        rw [List.length_append, List.length_cons, List.length_cons, List.length_cons]
        omega
    rw [escape_byteOf hhigh hlow, ← List.append_assoc] at hstep
    rw [show pre ++ percent :: high :: low :: rest = (pre ++ [percent, high, low]) ++ rest by simp]
      at hread ⊢
    obtain ⟨s, hends, hout, hbounds⟩ := ih (pre ++ [percent, high, low]) (out ++ [byteOf high low])
      hread
    rw [List.length_append] at hends
    exact ⟨s, .again hstep hends, by simp [hout], hbounds⟩
  | @stray rest out' hdigits _ ih =>
    obtain ⟨more, hstep, hmore⟩ := turn_stray pre hdigits out reads
    have hread : ∀ p ∈ reads ++ pre.length :: more, p < (pre ++ percent :: rest).length := by
      intro p hp
      rcases List.mem_append.1 hp with hp | hp
      · exact hreads p hp
      · rcases List.mem_cons.1 hp with rfl | hp
        · simp
        · exact hmore p hp
    rw [show pre ++ percent :: rest = (pre ++ [percent]) ++ rest by simp] at hstep hread ⊢
    obtain ⟨s, hends, hout, hbounds⟩ := ih (pre ++ [percent]) out hread
    rw [List.length_append] at hends
    exact ⟨s, .again hstep hends, hout, hbounds⟩

/-- **The loop over a line** ends in one way, with what the line becomes. -/
theorem ends_decode (line : List UInt8) :
    ∃ s, Ends (turn line) start s ∧ (∀ s', Ends (turn line) start s' → s' = s) ∧
      s.lineOut = decode isValid line ∧ ∀ p ∈ s.reads, p < line.length := by
  have hnothing : ∀ p ∈ ([] : List ℕ), p < line.length := fun p hp => by cases hp
  obtain ⟨s, hends, hout, hbounds⟩ := ends_decodes (decodes_decode isValid line) [] [] hnothing
  exact ⟨s, hends, fun s' hs' => hs'.unique hends, hout, hbounds⟩

/-- **The loop resynchronises.**  Whatever the line, no position past its end is read, only
strays and escapes are not copied, and the output for two texts is that for the one and that
for the other where the first does not end in the middle of an escape. -/
theorem resynchronises :
    (∀ line, ∃ s, Ends (turn line) start s ∧ (∀ s', Ends (turn line) start s' → s' = s) ∧
      (∀ p ∈ s.reads, p < line.length) ∧ Decodes isValid line s.lineOut) ∧
    ∀ a b, NoPercentAtEnd a → ∃ s t u, Ends (turn a) start s ∧ Ends (turn b) start t ∧
      Ends (turn (a ++ b)) start u ∧ u.lineOut = s.lineOut ++ t.lineOut := by
  constructor
  · intro line
    obtain ⟨s, hends, hunique, hout, hbounds⟩ := ends_decode line
    exact ⟨s, hends, hunique, hbounds, decodes_iff.2 hout⟩
  · intro a b hend
    obtain ⟨s, hs, -, houts, -⟩ := ends_decode a
    obtain ⟨t, ht, -, houtt, -⟩ := ends_decode b
    obtain ⟨u, hu, -, houtu, -⟩ := ends_decode (a ++ b)
    refine ⟨s, t, u, hs, ht, hu, ?_⟩
    rw [houts, houtt, houtu]
    exact ((decodes_decode isValid a).append (decodes_decode isValid b) hend).eq_decode.symm

/-- A stray `%` before an escape, and one at the end. -/
example : decode isValid [0x25, 0x25, 0x34, 0x31, 0x25, 0x34] = [0x41, 0x34] := by decide

end Urlparse
end TjTools
