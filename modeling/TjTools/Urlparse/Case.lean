/-
# Digits of either case

`is_valid` of `src/src/urlparse.cpp` (lines 10-35) has a case for `'0'` to `'9'` and `'A'` to
`'F'` and none for `'a'` to `'f'`, which the stream that `parse` hands the digits to
(lines 51-55) would take as well.  So an escape with a lowercase digit is taken for a stray
`%` before two literals (`decode_escape`).

What such an escape is printed as, and what the same escape is printed as with other digits
in uppercase, begin differently, whatever follows (`written_append_inj`).  So two lines that differ
in the case of digits are never printed alike, and every escape of a line is decoded
exactly if none has a lowercase digit (`case_insensitive_iff`).
-/

import TjTools.Urlparse.Decode

namespace TjTools
namespace Urlparse

open Loop

/-- A hexadecimal digit of either case. -/
def isxdigit (c : UInt8) : Bool := isValid c || (0x61 ≤ c && c ≤ 0x66)

/-- The lowercase letter for an uppercase one. -/
def lowercase (c : UInt8) : UInt8 := if 0x41 ≤ c && c ≤ 0x5a then c + 0x20 else c

/-- Two lines are the same but for the case of the digits of their escapes. -/
inductive CaseVariant : List UInt8 → List UInt8 → Prop
  | nil : CaseVariant [] []
  | literal {b : UInt8} {rest rest' : List UInt8} :
      b ≠ percent → CaseVariant rest rest' → CaseVariant (b :: rest) (b :: rest')
  | stray {rest rest' : List UInt8} :
      ¬TwoDigits isxdigit rest → ¬TwoDigits isxdigit rest' → CaseVariant rest rest' →
        CaseVariant (percent :: rest) (percent :: rest')
  | escape {high low high' low' : UInt8} {rest rest' : List UInt8} :
      isxdigit high = true → isxdigit low = true → isxdigit high' = true → isxdigit low' = true →
        lowercase high' = lowercase high → lowercase low' = lowercase low →
          CaseVariant rest rest' →
            CaseVariant (percent :: high :: low :: rest) (percent :: high' :: low' :: rest')

/-- No escape of the line has a lowercase digit. -/
def AllUpper (line : List UInt8) : Prop :=
  ∀ front high low rest, line = front ++ percent :: high :: low :: rest →
    isxdigit high = true → isxdigit low = true → isValid high = true ∧ isValid low = true

/-- The loop leaves both lines with the same output. -/
def SameOutput (a b : List UInt8) : Prop :=
  ∃ s t, Ends (turn a) start s ∧ Ends (turn b) start t ∧ s.lineOut = t.lineOut

/-- The loop decodes the escapes of a line, whatever the case of their digits. -/
def DecodesEither (line : List UInt8) : Prop :=
  ∃ s, Ends (turn line) start s ∧ Decodes isxdigit line s.lineOut

/-! ### Digits -/

/-- What a digit says about the byte it is. -/
theorem digit_cases {c : UInt8} (h : isxdigit c = true) :
    hexValue c < 10 ∧ c.toNat = 0x30 + hexValue c ∨
      10 ≤ hexValue c ∧ hexValue c < 16 ∧
        (c.toNat = 0x37 + hexValue c ∨ c.toNat = 0x57 + hexValue c) := by
  have hall : ∀ c, isxdigit c = true → hexValue c < 10 ∧ c.toNat = 0x30 + hexValue c ∨
      10 ≤ hexValue c ∧ hexValue c < 16 ∧
        (c.toNat = 0x37 + hexValue c ∨ c.toNat = 0x57 + hexValue c) := by
    refine LittleEndian.forall_byte ?_
    decide +kernel
  exact hall c h

theorem ne_percent_of_isxdigit {c : UInt8} (h : isxdigit c = true) : c ≠ percent := by
  rintro rfl
  revert h
  decide

/-- The case of a letter does not change its value, and among the digits that are valid the
value tells them apart. -/
theorem lowercase_cases {c d : UInt8} (hc : isxdigit c = true) (hd : isxdigit d = true)
    (h : lowercase d = lowercase c) :
    hexValue d = hexValue c ∧ (isValid c = true → isValid d = true → d = c) := by
  have hvalue : ∀ c, isxdigit c = true → hexValue (lowercase c) = hexValue c := by
    refine LittleEndian.forall_byte ?_
    decide +kernel
  have heq : hexValue d = hexValue c := by rw [← hvalue d hd, h, hvalue c hc]
  refine ⟨heq, ?_⟩
  intro hvalid hvalid'
  rw [← (hexDigit_digitValue hvalid).1, ← (hexDigit_digitValue hvalid').1, heq]

theorem lowercase_three {c : UInt8} (hc : isxdigit c = true) (h : lowercase c = lowercase 0x33) :
    c = 0x33 := by
  have hvalue := (lowercase_cases (c := 0x33) (by decide) hc h).1
  have hcases := digit_cases hc
  rw [show hexValue 0x33 = 3 by decide] at hvalue
  apply UInt8.toNat_inj.1
  show c.toNat = 0x33
  omega

/-- **Only `%33` is decoded to its own first digit.** -/
theorem byteOf_eq {high low high' : UInt8} (hhigh : isxdigit high = true)
    (hlow : isxdigit low = true) (hhigh' : isxdigit high' = true)
    (hvalue : hexValue high' = hexValue high) (h : byteOf high low = high') :
    high' = 0x33 ∧ low = 0x33 := by
  have hcases := digit_cases hhigh
  have hcases' := digit_cases hhigh'
  have hcasesLow := digit_cases hlow
  have hbyte : (byteOf high low).toNat = 16 * hexValue high + hexValue low := by
    rw [byteOf, UInt8.toNat_ofNat']
    omega
  rw [h] at hbyte
  constructor
  · apply UInt8.toNat_inj.1
    show high'.toNat = 0x33
    omega
  · apply UInt8.toNat_inj.1
    show low.toNat = 0x33
    omega

/-! ### Escapes -/

/-- What an escape is printed as. -/
def written (high low : UInt8) : List UInt8 :=
  if isValid high && isValid low then [byteOf high low] else [high, low]

/-- **An escape with a lowercase digit is a stray `%` and two literals.** -/
theorem decode_escape {high low : UInt8} (hhigh : isxdigit high = true)
    (hlow : isxdigit low = true) (rest : List UInt8) :
    decode isValid (percent :: high :: low :: rest) = written high low ++ decode isValid rest := by
  have hrest := decodes_decode isValid rest
  unfold written
  by_cases h : (isValid high && isValid low) = true
  · obtain ⟨hhigh', hlow'⟩ := Bool.and_eq_true_iff.1 h
    rw [if_pos h]
    exact (Decodes.escape hhigh' hlow' hrest).eq_decode.symm
  · have hstray : ¬TwoDigits isValid (high :: low :: rest) := mt Bool.and_eq_true_iff.2 h
    rw [if_neg h]
    exact (Decodes.stray hstray (.literal (ne_percent_of_isxdigit hhigh)
      (.literal (ne_percent_of_isxdigit hlow) hrest))).eq_decode.symm

theorem decode_stray {rest : List UInt8} (h : ¬TwoDigits isxdigit rest) :
    decode isValid (percent :: rest) = decode isValid rest := by
  have hstray : ¬TwoDigits isValid rest := by
    intro hvalid
    rcases rest with _ | ⟨high, _ | ⟨low, rest⟩⟩
    · exact hvalid
    · exact hvalid
    · exact h ⟨Bool.or_eq_true_iff.2 (.inl hvalid.1), Bool.or_eq_true_iff.2 (.inl hvalid.2)⟩
  exact (Decodes.stray hstray (decodes_decode isValid rest)).eq_decode.symm

theorem decode_literal {b : UInt8} (h : b ≠ percent) (rest : List UInt8) :
    decode isValid (b :: rest) = b :: decode isValid rest :=
  (Decodes.literal h (decodes_decode isValid rest)).eq_decode.symm

/-! ### Two lines -/

/-- **Escapes that differ in the case of a digit are printed differently**, whatever follows. -/
theorem written_append_inj {high low high' low' : UInt8} {rest rest' : List UInt8}
    (hhigh : isxdigit high = true) (hlow : isxdigit low = true) (hhigh' : isxdigit high' = true)
    (hlow' : isxdigit low' = true) (hcase : lowercase high' = lowercase high)
    (hcase' : lowercase low' = lowercase low)
    (h : written high low ++ rest = written high' low' ++ rest') :
    high' = high ∧ low' = low ∧ rest = rest' := by
  obtain ⟨hvalue, hsame⟩ := lowercase_cases hhigh hhigh' hcase
  obtain ⟨hvalue', hsame'⟩ := lowercase_cases hlow hlow' hcase'
  unfold written at h
  by_cases hvalid : (isValid high && isValid low) = true
  · rw [if_pos hvalid] at h
    obtain ⟨hv, hv'⟩ := Bool.and_eq_true_iff.1 hvalid
    by_cases hother : (isValid high' && isValid low') = true
    · rw [if_pos hother] at h
      obtain ⟨hw, hw'⟩ := Bool.and_eq_true_iff.1 hother
      exact ⟨hsame hv hw, hsame' hv' hw', (List.cons.inj h).2⟩
    · -- the byte would be the digit `3`, and `33` is valid in any case
      rw [if_neg hother] at h
      obtain ⟨rfl, rfl⟩ := byteOf_eq hhigh hlow hhigh' hvalue (List.cons.inj h).1
      have hthree : low' = 0x33 := lowercase_three hlow' hcase'
      rw [hthree] at hother
      exact absurd (by decide) hother
  · rw [if_neg hvalid] at h
    by_cases hother : (isValid high' && isValid low') = true
    · rw [if_pos hother] at h
      obtain ⟨rfl, rfl⟩ := byteOf_eq hhigh' hlow' hhigh hvalue.symm (List.cons.inj h).1.symm
      have hthree : low = 0x33 := lowercase_three hlow hcase'.symm
      rw [hthree] at hvalid
      exact absurd (by decide) hvalid
    · rw [if_neg hother] at h
      simp only [List.cons_append, List.nil_append, List.cons.injEq] at h
      obtain ⟨rfl, rfl, h⟩ := h
      exact ⟨rfl, rfl, h⟩

/-- **Lines that differ in the case of digits are never printed alike.** -/
theorem CaseVariant.decode_eq_iff {a b : List UInt8} (h : CaseVariant a b) :
    decode isValid a = decode isValid b ↔ a = b := by
  induction h with
  | nil => exact iff_of_true rfl rfl
  | literal hb _ ih =>
    rw [decode_literal hb, decode_literal hb, List.cons.injEq, List.cons.injEq, ih]
  | stray hdigits hdigits' _ ih =>
    rw [decode_stray hdigits, decode_stray hdigits', List.cons.injEq, ih]
    exact (and_iff_right rfl).symm
  | escape hhigh hlow hhigh' hlow' hcase hcase' _ ih =>
    rw [decode_escape hhigh hlow, decode_escape hhigh' hlow']
    constructor
    · intro hout
      obtain ⟨rfl, rfl, hrest⟩ :=
        written_append_inj hhigh hlow hhigh' hlow' hcase hcase' hout
      rw [ih.1 hrest]
    · intro hline
      simp only [List.cons.injEq, true_and] at hline
      obtain ⟨rfl, rfl, hrest⟩ := hline
      rw [ih.2 hrest]

/-! ### One line -/

theorem allUpper_cons {b : UInt8} {line : List UInt8} :
    AllUpper (b :: line) ↔
      (b = percent → TwoDigits isxdigit line → TwoDigits isValid line) ∧ AllUpper line := by
  constructor
  · intro h
    constructor
    · rintro rfl hdigits
      rcases line with _ | ⟨high, _ | ⟨low, rest⟩⟩
      · exact hdigits
      · exact hdigits
      · exact h [] high low rest rfl hdigits.1 hdigits.2
    · intro front high low rest hline
      exact h (b :: front) high low rest (by rw [hline]; rfl)
  · rintro ⟨hfirst, hrest⟩ front high low rest hline hhigh hlow
    rcases front with _ | ⟨c, front⟩
    · obtain ⟨rfl, rfl⟩ := List.cons.inj hline
      exact hfirst rfl ⟨hhigh, hlow⟩
    · exact hrest front high low rest (List.cons.inj hline).2 hhigh hlow

theorem allUpper_cons_of_ne {b : UInt8} {line : List UInt8} (h : b ≠ percent) :
    AllUpper (b :: line) ↔ AllUpper line := by
  rw [allUpper_cons]
  exact and_iff_right fun heq => absurd heq h

/-- **Every escape is decoded if and only if none has a lowercase digit.** -/
theorem decode_eq_iff_allUpper {line out : List UInt8} (h : Decodes isxdigit line out) :
    decode isValid line = out ↔ AllUpper line := by
  induction h with
  | nil =>
    refine iff_of_true rfl ?_
    intro front high low rest hline
    have hlength := congrArg List.length hline
    simp at hlength
  | literal hb _ ih =>
    rw [decode_literal hb, List.cons.injEq, allUpper_cons_of_ne hb, ih, and_iff_right rfl]
  | stray hdigits _ ih =>
    rw [decode_stray hdigits, ih, allUpper_cons]
    exact (and_iff_right fun _ hcontra => absurd hcontra hdigits).symm
  | @escape high low rest out hhigh hlow _ ih =>
    rw [decode_escape hhigh hlow, allUpper_cons, allUpper_cons_of_ne (ne_percent_of_isxdigit hhigh),
      allUpper_cons_of_ne (ne_percent_of_isxdigit hlow), ← ih]
    unfold written
    by_cases hvalid : (isValid high && isValid low) = true
    · rw [if_pos hvalid, List.singleton_append, List.cons.injEq, and_iff_right rfl]
      exact (and_iff_right fun _ _ => Bool.and_eq_true_iff.1 hvalid).symm
    · rw [if_neg hvalid]
      constructor
      · intro hout
        obtain ⟨rfl, rfl⟩ := byteOf_eq hhigh hlow hhigh rfl (List.cons.inj hout).1.symm
        exact absurd (by decide) hvalid
      · rintro ⟨hupper, -⟩
        exact absurd (Bool.and_eq_true_iff.2 (hupper rfl ⟨hhigh, hlow⟩)) hvalid

/-! ### The loop -/

theorem sameOutput_iff {a b : List UInt8} :
    SameOutput a b ↔ decode isValid a = decode isValid b := by
  obtain ⟨s, hs, hs', hout, -⟩ := ends_decode a
  obtain ⟨t, ht, ht', hout', -⟩ := ends_decode b
  rw [← hout, ← hout']
  constructor
  · rintro ⟨u, v, hu, hv, heq⟩
    rwa [← hs' u hu, ← ht' v hv]
  · intro heq
    exact ⟨s, t, hs, ht, heq⟩

theorem decodesEither_iff {line : List UInt8} : DecodesEither line ↔ AllUpper line := by
  obtain ⟨s, hs, hs', hout, -⟩ := ends_decode line
  have hall := decode_eq_iff_allUpper (decodes_decode isxdigit line)
  rw [← hall, ← hout]
  constructor
  · rintro ⟨u, hu, hdecodes⟩
    rw [← hs' u hu]
    exact hdecodes.eq_decode
  · intro heq
    exact ⟨s, hs, decodes_iff.2 heq⟩

/-- **The case of a digit matters wherever it can.**  Two lines that are the same but for the
case of the digits of their escapes are printed alike only where they are the same, and a
line's escapes are all decoded only where none has a lowercase digit. -/
theorem case_insensitive_iff (line : List UInt8) :
    (∀ other, CaseVariant line other → (SameOutput line other ↔ line = other)) ∧
      (DecodesEither line ↔ AllUpper line) := by
  refine ⟨?_, decodesEither_iff⟩
  intro other h
  exact sameOutput_iff.trans h.decode_eq_iff

/-- `%2f` and `%2F`. -/
theorem not_case_insensitive : ¬∀ a b, CaseVariant a b → SameOutput a b := by
  intro h
  have hvariant : CaseVariant [0x25, 0x32, 0x66] [0x25, 0x32, 0x46] :=
    .escape (by decide) (by decide) (by decide) (by decide) (by decide) (by decide) .nil
  have hout := sameOutput_iff.1 (h _ _ hvariant)
  revert hout
  decide

end Urlparse
end TjTools
