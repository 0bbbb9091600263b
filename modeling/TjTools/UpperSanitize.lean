/-
# Initial letters

`src/src/upper_sanitize.cpp` lowercases every letter of a line but the first one of each
word.  Its loop has three modes: the first character of the line, the beginning of a word up
to its first letter, and the inside of a word.  `step` is one turn of it, on bytes in the C
locale.

What is to be kept is `Sanitized`, said for each position: a character after a letter of its
word is lowercased, any other stays.  The first character of a line is copied in a mode of its
own, after which the loop takes itself to be inside a word; `sanitizeLine_iff` says for which
lines that makes no difference.  On every line only uppercase letters change, into lowercase
ones, and a second run changes none, since it is in the same mode everywhere
(`sanitizeLine_case`).
-/

import TjTools.Basis.LittleEndian
import Mathlib.Data.List.GetD
import Mathlib.Data.List.TakeWhile
import Mathlib.Tactic.Tauto

namespace TjTools
namespace UpperSanitize

/-- `isupper` -/
def isupper (c : UInt8) : Bool := 0x41 ≤ c && c ≤ 0x5a

/-- `isalpha` -/
def isalpha (c : UInt8) : Bool := isupper c || (0x61 ≤ c && c ≤ 0x7a)

/-- `tolower` -/
def tolower (c : UInt8) : UInt8 := if isupper c then c + 0x20 else c

/-- A space or a tab. -/
def blank (c : UInt8) : Bool := c == 0x20 || c == 0x09

structure State where
  lineBegin : Bool
  wordBegin : Bool
  lineOut : List UInt8
  deriving DecidableEq, Repr

/-- A turn of the loop over a line. -/
def step (s : State) (c : UInt8) : State :=
  if s.lineBegin then ⟨false, s.wordBegin, s.lineOut ++ [c]⟩
  else if blank c then ⟨false, true, s.lineOut ++ [c]⟩
  else if s.wordBegin then ⟨false, if isalpha c then false else true, s.lineOut ++ [c]⟩
  else if isupper c then ⟨false, false, s.lineOut ++ [tolower c]⟩
  else ⟨false, false, s.lineOut ++ [c]⟩

/-- The output line for an input line. -/
def sanitizeLine (line : List UInt8) : List UInt8 := (line.foldl step ⟨true, false, []⟩).lineOut

/-! ### What is to be kept -/

/-- A letter stands before position `p`, in the same word. -/
def AfterLetter (line : List UInt8) (p : ℕ) : Prop :=
  ∃ q < p, isalpha (line.getD q 0) = true ∧ ∀ r, q ≤ r → r ≤ p → blank (line.getD r 0) = false

/-- Every letter of a word after the first one is lowercased, and nothing else is changed. -/
structure Sanitized (line out : List UInt8) : Prop where
  length_eq : out.length = line.length
  lowered : ∀ p < line.length, AfterLetter line p → out.getD p 0 = tolower (line.getD p 0)
  kept : ∀ p < line.length, ¬AfterLetter line p → out.getD p 0 = line.getD p 0

/-! ### The loop as a function of the mode -/

/-- The output inside a line, after a letter of the word if `seen`. -/
def lower (seen : Bool) : List UInt8 → List UInt8
  | [] => []
  | c :: cs =>
    if blank c then c :: lower false cs
    else if seen then tolower c :: lower true cs
    else c :: lower (isalpha c) cs

theorem blank_of_isalpha {c : UInt8} (h : isalpha c = true) : blank c = false := by
  rw [Bool.eq_false_iff]
  intro hblank
  rcases Bool.or_eq_true_iff.1 hblank with heq | heq
  · rw [beq_iff_eq.1 heq] at h
    revert h
    decide
  · rw [beq_iff_eq.1 heq] at h
    revert h
    decide

theorem tolower_of_not_isupper {c : UInt8} (h : isupper c = false) : tolower c = c := by
  rw [tolower, h]
  rfl

theorem tolower_ne {c : UInt8} (h : isupper c = true) : tolower c ≠ c := by
  rw [tolower, if_pos h]
  intro heq
  simp at heq

theorem foldl_step (wordBegin : Bool) (cs out : List UInt8) :
    (cs.foldl step ⟨false, wordBegin, out⟩).lineOut = out ++ lower (!wordBegin) cs := by
  induction cs generalizing wordBegin out with
  | nil => exact (List.append_nil out).symm
  | cons c cs ih =>
    rw [List.foldl_cons, lower]
    by_cases hblank : blank c = true
    · simp [step, hblank, ih]
    · cases wordBegin with
      | true => cases halpha : isalpha c <;> simp [step, hblank, halpha, ih]
      | false =>
        cases hupper : isupper c with
        | true => simp [step, hblank, hupper, ih]
        | false => simp [step, hblank, hupper, ih, tolower_of_not_isupper hupper]

/-- After the first character the loop takes itself to be inside a word. -/
theorem sanitizeLine_cons (c : UInt8) (cs : List UInt8) :
    sanitizeLine (c :: cs) = c :: lower true cs := by
  rw [sanitizeLine, List.foldl_cons, show step ⟨true, false, []⟩ c = ⟨false, false, [c]⟩ from rfl,
    foldl_step]
  rfl

/-! ### What is kept, position by position -/

/-- As `AfterLetter`, in a line that continues a word with a letter if `seen`. -/
def After (seen : Bool) (line : List UInt8) (p : ℕ) : Prop :=
  AfterLetter line p ∨ (seen = true ∧ ∀ r ≤ p, blank (line.getD r 0) = false)

/-- Whether a letter has been seen in the word after one more character. -/
def seenAfter (seen : Bool) (c : UInt8) : Bool := !blank c && (seen || isalpha c)

theorem lower_cons (seen : Bool) (c : UInt8) (cs : List UInt8) :
    lower seen (c :: cs)
      = (if seen && !blank c then tolower c else c) :: lower (seenAfter seen c) cs := by
  rw [lower, seenAfter]
  cases hblank : blank c with
  | true => simp
  | false => cases seen <;> simp

theorem forall_blank_succ {c : UInt8} {cs : List UInt8} {p : ℕ} :
    (∀ r ≤ p + 1, blank ((c :: cs).getD r 0) = false) ↔
      blank c = false ∧ ∀ r ≤ p, blank (cs.getD r 0) = false := by
  constructor
  · intro h
    exact ⟨h 0 (Nat.zero_le _), fun r hr => h (r + 1) (Nat.succ_le_succ hr)⟩
  · rintro ⟨hc, hcs⟩ r hr
    cases r with
    | zero => exact hc
    | succ r => exact hcs r (Nat.le_of_succ_le_succ hr)

theorem after_zero {seen : Bool} {c : UInt8} {cs : List UInt8} :
    After seen (c :: cs) 0 ↔ seen = true ∧ blank c = false := by
  constructor
  · rintro (⟨q, hq, -⟩ | ⟨hseen, hblank⟩)
    · omega
    · exact ⟨hseen, hblank 0 le_rfl⟩
  · rintro ⟨hseen, hblank⟩
    refine .inr ⟨hseen, fun r hr => ?_⟩
    obtain rfl := Nat.le_zero.1 hr
    exact hblank

theorem afterLetter_succ {c : UInt8} {cs : List UInt8} {p : ℕ} :
    AfterLetter (c :: cs) (p + 1) ↔ AfterLetter cs p ∨
      (isalpha c = true ∧ blank c = false ∧ ∀ r ≤ p, blank (cs.getD r 0) = false) := by
  constructor
  · rintro ⟨q, hq, halpha, hword⟩
    cases q with
    | zero => exact .inr ⟨halpha, forall_blank_succ.1 fun r hr => hword r (Nat.zero_le r) hr⟩
    | succ q =>
      refine .inl ⟨q, by omega, halpha, fun r hqr hr => ?_⟩
      exact hword (r + 1) (Nat.succ_le_succ hqr) (Nat.succ_le_succ hr)
  · rintro (⟨q, hq, halpha, hword⟩ | ⟨halpha, hword⟩)
    · refine ⟨q + 1, by omega, halpha, fun r hqr hr => ?_⟩
      cases r with
      | zero => omega
      | succ r => exact hword r (Nat.le_of_succ_le_succ hqr) (Nat.le_of_succ_le_succ hr)
    · exact ⟨0, Nat.succ_pos p, halpha, fun r _ hr => forall_blank_succ.2 hword r hr⟩

theorem after_succ {seen : Bool} {c : UInt8} {cs : List UInt8} {p : ℕ} :
    After seen (c :: cs) (p + 1) ↔ After (seenAfter seen c) cs p := by
  rw [After, After, afterLetter_succ, forall_blank_succ, seenAfter, Bool.and_eq_true,
    Bool.or_eq_true, Bool.not_eq_true']
  tauto

@[simp] theorem length_lower (seen : Bool) (line : List UInt8) :
    (lower seen line).length = line.length := by
  induction line generalizing seen with
  | nil => rfl
  | cons c cs ih => rw [lower_cons, List.length_cons, ih, List.length_cons]

/-- **The mode tells whether a letter stands before.** -/
theorem getD_lower {seen : Bool} {line : List UInt8} {p : ℕ} (hp : p < line.length) :
    (After seen line p → (lower seen line).getD p 0 = tolower (line.getD p 0)) ∧
      (¬After seen line p → (lower seen line).getD p 0 = line.getD p 0) := by
  induction line generalizing seen p with
  | nil => cases hp
  | cons c cs ih =>
    rw [lower_cons]
    cases p with
    | zero =>
      rw [after_zero]
      cases seen <;> cases blank c <;> simp
    | succ p =>
      rw [after_succ]
      exact ih (Nat.lt_of_succ_lt_succ hp)

theorem after_false {line : List UInt8} {p : ℕ} : After false line p ↔ AfterLetter line p :=
  or_iff_left fun h => Bool.noConfusion h.1

/-- What is to be kept is what the mode of the word keeps, from the beginning of the line. -/
theorem sanitized_iff {line out : List UInt8} : Sanitized line out ↔ out = lower false line := by
  constructor
  · intro h
    refine List.ext_getElem (h.length_eq.trans (length_lower false line).symm) ?_
    intro p hp hp'
    have hline : p < line.length := h.length_eq ▸ hp
    rw [← List.getD_eq_getElem out 0 hp, ← List.getD_eq_getElem (lower false line) 0 hp']
    by_cases hafter : AfterLetter line p
    · rw [h.lowered p hline hafter, (getD_lower hline).1 (after_false.2 hafter)]
    · rw [h.kept p hline hafter, (getD_lower hline).2 (mt after_false.1 hafter)]
  · rintro rfl
    exact ⟨length_lower false line, fun p hp h => (getD_lower hp).1 (after_false.2 h),
      fun p hp h => (getD_lower hp).2 (mt after_false.1 h)⟩

/-! ### The beginning of a line -/

/-- The first letter before a blank. -/
def firstLetter (cs : List UInt8) : Option UInt8 :=
  (cs.takeWhile fun c => !blank c).find? isalpha

/-- Whether a letter was seen matters for the first letter before a blank. -/
theorem lower_true_eq_iff {cs : List UInt8} :
    lower true cs = lower false cs ↔ ∀ c, firstLetter cs = some c → isupper c = false := by
  induction cs with
  | nil => simp [lower, firstLetter]
  | cons c cs ih =>
    rw [lower_cons, lower_cons, firstLetter]
    cases hblank : blank c with
    | true => simp [seenAfter, hblank]
    | false =>
      have htake : (c :: cs).takeWhile (fun c => !blank c)
          = c :: cs.takeWhile fun c => !blank c := List.takeWhile_cons_of_pos (by simp [hblank])
      rw [htake]
      cases halpha : isalpha c with
      | true =>
        rw [List.find?_cons_of_pos halpha]
        cases hupper : isupper c with
        | true => simp [seenAfter, hblank, halpha, hupper, tolower_ne hupper]
        | false => simp [seenAfter, hblank, halpha, hupper, tolower_of_not_isupper hupper]
      | false =>
        have hupper : isupper c = false := (Bool.or_eq_false_iff.1 halpha).1
        rw [List.find?_cons_of_neg (by simp [halpha])]
        simp only [seenAfter, hblank, halpha, tolower_of_not_isupper hupper]
        simpa [firstLetter] using ih

/-- **The first letter of every word is kept if and only if the line is empty, begins with a
letter, or has no uppercase letter as the first one of the word that begins or goes on right
after its first character.** -/
theorem sanitizeLine_iff (line : List UInt8) :
    Sanitized line (sanitizeLine line) ↔
      ∀ c cs, line = c :: cs → isalpha c = true ∨
        ∀ d, firstLetter cs = some d → isupper d = false := by
  rw [sanitized_iff]
  cases line with
  | nil => exact iff_of_true rfl fun c cs h => by cases h
  | cons c cs =>
    have hlower : lower false (c :: cs) = c :: lower (isalpha c) cs := by
      rw [lower_cons, seenAfter]
      cases halpha : isalpha c with
      | true => simp [blank_of_isalpha halpha]
      | false => simp
    rw [sanitizeLine_cons, hlower, List.cons.injEq, and_iff_right rfl]
    constructor
    · rintro h _ _ ⟨⟩
      cases halpha : isalpha c with
      | true => exact .inl rfl
      | false =>
        rw [halpha] at h
        exact .inr (lower_true_eq_iff.1 h)
    · intro h
      cases halpha : isalpha c with
      | true => rfl
      | false =>
        refine lower_true_eq_iff.2 ((h c cs rfl).resolve_left ?_)
        rw [halpha]
        exact Bool.false_ne_true

/-- The word "A" after a blank is lowercased. -/
theorem not_sanitizeLine : ¬∀ line : List UInt8, Sanitized line (sanitizeLine line) := by
  intro h
  have hout := sanitized_iff.1 (h [0x20, 0x41])
  revert hout
  decide

/-- After two blanks it is not. -/
example : sanitizeLine [0x20, 0x20, 0x41, 0x42] = [0x20, 0x20, 0x41, 0x62] := by
  decide

/-! ### Sanitising again -/

/-- Lowercasing a letter keeps what the modes depend on. -/
theorem kinds_tolower (c : UInt8) :
    isupper (tolower c) = false ∧ isalpha (tolower c) = isalpha c ∧
      blank (tolower c) = blank c := by
  revert c
  refine LittleEndian.forall_byte ?_
  decide +kernel

theorem tolower_tolower (c : UInt8) : tolower (tolower c) = tolower c :=
  tolower_of_not_isupper (kinds_tolower c).1

/-- A character of the output is that of the input or its lowercase letter. -/
def lowerOne (seen : Bool) (c : UInt8) : UInt8 := if seen && !blank c then tolower c else c

theorem lower_cons_eq (seen : Bool) (c : UInt8) (cs : List UInt8) :
    lower seen (c :: cs) = lowerOne seen c :: lower (seenAfter seen c) cs :=
  lower_cons seen c cs

theorem lowerOne_eq (seen : Bool) (c : UInt8) :
    lowerOne seen c = c ∨ lowerOne seen c = tolower c := by
  unfold lowerOne
  split_ifs
  · exact .inr rfl
  · exact .inl rfl

theorem tolower_lowerOne (seen : Bool) (c : UInt8) : tolower (lowerOne seen c) = tolower c := by
  rcases lowerOne_eq seen c with heq | heq
  · rw [heq]
  · rw [heq, tolower_tolower]

theorem lowerOne_of_not_isupper {seen : Bool} {c : UInt8} (h : isupper c = false) :
    lowerOne seen c = c := by
  rcases lowerOne_eq seen c with heq | heq
  · exact heq
  · rw [heq, tolower_of_not_isupper h]

/-- **The run on the output is in the same mode** as the run on the input. -/
theorem seenAfter_lowerOne (seen : Bool) (c : UInt8) :
    seenAfter seen (lowerOne seen c) = seenAfter seen c := by
  obtain ⟨-, halpha, hblank⟩ := kinds_tolower c
  rcases lowerOne_eq seen c with heq | heq
  · rw [heq]
  · rw [heq, seenAfter, seenAfter, halpha, hblank]

theorem lowerOne_lowerOne (seen : Bool) (c : UInt8) :
    lowerOne seen (lowerOne seen c) = lowerOne seen c := by
  have hblank := (kinds_tolower c).2.2
  unfold lowerOne
  by_cases h : (seen && !blank c) = true
  · rw [if_pos h, hblank, if_pos h, tolower_tolower]
  · rw [if_neg h, if_neg h]

theorem lower_lower (seen : Bool) (line : List UInt8) :
    lower seen (lower seen line) = lower seen line := by
  induction line generalizing seen with
  | nil => rfl
  | cons c cs ih =>
    rw [lower_cons_eq, lower_cons_eq, seenAfter_lowerOne, lowerOne_lowerOne, ih]

theorem getD_lower_case (seen : Bool) (line : List UInt8) (p : ℕ) :
    tolower ((lower seen line).getD p 0) = tolower (line.getD p 0) ∧
      (isupper (line.getD p 0) = false → (lower seen line).getD p 0 = line.getD p 0) := by
  induction line generalizing seen p with
  | nil => exact ⟨rfl, fun _ => rfl⟩
  | cons c cs ih =>
    rw [lower_cons_eq]
    cases p with
    | zero => exact ⟨tolower_lowerOne seen c, lowerOne_of_not_isupper⟩
    | succ p => exact ih (seenAfter seen c) p

/-- **Sanitising changes uppercase letters to lowercase ones only, and sanitising again changes
nothing.** -/
theorem sanitizeLine_case (line : List UInt8) :
    (sanitizeLine line).length = line.length ∧
      (∀ p, tolower ((sanitizeLine line).getD p 0) = tolower (line.getD p 0)) ∧
        (∀ p, isupper (line.getD p 0) = false →
          (sanitizeLine line).getD p 0 = line.getD p 0) ∧
            sanitizeLine (sanitizeLine line) = sanitizeLine line := by
  cases line with
  | nil => exact ⟨rfl, fun _ => rfl, fun _ _ => rfl, rfl⟩
  | cons c cs =>
    rw [sanitizeLine_cons, sanitizeLine_cons, lower_lower]
    refine ⟨by simp, ?_, ?_, rfl⟩
    · intro p
      cases p with
      | zero => rfl
      | succ p => exact (getD_lower_case true cs p).1
    · intro p hupper
      cases p with
      | zero => rfl
      | succ p => exact (getD_lower_case true cs p).2 hupper

end UpperSanitize
end TjTools
