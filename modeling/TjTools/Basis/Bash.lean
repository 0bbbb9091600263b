/-
# What a shell does with text

The pieces of bash that scripts are made of: `readArray` is `read -ra`, which cuts a line at the
blanks; `lines` is what `readarray -t` makes of a file; `echo` and `substitution` are a
command and `$(...)` around one; `shift` takes positional parameters off, all that were asked for
or none; `cut` is `cut -d -f`, and `bc` the calculator, on whole numbers, which breaks long lines
when it prints (`wrap`) and takes the breaks out when it reads (`unwrap`).

The words of fields that are joined by blanks are the fields, but for the empty ones
(`words_joined`), and the lines of a text that is made of lines are these (`lines_unlines`), so a
text tells which lines it is made of (`unlines_injective`).
-/

import Mathlib.Data.List.TakeWhile
import TjTools.Basis.Numerals

namespace TjTools
namespace Bash

/-- A character that separates words. -/
def isBlank (c : Char) : Bool := c = ' ' || c = '\t' || c = '\n'

def words (line : List Char) : List (List Char) :=
  (line.splitOnP isBlank).filter (· ≠ [])

/-- `read -ra` from a text: the words of its first line. -/
def readArray (text : List Char) : List (List Char) := words (text.takeWhile (· ≠ '\n'))

/-- Fields, with a blank between each two. -/
def joined : List (List Char) → List Char
  | [] => []
  | [field] => field
  | field :: fields => field ++ ' ' :: joined fields

def lines (text : List Char) : List (List Char) :=
  let pieces := text.splitOn '\n'
  -- what is after the last newline is a line if it is not empty
  if pieces.getLast? = some [] then pieces.dropLast else pieces

/-- Lines, with a newline after each. -/
def unlines (ls : List (List Char)) : List Char := ls.flatMap (· ++ ['\n'])

/-- `echo` takes an argument like `-n` for options. -/
def isOption (arg : List Char) : Bool :=
  match arg with
  | '-' :: letters => letters ≠ [] && letters.all (['n', 'e', 'E'].contains ·)
  | _ => false

/-- `echo` of one argument. -/
def echo (arg : List Char) : List Char :=
  if isOption arg then (if 'n' ∈ arg then [] else ['\n']) else arg ++ ['\n']

/-- `$(...)` around a command with this output. -/
def substitution (output : List Char) : List Char :=
  (output.reverse.dropWhile (· == '\n')).reverse

/-- `shift n` -/
def shift (n : ℕ) (args : List (List Char)) : List (List Char) :=
  if n ≤ args.length then args.drop n else args

/-- The lines that `while read` goes through: what is after the last newline is not one. -/
def readLines (text : List Char) : List (List Char) := (text.splitOn '\n').dropLast

/-- What `read` makes of a line without a backslash. -/
def trim (line : List Char) : List Char :=
  ((line.dropWhile isBlank).reverse.dropWhile isBlank).reverse

/-- `cut -d` with `-f`: the field of a number, from 1 on. -/
def cut (delimiter : Char) (n : ℕ) (line : List Char) : List Char :=
  let fields := line.splitOn delimiter
  -- a line without a delimiter is printed as it is
  if fields.length = 1 then line else fields.getD (n - 1) []

/-- `wrap`, where `left` characters fit into the line that was begun. -/
def wrapFrom (width : ℕ) : ℕ → List Char → List Char
  | _, [] => []
  | 0, c :: text => '\\' :: '\n' :: c :: wrapFrom width (width - 1) text
  | left + 1, c :: text => c :: wrapFrom width left text

/-- A text in lines of `width` characters, with a backslash at the end of each but the last; in one
line if `width` is zero. -/
def wrap (width : ℕ) (text : List Char) : List Char :=
  if width = 0 then text else wrapFrom width width text

/-- A backslash at the end of a line joins it to the next one. -/
def unwrap : List Char → List Char
  | '\\' :: '\n' :: text => unwrap text
  | c :: text => c :: unwrap text
  | [] => []

/-- A number as `bc` prints it. -/
def printed (width n : ℕ) : List Char := wrap width (Numerals.toString n)

/-- The number of a text that is digits and nothing else. -/
def numeral (text : List Char) : Option ℕ :=
  if text ≠ [] ∧ text.all Char.isDigit = true then some (Nat.ofDigitChars 10 text 0) else none

/-- An expression for `bc`, in the shape its operators and brackets give it; at the leaves are
texts. -/
inductive Expr where
  | num (text : List Char)
  | add (a b : Expr)
  | mul (a b : Expr)
  | div (a b : Expr)
  | mod (a b : Expr)

/-- `bc`, where the texts are numerals and nothing is divided by zero. -/
def bc : Expr → Option ℕ
  | .num text => numeral (unwrap text)
  | .add a b => do return (← bc a) + (← bc b)
  | .mul a b => do return (← bc a) * (← bc b)
  | .div a b => do
    let x ← bc a
    let y ← bc b
    if y = 0 then none else return x / y
  | .mod a b => do
    let x ← bc a
    let y ← bc b
    if y = 0 then none else return x % y

/-! ### Words -/

theorem words_of_not_blank {field : List Char} (h : ∀ c ∈ field, isBlank c = false) :
    words field = [field].filter (· ≠ []) := by
  rw [words, List.splitOnP_eq_singleton h]

theorem words_append_blank {field : List Char} (h : ∀ c ∈ field, isBlank c = false)
    (line : List Char) : words (field ++ ' ' :: line) = [field].filter (· ≠ []) ++ words line := by
  rw [words, List.splitOnP_append_cons_of_forall_mem h _ rfl, ← List.singleton_append,
    List.filter_append]
  rfl

/-- **The words are the fields that are not empty.** -/
theorem words_joined {fields : List (List Char)} (h : ∀ field ∈ fields, ∀ c ∈ field,
    isBlank c = false) : words (joined fields) = fields.filter (· ≠ []) := by
  induction fields with
  | nil => rfl
  | cons field fields ih =>
    have hfield := h field List.mem_cons_self
    cases fields with
    | nil => exact words_of_not_blank hfield
    | cons next fields =>
      have hrest := ih fun field' hfield' => h field' (List.mem_cons_of_mem _ hfield')
      rw [joined, words_append_blank hfield, hrest, ← List.filter_append]
      · rfl
      · exact fun h => by cases h

theorem readArray_of_not_mem {line : List Char} (h : '\n' ∉ line) : readArray line = words line := by
  have hall : ∀ c ∈ line, decide (c ≠ '\n') = true := by
    intro c hc
    exact decide_eq_true fun he => h (he ▸ hc)
  rw [readArray, List.takeWhile_eq_self_iff.2 hall]

theorem not_mem_joined {c : Char} (hc : c ≠ ' ') {fields : List (List Char)}
    (h : ∀ field ∈ fields, c ∉ field) : c ∉ joined fields := by
  induction fields with
  | nil => exact List.not_mem_nil
  | cons field fields ih =>
    have hfield := h field List.mem_cons_self
    cases fields with
    | nil => exact hfield
    | cons next fields =>
      have hrest := ih fun field' hfield' => h field' (List.mem_cons_of_mem _ hfield')
      rw [joined, List.mem_append, List.mem_cons]
      · exact not_or.2 ⟨hfield, not_or.2 ⟨hc, hrest⟩⟩
      · exact fun h => by cases h

/-! ### Lines -/

theorem splitOn_unlines {ls : List (List Char)} (h : ∀ l ∈ ls, '\n' ∉ l) :
    (unlines ls).splitOn '\n' = ls ++ [[]] := by
  induction ls with
  | nil => rfl
  | cons l ls ih =>
    have hrest := ih fun l' hl' => h l' (List.mem_cons_of_mem _ hl')
    have hcons : unlines (l :: ls) = l ++ '\n' :: unlines ls := by simp [unlines]
    rw [hcons, List.splitOn_append_cons_self_of_not_mem (h l List.mem_cons_self), hrest]
    rfl

/-- **Reading undoes writing.** -/
theorem lines_unlines {ls : List (List Char)} (h : ∀ l ∈ ls, '\n' ∉ l) :
    lines (unlines ls) = ls := by
  have hlast : (ls ++ [[]]).getLast? = some [] := List.getLast?_concat
  unfold lines
  rw [splitOn_unlines h]
  simp only [hlast, if_true, List.dropLast_concat]

theorem readLines_unlines {ls : List (List Char)} (h : ∀ l ∈ ls, '\n' ∉ l) :
    readLines (unlines ls) = ls := by
  rw [readLines, splitOn_unlines h, List.dropLast_concat]

theorem unlines_injective {ls ls' : List (List Char)} (h : ∀ l ∈ ls, '\n' ∉ l)
    (h' : ∀ l ∈ ls', '\n' ∉ l) (heq : unlines ls = unlines ls') : ls = ls' := by
  rw [← lines_unlines h, heq, lines_unlines h']

/-! ### What a command prints -/

theorem substitution_echo {arg : List Char} (hoption : isOption arg = false) (h : '\n' ∉ arg) :
    substitution (echo arg) = arg := by
  have hline : (arg ++ ['\n']).reverse.dropWhile (· == '\n') = arg.reverse := by
    rw [List.reverse_append, List.reverse_singleton, List.singleton_append,
      List.dropWhile_cons_of_pos (by simp)]
    cases harg : arg.reverse with
    | nil => rfl
    | cons c rest =>
      have hc : c ∈ arg := by
        rw [← List.mem_reverse, harg]
        exact List.mem_cons_self
      have hne : c ≠ '\n' := fun he => h (he ▸ hc)
      rw [List.dropWhile_cons_of_neg (by simpa using hne)]
  rw [echo, if_neg (by rw [hoption]; exact Bool.false_ne_true), substitution, hline,
    List.reverse_reverse]

theorem isOption_of_blank {arg : List Char} (h : ' ' ∈ arg) : isOption arg = false := by
  unfold isOption
  split
  · rename_i letters
    have hletters : ' ' ∈ letters := by simpa using h
    refine Bool.and_eq_false_iff.2 (.inr (Bool.eq_false_iff.2 ?_))
    intro hall
    have hletter := List.all_eq_true.1 hall ' ' hletters
    revert hletter
    decide
  · rfl

/-- Of an option nothing is left. -/
theorem substitution_echo_option {arg : List Char} (hoption : isOption arg = true) :
    substitution (echo arg) = [] := by
  rw [echo, if_pos hoption]
  by_cases h : 'n' ∈ arg
  · rw [if_pos h]
    rfl
  · rw [if_neg h]
    rfl

/-! ### Numbers -/

theorem numeral_eq_some_iff {text : List Char} {n : ℕ} :
    numeral text = some n ↔
      text ≠ [] ∧ (∀ c ∈ text, c.isDigit = true) ∧ Nat.ofDigitChars 10 text 0 = n := by
  unfold numeral
  constructor
  · intro h
    split at h
    · rename_i hdigits
      exact ⟨hdigits.1, List.all_eq_true.1 hdigits.2, Option.some.inj h⟩
    · cases h
  · rintro ⟨hnil, hdigits, rfl⟩
    exact if_pos ⟨hnil, List.all_eq_true.2 hdigits⟩

/-- A number that was printed is read back. -/
@[simp] theorem numeral_toString (n : ℕ) : numeral (Numerals.toString n) = some n := by
  refine numeral_eq_some_iff.2 ⟨Numerals.toString_ne_nil n, ?_, Nat.ofDigitChars_ten_toDigits⟩
  intro c hc
  exact Numerals.isDigit_of_mem_toString hc

theorem unwrap_cons {c : Char} (hc : c ≠ '\\') (text : List Char) :
    unwrap (c :: text) = c :: unwrap text := by
  rw [unwrap]
  rintro _ rfl
  exact absurd rfl hc

theorem unwrap_of_not_mem {text : List Char} (h : '\\' ∉ text) : unwrap text = text := by
  induction text with
  | nil => rfl
  | cons c text ih =>
    rw [List.mem_cons, not_or] at h
    rw [unwrap_cons (Ne.symm h.1), ih h.2]

theorem unwrap_wrapFrom {text : List Char} (h : '\\' ∉ text) (width left : ℕ) :
    unwrap (wrapFrom width left text) = text := by
  induction text generalizing left with
  | nil => rfl
  | cons c text ih =>
    rw [List.mem_cons, not_or] at h
    cases left with
    | zero => rw [wrapFrom, unwrap, unwrap_cons (Ne.symm h.1), ih h.2]
    | succ left => rw [wrapFrom, unwrap_cons (Ne.symm h.1), ih h.2]

/-- **The breaks can be taken out.** -/
theorem unwrap_wrap {text : List Char} (h : '\\' ∉ text) (width : ℕ) :
    unwrap (wrap width text) = text := by
  unfold wrap
  split_ifs
  · exact unwrap_of_not_mem h
  · exact unwrap_wrapFrom h width width

theorem unwrap_numeral {text : List Char} {n : ℕ} (h : numeral text = some n) :
    unwrap text = text := by
  refine unwrap_of_not_mem fun hmem => ?_
  have hdigit := (numeral_eq_some_iff.1 h).2.1 _ hmem
  revert hdigit
  decide

theorem unwrap_printed (width n : ℕ) : unwrap (printed width n) = Numerals.toString n := by
  refine unwrap_wrap (fun hmem => ?_) width
  have hdigit := Numerals.isDigit_of_mem_toString hmem
  revert hdigit
  decide

section bc

variable {a b : Expr} {x y : ℕ}

theorem bc_num {text : List Char} (h : numeral text = some x) : bc (.num text) = some x := by
  rw [bc, unwrap_numeral h, h]

/-- **What `bc` printed it reads back.** -/
theorem bc_printed (width n : ℕ) : bc (.num (printed width n)) = some n := by
  rw [bc, unwrap_printed, numeral_toString]

theorem bc_add (ha : bc a = some x) (hb : bc b = some y) : bc (.add a b) = some (x + y) := by
  rw [bc, ha, hb]
  rfl

theorem bc_mul (ha : bc a = some x) (hb : bc b = some y) : bc (.mul a b) = some (x * y) := by
  rw [bc, ha, hb]
  rfl

theorem bc_div (ha : bc a = some x) (hb : bc b = some y) (hy : y ≠ 0) :
    bc (.div a b) = some (x / y) := by
  rw [bc, ha, hb]
  exact if_neg hy

theorem bc_mod (ha : bc a = some x) (hb : bc b = some y) (hy : y ≠ 0) :
    bc (.mod a b) = some (x % y) := by
  rw [bc, ha, hb]
  exact if_neg hy

end bc

theorem isBlank_of_isDigit {c : Char} (h : c.isDigit = true) : isBlank c = false := by
  have hne : ∀ d : Char, d.isDigit = false → c ≠ d := by
    rintro d hd rfl
    exact Bool.noConfusion (hd.symm.trans h)
  simp [isBlank, hne ' ' rfl, hne '\t' rfl, hne '\n' rfl]

theorem trim_of_not_blank {line : List Char} (h : ∀ c ∈ line, isBlank c = false) :
    trim line = line := by
  have hdrop : ∀ {l : List Char}, (∀ c ∈ l, isBlank c = false) → l.dropWhile isBlank = l := by
    intro l hl
    cases l with
    | nil => rfl
    | cons c l => exact List.dropWhile_cons_of_neg (by simp [hl c List.mem_cons_self])
  rw [trim, hdrop h, hdrop fun c hc => h c (List.mem_reverse.1 hc), List.reverse_reverse]

end Bash
end TjTools
