/-
# Text files of a rip

`src/bashrc.d/51-regular-user.bash`: `convert_crlf` (lines 185-207), `convert_textenc` (lines
210-258) and `guess_textenc` (lines 289-360) make a new file of a text file, and refuse if there is
one already.  The functions of `src/bashrc.d/53-audio-tools.bash` chain them through a temporary
directory.

`file`, `iconv` and `strip_utf8bom` are programs of the system, `Tools`.  A path is a name in one
of three directories; these do not lie in each other.  There are no directories among the files,
and a file can always be written.  The lines on `stdout` are left out.
-/

import TjTools.Basis.Bash
import TjTools.Basis.Shell

namespace TjTools
namespace Audio

open Bash Shell

inductive Dir where
  /-- The directory of the rip. -/
  | rip
  /-- `Infos` in it. -/
  | infos
  /-- What `mktemp` made. -/
  | temp
  deriving DecidableEq

structure Path where
  dir : Dir
  name : List Char
  deriving DecidableEq

abbrev Content := List UInt8

abbrev Files := Store Path Content

structure Tools where
  /-- `$(file --brief --mime ...)` -/
  mime : Content → List Char
  /-- `iconv -f ... -t utf8`: what it writes, and its status. -/
  iconv : List Char → Content → Content × ℕ
  /-- `strip_utf8bom`: what it makes of its input, if it makes anything, and its status. -/
  stripUtf8bom : Option Content → Option Content × ℕ

/-- `[[:print:]]` -/
def isPrint (c : Char) : Bool := 0x20 ≤ c.toNat && c.toNat ≠ 0x7f

/-- `grep -o -E "charset=[[:print:]]+"`, the first match. -/
def grepCharset : List Char → List Char
  | [] => []
  | c :: text =>
    let value := ((c :: text).drop "charset=".length).takeWhile isPrint
    if "charset=".toList <+: c :: text ∧ value ≠ [] then "charset=".toList ++ value
    else grepCharset text

def fileType (fileinfo : List Char) : List Char := cut ';' 1 fileinfo

def charset (fileinfo : List Char) : List Char := cut '=' 2 (grepCharset fileinfo)

/-- `tr -d '\15\32'` -/
def trDelete (content : Content) : Content := content.filter fun b => b ≠ 0x0d && b ≠ 0x1a

/-- `convert_crlf` -/
def convertCrlf (input output : Path) : Command Path Content := fun s =>
  match s.lookup input with
  | none => (1, s)
  | some content =>
    if (s.lookup output).isSome then (2, s)
    else (0, s.insert output (trDelete content))

/-- `convert_textenc` -/
def convertTextenc (tools : Tools) (input output : Path) : Command Path Content := fun s =>
  match s.lookup input with
  | none => (1, s)
  | some content =>
    if (s.lookup output).isSome then (2, s)
    else
      let fileinfo := tools.mime content
      if fileType fileinfo ≠ "text/plain".toList then (3, s)
      else if charset fileinfo = "utf-16le".toList then
        -- the status of `iconv` is not looked at
        (0, s.insert output (tools.iconv "utf16le".toList content).1)
      else (4, s)

def guesses : List (List Char) := ["utf16le".toList, "gb18030".toList, "sjis-open".toList]

/-- `guess_textenc` -/
def guessTextenc (tools : Tools) (input output : Path) : Command Path Content := fun s =>
  match s.lookup input with
  | none => (1, s)
  | some content =>
    if (s.lookup output).isSome then (2, s)
    else
      let charset := charset (tools.mime content)
      if charset = "utf-8".toList then (0, s.insert output content)
      else if "iso-8859".toList <+: charset ∨ charset = "us-ascii".toList then
        (0, s.insert output (tools.iconv charset content).1)
      else
        match guesses.find? fun guess => (tools.iconv guess content).2 = 0 with
        | some guess => (0, s.insert output (tools.iconv guess content).1)
        | none => (3, s)

/-- `strip_utf8bom` -/
def stripUtf8bom (tools : Tools) (input output : Path) : Command Path Content := fun s =>
  let (stripped, status) := tools.stripUtf8bom (s.lookup input)
  (status, match stripped with
    | none => s
    | some content => s.insert output content)

/-- `strip_utf8bom` and then `convert_crlf`. -/
def stripConvert (tools : Tools) (input between output : Path) : Command Path Content :=
  (stripUtf8bom tools input between).andThen (convertCrlf between output)

/-- What `strip_utf8bom` makes of a text, if it does not fail. -/
def Tools.stripped (tools : Tools) (text : Content) : Option Content :=
  match tools.stripUtf8bom (some text) with
  | (some stripped, 0) => some stripped
  | _ => none

/-! ### One command -/

section

variable {tools : Tools} {input output : Path} {s : Files} {content : Content}

theorem convertCrlf_ok (hinput : s.lookup input = some content) (houtput : s.lookup output = none) :
    convertCrlf input output s = (0, s.insert output (trDelete content)) := by
  rw [convertCrlf, hinput]
  simp only [houtput, Option.isSome_none, Bool.false_eq_true, if_false]

theorem convertCrlf_missing (hinput : s.lookup input = none) :
    convertCrlf input output s = (1, s) := by
  rw [convertCrlf, hinput]

theorem convertCrlf_exists (hinput : s.lookup input = some content)
    (houtput : (s.lookup output).isSome = true) : convertCrlf input output s = (2, s) := by
  rw [convertCrlf, hinput]
  exact if_pos houtput

theorem only_convertCrlf {P : Path → Prop} (h : P output) : Only P (convertCrlf input output) := by
  intro s name hname
  have hne : name ≠ output := fun he => hname (he ▸ h)
  unfold convertCrlf
  cases s.lookup input with
  | none => rfl
  | some content =>
    simp only
    split_ifs with hexists
    · rfl
    · exact AList.lookup_insert_ne hne

theorem only_convertTextenc {P : Path → Prop} (h : P output) :
    Only P (convertTextenc tools input output) := by
  intro s name hname
  have hne : name ≠ output := fun he => hname (he ▸ h)
  unfold convertTextenc
  cases s.lookup input with
  | none => rfl
  | some content =>
    simp only
    split_ifs with hexists htype hcharset
    · rfl
    · rfl
    · exact AList.lookup_insert_ne hne
    · rfl

theorem only_guessTextenc {P : Path → Prop} (h : P output) :
    Only P (guessTextenc tools input output) := by
  intro s name hname
  have hne : name ≠ output := fun he => hname (he ▸ h)
  unfold guessTextenc
  cases s.lookup input with
  | none => rfl
  | some content =>
    simp only
    split_ifs with hexists hutf8 hlatin
    · rfl
    · exact AList.lookup_insert_ne hne
    · exact AList.lookup_insert_ne hne
    · cases guesses.find? fun guess => decide ((tools.iconv guess content).2 = 0) with
      | none => rfl
      | some guess => exact AList.lookup_insert_ne hne

theorem only_stripUtf8bom {P : Path → Prop} (h : P output) :
    Only P (stripUtf8bom tools input output) := by
  intro s name hname
  have hne : name ≠ output := fun he => hname (he ▸ h)
  unfold stripUtf8bom
  rcases tools.stripUtf8bom (s.lookup input) with ⟨_ | stripped, status⟩
  · rfl
  · exact AList.lookup_insert_ne hne

theorem only_stripConvert {P : Path → Prop} {between : Path} (hbetween : P between)
    (houtput : P output) : Only P (stripConvert tools input between output) :=
  (only_stripUtf8bom hbetween).andThen (only_convertCrlf houtput)

end

/-! ### Two commands -/

section

variable {tools : Tools} {input between output : Path} {s : Files} {text stripped : Content}

theorem stripUtf8bom_stripped (hinput : s.lookup input = some text)
    (h : tools.stripped text = some stripped) :
    stripUtf8bom tools input between s = (0, s.insert between stripped) := by
  unfold Tools.stripped at h
  rw [stripUtf8bom, hinput]
  split at h
  · rename_i hstrip
    cases h
    rw [hstrip]
  · cases h

theorem stripConvert_ok (hinput : s.lookup input = some text)
    (h : tools.stripped text = some stripped) (hne : output ≠ between)
    (houtput : s.lookup output = none) :
    stripConvert tools input between output s =
      (0, (s.insert between stripped).insert output (trDelete stripped)) := by
  rw [stripConvert, Command.andThen_of_ok (stripUtf8bom_stripped hinput h)]
  exact convertCrlf_ok (AList.lookup_insert s) ((AList.lookup_insert_ne hne).trans houtput)

theorem stripConvert_exists (hinput : s.lookup input = some text)
    (h : tools.stripped text = some stripped) (hne : output ≠ between)
    (houtput : (s.lookup output).isSome = true) :
    stripConvert tools input between output s = (2, s.insert between stripped) := by
  rw [stripConvert, Command.andThen_of_ok (stripUtf8bom_stripped hinput h)]
  refine convertCrlf_exists (AList.lookup_insert s) ?_
  rw [AList.lookup_insert_ne hne]
  exact houtput

/-- A failure leaves nothing but what was made in between. -/
theorem stripConvert_failed (hinput : s.lookup input = some text)
    (h : tools.stripped text = none) (hbetween : s.lookup between = none) :
    (stripConvert tools input between output s).1 ≠ 0 ∧
      ∀ path, path ≠ between →
        (stripConvert tools input between output s).2.lookup path = s.lookup path := by
  have hframe : Only (· = between) (stripUtf8bom tools input between) := only_stripUtf8bom rfl
  unfold Tools.stripped at h
  unfold stripConvert
  rcases hstrip : tools.stripUtf8bom (some text) with ⟨made, status⟩
  rw [hstrip] at h
  have hrun : (stripUtf8bom tools input between s).1 = status := by
    rw [stripUtf8bom, hinput, hstrip]
  by_cases hstatus : status = 0
  · -- it says that it worked, and made nothing
    subst hstatus
    have hmade : made = none := by
      cases made with
      | none => rfl
      | some c => cases h
    subst hmade
    have hnothing : stripUtf8bom tools input between s = (0, s) := by
      rw [stripUtf8bom, hinput, hstrip]
    rw [Command.andThen_of_ok hnothing, convertCrlf_missing hbetween]
    exact ⟨Nat.one_ne_zero, fun _ _ => rfl⟩
  · rw [Command.andThen_of_ne (by rw [hrun]; exact hstatus), hrun]
    exact ⟨hstatus, fun path hpath => hframe s path hpath⟩

end

end Audio
end TjTools
