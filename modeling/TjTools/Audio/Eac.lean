/-
# Cue sheets and log files of a rip, collected

`eac_sanitize` of `src/bashrc.d/53-audio-tools.bash` (lines 232-328) makes a directory `Infos` and
puts into it, converted, every log file and every cue sheet that `find` prints.  A log file has one
name there, and so have the sheets `single.cue` and `noncompl.cue`; any other sheet gets the first
number that is free.

`find` goes on while the loop fills `Infos`, which is in the directory that `find` walks.  What it
prints from first to last is a list here, whatever it is and whenever it comes; the results are
about lists of log files and cue sheets outside of `Infos`.

The temporary files of a log file are removed only if all went well.  The second log file that is
converted finds its name in `Infos` taken, leaves them behind, and those after it are refused; so
does a first one that fails halfway.  A cue sheet goes through whatever came before it
(`eacSanitize_collects`).

Names that `read` would change, for a backslash, a newline or blanks at an end, are left out.
-/

import Mathlib.Data.List.Induction
import TjTools.Audio.Rip

namespace TjTools
namespace Audio

open Bash Shell

def tmpLog : Path := ⟨.temp, "log".toList⟩
def tmpLog1 : Path := ⟨.temp, "log1".toList⟩
def tmpCue : Path := ⟨.temp, "cue".toList⟩
def tmpCue1 : Path := ⟨.temp, "cue1".toList⟩

/-- `get_fileext` of `src/bashrc.d/52-thin-wrapper.bash`: what is after the last dot. -/
def getFileext (path : List Char) : List Char := (path.reverse.takeWhile (· ≠ '.')).reverse

/-- `basename`, with a suffix to take off. -/
def basename (path suffix : List Char) : List Char :=
  let base := (path.reverse.takeWhile (· ≠ '/')).reverse
  if suffix <:+ base ∧ suffix ≠ base then base.take (base.length - suffix.length) else base

/-- The name of a directory such as `disc2` is told by the names in `Infos`. -/
def discPostfix : List Char → List Char
  | ['d', 'i', 's', 'c', index] =>
    if '1' ≤ index ∧ index ≤ '9' then " Disc ".toList ++ [index] else []
  | _ => []

def logPath (disc : List Char) : Path :=
  ⟨.infos, "00 Logfile".toList ++ (disc ++ ".log".toList)⟩

def cuePath (disc outType : List Char) : Path :=
  ⟨.infos, "00 Cuesheet".toList ++ (disc ++ (" (Raw, ".toList ++ (outType ++ ").cue".toList)))⟩

def unknown (counter : ℕ) : List Char := "Unknown".toList ++ Numerals.toString counter

/-- The `case` over the name of a sheet. -/
def outType (fileBase : List Char) : Option (List Char) :=
  if fileBase = "single".toList then some "Single File".toList
  else if fileBase = "noncompl".toList then some "Noncompliant".toList
  else none

/-- The branch of a log file. -/
def eacLog (tools : Tools) (disc : List Char) (arg : Path) : Command Path Content :=
  (convertTextenc tools arg tmpLog).andThen
    ((stripConvert tools tmpLog tmpLog1 (logPath disc)).andThen (rm [tmpLog, tmpLog1]))

/-- `iconv -f iso-8859-1 -t utf8 ... >`, which makes the file whatever becomes of it. -/
def iconvLatin (tools : Tools) (arg output : Path) : Command Path Content := fun s =>
  match s.lookup arg with
  | none => (1, s.insert output [])
  | some content =>
    let (text, status) := tools.iconv "iso-8859-1".toList content
    (status, s.insert output text)

/-- The first part of the branch of a cue sheet. -/
def eacCue1 (tools : Tools) (arg : Path) : Command Path Content :=
  (iconvLatin tools arg tmpCue).andThen ((convertCrlf tmpCue tmpCue1).andThen (rm [tmpCue]))

/-- The last part: the sheet is put into `Infos`. -/
def eacCue2 (disc outType : List Char) : Command Path Content :=
  (cp tmpCue1 (cuePath disc outType)).andThen (rm [tmpCue1])

/-- The branch of a cue sheet. -/
def eacCue (tools : Tools) (disc : List Char) (arg : Path) : Command Path Content := fun s =>
  let s := (eacCue1 tools arg s).2
  match outType (basename arg.name ".cue".toList) with
  | some outType => eacCue2 disc outType s
  | none =>
    match firstFree (fun counter => cuePath disc (unknown counter)) s with
    | some counter => eacCue2 disc (unknown counter) s
    -- the loop ends: there are more numbers than files
    | none => (0, s)

/-- The loop over what `find` prints. -/
def eacLoop (tools : Tools) (disc : List Char) : List Path → Files → Files
  | [], s => s
  | arg :: args, s =>
    let extension := getFileext arg.name
    if extension = "log".toList then eacLoop tools disc args (eacLog tools disc arg s).2
    else if extension = "cue".toList then eacLoop tools disc args (eacCue tools disc arg s).2
    -- `return 1`
    else s

/-- `eac_sanitize`: whether `mkdir` and `mktemp` make their directories, the name of the directory,
and all that `find` prints while the loop runs. -/
def eacSanitize (tools : Tools) (mkdir mktemp : Bool) (directoryName : List Char)
    (args : List Path) : Command Path Content := fun s =>
  if ¬mkdir then (1, s)
  else if ¬mktemp then (2, s)
  else rmdirTemp (eacLoop tools (discPostfix directoryName) args s)

/-! ### What there is to collect -/

/-- What `convert_textenc` makes of a log file, if it converts it. -/
def Tools.logText (tools : Tools) (content : Content) : Option Content :=
  let fileinfo := tools.mime content
  if fileType fileinfo = "text/plain".toList ∧ charset fileinfo = "utf-16le".toList then
    some (tools.iconv "utf16le".toList content).1
  else none

/-- What a cue sheet becomes, if it is converted. -/
def Tools.sheet (tools : Tools) (content : Content) : Option Content :=
  match tools.iconv "iso-8859-1".toList content with
  | (text, 0) => some (trDelete text)
  | _ => none

/-- The text of a log file. -/
def logText (tools : Tools) (s : Files) (arg : Path) : Option Content :=
  if getFileext arg.name = "log".toList then (s.lookup arg).bind tools.logText else none

/-- A sheet with such a name. -/
def sheetOf (tools : Tools) (s : Files) (kind : Option (List Char)) (arg : Path) : Option Content :=
  if getFileext arg.name = "cue".toList ∧ outType (basename arg.name ".cue".toList) = kind then
    (s.lookup arg).bind tools.sheet
  else none

/-- One log file at most was converted, and it was put into `Infos`. -/
def LogsDone (tools : Tools) (texts : List Content) : Prop :=
  texts.length ≤ 1 ∧ ∀ text ∈ texts, tools.stripped text ≠ none

/-- What has become of the log files with these texts. -/
structure Logs (tools : Tools) (disc : List Char) (texts : List Content) (t : Files) : Prop where
  collected : t.lookup (logPath disc) =
    texts.head?.bind fun text => (tools.stripped text).map trDelete
  done_iff : t.lookup tmpLog = none ↔ LogsDone tools texts
  done : t.lookup tmpLog = none → t.lookup tmpLog1 = none

/-! ### Log files -/

section

variable {tools : Tools} {disc : List Char} {s t : Files} {arg : Path} {texts : List Content}

theorem convertTextenc_ok {text : Content} {output : Path}
    (h : (s.lookup arg).bind tools.logText = some text) (houtput : s.lookup output = none) :
    convertTextenc tools arg output s = (0, s.insert output text) := by
  obtain ⟨content, harg, htext⟩ := Option.bind_eq_some_iff.1 h
  unfold Tools.logText at htext
  rw [convertTextenc, harg]
  simp only [houtput, Option.isSome_none, Bool.false_eq_true, if_false] at htext ⊢
  split_ifs at htext with hutf16
  rw [if_neg (not_not.2 hutf16.1), if_pos hutf16.2, Option.some.inj htext]

theorem convertTextenc_refused {output : Path}
    (h : (s.lookup arg).bind tools.logText = none ∨ s.lookup output ≠ none) :
    ∃ status, status ≠ 0 ∧ convertTextenc tools arg output s = (status, s) := by
  unfold convertTextenc
  rcases harg : s.lookup arg with _ | content
  · exact ⟨1, Nat.one_ne_zero, rfl⟩
  simp only
  split_ifs with hexists htype hcharset
  · exact ⟨2, Nat.succ_ne_zero 1, rfl⟩
  · exact ⟨3, Nat.succ_ne_zero 2, rfl⟩
  · rcases h with hnone | hsome
    · rw [harg, Option.bind_some, Tools.logText, if_pos ⟨not_not.1 htype, hcharset⟩] at hnone
      cases hnone
    · exact absurd (Option.ne_none_iff_isSome.1 hsome) hexists
  · exact ⟨4, Nat.succ_ne_zero 3, rfl⟩

theorem eacLog_refused (h : (t.lookup arg).bind tools.logText = none ∨ t.lookup tmpLog ≠ none) :
    (eacLog tools disc arg t).2 = t := by
  obtain ⟨status, hstatus, hrun⟩ := convertTextenc_refused h
  rw [eacLog, Command.andThen_of_failed hrun hstatus]

theorem logPath_ne_temp {name : List Char} : logPath disc ≠ ⟨.temp, name⟩ := by
  intro h
  have hdir := congrArg Path.dir h
  cases hdir

theorem not_logsDone_append {first : Content} (rest : List Content) (text : Content) :
    ¬LogsDone tools (first :: rest ++ [text]) := by
  intro h
  have hlength := h.1
  simp at hlength

theorem Logs.exists_singleton (h : Logs tools disc texts t) (htmp : t.lookup tmpLog = none)
    (hne : texts ≠ []) :
    ∃ first stripped, texts = [first] ∧ tools.stripped first = some stripped := by
  obtain ⟨hlength, hstripped⟩ := h.done_iff.1 htmp
  obtain ⟨first, rest, rfl⟩ := List.exists_cons_of_ne_nil hne
  obtain rfl : rest = [] := List.length_eq_zero_iff.1 (by simpa using hlength)
  obtain ⟨stripped, hfirst⟩ := Option.ne_none_iff_exists'.1 (hstripped first List.mem_cons_self)
  exact ⟨first, stripped, rfl, hfirst⟩

/-- Something fails after the text was made, and the text stays. -/
theorem logs_of_failed {c second : Command Path Content} {text : Content}
    (h : Logs tools disc texts t) (hfailed : (c (t.insert tmpLog text)).1 ≠ 0)
    (hframe : ∀ path, path ≠ tmpLog1 →
      (c (t.insert tmpLog text)).2.lookup path = (t.insert tmpLog text).lookup path)
    (hnil : texts = [] → tools.stripped text = none) :
    Logs tools disc (texts ++ [text]) (c.andThen second (t.insert tmpLog text)).2 := by
  rw [Command.andThen_of_ne hfailed]
  have hstays : (c (t.insert tmpLog text)).2.lookup tmpLog ≠ none := by
    rw [hframe tmpLog (by decide), AList.lookup_insert]
    exact Option.some_ne_none text
  have hne : logPath disc ≠ tmpLog := logPath_ne_temp
  have hlog : (c (t.insert tmpLog text)).2.lookup (logPath disc) = t.lookup (logPath disc) := by
    rw [hframe _ logPath_ne_temp, AList.lookup_insert_ne hne]
  refine ⟨?_, iff_of_false hstays ?_, fun hnone => absurd hnone hstays⟩
  · rw [hlog, h.collected]
    cases texts with
    | nil => simp [hnil rfl]
    | cons first rest => rfl
  · intro hdone
    cases texts with
    | nil => exact hdone.2 text (by simp) (hnil rfl)
    | cons first rest => exact not_logsDone_append rest text hdone

/-- Everything works, for the first text. -/
theorem logs_of_moved {text stripped : Content} (h : Logs tools disc [] t)
    (hstripped : tools.stripped text = some stripped) :
    Logs tools disc [text] (((stripConvert tools tmpLog tmpLog1 (logPath disc)).andThen
      (rm [tmpLog, tmpLog1])) (t.insert tmpLog text)).2 := by
  have hne : logPath disc ≠ tmpLog := logPath_ne_temp
  have hfree : (t.insert tmpLog text).lookup (logPath disc) = none := by
    rw [AList.lookup_insert_ne hne, h.collected]
    rfl
  have hne1 : logPath disc ≠ tmpLog1 := logPath_ne_temp
  rw [Command.andThen_of_ok (stripConvert_ok (AList.lookup_insert t) hstripped hne1 hfree)]
  refine ⟨?_, iff_of_true ?_ ?_, fun _ => ?_⟩
  · refine (lookup_remove _ _ _).trans ((if_neg (by simp [hne, hne1])).trans ?_)
    rw [AList.lookup_insert, List.head?_cons, Option.bind_some, hstripped]
    rfl
  · exact (lookup_remove _ _ _).trans (if_pos (by simp))
  · refine ⟨le_rfl, fun text' htext' => ?_⟩
    rw [List.mem_singleton.1 htext', hstripped]
    exact Option.some_ne_none stripped
  · exact (lookup_remove _ _ _).trans (if_pos (by simp))

/-- **A log file.**  The first one counts; after a second one, or a failure, none is handled. -/
theorem Logs.eacLog (h : Logs tools disc texts t) :
    Logs tools disc (texts ++ ((t.lookup arg).bind tools.logText).toList)
      (eacLog tools disc arg t).2 := by
  rcases htext : (t.lookup arg).bind tools.logText with _ | text
  · rw [eacLog_refused (.inl htext), Option.toList_none, List.append_nil]
    exact h
  rw [Option.toList_some]
  by_cases htmp : t.lookup tmpLog = none
  · -- there is room for the text
    have hconvert := convertTextenc_ok htext htmp
    have htmpLog1 : (t.insert tmpLog text).lookup tmpLog1 = none := by
      rw [AList.lookup_insert_ne (by decide)]
      exact h.done htmp
    rw [Audio.eacLog, Command.andThen_of_ok hconvert]
    rcases hstripped : tools.stripped text with _ | stripped
    · obtain ⟨hfailed, hframe⟩ := stripConvert_failed (AList.lookup_insert t) hstripped htmpLog1
      exact logs_of_failed h hfailed hframe fun _ => hstripped
    by_cases hnil : texts = []
    · subst hnil
      exact logs_of_moved h hstripped
    · -- the name in `Infos` is taken
      obtain ⟨first, stripped', rfl, hfirst⟩ := h.exists_singleton htmp hnil
      have hne : logPath disc ≠ tmpLog := logPath_ne_temp
      have htaken : ((t.insert tmpLog text).lookup (logPath disc)).isSome = true := by
        rw [AList.lookup_insert_ne hne, h.collected, List.head?_cons, Option.bind_some, hfirst]
        rfl
      have hrun := stripConvert_exists (AList.lookup_insert t) hstripped
        (show logPath disc ≠ tmpLog1 from logPath_ne_temp) htaken
      refine logs_of_failed h ?_ (fun path hpath => ?_) fun hcons => absurd hcons hnil
      · rw [hrun]
        exact Nat.succ_ne_zero 1
      · rw [hrun]
        exact AList.lookup_insert_ne hpath
  · rw [eacLog_refused (.inr htmp)]
    have hsome : texts ≠ [] := by
      rintro rfl
      exact htmp (h.done_iff.2 ⟨Nat.zero_le 1, fun text htext => absurd htext List.not_mem_nil⟩)
    obtain ⟨first, rest, rfl⟩ := List.exists_cons_of_ne_nil hsome
    exact ⟨h.collected, iff_of_false htmp (not_logsDone_append rest text), h.done⟩

end

/-! ### Cue sheets -/

def outTypes : List (List Char) := ["Single File".toList, "Noncompliant".toList]

/-- What has become of sheets with these names, and whether the last one was converted. -/
structure Sheets (disc : List Char) (sheets : Option (List Char) → List Content) (clean : Prop)
    (t : Files) : Prop where
  known : ∀ name ∈ outTypes, t.lookup (cuePath disc name) = (sheets (some name)).getLast?
  numbered : ∀ k, t.lookup (cuePath disc (unknown (k + 1))) = (sheets none)[k]?
  clean_iff : t.lookup tmpCue = none ↔ clean
  gone : t.lookup tmpCue1 = none

theorem mem_outTypes {fileBase name : List Char} (h : outType fileBase = some name) :
    name ∈ outTypes := by
  unfold outType at h
  split_ifs at h with hsingle hnoncompl
  · rw [← Option.some.inj h]
    exact List.mem_cons_self
  · rw [← Option.some.inj h]
    exact List.mem_cons_of_mem _ List.mem_cons_self

theorem toString_injective : Function.Injective Numerals.toString := by
  intro n m h
  have hn := numeral_toString n
  rw [h, numeral_toString m] at hn
  exact (Option.some.inj hn).symm

theorem cuePath_injective (disc : List Char) : Function.Injective (cuePath disc) := by
  intro name name' h
  have hname := List.append_cancel_left (congrArg Path.name h)
  have hname' := List.append_cancel_left (List.append_cancel_left hname)
  exact List.append_cancel_right hname'

theorem unknown_injective : Function.Injective unknown := by
  intro n m h
  exact toString_injective (List.append_cancel_left h)

theorem unknown_notMem_outTypes (k : ℕ) : unknown k ∉ outTypes := by
  intro h
  have hhead : (unknown k).head? = some 'U' := rfl
  simp only [outTypes, List.mem_cons, List.not_mem_nil, or_false] at h
  rcases h with hname | hname
  · rw [hname] at hhead
    revert hhead
    decide
  · rw [hname] at hhead
    revert hhead
    decide

theorem cuePath_ne_temp {disc name name' : List Char} : cuePath disc name ≠ ⟨.temp, name'⟩ := by
  intro h
  have hdir := congrArg Path.dir h
  cases hdir

theorem cuePath_ne_logPath {disc name : List Char} : cuePath disc name ≠ logPath disc := by
  intro h
  have hcue : (cuePath disc name).name[3]? = some 'C' := rfl
  have hlog : (logPath disc).name[3]? = some 'L' := rfl
  rw [h, hlog] at hcue
  revert hcue
  decide

section

variable {tools : Tools} {disc : List Char} {t : Files} {arg : Path}
  {sheets : Option (List Char) → List Content} {clean : Prop}

theorem only_iconvLatin {P : Path → Prop} {output : Path} (h : P output) :
    Only P (iconvLatin tools arg output) := by
  intro s name hname
  have hne : name ≠ output := fun he => hname (he ▸ h)
  unfold iconvLatin
  cases s.lookup arg with
  | none => exact AList.lookup_insert_ne hne
  | some content => exact AList.lookup_insert_ne hne

theorem only_eacCue1 : Only (· ∈ [tmpCue, tmpCue1]) (eacCue1 tools arg) :=
  (only_iconvLatin (by simp)).andThen
    ((only_convertCrlf (by simp)).andThen (Only.rm (by simp)))

theorem eacCue1_ok {c : Content} (h : (t.lookup arg).bind tools.sheet = some c)
    (hgone : t.lookup tmpCue1 = none) :
    (eacCue1 tools arg t).2.lookup tmpCue1 = some c ∧
      (eacCue1 tools arg t).2.lookup tmpCue = none := by
  obtain ⟨content, harg, hsheet⟩ := Option.bind_eq_some_iff.1 h
  unfold Tools.sheet at hsheet
  split at hsheet
  · rename_i text hiconv
    cases hsheet
    have hrun : iconvLatin tools arg tmpCue t = (0, t.insert tmpCue text) := by
      rw [iconvLatin, harg]
      simp only [hiconv]
    have hfree : (t.insert tmpCue text).lookup tmpCue1 = none := by
      rw [AList.lookup_insert_ne (by decide)]
      exact hgone
    rw [eacCue1, Command.andThen_of_ok hrun,
      Command.andThen_of_ok (convertCrlf_ok (AList.lookup_insert t) hfree)]
    constructor
    · exact (lookup_remove _ _ _).trans ((if_neg (by decide)).trans (AList.lookup_insert _))
    · exact (lookup_remove _ _ _).trans (if_pos (by simp))
  · cases hsheet

theorem eacCue1_failed (h : (t.lookup arg).bind tools.sheet = none)
    (hgone : t.lookup tmpCue1 = none) :
    (eacCue1 tools arg t).2.lookup tmpCue1 = none ∧
      (eacCue1 tools arg t).2.lookup tmpCue ≠ none := by
  have hrun : ∃ status text, status ≠ 0 ∧
      iconvLatin tools arg tmpCue t = (status, t.insert tmpCue text) := by
    unfold iconvLatin
    rcases harg : t.lookup arg with _ | content
    · exact ⟨1, [], Nat.one_ne_zero, rfl⟩
    · rcases hiconv : tools.iconv "iso-8859-1".toList content with ⟨text, status⟩
      refine ⟨status, text, ?_, by simp only [hiconv]⟩
      rintro rfl
      rw [harg, Option.bind_some, Tools.sheet, hiconv] at h
      cases h
  obtain ⟨status, text, hstatus, hrun⟩ := hrun
  rw [eacCue1, Command.andThen_of_failed hrun hstatus]
  constructor
  · rw [AList.lookup_insert_ne (by decide)]
    exact hgone
  · rw [AList.lookup_insert]
    exact Option.some_ne_none text

theorem eacCue2_lookup (disc name : List Char) {c : Content} (h : t.lookup tmpCue1 = some c)
    (path : Path) :
    (eacCue2 disc name t).2.lookup path =
      if path = tmpCue1 then none
      else if path = cuePath disc name then some c else t.lookup path := by
  have hcp : cp tmpCue1 (cuePath disc name) t = (0, t.insert (cuePath disc name) c) := by
    rw [cp, h]
  rw [eacCue2, Command.andThen_of_ok hcp]
  refine (lookup_remove _ _ _).trans ?_
  simp only [List.mem_singleton]
  split_ifs with htmp hname
  · rfl
  · rw [hname, AList.lookup_insert]
  · exact AList.lookup_insert_ne hname

theorem eacCue2_lookup_cuePath (disc name : List Char) {c : Content}
    (h : t.lookup tmpCue1 = some c) (name' : List Char) :
    (eacCue2 disc name t).2.lookup (cuePath disc name') =
      if name = name' then some c else t.lookup (cuePath disc name') := by
  have hne : cuePath disc name' ≠ tmpCue1 := cuePath_ne_temp
  rw [eacCue2_lookup disc name h, if_neg hne]
  exact if_congr ((cuePath_injective disc).eq_iff.trans eq_comm) rfl rfl

theorem eacCue2_missing {name : List Char} (h : t.lookup tmpCue1 = none) :
    (eacCue2 disc name t).2 = t := by
  have hcp : cp tmpCue1 (cuePath disc name) t = (1, t) := by rw [cp, h]
  rw [eacCue2, Command.andThen_of_failed hcp Nat.one_ne_zero]

/-- The name that a sheet gets: that of its kind, or the next number. -/
def nameFor (kind : Option (List Char)) (numbered : ℕ) : List Char :=
  match kind with
  | some name => name
  | none => unknown (numbered + 1)

theorem Sheets.lookup_eacCue1 {name : List Char} :
    (eacCue1 tools arg t).2.lookup (cuePath disc name) = t.lookup (cuePath disc name) := by
  refine only_eacCue1 t _ ?_
  simp only [List.mem_cons, List.not_mem_nil, or_false, not_or]
  exact ⟨cuePath_ne_temp, cuePath_ne_temp⟩

theorem Sheets.eacCue_eq (h : Sheets disc sheets clean t) :
    Audio.eacCue tools disc arg t =
      eacCue2 disc (nameFor (outType (basename arg.name ".cue".toList)) (sheets none).length)
        (eacCue1 tools arg t).2 := by
  unfold Audio.eacCue nameFor
  cases outType (basename arg.name ".cue".toList) with
  | some name => rfl
  | none =>
    have hinjective : Function.Injective fun counter => cuePath disc (unknown counter) :=
      (cuePath_injective disc).comp unknown_injective
    have hfirst := firstFree_eq hinjective (s := (eacCue1 tools arg t).2)
      (k := (sheets none).length)
      (fun j hj => by rw [Sheets.lookup_eacCue1, h.numbered, List.getElem?_eq_getElem hj]; rfl)
      (by rw [Sheets.lookup_eacCue1, h.numbered, List.getElem?_eq_none le_rfl])
    simp only [hfirst]

theorem nameFor_eq_iff {kind : Option (List Char)} {n : ℕ} {name : List Char}
    (hname : name ∈ outTypes) : nameFor kind n = name ↔ kind = some name := by
  cases kind with
  | some name' => exact Option.some_inj.symm
  | none =>
    refine iff_of_false ?_ (by simp)
    rintro rfl
    exact unknown_notMem_outTypes (n + 1) hname

theorem nameFor_eq_unknown_iff {kind : Option (List Char)}
    (hkind : ∀ name, kind = some name → name ∈ outTypes) {n k : ℕ} :
    nameFor kind n = unknown (k + 1) ↔ kind = none ∧ k = n := by
  cases kind with
  | some name =>
    refine iff_of_false ?_ (by simp)
    intro hname
    exact unknown_notMem_outTypes (k + 1) (hname ▸ hkind name rfl)
  | none =>
    constructor
    · intro hname
      exact ⟨rfl, (Nat.succ.inj (unknown_injective hname)).symm⟩
    · rintro ⟨-, rfl⟩
      rfl

/-- **A cue sheet.**  It is the last of its kind, or the next of the numbered ones. -/
theorem Sheets.eacCue (h : Sheets disc sheets clean t)
    {sheets' : Option (List Char) → List Content}
    (hsheets' : ∀ kind, sheets' kind =
      sheets kind ++ if outType (basename arg.name ".cue".toList) = kind then
        ((t.lookup arg).bind tools.sheet).toList else []) :
    Sheets disc sheets' (((t.lookup arg).bind tools.sheet).isSome = true)
      (Audio.eacCue tools disc arg t).2 := by
  have hkind := fun name => @mem_outTypes (basename arg.name ".cue".toList) name
  rw [h.eacCue_eq]
  generalize outType (basename arg.name ".cue".toList) = kind at hkind hsheets'
  rcases hsheet : (t.lookup arg).bind tools.sheet with _ | c
  · obtain ⟨hmissing, hstays⟩ := eacCue1_failed hsheet h.gone
    have hsame : ∀ kind, sheets' kind = sheets kind := by
      intro kind'
      rw [hsheets', hsheet, Option.toList_none, ite_self, List.append_nil]
    rw [eacCue2_missing hmissing]
    refine ⟨fun name hname => ?_, fun k => ?_, iff_of_false hstays (by simp), hmissing⟩
    · rw [Sheets.lookup_eacCue1, h.known name hname, hsame]
    · rw [Sheets.lookup_eacCue1, h.numbered, hsame]
  · obtain ⟨hmade, hclean⟩ := eacCue1_ok hsheet h.gone
    have hlookup := eacCue2_lookup disc (nameFor kind (sheets none).length) hmade
    have hcue := eacCue2_lookup_cuePath disc (nameFor kind (sheets none).length) hmade
    rw [hsheet, Option.toList_some] at hsheets'
    refine ⟨fun name hname => ?_, fun k => ?_, iff_of_true ?_ rfl, ?_⟩
    · rw [hcue, Sheets.lookup_eacCue1, hsheets', h.known name hname]
      by_cases hname' : kind = some name
      · rw [if_pos ((nameFor_eq_iff hname).2 hname'), if_pos hname', List.getLast?_concat]
      · rw [if_neg (mt (nameFor_eq_iff hname).1 hname'), if_neg hname', List.append_nil]
    · rw [hcue, Sheets.lookup_eacCue1, hsheets', h.numbered]
      by_cases hnone : kind = none
      · rw [if_pos hnone]
        by_cases hk : k = (sheets none).length
        · rw [if_pos ((nameFor_eq_unknown_iff hkind).2 ⟨hnone, hk⟩), hk,
            List.getElem?_concat_length]
        · rw [if_neg fun hname => hk ((nameFor_eq_unknown_iff hkind).1 hname).2]
          rcases Nat.lt_or_gt_of_ne hk with hlt | hgt
          · rw [List.getElem?_append_left hlt]
          · have hle : (sheets none ++ [c]).length ≤ k := by
              rw [List.length_append, List.length_singleton]
              exact hgt
            rw [List.getElem?_eq_none hgt.le, List.getElem?_eq_none hle]
      · rw [if_neg fun hname => hnone ((nameFor_eq_unknown_iff hkind).1 hname).1, if_neg hnone,
          List.append_nil]
    · rw [hlookup, if_neg (by decide), if_neg (fun he => cuePath_ne_temp he.symm)]
      exact hclean
    · rw [hlookup, if_pos rfl]

end

/-! ### All files -/

def LogWritten (disc : List Char) (path : Path) : Prop :=
  path = tmpLog ∨ path = tmpLog1 ∨ path = logPath disc

def CueWritten (disc : List Char) (path : Path) : Prop :=
  path = tmpCue ∨ path = tmpCue1 ∨ (∃ name ∈ outTypes, path = cuePath disc name) ∨
    ∃ k, path = cuePath disc (unknown (k + 1))

theorem LogWritten.dir_ne {disc : List Char} {path : Path} (h : LogWritten disc path) :
    path.dir ≠ .rip := by
  rcases h with rfl | rfl | rfl
  · decide
  · decide
  · exact fun hdir => by cases hdir

theorem CueWritten.dir_ne {disc : List Char} {path : Path} (h : CueWritten disc path) :
    path.dir ≠ .rip := by
  rcases h with rfl | rfl | ⟨_, -, rfl⟩ | ⟨_, rfl⟩
  · decide
  · decide
  · exact fun hdir => by cases hdir
  · exact fun hdir => by cases hdir

/-- What log files and cue sheets are made into is apart. -/
theorem LogWritten.not_cueWritten {disc : List Char} {path : Path} (h : LogWritten disc path) :
    ¬CueWritten disc path := by
  have hcue : ∀ name, cuePath disc name ≠ path := by
    intro name
    rcases h with rfl | rfl | rfl
    · exact cuePath_ne_temp
    · exact cuePath_ne_temp
    · exact cuePath_ne_logPath
  rintro (hpath | hpath | ⟨name, -, hpath⟩ | ⟨k, hpath⟩)
  · rcases h with rfl | rfl | rfl
    · exact absurd hpath (by decide)
    · exact absurd hpath (by decide)
    · exact logPath_ne_temp hpath
  · rcases h with rfl | rfl | rfl
    · exact absurd hpath (by decide)
    · exact absurd hpath (by decide)
    · exact logPath_ne_temp hpath
  · exact hcue name hpath.symm
  · exact hcue _ hpath.symm

section

variable {tools : Tools} {disc : List Char} {arg : Path}

theorem only_eacLog : Only (LogWritten disc) (eacLog tools disc arg) := by
  refine (only_convertTextenc (.inl rfl)).andThen
    ((only_stripConvert (.inr (.inl rfl)) (.inr (.inr rfl))).andThen (Only.rm ?_))
  intro name hname
  simp only [List.mem_cons, List.not_mem_nil, or_false] at hname
  rcases hname with rfl | rfl
  · exact .inl rfl
  · exact .inr (.inl rfl)

theorem only_eacCue2 {name : List Char} (h : CueWritten disc (cuePath disc name)) :
    Only (CueWritten disc) (eacCue2 disc name) := by
  refine (Only.cp h).andThen (Only.rm ?_)
  intro name hname
  rw [List.mem_singleton.1 hname]
  exact .inr (.inl rfl)

theorem only_eacCue : Only (CueWritten disc) (eacCue tools disc arg) := by
  intro s path hpath
  have hfirst : (eacCue1 tools arg s).2.lookup path = s.lookup path := by
    refine only_eacCue1 s path fun hmem => hpath ?_
    simp only [List.mem_cons, List.not_mem_nil, or_false] at hmem
    rcases hmem with rfl | rfl
    · exact .inl rfl
    · exact .inr (.inl rfl)
  rw [← hfirst, eacCue]
  cases hname : outType (basename arg.name ".cue".toList) with
  | some name =>
    have hwritten : CueWritten disc (cuePath disc name) :=
      .inr (.inr (.inl ⟨name, mem_outTypes hname, rfl⟩))
    exact only_eacCue2 hwritten _ path hpath
  | none =>
    simp only
    split
    · rename_i counter hcounter
      obtain ⟨k, rfl⟩ := Nat.exists_eq_add_of_le' (le_of_iterate hcounter)
      exact only_eacCue2 (.inr (.inr (.inr ⟨k, rfl⟩))) _ path hpath
    · rfl

/-- A turn of the loop, for what `find` prints. -/
def eacTurn (tools : Tools) (disc : List Char) (arg : Path) : Command Path Content :=
  if getFileext arg.name = "log".toList then eacLog tools disc arg else eacCue tools disc arg

/-- A file outside of `Infos`, with a name that ends in `.log` or in `.cue`. -/
def Found (arg : Path) : Prop :=
  arg.dir = .rip ∧ (getFileext arg.name = "log".toList ∨ getFileext arg.name = "cue".toList)

instance (arg : Path) : Decidable (Found arg) := inferInstanceAs (Decidable (_ ∧ _))

theorem eacLoop_eq {args : List Path} (h : ∀ arg ∈ args, Found arg) (s : Files) :
    eacLoop tools disc args s = forEach (eacTurn tools disc) args s := by
  induction args generalizing s with
  | nil => rfl
  | cons arg args ih =>
    have hrest := ih fun arg' harg' => h arg' (List.mem_cons_of_mem arg harg')
    rw [eacLoop, forEach, List.foldl_cons, ← forEach, ← hrest, eacTurn]
    rcases (h arg List.mem_cons_self).2 with hlog | hcue
    · simp only [hlog, if_true]
    · rw [hcue]
      rfl

end

/-- The sheet that was converted last went through. -/
def SheetsDone (tools : Tools) (s : Files) (args : List Path) : Prop :=
  ∀ arg, (args.filter fun arg => getFileext arg.name = "cue".toList).getLast? = some arg →
    ((s.lookup arg).bind tools.sheet).isSome = true

/-- What the files were made into, in the order in which they were found. -/
structure Collected (tools : Tools) (disc : List Char) (s : Files) (args : List Path) (t : Files) :
    Prop where
  logs : Logs tools disc (args.filterMap (logText tools s)) t
  sheets : Sheets disc (fun kind => args.filterMap (sheetOf tools s kind))
    (SheetsDone tools s args) t
  others : ∀ path, ¬LogWritten disc path → ¬CueWritten disc path → t.lookup path = s.lookup path

section

variable {tools : Tools} {disc : List Char} {s t u : Files} {args : List Path} {arg : Path}
  {status : ℕ} {texts : List Content} {sheets : Option (List Char) → List Content} {clean : Prop}

theorem Logs.frame (h : Logs tools disc texts t)
    (hu : ∀ path, LogWritten disc path → u.lookup path = t.lookup path) :
    Logs tools disc texts u := by
  have hlog := hu _ (.inl rfl)
  have hlog1 := hu _ (.inr (.inl rfl))
  refine ⟨?_, ?_, ?_⟩
  · rw [hu _ (.inr (.inr rfl)), h.collected]
  · rw [hlog, h.done_iff]
  · rw [hlog, hlog1]
    exact h.done

theorem Sheets.frame (h : Sheets disc sheets clean t)
    (hu : ∀ path, CueWritten disc path → u.lookup path = t.lookup path) :
    Sheets disc sheets clean u := by
  refine ⟨fun name hname => ?_, fun k => ?_, ?_, ?_⟩
  · rw [hu _ (.inr (.inr (.inl ⟨name, hname, rfl⟩))), h.known name hname]
  · rw [hu _ (.inr (.inr (.inr ⟨k, rfl⟩))), h.numbered]
  · rw [hu _ (.inl rfl), h.clean_iff]
  · rw [hu _ (.inr (.inl rfl)), h.gone]

theorem collected_nil (htemp : NoTemp s)
    (hinfos : ∀ path : Path, path.dir = .infos → s.lookup path = none) :
    Collected tools disc s [] s where
  logs := ⟨hinfos _ rfl, iff_of_true (htemp _ rfl) ⟨Nat.zero_le 1, by simp⟩, fun _ => htemp _ rfl⟩
  sheets := ⟨fun _ _ => hinfos _ rfl, fun _ => hinfos _ rfl,
    iff_of_true (htemp _ rfl) (by simp [SheetsDone]), htemp _ rfl⟩
  others := fun _ _ _ => rfl

theorem filterMap_concat {α β : Type} (f : α → Option β) (xs : List α) (x : α) :
    (xs ++ [x]).filterMap f = xs.filterMap f ++ (f x).toList := by
  rw [List.filterMap_append]
  cases hx : f x with
  | none => simp [hx]
  | some y => simp [hx]

theorem Collected.lookup_found (h : Collected tools disc s args t) (harg : arg.dir = .rip) :
    t.lookup arg = s.lookup arg :=
  h.others arg (fun hw => hw.dir_ne harg) fun hw => hw.dir_ne harg

theorem Collected.eacLog (h : Collected tools disc s args t) (harg : arg.dir = .rip)
    (hlog : getFileext arg.name = "log".toList) :
    Collected tools disc s (args ++ [arg]) (eacLog tools disc arg t).2 := by
  have hnotCue : getFileext arg.name ≠ "cue".toList := by
    rw [hlog]
    decide
  have htexts : ((t.lookup arg).bind tools.logText).toList = (logText tools s arg).toList := by
    rw [h.lookup_found harg, logText, if_pos hlog]
  have hsheets : ∀ kind, sheetOf tools s kind arg = none := fun kind =>
    if_neg fun hcue => hnotCue hcue.1
  have hdone : SheetsDone tools s (args ++ [arg]) ↔ SheetsDone tools s args := by
    rw [SheetsDone, List.filter_append, List.filter_cons_of_neg (by simpa using hnotCue),
      List.filter_nil, List.append_nil, SheetsDone]
  refine ⟨?_, ?_, fun path hpath hpath' => ?_⟩
  · rw [filterMap_concat, ← htexts]
    exact h.logs.eacLog
  · simp only [filterMap_concat, hsheets, Option.toList_none, List.append_nil, hdone]
    exact h.sheets.frame fun path hpath => only_eacLog t path fun hw => hw.not_cueWritten hpath
  · rw [only_eacLog t path hpath, h.others path hpath hpath']

theorem Collected.eacCue (h : Collected tools disc s args t) (harg : arg.dir = .rip)
    (hcue : getFileext arg.name = "cue".toList) :
    Collected tools disc s (args ++ [arg]) (eacCue tools disc arg t).2 := by
  have hnotLog : getFileext arg.name ≠ "log".toList := by
    rw [hcue]
    decide
  have hdone : SheetsDone tools s (args ++ [arg]) ↔
      ((t.lookup arg).bind tools.sheet).isSome = true := by
    rw [SheetsDone, List.filter_append, List.filter_cons_of_pos (by simpa using hcue),
      List.filter_nil, List.getLast?_concat, h.lookup_found harg]
    exact ⟨fun hlast => hlast arg rfl, fun hsheet arg' harg' => Option.some.inj harg' ▸ hsheet⟩
  refine ⟨?_, ?_, fun path hpath hpath' => ?_⟩
  · rw [filterMap_concat, logText, if_neg hnotLog, Option.toList_none, List.append_nil]
    exact h.logs.frame fun path hpath => only_eacCue t path hpath.not_cueWritten
  · rw [hdone]
    refine h.sheets.eacCue fun kind => ?_
    rw [filterMap_concat, h.lookup_found harg, sheetOf, hcue]
    by_cases hkind : outType (basename arg.name ".cue".toList) = kind
    · rw [if_pos ⟨rfl, hkind⟩, if_pos hkind]
    · rw [if_neg fun hboth => hkind hboth.2, if_neg hkind]
      rfl
  · rw [only_eacCue t path hpath', h.others path hpath hpath']

theorem Collected.eacTurn (h : Collected tools disc s args t) (harg : Found arg) :
    Collected tools disc s (args ++ [arg]) (eacTurn tools disc arg t).2 := by
  unfold Audio.eacTurn
  split_ifs with hlog
  · exact h.eacLog harg.1 hlog
  · exact h.eacCue harg.1 (harg.2.resolve_left hlog)

theorem collected_forEach (htemp : NoTemp s)
    (hinfos : ∀ path : Path, path.dir = .infos → s.lookup path = none)
    (hargs : ∀ arg ∈ args, Found arg) :
    Collected tools disc s args (forEach (Audio.eacTurn tools disc) args s) := by
  induction args using List.reverseRecOn with
  | nil => exact collected_nil htemp hinfos
  | append_singleton args arg ih =>
    have hrest := ih fun arg' harg' => hargs arg' (List.mem_append_left _ harg')
    rw [forEach, List.foldl_append, List.foldl_cons, List.foldl_nil, ← forEach]
    exact hrest.eacTurn (hargs arg (List.mem_append_right _ List.mem_cons_self))

theorem Collected.noTemp_iff (h : Collected tools disc s args t) (htemp : NoTemp s) :
    NoTemp t ↔ LogsDone tools (args.filterMap (logText tools s)) ∧ SheetsDone tools s args := by
  rw [← h.logs.done_iff, ← h.sheets.clean_iff]
  constructor
  · intro hempty
    exact ⟨hempty _ rfl, hempty _ rfl⟩
  · rintro ⟨hlog, hcue⟩ path hdir
    by_cases hpath : path ∈ [tmpLog, tmpLog1, tmpCue, tmpCue1]
    · simp only [List.mem_cons, List.not_mem_nil, or_false] at hpath
      rcases hpath with rfl | rfl | rfl | rfl
      · exact hlog
      · exact h.logs.done hlog
      · exact hcue
      · exact h.sheets.gone
    · simp only [List.mem_cons, List.not_mem_nil, or_false, not_or] at hpath
      rw [h.others path ?_ ?_, htemp path hdir]
      · rintro (hw | hw | rfl)
        · exact hpath.1 hw
        · exact hpath.2.1 hw
        · cases hdir
      · rintro (hw | hw | ⟨_, -, rfl⟩ | ⟨_, rfl⟩)
        · exact hpath.2.2.1 hw
        · exact hpath.2.2.2 hw
        · cases hdir
        · cases hdir

/-- **What `Infos` holds.**  The log file is the first one that is converted, unless that one fails
later on; a sheet of a known name is the last of its name; and all the others are there under the
numbers from one on, in the order in which they were found.  Nothing else is made but temporary
files, and of these none is left, and the status is zero, exactly if no second log file was
converted and nothing failed where it leaves a file.  Where a directory cannot be made, nothing
happens. -/
theorem eacSanitize_collects {mkdir mktemp : Bool} (directoryName : List Char)
    (htemp : mktemp = true → NoTemp s)
    (hinfos : mkdir = true → ∀ path : Path, path.dir = .infos → s.lookup path = none)
    (hargs : ∀ arg ∈ args, Found arg) (hdisc : disc = discPostfix directoryName)
    (hrun : eacSanitize tools mkdir mktemp directoryName args s = (status, t)) :
    (mkdir = false → status = 1 ∧ t = s) ∧
      (mkdir = true → mktemp = false → status = 2 ∧ t = s) ∧
      (mkdir = true → mktemp = true →
        t.lookup (logPath disc) =
            (args.filterMap (logText tools s)).head?.bind (fun text =>
              (tools.stripped text).map trDelete) ∧
          (∀ name ∈ outTypes, t.lookup (cuePath disc name) =
            (args.filterMap (sheetOf tools s (some name))).getLast?) ∧
          (∀ k, t.lookup (cuePath disc (unknown (k + 1))) =
            (args.filterMap (sheetOf tools s none))[k]?) ∧
          (∀ path, ¬LogWritten disc path → ¬CueWritten disc path → t.lookup path = s.lookup path) ∧
          (status = 0 ↔
            LogsDone tools (args.filterMap (logText tools s)) ∧ SheetsDone tools s args)) := by
  refine ⟨?_, ?_, ?_⟩
  · rintro rfl
    cases hrun
    exact ⟨rfl, rfl⟩
  · rintro rfl rfl
    cases hrun
    exact ⟨rfl, rfl⟩
  rintro rfl rfl
  have hcollected := @collected_forEach tools disc s args (htemp rfl) (hinfos rfl) hargs
  have hloop : rmdirTemp (forEach (Audio.eacTurn tools disc) args s) = (status, t) := by
    rw [← hrun, eacSanitize, if_neg (by simp), if_neg (by simp), eacLoop_eq hargs, hdisc]
  have ht : forEach (Audio.eacTurn tools disc) args s = t := congrArg Prod.snd hloop
  rw [ht] at hcollected hloop
  have hstatus : (rmdirTemp t).1 = status := congrArg Prod.fst hloop
  refine ⟨hcollected.logs.collected, hcollected.sheets.known, hcollected.sheets.numbered,
    hcollected.others, ?_⟩
  rw [← hstatus, rmdirTemp_iff, hcollected.noTemp_iff (htemp rfl)]

end

/-- Every text is in UTF-16. -/
def wideTools : Tools where
  mime _ := "text/plain; charset=utf-16le".toList
  iconv _ content := (content, 0)
  stripUtf8bom content := (content, 0)

def albumLog : Path := ⟨.rip, "disc2/album.log".toList⟩
def oneCue : Path := ⟨.rip, "disc2/one.cue".toList⟩
def twoCue : Path := ⟨.rip, "disc2/two.cue".toList⟩

def sampleRip : Files :=
  (((∅ : Files).insert albumLog [0x41, 0x0d, 0x0a]).insert oneCue [0x42, 0x0d, 0x0a]).insert
    twoCue [0x43, 0x0d, 0x0a]

theorem lookup_sampleRip {path : Path} (hdir : path.dir ≠ .rip) : sampleRip.lookup path = none := by
  have hne : ∀ found : Path, found.dir = .rip → path ≠ found := by
    rintro found hfound rfl
    exact hdir hfound
  rw [sampleRip, AList.lookup_insert_ne (hne twoCue rfl), AList.lookup_insert_ne (hne oneCue rfl),
    AList.lookup_insert_ne (hne albumLog rfl), AList.lookup_empty]

/-- The two sheets get two numbers. -/
theorem eacSanitize_collects_sampleRip :
    ∃ status t, eacSanitize wideTools true true "disc2".toList [albumLog, oneCue, twoCue] sampleRip
        = (status, t) ∧
      t.lookup (logPath " Disc 2".toList) = some [0x41, 0x0a] ∧
      t.lookup (cuePath " Disc 2".toList (unknown 1)) = some [0x42, 0x0a] ∧
      t.lookup (cuePath " Disc 2".toList (unknown 2)) = some [0x43, 0x0a] := by
  refine ⟨_, _, rfl, ?_⟩
  obtain ⟨hlog, -, hnumbered, -⟩ := (@eacSanitize_collects wideTools " Disc 2".toList sampleRip
    _ [albumLog, oneCue, twoCue] _ true true "disc2".toList
    (fun _ path hdir => lookup_sampleRip (by rw [hdir]; decide))
    (fun _ path hdir => lookup_sampleRip (by rw [hdir]; decide))
    (by decide +kernel) (by decide) rfl).2.2 rfl rfl
  exact ⟨hlog.trans (by decide +kernel), (hnumbered 0).trans (by decide +kernel),
    (hnumbered 1).trans (by decide +kernel)⟩

end Audio
end TjTools
