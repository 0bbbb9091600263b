/-
# The texts of a rip, converted in place

`rip_sanitize` of `src/bashrc.d/53-audio-tools.bash` (lines 428-467) goes through the log files and
cue sheets of a directory.  Each is converted to UTF-8, loses its byte order mark and its carriage
returns, through three temporary files, and is replaced if all of that worked.

Every turn begins with a temporary directory that is empty, whatever became of the files before, so
what a file becomes depends on its own content alone (`Tools.converted`), and neither the order of
the files nor a failure among them matters (`ripSanitize_eq`).  That is so where the directory is
there and `mktemp` makes one, and for files that `find` prints once.

Names that `read` would change, for a backslash, a newline or blanks at an end, are left out.
-/

import TjTools.Audio.Text

namespace TjTools
namespace Audio

open Shell

def outUtf8 : Path := ⟨.temp, "out.utf8".toList⟩
def outNoBOM : Path := ⟨.temp, "out.noBOM".toList⟩
def outCrlf : Path := ⟨.temp, "out.crlf".toList⟩

def outFiles : List Path := [outUtf8, outNoBOM, outCrlf]

/-- The commands that are chained. -/
def ripChain (tools : Tools) (arg : Path) : Command Path Content :=
  (guessTextenc tools arg outUtf8).andThen (stripConvert tools outUtf8 outNoBOM outCrlf)

/-- The body of the loop. -/
def ripTurn (tools : Tools) (arg : Path) : Command Path Content := fun s =>
  let (errcode, s) := ripChain tools arg s
  let s := if errcode = 0 then (mv outCrlf arg s).2 else s
  -- `--force`: a missing file is no failure
  (0, remove outFiles s)

/-- `rmdir` of the temporary directory, which fails if there is a file in it. -/
def rmdirTemp : Command Path Content := fun s =>
  (if s.keys.any (·.dir = .temp) then 1 else 0, s)

/-- `rip_sanitize`: whether the directory is there, whether `mktemp` makes one, and what `find`
prints. -/
def ripSanitize (tools : Tools) (directory mktemp : Bool) (args : List Path) :
    Command Path Content := fun s =>
  if ¬directory then (1, s)
  else if ¬mktemp then (2, s)
  else rmdirTemp (forEach (ripTurn tools) args s)

/-! ### One file -/

/-- The encoding of a text: what `guess_textenc` writes, if it finds it out. -/
def Tools.guessed (tools : Tools) (content : Content) : Option Content :=
  let charset := charset (tools.mime content)
  if charset = "utf-8".toList then some content
  else if "iso-8859".toList <+: charset ∨ charset = "us-ascii".toList then
    some (tools.iconv charset content).1
  else
    (guesses.find? fun guess => (tools.iconv guess content).2 = 0).map fun guess =>
      (tools.iconv guess content).1

/-- What a text becomes, if it is converted. -/
def Tools.converted (tools : Tools) (content : Content) : Option Content :=
  (tools.guessed content).bind fun text => (tools.stripped text).map trDelete

def Tools.sanitized (tools : Tools) (content : Content) : Content :=
  (tools.converted content).getD content

/-- The temporary directory is empty. -/
def NoTemp (s : Files) : Prop := ∀ path : Path, path.dir = .temp → s.lookup path = none

section

variable {tools : Tools} {s : Files} {arg : Path}

theorem guessTextenc_guessed {content text : Content} {output : Path}
    (harg : s.lookup arg = some content) (houtput : s.lookup output = none)
    (h : tools.guessed content = some text) :
    guessTextenc tools arg output s = (0, s.insert output text) := by
  unfold Tools.guessed at h
  rw [guessTextenc, harg]
  simp only [houtput, Option.isSome_none, Bool.false_eq_true, if_false] at h ⊢
  split_ifs at h ⊢ with hutf8 hlatin
  · rw [Option.some.inj h]
  · rw [Option.some.inj h]
  · obtain ⟨guess, hguess, rfl⟩ := Option.map_eq_some_iff.1 h
    simp only [hguess]

theorem guessTextenc_failed {content : Content} {output : Path}
    (harg : s.lookup arg = some content) (houtput : s.lookup output = none)
    (h : tools.guessed content = none) : guessTextenc tools arg output s = (3, s) := by
  unfold Tools.guessed at h
  rw [guessTextenc, harg]
  simp only [houtput, Option.isSome_none, Bool.false_eq_true, if_false] at h ⊢
  split_ifs at h ⊢ with hutf8 hlatin
  rw [Option.map_eq_none_iff.1 h]

theorem only_ripChain (tools : Tools) (arg : Path) : Only (· ∈ outFiles) (ripChain tools arg) :=
  (only_guessTextenc (by simp [outFiles])).andThen
    (only_stripConvert (by simp [outFiles]) (by simp [outFiles]))

theorem ripChain_missing (harg : s.lookup arg = none) : (ripChain tools arg s).1 ≠ 0 := by
  have hguess : guessTextenc tools arg outUtf8 s = (1, s) := by rw [guessTextenc, harg]
  rw [ripChain, Command.andThen_of_failed hguess Nat.one_ne_zero]
  exact Nat.one_ne_zero

/-- The chain works exactly where the text is converted. -/
theorem ripChain_failed (hs : NoTemp s) {content : Content} (harg : s.lookup arg = some content)
    (h : tools.converted content = none) : (ripChain tools arg s).1 ≠ 0 := by
  unfold ripChain
  rcases hguessed : tools.guessed content with _ | text
  · have hguess := guessTextenc_failed harg (hs outUtf8 rfl) hguessed
    rw [Command.andThen_of_failed hguess (Nat.succ_ne_zero 2)]
    exact Nat.succ_ne_zero 2
  · rw [Command.andThen_of_ok (guessTextenc_guessed harg (hs outUtf8 rfl) hguessed)]
    have hstripped : tools.stripped text = none := by
      simpa [Tools.converted, hguessed] using h
    refine (stripConvert_failed (AList.lookup_insert s) hstripped ?_).1
    rw [AList.lookup_insert_ne (by decide)]
    exact hs outNoBOM rfl

theorem ripChain_converted (hs : NoTemp s) {content c : Content}
    (harg : s.lookup arg = some content) (h : tools.converted content = some c) :
    (ripChain tools arg s).1 = 0 ∧ (ripChain tools arg s).2.lookup outCrlf = some c := by
  obtain ⟨text, hguessed, hrest⟩ := Option.bind_eq_some_iff.1 h
  obtain ⟨stripped, hstripped, rfl⟩ := Option.map_eq_some_iff.1 hrest
  have hcrlf : (s.insert outUtf8 text).lookup outCrlf = none := by
    rw [AList.lookup_insert_ne (by decide)]
    exact hs outCrlf rfl
  rw [ripChain, Command.andThen_of_ok (guessTextenc_guessed harg (hs outUtf8 rfl) hguessed),
    stripConvert_ok (AList.lookup_insert s) hstripped (by decide) hcrlf]
  exact ⟨rfl, AList.lookup_insert _⟩

theorem dir_of_mem_outFiles {path : Path} (h : path ∈ outFiles) : path.dir = .temp := by
  simp only [outFiles, List.mem_cons, List.not_mem_nil, or_false] at h
  rcases h with rfl | rfl | rfl
  · rfl
  · rfl
  · rfl

/-- A turn in which nothing is moved. -/
theorem ripTurn_failed (h : (ripChain tools arg s).1 ≠ 0) {path : Path} (hpath : path ∉ outFiles) :
    (ripTurn tools arg s).2.lookup path = s.lookup path := by
  have hturn : (ripTurn tools arg s).2 = remove outFiles (ripChain tools arg s).2 := by
    rw [ripTurn]
    simp only [if_neg h]
  rw [hturn, lookup_remove, if_neg hpath, only_ripChain tools arg s path hpath]

theorem ripTurn_moved {c : Content} (h : (ripChain tools arg s).1 = 0)
    (hcrlf : (ripChain tools arg s).2.lookup outCrlf = some c) {path : Path}
    (hpath : path ∉ outFiles) :
    (ripTurn tools arg s).2.lookup path = if path = arg then some c else s.lookup path := by
  have hturn : (ripTurn tools arg s).2
      = remove outFiles (((ripChain tools arg s).2.erase outCrlf).insert arg c) := by
    rw [ripTurn]
    simp only [h, if_true, mv, hcrlf]
  rw [hturn, lookup_remove, if_neg hpath]
  split_ifs with harg
  · rw [harg, AList.lookup_insert]
  · have hne : path ≠ outCrlf := fun he => hpath (by simp [he, outFiles])
    rw [AList.lookup_insert_ne harg, AList.lookup_erase_ne hne,
      only_ripChain tools arg s path hpath]

/-- **One turn.**  The file is converted or stays what it is, and no other file is touched. -/
theorem ripTurn_lookup (hs : NoTemp s) (harg : arg.dir ≠ .temp) (path : Path) :
    (ripTurn tools arg s).2.lookup path =
      if path = arg then (s.lookup path).map tools.sanitized else s.lookup path := by
  by_cases hpath : path ∈ outFiles
  · have hdir := dir_of_mem_outFiles hpath
    have hne : path ≠ arg := fun he => harg (he ▸ hdir)
    rw [if_neg hne, hs path hdir]
    exact (lookup_remove outFiles _ path).trans (if_pos hpath)
  rcases hcontent : s.lookup arg with _ | content
  · rw [ripTurn_failed (ripChain_missing hcontent) hpath]
    split_ifs with hpatharg
    · rw [hpatharg, hcontent]
      rfl
    · rfl
  rcases hconverted : tools.converted content with _ | c
  · rw [ripTurn_failed (ripChain_failed hs hcontent hconverted) hpath]
    split_ifs with hpatharg
    · rw [hpatharg, hcontent, Option.map_some, Tools.sanitized, hconverted]
      rfl
    · rfl
  · obtain ⟨hok, hcrlf⟩ := ripChain_converted hs hcontent hconverted
    rw [ripTurn_moved hok hcrlf hpath]
    split_ifs with hpatharg
    · rw [hpatharg, hcontent, Option.map_some, Tools.sanitized, hconverted]
      rfl
    · rfl

theorem NoTemp.ripTurn (hs : NoTemp s) (harg : arg.dir ≠ .temp) :
    NoTemp (ripTurn tools arg s).2 := by
  intro path hdir
  have hne : path ≠ arg := fun he => harg (he ▸ hdir)
  rw [ripTurn_lookup hs harg, if_neg hne, hs path hdir]

end

/-! ### All files -/

section

variable {tools : Tools} {s : Files} {args : List Path}

theorem forEach_ripTurn (hs : NoTemp s) (hargs : ∀ arg ∈ args, arg.dir ≠ .temp)
    (hnodup : args.Nodup) :
    NoTemp (forEach (ripTurn tools) args s) ∧
      ∀ path, (forEach (ripTurn tools) args s).lookup path =
        if path ∈ args then (s.lookup path).map tools.sanitized else s.lookup path := by
  induction args generalizing s with
  | nil => exact ⟨hs, fun path => rfl⟩
  | cons arg args ih =>
    have harg := hargs arg List.mem_cons_self
    obtain ⟨hfresh, hnodup'⟩ := List.nodup_cons.1 hnodup
    obtain ⟨hempty, hlookup⟩ :=
      ih (hs.ripTurn harg) (fun a ha => hargs a (List.mem_cons_of_mem arg ha)) hnodup'
    refine ⟨hempty, fun path => ?_⟩
    refine (hlookup path).trans ?_
    rw [ripTurn_lookup hs harg]
    by_cases hpath : path = arg
    · subst hpath
      rw [if_neg hfresh, if_pos rfl, if_pos List.mem_cons_self]
    · rw [if_neg hpath]
      simp only [List.mem_cons, hpath, false_or]

theorem trDelete_clean (content : Content) : 0x0d ∉ trDelete content ∧ 0x1a ∉ trDelete content := by
  constructor
  · intro h
    have hkept := (List.mem_filter.1 h).2
    revert hkept
    decide
  · intro h
    have hkept := (List.mem_filter.1 h).2
    revert hkept
    decide

theorem sanitized_or (content : Content) :
    some content = some (tools.sanitized content) ∨
      0x0d ∉ tools.sanitized content ∧ 0x1a ∉ tools.sanitized content := by
  unfold Tools.sanitized
  cases h : tools.converted content with
  | none => exact .inl rfl
  | some c =>
    obtain ⟨text, -, hrest⟩ := Option.bind_eq_some_iff.1 h
    obtain ⟨stripped, -, rfl⟩ := Option.map_eq_some_iff.1 hrest
    exact .inr (trDelete_clean stripped)

theorem rmdirTemp_iff : (rmdirTemp s).1 = 0 ↔ NoTemp s := by
  have hone : (rmdirTemp s).1 = 0 ↔ s.keys.any (·.dir = .temp) = false := by
    rw [rmdirTemp]
    cases s.keys.any (·.dir = .temp) with
    | false => simp
    | true => simp
  rw [hone, List.any_eq_false]
  constructor
  · intro h path hdir
    refine AList.lookup_eq_none.2 fun hmem => ?_
    exact h path (AList.mem_keys.1 hmem) (decide_eq_true hdir)
  · intro h path hpath hdir
    have hnone := AList.lookup_eq_none.1 (h path (of_decide_eq_true hdir))
    exact hnone (AList.mem_keys.2 hpath)

/-- **Every file is converted on its own.**  `rip_sanitize` succeeds, leaves no temporary file, and
has made of each file what its content alone says; the rest is what it was.  A file that is not
what it was has no carriage return left. -/
theorem ripSanitize_eq (hs : NoTemp s) (hargs : ∀ arg ∈ args, arg.dir ≠ .temp)
    (hnodup : args.Nodup) :
    (ripSanitize tools true true args s).1 = 0 ∧
      NoTemp (ripSanitize tools true true args s).2 ∧
      (∀ path, (ripSanitize tools true true args s).2.lookup path =
        if path ∈ args then (s.lookup path).map tools.sanitized else s.lookup path) ∧
      ∀ path content, (ripSanitize tools true true args s).2.lookup path = some content →
        s.lookup path = some content ∨ 0x0d ∉ content ∧ 0x1a ∉ content := by
  obtain ⟨hempty, hlookup⟩ := @forEach_ripTurn tools s args hs hargs hnodup
  have hrun : ripSanitize tools true true args s = rmdirTemp (forEach (ripTurn tools) args s) := by
    rw [ripSanitize, if_neg (by simp), if_neg (by simp)]
  rw [hrun]
  refine ⟨rmdirTemp_iff.2 hempty, hempty, hlookup, fun path content hcontent => ?_⟩
  have hpath := (hlookup path).symm.trans hcontent
  split_ifs at hpath with hmem
  · obtain ⟨before, hbefore, rfl⟩ := Option.map_eq_some_iff.1 hpath
    rw [hbefore]
    exact sanitized_or before
  · exact .inl hpath

end

/-- Two files, of which one is converted. -/
def sampleTools : Tools where
  mime content := if content = [0] then "application/octet-stream; charset=binary".toList
    else "text/plain; charset=us-ascii".toList
  iconv encoding content := (content, if encoding = "us-ascii".toList then 0 else 1)
  stripUtf8bom content := (content, 0)

def sampleLog : Path := ⟨.rip, "disc1/album.log".toList⟩
def sampleCue : Path := ⟨.rip, "disc1/album.cue".toList⟩

def sampleFiles : Files :=
  ((∅ : Files).insert sampleLog [0x45, 0x41, 0x43, 0x0d, 0x0a]).insert sampleCue [0]

theorem noTemp_sampleFiles : NoTemp sampleFiles := by
  intro path hdir
  have hcue : path ≠ sampleCue := by
    rintro rfl
    cases hdir
  have hlog : path ≠ sampleLog := by
    rintro rfl
    cases hdir
  rw [sampleFiles, AList.lookup_insert_ne hcue, AList.lookup_insert_ne hlog, AList.lookup_empty]

/-- One file is converted, and one stays what it is. -/
theorem ripSanitize_eq_sampleFiles :
    (ripSanitize sampleTools true true [sampleLog, sampleCue] sampleFiles).1 = 0 ∧
      (ripSanitize sampleTools true true [sampleLog, sampleCue] sampleFiles).2.lookup sampleLog
        = some [0x45, 0x41, 0x43, 0x0a] ∧
      (ripSanitize sampleTools true true [sampleLog, sampleCue] sampleFiles).2.lookup sampleCue
        = some [0] := by
  have hrun := @ripSanitize_eq sampleTools sampleFiles [sampleLog, sampleCue] noTemp_sampleFiles
    (by decide) (by decide)
  obtain ⟨hstatus, -, hlookup, -⟩ := hrun
  exact ⟨hstatus, (hlookup sampleLog).trans (by decide +kernel),
    (hlookup sampleCue).trans (by decide +kernel)⟩

end Audio
end TjTools
