/-
# From minutes, seconds and frames to bytes

`src/bashrc.d/51-regular-user.bash`: `msf_to_byte` (lines 506-572) takes its options in a loop, two
positional parameters at a time, makes its checks, and turns every line of its input, a time
`MM:SS:FF`, into the index of a byte; there are 75 frames in a second.

`shift 2` takes nothing where there are not two parameters left.  An option at the very end, with
no value, is then looked at again and again, and the loop does not end (`not_ends_of_bare`).  An
empty parameter in the place of an option ends the loop, and nothing behind it is looked at.  With
any other parameters, and where what is behind an empty one makes no difference, the function does
what they say (`msfToByte_iff`).

The lines of the input are ones without a backslash.  `bc` breaks its lines after `width` digits, as
`BC_LINE_LENGTH` has it.
-/

import Mathlib.Data.List.Induction
import Mathlib.Tactic.Ring
import Mathlib.Tactic.SplitIfs
import TjTools.Basis.Bash
import TjTools.Basis.Loop

namespace TjTools
namespace MsfToByte

open Bash Loop

inductive Opt where
  | sampleRate
  | bitrate
  | channels
  deriving DecidableEq

namespace Opt

def word : Opt → List Char
  | sampleRate => "--sample-rate".toList
  | bitrate => "--bitrate".toList
  | channels => "--channels".toList

/-- The branches of the `case`. -/
def ofWord (word : List Char) : Option Opt :=
  if word = "--sample-rate".toList then some sampleRate
  else if word = "--bitrate".toList then some bitrate
  else if word = "--channels".toList then some channels
  else none

theorem ofWord_word (o : Opt) : ofWord o.word = some o := by
  cases o with
  | sampleRate => decide
  | bitrate => decide
  | channels => decide

theorem ofWord_eq_some_iff {text : List Char} {o : Opt} : ofWord text = some o ↔ text = o.word := by
  constructor
  · intro h
    unfold ofWord at h
    split_ifs at h with hrate hbits hchannels
    · rw [← Option.some.inj h, hrate]
      rfl
    · rw [← Option.some.inj h, hbits]
      rfl
    · rw [← Option.some.inj h, hchannels]
      rfl
  · rintro rfl
    exact o.ofWord_word

theorem word_ne_nil (o : Opt) : o.word ≠ [] := by
  cases o with
  | sampleRate => decide
  | bitrate => decide
  | channels => decide

end Opt

/-- The variables of the options; one that is not set is empty. -/
structure Settings where
  sampleRate : List Char
  bitrate : List Char
  channels : List Char
  deriving DecidableEq

namespace Settings

def set (v : Settings) (value : List Char) : Opt → Settings
  | .sampleRate => { v with sampleRate := value }
  | .bitrate => { v with bitrate := value }
  | .channels => { v with channels := value }

end Settings

/-- What the loop leaves with: whether there was an error, and the variables. -/
structure Parsed where
  error : Bool
  settings : Settings
  deriving DecidableEq

/-- A turn of the loop over the positional parameters. -/
def turn : List (List Char) × Settings → Turn (List (List Char) × Settings) Parsed
  | (args, settings) =>
    let first := args.getD 0 []
    if first = [] then .leave ⟨false, settings⟩
    else
      match Opt.ofWord first with
      | some o => .again (shift 2 args, settings.set (args.getD 1 []) o)
      | none => .leave ⟨true, settings⟩

def start (args : List (List Char)) : List (List Char) × Settings := (args, ⟨[], [], []⟩)

/-- The test after the loop. -/
def Parsed.Usage (p : Parsed) : Prop :=
  p.error = true ∨ p.settings.sampleRate = [] ∨ p.settings.bitrate = [] ∨
    p.settings.channels = []

instance (p : Parsed) : Decidable p.Usage := by
  unfold Parsed.Usage
  infer_instance

/-- What is printed, and the status. -/
structure Result where
  output : List Char
  status : ℕ
  deriving DecidableEq

def usage : Result where
  output := echo ("Usage: msf_to_byte --sample-rate <rate in Hz> --bitrate <bits> " ++
    "--channels <number of channels>").toList
  status := 1

/-- A line of the input. -/
def toByte (settings : Settings) (frameSamples sampleBytes line : List Char) : Option ℕ :=
  let msfValue := trim line
  let minutes := cut ':' 1 msfValue
  let seconds := cut ':' 2 msfValue
  let frames := cut ':' 3 msfValue
  bc (.mul
    (.add
      (.mul (.add (.mul (.num minutes) (.num "60".toList)) (.num seconds))
        (.num settings.sampleRate))
      (.mul (.num frames) (.num frameSamples)))
    (.num sampleBytes))

/-- The checks and the conversion; `none` where `bc` is given something else than numbers. -/
def convert (width : ℕ) (settings : Settings) (input : List Char) : Option Result := do
  if (← bc (.mod (.num settings.bitrate) (.num "8".toList))) ≠ 0 then
    return ⟨echo "error: bitrate not a multiple of 8".toList, 2⟩
  if (← bc (.mod (.num settings.sampleRate) (.num "75".toList))) ≠ 0 then
    return ⟨echo "error: sample rate not a multiple of 75".toList, 3⟩
  let sampleBytes ← bc (.mul (.div (.num settings.bitrate) (.num "8".toList))
    (.num settings.channels))
  let frameSamples ← bc (.div (.num settings.sampleRate) (.num "75".toList))
  let bytes ← (readLines input).mapM
    (toByte settings (printed width frameSamples) (printed width sampleBytes))
  return ⟨unlines (bytes.map (printed width)), 0⟩

/-- What comes of the parameters, with an input. -/
def finish (width : ℕ) (p : Parsed) (input : List Char) : Option Result :=
  if p.Usage then some usage else convert width p.settings input

/-! ### The options -/

/-- The parameters that give options their values. -/
def given (pairs : List (Opt × List Char)) : List (List Char) :=
  pairs.flatMap fun pair => [pair.1.word, pair.2]

/-- The last value of an option. -/
def lastValue (o : Opt) (pairs : List (Opt × List Char)) : List Char :=
  ((pairs.filter (·.1 = o)).getLast?.map Prod.snd).getD []

/-- After options with their values comes an option without one, and nothing more. -/
def EndsBare (args : List (List Char)) : Prop :=
  ∃ pairs, ∃ o : Opt, args = given pairs ++ [o.word]

/-- The loop stops: there are no more parameters, an empty one, or one that is no option. -/
def Stops (args : List (List Char)) : Prop :=
  args.getD 0 [] = [] ∨ Opt.ofWord (args.getD 0 []) = none

theorem turn_given (o : Opt) (value : List Char) (rest : List (List Char)) (v : Settings) :
    turn (o.word :: value :: rest, v) = .again (rest, v.set value o) := by
  have hshift : shift 2 (o.word :: value :: rest) = rest := by
    rw [shift, if_pos (by rw [List.length_cons, List.length_cons]; omega)]
    rfl
  simp only [turn, List.getD_cons_zero, List.getD_cons_succ, if_neg o.word_ne_nil, o.ofWord_word,
    hshift]

/-- The last option has no value: nothing is taken off. -/
theorem turn_bare (o : Opt) (v : Settings) : turn ([o.word], v) = .again ([o.word], v.set [] o) := by
  have hshift : shift 2 [o.word] = [o.word] := by
    rw [shift, if_neg (by rw [List.length_singleton]; omega)]
  simp only [turn, List.getD_cons_zero, if_neg o.word_ne_nil, o.ofWord_word, hshift]
  rfl

theorem turn_stops {args : List (List Char)} (h : Stops args) (v : Settings) :
    ∃ error, turn (args, v) = .leave ⟨error, v⟩ ∧
      (error = true ↔ args.getD 0 [] ≠ []) := by
  unfold turn
  by_cases hnil : args.getD 0 [] = []
  · refine ⟨false, by simp only [if_pos hnil], ?_⟩
    exact iff_of_false Bool.false_ne_true fun hne => hne hnil
  · have hnone : Opt.ofWord (args.getD 0 []) = none := h.resolve_left hnil
    refine ⟨true, by simp only [if_neg hnil, hnone], ?_⟩
    exact iff_of_true rfl hnil

/-- **A bare option at the end is never left.** -/
theorem not_ends_of_bare {args : List (List Char)} (h : EndsBare args) (v : Settings)
    (p : Parsed) : ¬Ends turn (args, v) p := by
  refine not_ends_of_inv (fun s => EndsBare s.1) ?_ h p
  rintro ⟨args, v⟩ ⟨pairs, o, rfl⟩
  cases pairs with
  | nil => exact ⟨_, turn_bare o v, [], o, rfl⟩
  | cons pair pairs =>
    rcases pair with ⟨o', value⟩
    exact ⟨_, turn_given o' value _ v, pairs, o, rfl⟩

/-- Any parameters are options with values up to where the loop stops, or end in a bare option. -/
theorem exists_given (args : List (List Char)) :
    EndsBare args ∨ ∃ pairs rest, args = given pairs ++ rest ∧ Stops rest := by
  induction hlength : args.length using Nat.strongRecOn generalizing args with
  | ind n ih =>
    by_cases hstops : Stops args
    · exact .inr ⟨[], args, rfl, hstops⟩
    · obtain ⟨hnil, hsome⟩ := not_or.1 hstops
      obtain ⟨o, ho⟩ := Option.ne_none_iff_exists'.1 hsome
      have hword := Opt.ofWord_eq_some_iff.1 ho
      rcases args with _ | ⟨first, _ | ⟨value, rest⟩⟩
      · exact absurd rfl hnil
      · rw [show first = o.word from hword]
        exact .inl ⟨[], o, rfl⟩
      · rw [show first = o.word from hword]
        have hlt : rest.length < n := by
          rw [← hlength, List.length_cons, List.length_cons]
          omega
        rcases ih rest.length hlt rest rfl with ⟨pairs, o', rfl⟩ | ⟨pairs, rest', rfl, hrest'⟩
        · exact .inl ⟨(o, value) :: pairs, o', rfl⟩
        · exact .inr ⟨(o, value) :: pairs, rest', rfl, hrest'⟩

/-- The variables after the options of a list. -/
def Settings.setAll (v : Settings) (pairs : List (Opt × List Char)) : Settings :=
  pairs.foldl (fun v pair => v.set pair.2 pair.1) v

theorem ends_given (pairs : List (Opt × List Char)) {rest : List (List Char)} {v : Settings}
    {p : Parsed} (h : Ends turn (rest, v.setAll pairs) p) : Ends turn (given pairs ++ rest, v) p := by
  induction pairs generalizing v with
  | nil => exact h
  | cons pair pairs ih =>
    rcases pair with ⟨o, value⟩
    exact .again (turn_given o value _ v) (ih h)

theorem lastValue_concat (o : Opt) (pairs : List (Opt × List Char)) (pair : Opt × List Char) :
    lastValue o (pairs ++ [pair]) = if pair.1 = o then pair.2 else lastValue o pairs := by
  unfold lastValue
  by_cases h : pair.1 = o
  · simp [h]
  · simp [h]

/-- **The last value stays.** -/
theorem setAll_eq (pairs : List (Opt × List Char)) :
    (⟨[], [], []⟩ : Settings).setAll pairs =
      ⟨lastValue .sampleRate pairs, lastValue .bitrate pairs, lastValue .channels pairs⟩ := by
  induction pairs using List.reverseRecOn with
  | nil => rfl
  | append_singleton pairs pair ih =>
    have hlast : (⟨[], [], []⟩ : Settings).setAll (pairs ++ [pair]) =
        ((⟨[], [], []⟩ : Settings).setAll pairs).set pair.2 pair.1 := by
      simp [Settings.setAll]
    rw [hlast, ih, lastValue_concat, lastValue_concat, lastValue_concat]
    rcases pair with ⟨o, value⟩
    cases o with
    | sampleRate => rfl
    | bitrate => rfl
    | channels => rfl

/-! ### The numbers -/

/-- A natural number as it may be written, with zeros in front. -/
structure Numeral where
  text : List Char
  value : ℕ
  numeral_eq : numeral text = some value

/-- `MM:SS:FF` -/
structure Msf where
  minutes : Numeral
  seconds : Numeral
  frames : Numeral

def Msf.line (t : Msf) : List Char :=
  t.minutes.text ++ ':' :: (t.seconds.text ++ ':' :: t.frames.text)

theorem Numeral.not_mem (n : Numeral) {c : Char} (hc : c.isDigit = false) : c ∉ n.text := by
  intro hmem
  have hdigit := (numeral_eq_some_iff.1 n.numeral_eq).2.1 c hmem
  exact Bool.noConfusion (hc.symm.trans hdigit)

theorem Msf.not_blank (t : Msf) : ∀ c ∈ t.line, isBlank c = false := by
  have hnumeral : ∀ n : Numeral, ∀ c ∈ n.text, isBlank c = false := by
    intro n c hc
    exact isBlank_of_isDigit ((numeral_eq_some_iff.1 n.numeral_eq).2.1 c hc)
  intro c hc
  simp only [line, List.mem_append, List.mem_cons] at hc
  rcases hc with hc | rfl | hc | rfl | hc
  · exact hnumeral _ c hc
  · rfl
  · exact hnumeral _ c hc
  · rfl
  · exact hnumeral _ c hc

theorem Msf.newline_not_mem_line (t : Msf) : '\n' ∉ t.line := by
  intro hmem
  exact Bool.noConfusion (t.not_blank _ hmem)

theorem Msf.splitOn_line (t : Msf) :
    t.line.splitOn ':' = [t.minutes.text, t.seconds.text, t.frames.text] := by
  have hcolon : ∀ n : Numeral, ':' ∉ n.text := fun n => n.not_mem rfl
  rw [line, List.splitOn_append_cons_self_of_not_mem (hcolon _),
    List.splitOn_append_cons_self_of_not_mem (hcolon _), List.splitOn_eq_singleton (hcolon _)]

theorem Msf.cut_line (t : Msf) :
    cut ':' 1 t.line = t.minutes.text ∧ cut ':' 2 t.line = t.seconds.text ∧
      cut ':' 3 t.line = t.frames.text := by
  unfold cut
  rw [t.splitOn_line]
  exact ⟨rfl, rfl, rfl⟩

theorem toByte_line {settings : Settings} {rate : ℕ}
    (hrate : numeral settings.sampleRate = some rate) (width frameSamples sampleBytes : ℕ)
    (t : Msf) :
    toByte settings (printed width frameSamples) (printed width sampleBytes) t.line =
      some (((t.minutes.value * 60 + t.seconds.value) * rate + t.frames.value * frameSamples) *
        sampleBytes) := by
  have hsixty : bc (.num "60".toList) = some 60 := by decide
  obtain ⟨hminutes, hseconds, hframes⟩ := t.cut_line
  simp only [toByte, trim_of_not_blank t.not_blank, hminutes, hseconds, hframes]
  have hwhole := bc_add (bc_mul (bc_num t.minutes.numeral_eq) hsixty)
    (bc_num t.seconds.numeral_eq)
  have hpart := bc_mul (bc_num t.frames.numeral_eq) (bc_printed width frameSamples)
  exact bc_mul (bc_add (bc_mul hwhole (bc_num hrate)) hpart) (bc_printed width sampleBytes)

/-- With 75 frames in a second the samples of the frames are exact. -/
theorem byte_eq {rate bits : ℕ} (hbits : 8 ∣ bits) (hrate : 75 ∣ rate) (m s f channels : ℕ) :
    ((m * 60 + s) * rate + f * (rate / 75)) * (bits / 8 * channels) =
      ((m * 60 + s) * 75 + f) * (rate / 75) * (bits / 8) * channels := by
  obtain ⟨k, rfl⟩ := hrate
  obtain ⟨b, rfl⟩ := hbits
  rw [Nat.mul_div_cancel_left k (by decide), Nat.mul_div_cancel_left b (by decide)]
  ring

theorem toByte_lines {settings : Settings} {rate bits channels : ℕ}
    (hsampleRate : numeral settings.sampleRate = some rate) (hbits : 8 ∣ bits) (hrate : 75 ∣ rate)
    (width : ℕ) (times : List Msf) :
    (times.map Msf.line).mapM
        (toByte settings (printed width (rate / 75)) (printed width (bits / 8 * channels))) =
      some (times.map fun t => ((t.minutes.value * 60 + t.seconds.value) * 75 + t.frames.value) *
        (rate / 75) * (bits / 8) * channels) := by
  induction times with
  | nil => rfl
  | cons t times ih =>
    rw [List.map_cons, List.mapM_cons, toByte_line hsampleRate, byte_eq hbits hrate, ih]
    rfl

theorem convert_times {settings : Settings} {rate bits channels : ℕ}
    (hsampleRate : numeral settings.sampleRate = some rate)
    (hbitrate : numeral settings.bitrate = some bits)
    (hchannels : numeral settings.channels = some channels) (hbits : 8 ∣ bits) (hrate : 75 ∣ rate)
    (width : ℕ) (times : List Msf) :
    convert width settings (unlines (times.map Msf.line)) =
      some ⟨unlines (times.map fun t => printed width
        (((t.minutes.value * 60 + t.seconds.value) * 75 + t.frames.value) * (rate / 75) *
          (bits / 8) * channels)), 0⟩ := by
  have height : bc (.num "8".toList) = some 8 := by decide
  have hframes : bc (.num "75".toList) = some 75 := by decide
  have hbitsLeft : bits % 8 = 0 := Nat.mod_eq_zero_of_dvd hbits
  have hrateLeft : rate % 75 = 0 := Nat.mod_eq_zero_of_dvd hrate
  have hlines : ∀ line ∈ times.map Msf.line, '\n' ∉ line :=
    List.forall_mem_map.2 fun t _ => t.newline_not_mem_line
  unfold convert
  rw [bc_mod (bc_num hbitrate) height (by decide), bc_mod (bc_num hsampleRate) hframes (by decide),
    bc_mul (bc_div (bc_num hbitrate) height (by decide)) (bc_num hchannels),
    bc_div (bc_num hsampleRate) hframes (by decide), hbitsLeft, hrateLeft]
  simp only [Option.bind_eq_bind, Option.bind_some, ne_eq, not_true_eq_false, if_false,
    readLines_unlines hlines, toByte_lines hsampleRate hbits hrate, List.map_map]
  rfl

/-! ### What the parameters say -/

/-- What parameters say: whether an unknown option is among them, and the options with their
values. -/
structure Said where
  unknown : Bool
  pairs : List (Opt × List Char)

/-- An empty parameter is no option, and an option at the very end has an empty value. -/
def said : List (List Char) → Said
  | [] => ⟨false, []⟩
  | [word] =>
    if word = [] then ⟨false, []⟩
    else
      match Opt.ofWord word with
      | some o => ⟨false, [(o, [])]⟩
      | none => ⟨true, []⟩
  | word :: value :: args =>
    if word = [] then said (value :: args)
    else
      match Opt.ofWord word with
      | some o => ⟨(said args).unknown, (o, value) :: (said args).pairs⟩
      | none => ⟨true, []⟩

/-- Every option has a value that is not empty. -/
def Complete (pairs : List (Opt × List Char)) : Prop := ∀ o, lastValue o pairs ≠ []

/-- Usage is to be reported. -/
def Said.Usage (r : Said) : Prop := r.unknown = true ∨ ¬Complete r.pairs

/-- The last values of the options. -/
def lastValues (pairs : List (Opt × List Char)) : Settings :=
  ⟨lastValue .sampleRate pairs, lastValue .bitrate pairs, lastValue .channels pairs⟩

/-- After options with their values, `rest` makes no difference: where every option has got its
value, `rest` says nothing else; where one has not, usage is to be reported with `rest`, too. -/
def Idle (pairs : List (Opt × List Char)) (rest : List (List Char)) : Prop :=
  (Complete pairs → (said rest).unknown = false ∧
    ∀ o, lastValue o (pairs ++ (said rest).pairs) = lastValue o pairs) ∧
  (¬Complete pairs → (said rest).unknown = true ∨ ¬Complete (pairs ++ (said rest).pairs))

theorem said_empty (args : List (List Char)) : said ([] :: args) = said args := by
  cases args with
  | nil => rfl
  | cons value args => rw [said, if_pos rfl]

theorem said_given (pairs : List (Opt × List Char)) (rest : List (List Char)) :
    said (given pairs ++ rest) = ⟨(said rest).unknown, pairs ++ (said rest).pairs⟩ := by
  induction pairs with
  | nil => rfl
  | cons pair pairs ih =>
    rcases pair with ⟨o, value⟩
    have hgiven : given ((o, value) :: pairs) ++ rest = o.word :: value :: (given pairs ++ rest) :=
      rfl
    rw [hgiven, said, if_neg o.word_ne_nil, o.ofWord_word, ih]
    rfl

theorem said_unknown {word : List Char} (hne : word ≠ []) (h : Opt.ofWord word = none)
    (args : List (List Char)) : said (word :: args) = ⟨true, []⟩ := by
  cases args with
  | nil => simp only [said, if_neg hne, h]
  | cons value args => simp only [said, if_neg hne, h]

theorem complete_iff {pairs : List (Opt × List Char)} :
    Complete pairs ↔ ¬Parsed.Usage ⟨false, lastValues pairs⟩ := by
  simp only [Parsed.Usage, lastValues, Bool.false_eq_true, false_or, not_or]
  constructor
  · exact fun h => ⟨h _, h _, h _⟩
  · rintro ⟨hrate, hbits, hchannels⟩ o
    cases o with
    | sampleRate => exact hrate
    | bitrate => exact hbits
    | channels => exact hchannels

theorem lastValues_congr {pairs pairs' : List (Opt × List Char)}
    (h : ∀ o, lastValue o pairs = lastValue o pairs') : lastValues pairs = lastValues pairs' := by
  rw [lastValues, h, h, h, lastValues]

/-- What the loop leaves with is what the parameters say. -/
structure Heard (args : List (List Char)) (p : Parsed) : Prop where
  usage : p.Usage ↔ (said args).Usage
  settings : ¬(said args).Usage → p.settings = lastValues (said args).pairs

theorem ends_stops {rest : List (List Char)} (h : Stops rest) (pairs : List (Opt × List Char)) :
    ∃ error, Ends turn (start (given pairs ++ rest)) ⟨error, lastValues pairs⟩ ∧
      (error = true ↔ rest.getD 0 [] ≠ []) := by
  obtain ⟨error, hturn, herror⟩ := turn_stops h ((⟨[], [], []⟩ : Settings).setAll pairs)
  have hends := ends_given pairs (.leave hturn)
  rw [setAll_eq] at hends
  exact ⟨error, hends, herror⟩

/-- The loop stops at the end of the parameters, or at an empty one. -/
theorem ends_quiet {rest : List (List Char)} (h : rest.getD 0 [] = [])
    (pairs : List (Opt × List Char)) :
    Ends turn (start (given pairs ++ rest)) ⟨false, lastValues pairs⟩ := by
  obtain ⟨error, hends, herror⟩ := ends_stops (.inl h) pairs
  have hfalse : error = false := Bool.eq_false_iff.2 fun htrue => herror.1 htrue h
  rw [hfalse] at hends
  exact hends

/-- **Behind an empty parameter** the function does what it is told exactly if that makes no
difference. -/
theorem heard_empty_iff (pairs : List (Opt × List Char)) (rest : List (List Char)) :
    Heard (given pairs ++ [] :: rest) ⟨false, lastValues pairs⟩ ↔ Idle pairs rest := by
  have hsaid : said (given pairs ++ [] :: rest) =
      ⟨(said rest).unknown, pairs ++ (said rest).pairs⟩ := by
    rw [said_given, said_empty]
  constructor
  · rintro ⟨husage, hsettings⟩
    rw [hsaid] at husage hsettings
    constructor
    · intro hcomplete
      have hnot := mt husage.2 (complete_iff.1 hcomplete)
      have hvalues := hsettings hnot
      rw [Said.Usage, not_or, not_not, Bool.not_eq_true] at hnot
      refine ⟨hnot.1, fun o => ?_⟩
      simp only [lastValues, Settings.mk.injEq] at hvalues
      cases o with
      | sampleRate => exact hvalues.1.symm
      | bitrate => exact hvalues.2.1.symm
      | channels => exact hvalues.2.2.symm
    · intro hcomplete
      exact husage.1 (not_not.1 (mt complete_iff.2 hcomplete))
  · rintro ⟨hsame, hmissing⟩
    by_cases hcomplete : Complete pairs
    · obtain ⟨hknown, hvalues⟩ := hsame hcomplete
      have hnot : ¬(said (given pairs ++ [] :: rest)).Usage := by
        rw [hsaid, Said.Usage, not_or, not_not, Bool.not_eq_true]
        refine ⟨hknown, fun o => ?_⟩
        rw [hvalues o]
        exact hcomplete o
      refine ⟨iff_of_false (complete_iff.1 hcomplete) hnot, fun _ => ?_⟩
      rw [hsaid]
      exact lastValues_congr fun o => (hvalues o).symm
    · have husage : (said (given pairs ++ [] :: rest)).Usage := by
        rw [hsaid]
        exact hmissing hcomplete
      exact ⟨iff_of_true (not_not.1 (mt complete_iff.2 hcomplete)) husage,
        fun hnot => absurd husage hnot⟩

/-- Parameters that come to their end are heard. -/
theorem heard_given (pairs : List (Opt × List Char)) :
    Heard (given pairs ++ []) ⟨false, lastValues pairs⟩ := by
  have hsaid : said (given pairs ++ []) = ⟨false, pairs⟩ := by
    rw [said_given, said, List.append_nil]
  have husage : (said (given pairs ++ [])).Usage ↔ ¬Complete pairs := by
    rw [hsaid, Said.Usage]
    exact or_iff_right Bool.false_ne_true
  refine ⟨?_, fun _ => by rw [hsaid]⟩
  rw [husage, complete_iff, not_not]

/-- And so are those with an unknown option. -/
theorem heard_unknown (pairs : List (Opt × List Char)) {word : List Char} (hne : word ≠ [])
    (h : Opt.ofWord word = none) (rest : List (List Char)) :
    Heard (given pairs ++ word :: rest) ⟨true, lastValues pairs⟩ := by
  have husage : (said (given pairs ++ word :: rest)).Usage := by
    rw [said_given, said_unknown hne h]
    exact .inl rfl
  exact ⟨iff_of_true (.inl rfl) husage, fun hnot => absurd husage hnot⟩

/-- No option stands bare at the end, and what is behind an empty parameter makes no difference. -/
def Plain (args : List (List Char)) : Prop :=
  ¬EndsBare args ∧ ∀ pairs rest, args = given pairs ++ [] :: rest → Idle pairs rest

theorem heard_iff (args : List (List Char)) :
    (∃ p, Ends turn (start args) p ∧ Heard args p) ↔ Plain args := by
  constructor
  · rintro ⟨p, hends, hheard⟩
    refine ⟨fun hbare => not_ends_of_bare hbare _ p hends, ?_⟩
    rintro pairs rest rfl
    obtain rfl := hends.unique (ends_quiet rfl pairs)
    exact (heard_empty_iff pairs rest).1 hheard
  · rintro ⟨hbare, hidle⟩
    obtain ⟨pairs, rest, rfl, hrest⟩ := (exists_given args).resolve_left hbare
    match rest, hrest with
    | [], _ => exact ⟨_, ends_quiet rfl pairs, heard_given pairs⟩
    | [] :: rest, _ =>
      exact ⟨_, ends_quiet rfl pairs, (heard_empty_iff pairs rest).2 (hidle pairs rest rfl)⟩
    | (c :: word) :: rest, hrest =>
      have hne : c :: word ≠ [] := List.cons_ne_nil c word
      have hnone : Opt.ofWord (c :: word) = none := hrest.resolve_left hne
      obtain ⟨error, hends, herror⟩ := ends_stops hrest pairs
      obtain rfl : error = true := herror.2 hne
      exact ⟨_, hends, heard_unknown pairs hne hnone rest⟩

/-- **The function does what its parameters say, exactly where** no option stands bare at the end
and what is behind an empty parameter makes no difference. -/
theorem msfToByte_iff (args : List (List Char)) :
    (∃ p, Ends turn (start args) p ∧
      (p.Usage ↔ (said args).Usage) ∧
      (¬(said args).Usage → p.settings = lastValues (said args).pairs) ∧
      ∀ width,
        (p.Usage → ∀ input, finish width p input = some usage) ∧
        (¬p.Usage → ∀ input, finish width p input = convert width p.settings input) ∧
        (¬p.Usage → ∀ rate bits channels : Numeral,
          p.settings = ⟨rate.text, bits.text, channels.text⟩ → 8 ∣ bits.value → 75 ∣ rate.value →
            ∀ times : List Msf, finish width p (unlines (times.map Msf.line)) =
              some ⟨unlines (times.map fun t => printed width
                (((t.minutes.value * 60 + t.seconds.value) * 75 + t.frames.value) *
                  (rate.value / 75) * (bits.value / 8) * channels.value)), 0⟩)) ↔
      Plain args := by
  rw [← heard_iff]
  constructor
  · rintro ⟨p, hends, husage, hsettings, -⟩
    exact ⟨p, hends, husage, hsettings⟩
  · rintro ⟨p, hends, husage, hsettings⟩
    refine ⟨p, hends, husage, hsettings, fun width => ⟨?_, ?_, ?_⟩⟩
    · intro husage input
      exact if_pos husage
    · intro husage input
      exact if_neg husage
    · intro husage rate bits channels hsettings hbits hrate times
      rw [finish, if_neg husage]
      refine convert_times ?_ ?_ ?_ hbits hrate width times
      · rw [hsettings]
        exact rate.numeral_eq
      · rw [hsettings]
        exact bits.numeral_eq
      · rw [hsettings]
        exact channels.numeral_eq

/-- One bare option is enough. -/
theorem not_ends_channels : ¬∃ p, Ends turn (start ["--channels".toList]) p := by
  rintro ⟨p, hends⟩
  exact not_ends_of_bare ⟨[], .channels, rfl⟩ _ p hends

end MsfToByte
end TjTools
