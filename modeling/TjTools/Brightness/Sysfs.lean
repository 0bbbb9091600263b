/-
# Finding the backlight

`src/src/brightness_utils/sysfs.h`: `lookup_backlight_node` (lines 136-159) goes through
`/sys/class/backlight` for a link whose name begins as the configuration says and whose device has
the vendor and the number that the configuration says (`identify_backlight`, lines 109-123).  The
device of a node is the first one along the links called `device` that has the files `class`,
`vendor` and `device` (`get_parent_device`, lines 59-77; `is_parent_device`, lines 42-50).

Both numbers are kept in 16 bits, those of the configuration as well as those of the files, so what
is found are the nodes whose numbers are the same modulo `2^16` (`lookupBacklightNode_sound_complete`);
any of them, depending on the order of the directory, and none only if there is none.  An attribute of
nothing but white space is where `rstrip` reads outside of its string, and nothing is said about it.
-/

import TjTools.Basis.Path
import TjTools.Brightness.Identity
import TjTools.Rstrip

namespace TjTools
namespace Brightness

open Numerals (isspace firstWord)
open Powerlimit (Json)
open Rstrip (Outcome)

/-- What is found under `/sys`.  A place is what a path leads to. -/
structure Sysfs (ν : Type) where
  /-- `fs::is_regular_file(path / name)` -/
  isRegularFile : ν → String → Bool
  /-- Where `path / "device"` leads, if it is a symbolic link. -/
  deviceLink : ν → Option ν
  /-- The text of `path / name`, if it can be opened. -/
  content : ν → String → Option String
  /-- The links called `device` come to an end. -/
  finite : WellFounded fun next place => deviceLink place = some next

/-- An entry of the directory. -/
structure Entry (ν : Type) where
  name : List Char
  isSymlink : Bool
  place : ν

def kSysfsBasePath : List Char := "/sys/class/backlight".toList

/-- `dir_entry.path()` -/
def Entry.path {ν : Type} (e : Entry ν) : List Char := Path.append kSysfsBasePath e.name

namespace Sysfs

variable {ν : Type} (t : Sysfs ν)

/-- `is_parent_device` -/
def isParentDevice (place : ν) : Bool :=
  ["class", "vendor", "device"].all (t.isRegularFile place)

/-- `get_parent_device` -/
def getParentDevice (place : ν) : Option ν :=
  if t.isParentDevice place then some place
  else
    match _hlink : t.deviceLink place with
    | none => none
    | some next => getParentDevice next
termination_by t.finite.wrap place
decreasing_by exact _hlink

/-- `read_sysfs` -/
def readSysfs (place : ν) (name : String) : Option Outcome :=
  (t.content place name).map fun text => BrightnessDaemon.rstrip (firstWord text.toList)

/-- The number in an attribute: `none` where its text is not one, or there is no text, and
`undefined` where `rstrip` is. -/
def attributeNumber (place : ν) (name : String) : Except Unit (Option ℤ) :=
  match t.readSysfs place name with
  | none => .ok none
  | some .readOutside => .error ()
  | some (.returned text) =>
    match stoiHex (String.ofList text) with
    | .error _ => .ok none
    | .ok number => .ok (some number)

/-- `identify_backlight` -/
def identifyBacklight (place : ν) (ident : BacklightIdentifier) : Except Unit Bool := do
  match ← t.attributeNumber place "vendor" with
  | none => return false
  | some vendor =>
    match ← t.attributeNumber place "device" with
    | none => return false
    | some device =>
      return UInt16.ofInt vendor == ident.vendorId && UInt16.ofInt device == ident.deviceId

/-- The loop of `lookup_backlight_node`. -/
def scan (ident : BacklightIdentifier) : List (Entry ν) → Except Unit (Option (List Char))
  | [] => return none
  | e :: es => do
    if ¬e.isSymlink then scan ident es
    else if ¬ident.backlightPrefix.toList.isPrefixOf e.name then scan ident es
    else
      match t.getParentDevice e.place with
      | none => scan ident es
      | some parent =>
        if ← t.identifyBacklight parent ident then return some e.path else scan ident es

/-- `lookup_backlight_node`, with the entries of the directory in the order they are listed in. -/
def lookupBacklightNode (ident : BacklightIdentifier) :
    Option (List (Entry ν)) → Except Unit (Option (List Char))
  | none => return none
  | some es => t.scan ident es

/-! ### What is looked for -/

/-- The nearest place along the links that has the files of a device. -/
inductive Nearest : ν → ν → Prop
  | here {place : ν} : t.isParentDevice place = true → Nearest place place
  | next {place next parent : ν} : t.isParentDevice place = false →
      t.deviceLink place = some next → Nearest next parent → Nearest place parent

/-- The text of the attribute denotes the number, but for its upper bits. -/
def Carries (place : ν) (name : String) (z : ℤ) : Prop :=
  ∃ text number, t.content place name = some text ∧ stoiHex text = .ok number ∧
    number % 2 ^ 16 = z % 2 ^ 16

/-- The node is one of those that are looked for. -/
def Matches (backlightPrefix : String) (vendor device : ℤ) (e : Entry ν) : Prop :=
  e.isSymlink = true ∧ backlightPrefix.toList <+: e.name ∧
    ∃ parent, t.Nearest e.place parent ∧ t.Carries parent "vendor" vendor ∧
      t.Carries parent "device" device

/-- The attributes of a vendor and of a device are not white space only. -/
def Written : Prop :=
  ∀ place name text, name = "vendor" ∨ name = "device" → t.content place name = some text →
    ∃ c ∈ text.toList, isspace c = false

/-! ### The device of a node -/

theorem getParentDevice_eq_some_iff {place parent : ν} :
    t.getParentDevice place = some parent ↔ t.Nearest place parent := by
  induction place using t.finite.induction with
  | h place ih =>
    rw [getParentDevice]
    by_cases hparent : t.isParentDevice place = true
    · rw [if_pos hparent]
      constructor
      · intro h
        rw [← Option.some.inj h]
        exact .here hparent
      · intro h
        cases h with
        | here _ => rfl
        | next hnot _ _ => cases hnot.symm.trans hparent
    · rw [if_neg hparent]
      split
      · rename_i hlink
        constructor
        · intro h
          cases h
        · intro h
          cases h with
          | here hhere => exact absurd hhere hparent
          | next _ hnext _ => cases hlink.symm.trans hnext
      · rename_i next hlink
        rw [ih next hlink]
        constructor
        · intro h
          exact .next (Bool.eq_false_iff.2 hparent) hlink h
        · intro h
          cases h with
          | here hhere => exact absurd hhere hparent
          | next _ hnext hrest =>
            obtain rfl := Option.some.inj (hlink.symm.trans hnext)
            exact hrest

end Sysfs

/-! ### The number of a text -/

theorem not_isspace_of_hexDigit {c : Char} (h : (hexDigit c).isSome = true) :
    isspace c = false := by
  unfold hexDigit at h
  split at h
  · rename_i hdigit
    exact Numerals.not_isspace_of_isDigit hdigit
  · have hlarge : 65 ≤ c.toNat := by
      split at h
      · rename_i hlower
        have hle : 97 ≤ c.toNat := hlower.1
        omega
      · split at h
        · rename_i hupper
          exact hupper.1
        · cases h
    have hblank : c ≠ ' ' := by
      rintro rfl
      revert hlarge
      decide
    simp only [isspace, Bool.or_eq_false_iff, Bool.and_eq_false_iff, decide_eq_false_iff_not]
    exact ⟨hblank, .inr (by omega)⟩

/-- The first word of what begins with one. -/
def uptoSpace (text : List Char) : List Char := text.takeWhile fun c => !isspace c

theorem leadingHexDigits_uptoSpace (text : List Char) :
    leadingHexDigits (uptoSpace text) = leadingHexDigits text := by
  have hdigits : (uptoSpace text).takeWhile (fun c => (hexDigit c).isSome) =
      text.takeWhile fun c => (hexDigit c).isSome := by
    rw [uptoSpace, List.takeWhile_takeWhile]
    congr 1
    funext c
    refine Bool.eq_iff_iff.2 ?_
    rw [decide_eq_true_eq]
    refine and_iff_left_of_imp ?_
    intro hc
    rw [not_isspace_of_hexDigit hc]
    rfl
  rw [leadingHexDigits, leadingHexDigits, hdigits]

/-- A text with `0x` in front of a digit. -/
def HasBase (text : List Char) : Prop :=
  ∃ x d rest, text = '0' :: x :: d :: rest ∧ (x = 'x' ∨ x = 'X') ∧ (hexDigit d).isSome = true

theorem skipBase_of_not {text : List Char} (h : ¬HasBase text) : skipBase text = text := by
  unfold skipBase
  split
  · rename_i x d rest
    rw [if_neg fun hbase => h ⟨x, d, rest, rfl, hbase.1, hbase.2⟩]
  · rfl

theorem leadingHexDigits_skipBase_uptoSpace (text : List Char) :
    leadingHexDigits (skipBase (uptoSpace text)) = leadingHexDigits (skipBase text) := by
  by_cases hbase : HasBase text
  · obtain ⟨x, d, rest, rfl, hx, hd⟩ := hbase
    have hdspace := not_isspace_of_hexDigit hd
    have hxspace : isspace x = false := by
      rcases hx with rfl | rfl
      · decide
      · decide
    have hword : uptoSpace ('0' :: x :: d :: rest) = '0' :: x :: uptoSpace (d :: rest) := by
      simp [uptoSpace, hxspace, show isspace '0' = false from by decide]
    have hrest : uptoSpace (d :: rest) = d :: uptoSpace rest := by
      simp [uptoSpace, hdspace]
    have hdigits := leadingHexDigits_uptoSpace (d :: rest)
    rw [hrest] at hdigits
    rw [hword, hrest]
    simp only [skipBase, if_pos (And.intro hx hd)]
    exact hdigits
  · have hword : ¬HasBase (uptoSpace text) := by
      rintro ⟨x, d, rest, heq, hx, hd⟩
      obtain ⟨more, hmore⟩ : uptoSpace text <+: text := List.takeWhile_prefix _
      rw [heq] at hmore
      exact hbase ⟨x, d, rest ++ more, hmore.symm, hx, hd⟩
    rw [skipBase_of_not hbase, skipBase_of_not hword, leadingHexDigits_uptoSpace]

/-- A number with its sign. -/
def signedHex (text : List Char) : Option ℤ :=
  match text with
  | '-' :: rest => (leadingHexDigits (skipBase rest)).map fun n => -(n : ℤ)
  | '+' :: rest => (leadingHexDigits (skipBase rest)).map fun n => (n : ℤ)
  | rest => (leadingHexDigits (skipBase rest)).map fun n => (n : ℤ)

theorem signedHex_uptoSpace (text : List Char) : signedHex (uptoSpace text) = signedHex text := by
  by_cases hminus : ∃ rest, text = '-' :: rest
  · obtain ⟨rest, rfl⟩ := hminus
    have hword : uptoSpace ('-' :: rest) = '-' :: uptoSpace rest := by
      simp [uptoSpace, show isspace '-' = false from by decide]
    rw [hword]
    simp only [signedHex, leadingHexDigits_skipBase_uptoSpace]
  · by_cases hplus : ∃ rest, text = '+' :: rest
    · obtain ⟨rest, rfl⟩ := hplus
      have hword : uptoSpace ('+' :: rest) = '+' :: uptoSpace rest := by
        simp [uptoSpace, show isspace '+' = false from by decide]
      rw [hword]
      simp only [signedHex, leadingHexDigits_skipBase_uptoSpace]
    · have hunsigned : ∀ l : List Char, (∀ rest, l ≠ '-' :: rest) → (∀ rest, l ≠ '+' :: rest) →
          signedHex l = (leadingHexDigits (skipBase l)).map fun n => (n : ℤ) := by
        intro l hm hp
        unfold signedHex
        split
        · exact absurd rfl (hm _)
        · exact absurd rfl (hp _)
        · rfl
      have hsign : ∀ sign, (¬∃ rest, text = sign :: rest) →
          ∀ rest, uptoSpace text ≠ sign :: rest := by
        intro sign hnot rest heq
        obtain ⟨more, hmore⟩ : uptoSpace text <+: text := List.takeWhile_prefix _
        rw [heq] at hmore
        exact hnot ⟨rest ++ more, hmore.symm⟩
      rw [hunsigned text (fun rest h => hminus ⟨rest, h⟩) fun rest h => hplus ⟨rest, h⟩,
        hunsigned _ (hsign '-' hminus) (hsign '+' hplus), leadingHexDigits_skipBase_uptoSpace]

/-- **The number is in the first word.** -/
theorem stoiHex_firstWord (text : String) :
    stoiHex (String.ofList (firstWord text.toList)) = stoiHex text := by
  have hstoi : ∀ s : String, stoiHex s =
      match signedHex (s.toList.dropWhile isspace) with
      | none => .error (.stoi .invalidArgument)
      | some z => if -2 ^ 31 ≤ z ∧ z < 2 ^ 31 then .ok z else .error (.stoi .outOfRange) :=
    fun _ => rfl
  have hword : firstWord text.toList = uptoSpace (text.toList.dropWhile isspace) := rfl
  have hstart : (uptoSpace (text.toList.dropWhile isspace)).dropWhile isspace =
      uptoSpace (text.toList.dropWhile isspace) := by
    cases h : text.toList.dropWhile isspace with
    | nil => rfl
    | cons c rest =>
      have hhead := List.head?_dropWhile_not isspace text.toList
      rw [h] at hhead
      have hc : isspace c = false := hhead
      simp [uptoSpace, hc]
  rw [hstoi, hstoi, String.toList_ofList, hword, hstart, signedHex_uptoSpace]

namespace Sysfs

variable {ν : Type} {t : Sysfs ν}

/-! ### The attributes -/

theorem firstWord_ne_nil {text : List Char} (h : ∃ c ∈ text, isspace c = false) :
    firstWord text ≠ [] := by
  obtain ⟨c, hc, hspace⟩ := h
  cases hrest : text.dropWhile isspace with
  | nil =>
    have hblank := List.dropWhile_eq_nil_iff.1 hrest c hc
    rw [hspace] at hblank
    cases hblank
  | cons first rest =>
    have hhead := List.head?_dropWhile_not isspace text
    rw [hrest] at hhead
    have hfirst : isspace first = false := hhead
    rw [firstWord, hrest, List.takeWhile_cons_of_pos (by rw [hfirst]; rfl)]
    exact List.cons_ne_nil _ _

theorem not_isspace_of_mem_firstWord {text : List Char} {c : Char} (h : c ∈ firstWord text) :
    isspace c = false := by
  have hword := List.mem_takeWhile_imp h
  simpa using hword

/-- Where the attributes are written `rstrip` does nothing, and a number is read off the text. -/
theorem attributeNumber_eq (h : t.Written) {name : String} (hname : name = "vendor" ∨ name = "device")
    (place : ν) : ∃ number, t.attributeNumber place name = .ok number ∧
      ∀ z, number = some z ↔ ∃ text, t.content place name = some text ∧ stoiHex text = .ok z := by
  unfold attributeNumber readSysfs
  cases hcontent : t.content place name with
  | none =>
    refine ⟨none, rfl, fun z => ?_⟩
    refine iff_of_false (fun hz => by cases hz) ?_
    rintro ⟨text, htext, -⟩
    cases htext
  | some text =>
    have hwritten := h place name text hname hcontent
    have hrstrip : BrightnessDaemon.rstrip (firstWord text.toList) =
        .returned (firstWord text.toList) :=
      Rstrip.rstrip_word (firstWord_ne_nil hwritten) fun c hc => not_isspace_of_mem_firstWord hc
    rw [Option.map_some, hrstrip]
    simp only [stoiHex_firstWord]
    cases hnumber : stoiHex text with
    | error e =>
      refine ⟨none, rfl, fun z => ?_⟩
      refine iff_of_false (fun hz => by cases hz) ?_
      rintro ⟨text', htext, hz⟩
      rw [← Option.some.inj htext, hnumber] at hz
      cases hz
    | ok number =>
      refine ⟨some number, rfl, fun z => ?_⟩
      constructor
      · intro hz
        exact ⟨text, rfl, hnumber.trans (congrArg Except.ok (Option.some.inj hz))⟩
      · rintro ⟨text', htext, hz⟩
        rw [← Option.some.inj htext, hnumber] at hz
        exact congrArg some (Except.ok.inj hz)

theorem ofInt_eq_ofInt_iff (y z : ℤ) :
    UInt16.ofInt y = UInt16.ofInt z ↔ y % 2 ^ 16 = z % 2 ^ 16 := by
  have htoNat : ∀ x : ℤ, (UInt16.ofInt x).toNat = (x % 2 ^ 16).toNat := by
    intro x
    refine UInt16.toNat_ofNat_of_lt' ?_
    show (x % 2 ^ 16).toNat < 65536
    omega
  rw [← UInt16.toNat_inj, htoNat, htoNat]
  omega

variable {backlightPrefix : String} {vendor device : ℤ}

theorem carries_iff {place : ν} {name : String} {number : Option ℤ} {z : ℤ}
    (h : ∀ n, number = some n ↔ ∃ text, t.content place name = some text ∧ stoiHex text = .ok n) :
    t.Carries place name z ↔ ∃ n, number = some n ∧ n % 2 ^ 16 = z % 2 ^ 16 := by
  constructor
  · rintro ⟨text, n, hcontent, hn, hmod⟩
    exact ⟨n, (h n).2 ⟨text, hcontent, hn⟩, hmod⟩
  · rintro ⟨n, hn, hmod⟩
    obtain ⟨text, hcontent, hstoi⟩ := (h n).1 hn
    exact ⟨text, n, hcontent, hstoi, hmod⟩

theorem identifyBacklight_eq (h : t.Written) (place : ν) : ∃ found,
    t.identifyBacklight place ⟨backlightPrefix, UInt16.ofInt vendor, UInt16.ofInt device⟩ =
      .ok found ∧
    (found = true ↔ t.Carries place "vendor" vendor ∧ t.Carries place "device" device) := by
  obtain ⟨vendorNumber, hvendor, hvendorText⟩ := attributeNumber_eq h (.inl rfl) place
  obtain ⟨deviceNumber, hdevice, hdeviceText⟩ := attributeNumber_eq h (.inr rfl) place
  unfold identifyBacklight
  rw [hvendor, hdevice, carries_iff hvendorText, carries_iff hdeviceText]
  cases vendorNumber with
  | none =>
    refine ⟨false, rfl, iff_of_false Bool.false_ne_true ?_⟩
    rintro ⟨⟨n, hn, -⟩, -⟩
    cases hn
  | some v =>
    cases deviceNumber with
    | none =>
      refine ⟨false, rfl, iff_of_false Bool.false_ne_true ?_⟩
      rintro ⟨-, n, hn, -⟩
      cases hn
    | some d =>
      refine ⟨_, rfl, ?_⟩
      rw [Bool.and_eq_true, beq_iff_eq, beq_iff_eq, ofInt_eq_ofInt_iff, ofInt_eq_ofInt_iff]
      simp only [Option.some.injEq, exists_eq_left']

/-! ### The directory -/

/-- What the search is to come to, in a list of entries. -/
def Found (t : Sysfs ν) (backlightPrefix : String) (vendor device : ℤ) (es : List (Entry ν))
    (result : Option (List Char)) : Prop :=
  (∀ p, result = some p →
    ∃ e ∈ es, p = e.path ∧ t.Matches backlightPrefix vendor device e) ∧
  (result = none → ∀ e ∈ es, ¬t.Matches backlightPrefix vendor device e)

/-- An entry that is not looked for is passed over. -/
theorem Found.cons {es : List (Entry ν)} {result : Option (List Char)}
    (h : t.Found backlightPrefix vendor device es result) {e : Entry ν}
    (he : ¬t.Matches backlightPrefix vendor device e) :
    t.Found backlightPrefix vendor device (e :: es) result := by
  refine ⟨?_, ?_⟩
  · intro p hp
    obtain ⟨e', he', hpath, hmatches⟩ := h.1 p hp
    exact ⟨e', List.mem_cons_of_mem _ he', hpath, hmatches⟩
  · intro hnone
    exact List.forall_mem_cons.2 ⟨he, h.2 hnone⟩

theorem not_matches_of_getParentDevice {e : Entry ν} (h : t.getParentDevice e.place = none) :
    ¬t.Matches backlightPrefix vendor device e := by
  rintro ⟨-, -, parent, hnearest, -⟩
  rw [(getParentDevice_eq_some_iff t).2 hnearest] at h
  cases h

/-- A node has one parent device. -/
theorem matches_iff_of_getParentDevice {e : Entry ν} {parent : ν}
    (h : t.getParentDevice e.place = some parent) :
    t.Matches backlightPrefix vendor device e ↔
      e.isSymlink = true ∧ backlightPrefix.toList <+: e.name ∧
        t.Carries parent "vendor" vendor ∧ t.Carries parent "device" device := by
  constructor
  · rintro ⟨hsymlink, hprefix, parent', hnearest, hcarries⟩
    rw [(getParentDevice_eq_some_iff t).2 hnearest] at h
    obtain rfl := Option.some.inj h
    exact ⟨hsymlink, hprefix, hcarries⟩
  · rintro ⟨hsymlink, hprefix, hcarries⟩
    exact ⟨hsymlink, hprefix, parent, (getParentDevice_eq_some_iff t).1 h, hcarries⟩

theorem scan_found (h : t.Written) (es : List (Entry ν)) : ∃ result,
    t.scan ⟨backlightPrefix, UInt16.ofInt vendor, UInt16.ofInt device⟩ es = .ok result ∧
      t.Found backlightPrefix vendor device es result := by
  induction es with
  | nil =>
    refine ⟨none, rfl, ?_, ?_⟩
    · intro p hp
      cases hp
    · intro _ e he
      cases he
  | cons e es ih =>
    obtain ⟨result, hresult, hfound⟩ := ih
    rw [scan]
    by_cases hsymlink : e.isSymlink = true
    · rw [if_neg (not_not.2 hsymlink)]
      by_cases hname : backlightPrefix.toList.isPrefixOf e.name = true
      · rw [if_neg (not_not.2 hname)]
        cases hparent : t.getParentDevice e.place with
        | none => exact ⟨result, hresult, hfound.cons (not_matches_of_getParentDevice hparent)⟩
        | some parent =>
          have hmatches := @matches_iff_of_getParentDevice _ t backlightPrefix vendor device
            e parent hparent
          obtain ⟨found, hidentify, hiff⟩ := identifyBacklight_eq h parent
          show ∃ result, (t.identifyBacklight parent _ >>= fun found =>
            if found = true then pure (some e.path) else t.scan _ es) = .ok result ∧ _
          rw [hidentify]
          cases found with
          | true =>
            refine ⟨some e.path, rfl, ?_, fun hnone => by cases hnone⟩
            intro p hp
            have he := hmatches.2 ⟨hsymlink, List.isPrefixOf_iff_prefix.1 hname, hiff.1 rfl⟩
            exact ⟨e, List.mem_cons_self, (Option.some.inj hp).symm, he⟩
          | false =>
            refine ⟨result, hresult, hfound.cons ?_⟩
            intro he
            exact Bool.false_ne_true (hiff.2 (hmatches.1 he).2.2)
      · rw [if_pos hname]
        refine ⟨result, hresult, hfound.cons ?_⟩
        rintro ⟨-, hprefix, -⟩
        exact hname (List.isPrefixOf_iff_prefix.2 hprefix)
    · rw [if_pos hsymlink]
      exact ⟨result, hresult, hfound.cons fun hmatches => hsymlink hmatches.1⟩

/-- The strings of a configuration that was accepted. -/
theorem exists_of_parse {data : Json} {ident : BacklightIdentifier}
    (h : BacklightIdentifier.parse data = .ok ident) :
    ∃ backlightPrefix vendorId deviceId vendor device,
      atKey "prefix" data = .ok (.string backlightPrefix) ∧
      atKey "vendor-id" data = .ok (.string vendorId) ∧ stoiHex vendorId = .ok vendor ∧
      atKey "device-id" data = .ok (.string deviceId) ∧ stoiHex deviceId = .ok device ∧
      ident = ⟨backlightPrefix, UInt16.ofInt vendor, UInt16.ofInt device⟩ := by
  have hstring : ∀ {value : Json} {s : String}, getString value = .ok s → value = .string s := by
    intro value s hs
    cases value with
    | string s' =>
      rw [getString] at hs
      rw [Except.ok.inj hs]
    | _ => cases hs
  obtain ⟨prefixValue, hprefix, h⟩ := bind_eq_ok.1 h
  obtain ⟨backlightPrefix, hprefixString, h⟩ := bind_eq_ok.1 h
  obtain ⟨vendorValue, hvendor, h⟩ := bind_eq_ok.1 h
  obtain ⟨vendorId, hvendorString, h⟩ := bind_eq_ok.1 h
  obtain ⟨vendor, hvendorNumber, h⟩ := bind_eq_ok.1 h
  obtain ⟨deviceValue, hdevice, h⟩ := bind_eq_ok.1 h
  obtain ⟨deviceId, hdeviceString, h⟩ := bind_eq_ok.1 h
  obtain ⟨device, hdeviceNumber, h⟩ := bind_eq_ok.1 h
  rw [hstring hprefixString] at hprefix
  rw [hstring hvendorString] at hvendor
  rw [hstring hdeviceString] at hdevice
  exact ⟨backlightPrefix, vendorId, deviceId, vendor, device, hprefix, hvendor, hvendorNumber,
    hdevice, hdeviceNumber, (Except.ok.inj h).symm⟩

/-- A node, and its device. -/
def sample : Sysfs Bool where
  isRegularFile place name := place && ["class", "vendor", "device"].contains name
  deviceLink place := if place then none else some true
  content place name :=
    if place then
      if name = "vendor" then some "0x1002\n" else if name = "device" then some "0x15d8\n" else none
    else none
  finite := by
    have hdevice : Acc (fun next place => (if place then none else some true) = some next) true :=
      ⟨_, fun next hnext => by cases hnext⟩
    refine ⟨fun place => ?_⟩
    cases place with
    | true => exact hdevice
    | false => exact ⟨_, fun next hnext => Option.some.inj hnext ▸ hdevice⟩

def sampleEntry : Entry Bool := ⟨"amdgpu_bl0".toList, true, false⟩

def sampleData (vendorId : String) : Json :=
  .object [("prefix", .string "amdgpu_bl"), ("vendor-id", .string vendorId),
    ("device-id", .string "15d8")]

theorem written_sample : sample.Written := by
  intro place name text hname hcontent
  cases place with
  | false => cases hcontent
  | true =>
    rcases hname with rfl | rfl
    · rw [← Option.some.inj hcontent]
      exact ⟨'0', by decide, rfl⟩
    · rw [← Option.some.inj hcontent]
      exact ⟨'0', by decide, rfl⟩

theorem nearest_sample : sample.Nearest false true := .next rfl rfl (.here rfl)

end Sysfs
end Brightness
end TjTools
