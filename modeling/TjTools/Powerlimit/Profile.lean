/-
# Power limits

`LimitProfile` and `LimitConfig` of `src/src/cpu_powerlimit.cpp` (lines 23-138), and what
`main` makes of its arguments before it takes the lock (lines 142-202).  A `float` is a
rational number, without rounding, and neither infinite nor not a number.  `lround`
rounds half away from zero; where the result does not fit a `long` it is the smallest one.

The options and numbers of a profile, `settings`, are the arguments `apply` runs
`ryzenadj` with, and what the limits in force are when it succeeds.
-/

import Mathlib.Algebra.Ring.Int.Defs
import Mathlib.Data.Rat.Defs
import Mathlib.Logic.Function.Basic

namespace TjTools
namespace Powerlimit

def ENOENT : ℕ := 2
def EACCES : ℕ := 13
def EFAULT : ℕ := 14
def EINVAL : ℕ := 22

inductive Error where
  /-- `std::system_error` -/
  | system (code : ℕ)
  /-- An exception of the JSON library. -/
  | json
  /-- `std::out_of_range` -/
  | outOfRange
  deriving DecidableEq, Repr

/-- `kPowerlimitTDPBounds` -/
def kPowerlimitTDPBounds : ℚ × ℚ := (8, 54)

def lround (value : ℚ) : ℤ :=
  let rounded := if 0 ≤ value then (value + 1 / 2).floor else (value - 1 / 2).ceil
  if -2 ^ 63 ≤ rounded ∧ rounded < 2 ^ 63 then rounded else -2 ^ 63

/-- `limit_scale`: the number whose text it returns. -/
def limitScale (value : ℚ) : ℕ := (lround (value * 1000) % 2 ^ 32).toNat

/-- `bounds_check` -/
def boundsCheck (value : ℚ) : Bool :=
  value ≥ kPowerlimitTDPBounds.1 && value ≤ kPowerlimitTDPBounds.2

/-! ### JSON -/

/-- A parsed document.  The keys of an object are distinct. -/
inductive Json where
  | null
  | boolean (b : Bool)
  | number (value : ℚ)
  | string (s : String)
  | array (elements : List Json)
  | object (fields : List (String × Json))

namespace Json

/-- `at(key)` -/
def atKey (key : String) : Json → Except Error Json
  | object fields =>
    match fields.lookup key with
    | some value => .ok value
    | none => .error .json
  | _ => .error .json

/-- `get<float>()` -/
def getFloat : Json → Except Error ℚ
  | number value => .ok value
  | boolean b => .ok (if b then 1 else 0)
  | _ => .error .json

/-- `items()` -/
def items : Json → List (String × Json)
  | null => []
  | object fields => fields
  | array elements => elements.zipIdx.map fun (value, i) => (toString i, value)
  | value => [("", value)]

end Json

/-! ### Profiles -/

/-- What `ryzenadj` is told to set. -/
inductive Limit where
  | stapm
  | fast
  | slow
  | tctl
  deriving DecidableEq, Repr

def Limit.option : Limit → String
  | .stapm => "--stapm-limit="
  | .fast => "--fast-limit="
  | .slow => "--slow-limit="
  | .tctl => "--tctl-temp="

/-- The limits in force. -/
abbrev Limits := Limit → ℕ

/-- The limits after a run of `ryzenadj` that succeeds. -/
def Limits.set (settings : List (Limit × ℕ)) (limits : Limits) : Limits :=
  settings.foldl (fun limits setting => Function.update limits setting.1 setting.2) limits

structure LimitProfile where
  stapmLimit : ℚ := -1
  fastLimit : ℚ := -1
  slowLimit : ℚ := -1
  tctlTemp : Option ℚ := none
  deriving DecidableEq

namespace LimitProfile

def settings (p : LimitProfile) : List (Limit × ℕ) :=
  [(.stapm, limitScale p.stapmLimit), (.fast, limitScale p.fastLimit),
    (.slow, limitScale p.slowLimit)]
    ++ (p.tctlTemp.map fun tctlTemp => (.tctl, limitScale tctlTemp)).toList

/-- The arguments of `ryzenadj` in `apply`. -/
def args (p : LimitProfile) : List String :=
  p.settings.map fun (limit, value) => limit.option ++ toString value

/-- `parse` -/
def parse (input : Json) : Except Error LimitProfile := do
  let stapmLimit ← (← input.atKey "stapm_limit").getFloat
  let fastLimit ← (← input.atKey "fast_limit").getFloat
  let slowLimit ← (← input.atKey "slow_limit").getFloat
  let tctlTemp ← (← input.atKey "tctl_temp").getFloat
  return ⟨stapmLimit, fastLimit, slowLimit, some tctlTemp⟩

/-- `fromTDP`, which checks its arguments and leaves the profile as it is. -/
def fromTDP (tdp fastMultiplier slowMultiplier : ℚ) (p : LimitProfile) :
    Except Error LimitProfile :=
  let fast := tdp * fastMultiplier
  let slow := tdp * slowMultiplier
  if !boundsCheck tdp || !boundsCheck fast || !boundsCheck slow then .error (.system EINVAL)
  else .ok p

/-- The limits in force are those of the profile. -/
def InForce (p : LimitProfile) (limits : Limits) : Prop :=
  ∀ setting ∈ p.settings, limits setting.1 = setting.2

instance (p : LimitProfile) (limits : Limits) : Decidable (p.InForce limits) :=
  inferInstanceAs (Decidable (∀ setting ∈ p.settings, _))

/-- **A profile that was applied is in force**, whatever was before. -/
theorem inForce_set (p : LimitProfile) (limits : Limits) : p.InForce (limits.set p.settings) := by
  intro setting hsetting
  rcases p with ⟨stapmLimit, fastLimit, slowLimit, _ | tctlTemp⟩
  all_goals
    simp only [settings, Option.map_none, Option.map_some, Option.toList_none, Option.toList_some,
      List.cons_append, List.nil_append, List.append_nil, List.mem_cons, List.not_mem_nil,
      or_false] at hsetting
    simp only [settings, Limits.set, Option.map_none, Option.map_some, Option.toList_none,
      Option.toList_some, List.cons_append, List.nil_append, List.append_nil, List.foldl_cons,
      List.foldl_nil]
  · rcases hsetting with rfl | rfl | rfl
    all_goals simp
  · rcases hsetting with rfl | rfl | rfl | rfl
    all_goals simp

end LimitProfile

/-! ### The configuration -/

/-- What there is at `kConfigPath`. -/
inductive ConfigFile where
  /-- No regular file. -/
  | missing
  | unreadable
  /-- A text that is not JSON. -/
  | malformed
  | parsed (configData : Json)

/-- A configuration that was read: there is a default profile. -/
structure LimitConfig where
  fastMultiplier : ℚ
  slowMultiplier : ℚ
  profiles : List (String × LimitProfile)
  hasDefault : (profiles.lookup "default").isSome = true

/-- The loop of `read`. -/
def parseProfiles : (items : List (String × Json)) →
    Except Error { profiles : List (String × LimitProfile) //
      profiles.map Prod.fst = items.map Prod.fst }
  | [] => .ok ⟨[], rfl⟩
  | (profileName, value) :: items => do
    let limitProfile ← LimitProfile.parse value
    let ⟨profiles, hnames⟩ ← parseProfiles items
    return ⟨(profileName, limitProfile) :: profiles, by simp [hnames]⟩

theorem lookup_isSome_of_mem {profiles : List (String × LimitProfile)} {name : String}
    (h : name ∈ profiles.map Prod.fst) : (profiles.lookup name).isSome = true := by
  rw [List.lookup_isSome_iff]
  simpa using h

namespace LimitConfig

/-- `read` -/
def read : ConfigFile → Except Error LimitConfig
  | .missing => .error (.system ENOENT)
  | .unreadable => .error (.system EACCES)
  | .malformed => .error .json
  | .parsed configData => do
    let fastMultiplier ← (← configData.atKey "fast_multiplier").getFloat
    let slowMultiplier ← (← configData.atKey "slow_multiplier").getFloat
    let items := (← configData.atKey "profiles").items
    let ⟨profiles, hnames⟩ ← parseProfiles items
    if hdefault : "default" ∈ items.map Prod.fst then
      return ⟨fastMultiplier, slowMultiplier, profiles,
        lookup_isSome_of_mem (by rw [hnames]; exact hdefault)⟩
    else throw (.system EINVAL)

/-- `profiles.at(profile)` -/
def profileAt (cfg : LimitConfig) (profile : String) : Except Error LimitProfile :=
  match cfg.profiles.lookup profile with
  | some limitProfile => .ok limitProfile
  | none => .error .outOfRange

/-- `def_profile` -/
def defProfile (cfg : LimitConfig) : LimitProfile :=
  (cfg.profiles.lookup "default").get cfg.hasDefault

theorem profileAt_default (cfg : LimitConfig) : cfg.profileAt "default" = .ok cfg.defProfile := by
  obtain ⟨defProfile, hlookup⟩ := Option.isSome_iff_exists.1 cfg.hasDefault
  simp only [profileAt, LimitConfig.defProfile, hlookup, Option.get_some]

end LimitConfig

/-! ### The arguments of `main` -/

structure Args where
  help : Bool := false
  init : Bool := false
  profile : Option String := none
  tdp : Option ℚ := none

/-- How `main` can end before it takes the lock. -/
inductive Exit where
  | status (code : ℕ)
  | threw (e : Error)
  deriving DecidableEq, Repr

/-- A failure of what `main` calls leaves it. -/
def Exit.ofExcept {α : Type} : Except Error α → Except Exit α
  | .ok a => .ok a
  | .error e => .error (.threw e)

/-- What `main` has when it comes to the lock. -/
structure Job where
  defProfile : LimitProfile
  limitProfile : LimitProfile
  isInit : Bool

/-- `main` up to the lock. -/
def prologue (file : ConfigFile) (args : Args) : Except Exit Job := do
  if args.help then throw (.status 0)
  let limitConfig ← Exit.ofExcept (LimitConfig.read file)
  let defProfile ← Exit.ofExcept (limitConfig.profileAt "default")
  if args.init then return ⟨defProfile, defProfile, true⟩
  match args.profile, args.tdp with
  | some profile, _ =>
    let limitProfile ← Exit.ofExcept (limitConfig.profileAt profile)
    return ⟨defProfile, limitProfile, false⟩
  | none, some tdp =>
    let limitProfile ← Exit.ofExcept
      (LimitProfile.fromTDP tdp limitConfig.fastMultiplier limitConfig.slowMultiplier {})
    return ⟨defProfile, limitProfile, false⟩
  | none, none => throw (.status 1)

/-- With a configuration that can be read, `main` has its default profile, and applies it
for `--init`. -/
theorem prologue_spec {file : ConfigFile} {cfg : LimitConfig} {args : Args} {job : Job}
    (hread : LimitConfig.read file = .ok cfg) (h : prologue file args = .ok job) :
    job.defProfile = cfg.defProfile ∧ (job.isInit = true → job.limitProfile = cfg.defProfile) := by
  obtain ⟨help, init, profile, tdp⟩ := args
  unfold prologue at h
  rw [hread] at h
  simp only [Exit.ofExcept, cfg.profileAt_default, bind, Except.bind, pure, Except.pure] at h
  cases help with
  | true => cases h
  | false =>
  cases init with
  | true =>
    cases h
    exact ⟨rfl, fun _ => rfl⟩
  | false =>
  cases profile with
  | some profile =>
    rcases hat : cfg.profileAt profile with e | p
    all_goals
      simp only [hat, Bool.false_eq_true, if_false] at h
      cases h
    exact ⟨rfl, fun hfalse => Bool.noConfusion hfalse⟩
  | none =>
  cases tdp with
  | none => cases h
  | some tdp =>
    rcases hfrom : LimitProfile.fromTDP tdp cfg.fastMultiplier cfg.slowMultiplier {} with e | p
    all_goals
      simp only [hfrom, Bool.false_eq_true, if_false] at h
      cases h
    exact ⟨rfl, fun hfalse => Bool.noConfusion hfalse⟩

theorem prologue_init {file : ConfigFile} {cfg : LimitConfig}
    (hread : LimitConfig.read file = .ok cfg) :
    prologue file { init := true } = .ok ⟨cfg.defProfile, cfg.defProfile, true⟩ := by
  unfold prologue
  rw [hread]
  simp [Exit.ofExcept, cfg.profileAt_default, bind, Except.bind, pure, Except.pure]

end Powerlimit
end TjTools
