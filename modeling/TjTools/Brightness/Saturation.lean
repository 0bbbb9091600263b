/-
# The clamped sum

`modifyState` of `src/src/brightness_daemon.cpp` (lines 159-178) adds the value of a frame to
the cached brightness in an `int` and clamps the sum afterwards.  The brightness is to become
the sum of the two integers, clamped (`wanted`).  From a brightness that is in range the sum
can leave an `int` only at its upper end; there it is negative, and the value passed to `set`
is 0 (`modified_of_overflow`).  Everywhere else it is the clamped sum (`toNat_modified`), and
`modifyState_saturates_iff` says in which states the node shows it after a frame: where the write
gets through, and where the node shows it already.
-/

import TjTools.Brightness.Agreement

namespace TjTools
namespace Brightness

open Runs

/-- The sum that `modifyState` forms. -/
def sum (current : UInt32) (value : Int32) : ℤ := current.toNat + value.toInt

/-- The sum is an `int`. -/
def Fits (current : UInt32) (value : Int32) : Prop :=
  -2 ^ 31 ≤ sum current value ∧ sum current value < 2 ^ 31

/-- The sum clamped to the range of the panel. -/
def wanted (current maxBrightness : UInt32) (value : Int32) : ℤ :=
  min (maxBrightness.toNat : ℤ) (max 0 (sum current value))

/-! ### The arithmetic -/

theorem toInt_toInt32 {v : UInt32} (h : v.toNat < 2 ^ 31) : v.toInt32.toInt = v.toNat := by
  rw [Int32.toInt, UInt32.toBitVec_toInt32, BitVec.toInt_eq_toNat_of_lt]
  · rfl
  · rw [UInt32.toNat_toBitVec]
    omega

theorem toNat_toUInt32 {v : Int32} (h : 0 ≤ v.toInt) : (v.toUInt32.toNat : ℤ) = v.toInt := by
  rw [Int32.toNat_toUInt32_of_le (Int32.le_iff_toInt_le.2 h)]
  exact Int.toNat_of_nonneg h

theorem modified_of_neg {current maxBrightness : UInt32} {value : Int32}
    (hmax : maxBrightness.toNat < 2 ^ 31) (h : (current.toInt32 + value).toInt < 0) :
    BacklightContext.modified current maxBrightness value = 0 := by
  have hneg : current.toInt32 + value < 0 := Int32.lt_iff_toInt_lt.2 h
  have hle : ¬(0 : Int32) > maxBrightness.toInt32 := by
    rw [gt_iff_lt, Int32.lt_iff_toInt_lt, toInt_toInt32 hmax]
    exact Int.not_lt.2 (Int.natCast_nonneg _)
  simp only [BacklightContext.modified, if_pos hneg, if_neg hle]
  rfl

theorem modified_of_nonneg {current maxBrightness : UInt32} {value : Int32}
    (hmax : maxBrightness.toNat < 2 ^ 31) (h : 0 ≤ (current.toInt32 + value).toInt) :
    ((BacklightContext.modified current maxBrightness value).toNat : ℤ)
      = min (maxBrightness.toNat : ℤ) (current.toInt32 + value).toInt := by
  have hnonneg : ¬current.toInt32 + value < 0 := by
    rw [Int32.lt_iff_toInt_lt]
    exact Int.not_lt.2 h
  simp only [BacklightContext.modified, if_neg hnonneg]
  simp only [gt_iff_lt, Int32.lt_iff_toInt_lt, toInt_toInt32 hmax]
  split_ifs with hover
  · rw [UInt32.toUInt32_toInt32, min_eq_left (le_of_lt hover)]
  · rw [toNat_toUInt32 h, min_eq_right (Int.not_lt.1 hover)]

/-- Only the upper end can be passed. -/
theorem fits_iff {current : UInt32} {value : Int32} :
    Fits current value ↔ sum current value < 2 ^ 31 := by
  have hvalue := value.le_toInt
  unfold Fits sum
  omega

section

variable {current maxBrightness : UInt32} {value : Int32}
  (hcurrent : current ≤ maxBrightness) (hmax : maxBrightness.toNat < 2 ^ 31)

include hcurrent hmax

theorem toInt_sum :
    (current.toInt32 + value).toInt = (sum current value).bmod (2 ^ 32) := by
  rw [Int32.toInt_add, toInt_toInt32 (lt_of_le_of_lt (UInt32.le_iff_toNat_le.1 hcurrent) hmax)]
  rfl

/-- **A sum that is an `int` is clamped.** -/
theorem toNat_modified (h : sum current value < 2 ^ 31) :
    ((BacklightContext.modified current maxBrightness value).toNat : ℤ)
      = wanted current maxBrightness value := by
  have hlow := (fits_iff.2 h).1
  have hsum := @toInt_sum current maxBrightness value hcurrent hmax
  rw [Int.bmod_eq_of_le (by omega) (by omega)] at hsum
  unfold wanted
  rcases lt_or_ge (sum current value) 0 with hneg | hnonneg
  · rw [modified_of_neg hmax (hsum ▸ hneg), max_eq_left hneg.le, min_eq_right (by omega)]
    rfl
  · rw [modified_of_nonneg hmax (hsum ▸ hnonneg), hsum, max_eq_right hnonneg]

/-- **A sum past the `int`s is taken for a negative one.** -/
theorem modified_of_overflow (h : 2 ^ 31 ≤ sum current value) :
    BacklightContext.modified current maxBrightness value = 0 := by
  refine modified_of_neg hmax ?_
  have hvalue := value.toInt_lt
  have hlt : current.toNat < 2 ^ 31 :=
    lt_of_le_of_lt (UInt32.le_iff_toNat_le.1 hcurrent) hmax
  have hwrapped : sum current value - 2 ^ 32 < 0 := by
    unfold sum
    omega
  rw [toInt_sum hcurrent hmax, Int.bmod_eq_emod]
  unfold sum at h hwrapped ⊢
  split_ifs <;> omega

end

/-- Where the sums are `int`s, a larger one does not make the brightness smaller. -/
theorem modified_mono {current current' maxBrightness : UInt32} {value value' : Int32}
    (hcurrent : current ≤ maxBrightness) (hmax : maxBrightness.toNat < 2 ^ 31)
    (hle : current' ≤ current) (hvalue : value'.toInt ≤ value.toInt)
    (h : sum current value < 2 ^ 31) :
    BacklightContext.modified current' maxBrightness value'
      ≤ BacklightContext.modified current maxBrightness value := by
  have hsum : sum current' value' ≤ sum current value := by
    have hnat := UInt32.le_iff_toNat_le.1 hle
    unfold sum
    omega
  have hbefore := toNat_modified (UInt32.le_trans hle hcurrent) hmax (lt_of_le_of_lt hsum h)
  have hafter := toNat_modified hcurrent hmax h
  have hclamped : wanted current' maxBrightness value' ≤ wanted current maxBrightness value := by
    unfold wanted
    exact min_le_min_left _ (max_le_max_left _ hsum)
  rw [UInt32.le_iff_toNat_le]
  omega

/-! ### After a frame -/

namespace SocketContext

/-- A `ModifyState` frame with this value. -/
def modifyFrame (value : Int32) : Request := .datagram (Command.modifyState value).encode

/-- The frame makes no overflow, and the brightness is then the clamped sum. -/
structure Saturates (s : SocketContext) (value : Int32) (o : Outcomes) : Prop where
  fits : Fits s.blCtx.currentBrightness value
  cached : ((s.serve (modifyFrame value, o)).blCtx.currentBrightness.toNat : ℤ)
    = wanted s.blCtx.currentBrightness s.blCtx.maxBrightness value
  shown : (s.serve (modifyFrame value, o)).blCtx.node.value
    = some (s.serve (modifyFrame value, o)).blCtx.currentBrightness

/-- The clamped sum is cached and shown already. -/
def Steady (s : SocketContext) (value : Int32) : Prop :=
  (s.blCtx.currentBrightness.toNat : ℤ)
    = wanted s.blCtx.currentBrightness s.blCtx.maxBrightness value ∧ s.Agrees

theorem command_modifyFrame (value : Int32) :
    (modifyFrame value).command = some (.modifyState value) :=
  (denotes_iff_decode _ _).1 (denotes_encode (.modifyState value))

/-- The value that `modifyState` passes to `set` in a state. -/
def modifiedBy (s : SocketContext) (value : Int32) : UInt32 :=
  BacklightContext.modified s.blCtx.currentBrightness s.blCtx.maxBrightness value

theorem panel_modifyFrame {s : SocketContext} (h : s.blCtx.Sound) (value : Int32) (o : Outcomes) :
    (s.serve (modifyFrame value, o)).blCtx.panel
      = (s.blCtx.withOutcomes o).panel.set (s.modifiedBy value) := by
  obtain ⟨-, -, hpanel, -⟩ := serve_refines h (modifyFrame value) o
  rw [hpanel, Request.target, command_modifyFrame]
  rfl

/-- The clamp keeps the value in range, whatever the sum is. -/
theorem modifiedBy_le {s : SocketContext}
    (hcurrent : s.blCtx.currentBrightness ≤ s.blCtx.maxBrightness)
    (hmax : s.blCtx.maxBrightness.toNat < 2 ^ 31) (value : Int32) :
    s.modifiedBy value ≤ s.blCtx.maxBrightness := by
  rcases lt_or_ge (sum s.blCtx.currentBrightness value) (2 ^ 31) with h | h
  · have hwanted := toNat_modified hcurrent hmax h
    have hle : wanted s.blCtx.currentBrightness s.blCtx.maxBrightness value
        ≤ s.blCtx.maxBrightness.toNat := min_le_left _ _
    rw [UInt32.le_iff_toNat_le, modifiedBy]
    omega
  · rw [modifiedBy, modified_of_overflow hcurrent hmax h]
    exact UInt32.zero_le

/-- While the brightness stream works, what is cached is what the node shows. -/
theorem agrees_serve_of_working {s : SocketContext} (h : s.blCtx.Sound)
    (hs : s.Working → s.Agrees) (r : Request × Outcomes) (hworking : (s.serve r).Working) :
    (s.serve r).Agrees := by
  obtain ⟨hbefore, hunrefused⟩ := (working_serve_iff h r).1 hworking
  exact (agrees_serve_iff h (hs hbefore) r).2 fun v hv hle _ => .inl (hunrefused v hv hle)

theorem saturates_of_accepted {s : SocketContext} (h : s.blCtx.Sound)
    (hcurrent : s.blCtx.currentBrightness ≤ s.blCtx.maxBrightness)
    (hmax : s.blCtx.maxBrightness.toNat < 2 ^ 31) {value : Int32} {o : Outcomes}
    (hsum : sum s.blCtx.currentBrightness value < 2 ^ 31) (hworking : s.Working)
    (ho : o.node = true) : s.Saturates value o := by
  have hle := modifiedBy_le hcurrent hmax value
  have hpanel := panel_modifyFrame h value o
  rw [Panel.set_of_accepts hle (by simpa [Working] using hworking) ho] at hpanel
  have hcurrent' : (s.serve (modifyFrame value, o)).blCtx.currentBrightness
      = s.modifiedBy value := congrArg Panel.current hpanel
  have hnode : (s.serve (modifyFrame value, o)).blCtx.node
      = (s.blCtx.withOutcomes o).node.took (s.modifiedBy value) := congrArg Panel.node hpanel
  refine ⟨fits_iff.2 hsum, ?_, ?_⟩
  · rw [hcurrent']
    exact toNat_modified hcurrent hmax hsum
  · rw [hnode, hcurrent', Node.value_took]

/-- A write that does not get through changes nothing that is shown. -/
theorem saturates_iff_steady {s : SocketContext} (h : s.blCtx.Sound)
    (hcurrent : s.blCtx.currentBrightness ≤ s.blCtx.maxBrightness)
    (hmax : s.blCtx.maxBrightness.toNat < 2 ^ 31) (hagrees : s.Working → s.Agrees)
    {value : Int32} {o : Outcomes} (hsum : sum s.blCtx.currentBrightness value < 2 ^ 31)
    (hnot : ¬(s.Working ∧ o.node = true)) : s.Saturates value o ↔ s.Steady value := by
  have hpanel := panel_modifyFrame h value o
  by_cases hworking : s.Working
  · -- the node refuses a value that is cached nevertheless
    have ho : o.node = false := Bool.eq_false_iff.2 fun ho => hnot ⟨hworking, ho⟩
    have hle := modifiedBy_le hcurrent hmax value
    have hwanted := toNat_modified hcurrent hmax hsum
    rw [Panel.set_of_refuses hle (by simpa [Working] using hworking) ho] at hpanel
    have hcurrent' : (s.serve (modifyFrame value, o)).blCtx.currentBrightness
        = s.modifiedBy value := congrArg Panel.current hpanel
    have hnode : (s.serve (modifyFrame value, o)).blCtx.node
        = (s.blCtx.node.withOutcomes o).refused (s.modifiedBy value) := congrArg Panel.node hpanel
    have hvalue : (s.serve (modifyFrame value, o)).blCtx.node.value = s.blCtx.node.value := by
      rw [hnode, Node.value_refused, Node.value_withOutcomes]
    constructor
    · intro hsat
      have hshown := hsat.shown
      rw [hvalue, hcurrent', hagrees hworking] at hshown
      have hsame : s.blCtx.currentBrightness = s.modifiedBy value := Option.some.inj hshown
      exact ⟨(congrArg (fun v : UInt32 => (v.toNat : ℤ)) hsame).trans hwanted, hagrees hworking⟩
    · intro hsteady
      have hsame : s.modifiedBy value = s.blCtx.currentBrightness :=
        UInt32.toNat_inj.1 (Int.natCast_inj.1 (hwanted.trans hsteady.1.symm))
      refine ⟨fits_iff.2 hsum, ?_, ?_⟩
      · rw [hcurrent']
        exact hwanted
      · rw [hvalue, hcurrent', hsame]
        exact hsteady.2
  · rw [Panel.set_of_idle (.inr (by simpa [Working] using hworking))] at hpanel
    have hcurrent' : (s.serve (modifyFrame value, o)).blCtx.currentBrightness
        = s.blCtx.currentBrightness := congrArg Panel.current hpanel
    have hnode : (s.serve (modifyFrame value, o)).blCtx.node = s.blCtx.node.withOutcomes o :=
      congrArg Panel.node hpanel
    have hvalue : (s.serve (modifyFrame value, o)).blCtx.node.value = s.blCtx.node.value := by
      rw [hnode, Node.value_withOutcomes]
    constructor
    · rintro ⟨-, hcached, hshown⟩
      rw [hcurrent'] at hcached
      rw [hvalue, hcurrent'] at hshown
      exact ⟨hcached, hshown⟩
    · rintro ⟨hcached, hshown⟩
      refine ⟨fits_iff.2 hsum, ?_, ?_⟩
      · rw [hcurrent']
        exact hcached
      · rw [hvalue, hcurrent']
        exact hshown

/-- **The brightness becomes the clamped sum if and only if** the sum is an `int`, and the write to
the node succeeds or has nothing to change. -/
theorem saturates_iff {s : SocketContext} (h : s.blCtx.Sound)
    (hcurrent : s.blCtx.currentBrightness ≤ s.blCtx.maxBrightness)
    (hmax : s.blCtx.maxBrightness.toNat < 2 ^ 31) (hagrees : s.Working → s.Agrees)
    (value : Int32) (o : Outcomes) :
    s.Saturates value o ↔ sum s.blCtx.currentBrightness value < 2 ^ 31 ∧
      (s.Working ∧ o.node = true ∨ s.Steady value) := by
  constructor
  · intro hsat
    have hsum := fits_iff.1 hsat.fits
    refine ⟨hsum, or_iff_not_imp_left.2 fun hnot => ?_⟩
    exact (saturates_iff_steady h hcurrent hmax hagrees hsum hnot).1 hsat
  · rintro ⟨hsum, hthrough⟩
    by_cases haccepted : s.Working ∧ o.node = true
    · exact saturates_of_accepted h hcurrent hmax hsum haccepted.1 haccepted.2
    · have hsteady := hthrough.resolve_left haccepted
      exact (saturates_iff_steady h hcurrent hmax hagrees hsum haccepted).2 hsteady

/-- **In every reachable state with the brightness in range, `modifyState` computes the clamped
sum, without overflow, if and only if** the sum is an `int`; the brightness becomes it if and
only if the write succeeds, too, or the node shows it already.  Up to there it is monotone in the
value and in the brightness. -/
theorem modifyState_saturates_iff {cfg : Config} {found : Option BacklightNode}
    {stored : Option DiskFile} {c : BacklightContext} (hinit : init cfg found stored = .ok c)
    (rs : List (Request × Outcomes)) {s : SocketContext} (hs : run serve (started c) rs = s)
    (hcurrent : s.blCtx.currentBrightness ≤ s.blCtx.maxBrightness)
    (hmax : s.blCtx.maxBrightness.toNat < 2 ^ 31) (value : Int32) (o : Outcomes) :
    ((Fits s.blCtx.currentBrightness value ∧ ((s.modifiedBy value).toNat : ℤ)
        = wanted s.blCtx.currentBrightness s.blCtx.maxBrightness value) ↔
          sum s.blCtx.currentBrightness value < 2 ^ 31) ∧
      (s.Saturates value o ↔ sum s.blCtx.currentBrightness value < 2 ^ 31 ∧
        (s.Working ∧ o.node = true ∨ s.Steady value)) ∧
      (sum s.blCtx.currentBrightness value < 2 ^ 31 →
        ∀ current' value', current' ≤ s.blCtx.currentBrightness → value'.toInt ≤ value.toInt →
          BacklightContext.modified current' s.blCtx.maxBrightness value'
            ≤ s.modifiedBy value) := by
  have hstep : ∀ (s : SocketContext) (r : Request × Outcomes),
      s.blCtx.Sound ∧ (s.Working → s.Agrees) →
        (serve s r).blCtx.Sound ∧ ((serve s r).Working → (serve s r).Agrees) := by
    rintro s r ⟨h, hagrees⟩
    exact ⟨(serve_refines h r.1 r.2).1, agrees_serve_of_working h hagrees r⟩
  obtain ⟨hstart, hagreesStart, -⟩ := started_of_init hinit
  obtain ⟨hsound, hagrees⟩ := hs ▸ inv_run hstep ⟨hstart, fun _ => hagreesStart⟩ rs
  refine ⟨⟨fun h => h.1.2, fun h => ?_⟩, saturates_iff hsound hcurrent hmax hagrees value o, ?_⟩
  · exact ⟨fits_iff.2 h, toNat_modified hcurrent hmax h⟩
  · intro h current' value' hle hvalue
    exact modified_mono hcurrent hmax hle hvalue h

/-- Taking 10 from a brightness of 50. -/
theorem modifyState_saturates_sampleContext :
    (run serve (started sampleContext) []).Saturates (-10) .good :=
  (modifyState_saturates_iff init_sampleContext [] rfl (by decide +kernel) (by decide +kernel)
    (-10) .good).2.1.2 ⟨by decide +kernel, .inl ⟨rfl, rfl⟩⟩

/-- Adding the largest `int` to a brightness of 50 sets it to 0. -/
theorem not_modifyState_saturates :
    ¬∀ (cfg : Config) (found : Option BacklightNode) (stored : Option DiskFile)
      (c : BacklightContext), init cfg found stored = .ok c →
      ∀ (rs : List (Request × Outcomes)) (s : SocketContext), run serve (started c) rs = s →
        s.blCtx.currentBrightness ≤ s.blCtx.maxBrightness →
        s.blCtx.maxBrightness.toNat < 2 ^ 31 → ∀ value, s.Saturates value .good := by
  intro h
  have hcached := (h _ _ _ _ init_sampleContext [] _ rfl (by decide +kernel) (by decide +kernel)
    2147483647).cached
  revert hcached
  decide +kernel

end SocketContext

end Brightness
end TjTools
