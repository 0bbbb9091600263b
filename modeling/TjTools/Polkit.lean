/-
# The rules for `systemd` units

The six files of `src/polkit` each add a rule to polkit: who may start and stop which unit.
polkit takes the files in the order of their names and the first result that is not
undefined.

Five of the rules answer YES or nothing.  `13-cpu-powerlimit.rules` also answers NO, to
every other unit of its two users, and comes before `14-xbox360-disable.rules`, which never
has its say; loaded before the first three it would take those away as well
(`combined_iff`).
-/

import TjTools.Basis.FirstMatch

namespace TjTools
namespace Polkit

open FirstMatch

/-- `polkit.Result`, as far as the rules use it; undefined is `none`. -/
inductive Result where
  | yes
  | no
  deriving DecidableEq, Repr

/-- What a rule is asked about: `action`, and `subject.user`. -/
structure Request where
  id : String
  /-- `action.lookup` -/
  lookup : String → Option String
  user : String

/-- "org.freedesktop.systemd1.manage-units" -/
def manageUnits : String := "org.freedesktop.systemd1.manage-units"

/-- A rule that lets one user do some things to some units. -/
def unitRule (user : String) (units verbs : List String) (r : Request) : Option Result :=
  if r.id = manageUnits ∧ r.user = user then
    if r.lookup "unit" ∈ units.map some then
      if r.lookup "verb" ∈ verbs.map some then some .yes else none
    else none
  else none

def startStopRestart : List String := ["start", "stop", "restart"]

/-- `10-gentoo-sandbox.rules` -/
def gentooSandbox : Request → Option Result :=
  unitRule "liquid" ["gentoo-sandbox.service"] startStopRestart

/-- `11-openvpn-client.rules` -/
def openvpnClient : Request → Option Result :=
  unitRule "liquid" ["openvpn-client@client.service", "openvpn-client@jan-vpn.service"]
    startStopRestart

/-- `12-iscsi-ctrl.rules` -/
def iscsiCtrl : Request → Option Result :=
  unitRule "liquid" ["iscsi-ctrl@universe.service", "iscsi-ctrl@optical.service"] startStopRestart

/-- `validUsers` -/
def validUsers : List String := ["liquid", "greetd"]

/-- `13-cpu-powerlimit.rules` -/
def cpuPowerlimit (r : Request) : Option Result :=
  if r.id = manageUnits ∧ r.user ∈ validUsers then
    if r.lookup "unit" ≠ some "cpu-powerlimit@turbo.service" ∧
        r.lookup "unit" ≠ some "cpu-powerlimit@quiet.service" then
      some .no
    else if r.lookup "verb" ≠ some "start" ∧ r.lookup "verb" ≠ some "stop" ∧
        r.lookup "verb" ≠ some "restart" then
      some .no
    else some .yes
  else none

/-- `14-xbox360-disable.rules` -/
def xbox360Disable : Request → Option Result :=
  unitRule "liquid" ["xbox360-disable.service"] ["start", "stop"]

/-- `15-openvpn-server.rules` -/
def openvpnServer : Request → Option Result :=
  unitRule "audiodaemon" ["openvpn-server@server.service"] startStopRestart

/-- The files in the order of their names. -/
def rules : List (Request → Option Result) :=
  [gentooSandbox, openvpnClient, iscsiCtrl, cpuPowerlimit, xbox360Disable, openvpnServer]

def combined : Request → Option Result := firstMatch rules

/-! ### What the rules answer -/

theorem unitRule_eq_yes {user : String} {units verbs : List String} {r : Request} :
    unitRule user units verbs r = some .yes ↔
      r.id = manageUnits ∧ r.user = user ∧ r.lookup "unit" ∈ units.map some ∧
        r.lookup "verb" ∈ verbs.map some := by
  unfold unitRule
  split_ifs with hcall hunit hverb
  · exact iff_of_true rfl ⟨hcall.1, hcall.2, hunit, hverb⟩
  · exact iff_of_false (by simp) fun h => hverb h.2.2.2
  · exact iff_of_false (by simp) fun h => hunit h.2.2.1
  · exact iff_of_false (by simp) fun h => hcall ⟨h.1, h.2.1⟩

/-- Such a rule says YES or nothing. -/
theorem unitRule_ne_no {user : String} {units verbs : List String} {r : Request} :
    unitRule user units verbs r ≠ some .no := by
  unfold unitRule
  split_ifs
  all_goals simp

theorem unitRule_eq_some {user : String} {units verbs : List String} {r : Request} {x : Result}
    (h : unitRule user units verbs r = some x) : x = .yes := by
  cases x with
  | yes => rfl
  | no => exact absurd h unitRule_ne_no

theorem unitRule_eq_none {user : String} {units verbs : List String} {r : Request}
    (h : unitRule user units verbs r ≠ some .yes) : unitRule user units verbs r = none := by
  rw [Option.eq_none_iff_forall_ne_some]
  intro x hx
  exact h (unitRule_eq_some hx ▸ hx)

/-- The rule refuses every unit but its own two. -/
theorem cpuPowerlimit_eq_no {r : Request} (hid : r.id = manageUnits) (huser : r.user ∈ validUsers)
    (hturbo : r.lookup "unit" ≠ some "cpu-powerlimit@turbo.service")
    (hquiet : r.lookup "unit" ≠ some "cpu-powerlimit@quiet.service") :
    cpuPowerlimit r = some .no := by
  rw [cpuPowerlimit, if_pos ⟨hid, huser⟩, if_pos ⟨hturbo, hquiet⟩]

theorem user_mem_of_cpuPowerlimit {r : Request} {x : Result} (h : cpuPowerlimit r = some x) :
    r.id = manageUnits ∧ r.user ∈ validUsers := by
  unfold cpuPowerlimit at h
  split_ifs at h with hcall
  all_goals exact hcall

/-- Only the fourth file says NO. -/
theorem eq_cpuPowerlimit_of_no {rule : Request → Option Result} (hrule : rule ∈ rules) {r : Request}
    (h : rule r = some .no) : rule = cpuPowerlimit := by
  simp only [rules, List.mem_cons, List.not_mem_nil, or_false] at hrule
  rcases hrule with rfl | rfl | rfl | rfl | rfl | rfl
  · exact absurd h unitRule_ne_no
  · exact absurd h unitRule_ne_no
  · exact absurd h unitRule_ne_no
  · rfl
  · exact absurd h unitRule_ne_no
  · exact absurd h unitRule_ne_no

/-! ### What becomes of a YES -/

/-- The request the fifth file says YES to. -/
def Shadowed (r : Request) : Prop :=
  r.id = manageUnits ∧ r.user = "liquid" ∧ r.lookup "unit" = some "xbox360-disable.service" ∧
    (r.lookup "verb" = some "start" ∨ r.lookup "verb" = some "stop")

/-- The units of the first three files. -/
def liquidUnits : List String :=
  ["gentoo-sandbox.service", "openvpn-client@client.service", "openvpn-client@jan-vpn.service",
    "iscsi-ctrl@universe.service", "iscsi-ctrl@optical.service"]

/-- A request that the first three files or the fifth say YES to. -/
def Contested (r : Request) : Prop :=
  Shadowed r ∨ (r.id = manageUnits ∧ r.user = "liquid" ∧ r.lookup "unit" ∈ liquidUnits.map some ∧
    r.lookup "verb" ∈ startStopRestart.map some)

theorem shadowed_iff {r : Request} : Shadowed r ↔ xbox360Disable r = some .yes := by
  rw [Shadowed, xbox360Disable, unitRule_eq_yes]
  simp

theorem contested_iff {r : Request} :
    Contested r ↔ gentooSandbox r = some .yes ∨ openvpnClient r = some .yes ∨
      iscsiCtrl r = some .yes ∨ xbox360Disable r = some .yes := by
  rw [Contested, shadowed_iff, gentooSandbox, openvpnClient, iscsiCtrl, unitRule_eq_yes,
    unitRule_eq_yes, unitRule_eq_yes]
  simp only [liquidUnits, List.map_cons, List.map_nil, List.mem_cons, List.not_mem_nil, or_false]
  tauto

theorem cpuPowerlimit_of_contested {r : Request} (h : Contested r) :
    cpuPowerlimit r = some .no := by
  rcases h with ⟨hid, huser, hunit, -⟩ | ⟨hid, huser, hunit, -⟩
  · refine cpuPowerlimit_eq_no hid (huser ▸ List.mem_cons_self) ?_ ?_ <;> simp [hunit]
  · simp only [liquidUnits, List.map_cons, List.map_nil, List.mem_cons, List.not_mem_nil,
      or_false] at hunit
    refine cpuPowerlimit_eq_no hid (huser ▸ List.mem_cons_self) ?_ ?_ <;>
      rcases hunit with h | h | h | h | h <;> simp [h]

/-- Whatever else a file says YES to, the fourth file does not refuse. -/
theorem contested_of_yes_of_no {rule : Request → Option Result} (hrule : rule ∈ rules) {r : Request}
    (hyes : rule r = some .yes) (hno : cpuPowerlimit r = some .no) : Contested r := by
  rw [contested_iff]
  simp only [rules, List.mem_cons, List.not_mem_nil, or_false] at hrule
  rcases hrule with rfl | rfl | rfl | rfl | rfl | rfl
  · exact .inl hyes
  · exact .inr (.inl hyes)
  · exact .inr (.inr (.inl hyes))
  · rw [hno] at hyes
    cases hyes
  · exact .inr (.inr (.inr hyes))
  · obtain ⟨-, huser, -⟩ := unitRule_eq_yes.1 hyes
    have hvalid := (user_mem_of_cpuPowerlimit hno).2
    rw [huser] at hvalid
    exact absurd hvalid (by decide)

theorem agree_iff {r : Request} : Agree rules r ↔ ¬Contested r := by
  constructor
  · intro h hcontested
    have hno := cpuPowerlimit_of_contested hcontested
    have hyes : ∃ rule ∈ rules, rule r = some .yes := by
      rcases contested_iff.1 hcontested with h | h | h | h
      all_goals exact ⟨_, by simp [rules], h⟩
    obtain ⟨rule, hrule, hyes⟩ := hyes
    cases h rule hrule cpuPowerlimit (by simp [rules]) _ _ hyes hno
  · intro h rule hrule rule' hrule' x y hx hy
    cases x with
    | yes =>
      cases y with
      | yes => rfl
      | no =>
        obtain rfl := eq_cpuPowerlimit_of_no hrule' hy
        exact absurd (contested_of_yes_of_no hrule hx hy) h
    | no =>
      cases y with
      | yes =>
        obtain rfl := eq_cpuPowerlimit_of_no hrule hx
        exact absurd (contested_of_yes_of_no hrule' hy hx) h
      | no => rfl

/-- The fifth file has no say. -/
theorem combined_of_shadowed {r : Request} (h : Shadowed r) : combined r = some .no := by
  have hno := cpuPowerlimit_of_contested (.inl h)
  obtain ⟨hid, huser, hunit, -⟩ := h
  have hunit' : ∀ units verbs, "xbox360-disable.service" ∉ units →
      unitRule "liquid" units verbs r = none := by
    intro units verbs hnot
    refine unitRule_eq_none fun hyes => hnot ?_
    obtain ⟨-, -, hmem, -⟩ := unitRule_eq_yes.1 hyes
    simpa [hunit] using hmem
  have h₁ : gentooSandbox r = none := hunit' _ _ (by decide)
  have h₂ : openvpnClient r = none := hunit' _ _ (by decide)
  have h₃ : iscsiCtrl r = none := hunit' _ _ (by decide)
  simp [combined, firstMatch, rules, h₁, h₂, h₃, hno]

/-- Outside the fifth file's request a YES of a file is a YES of all. -/
theorem combined_of_yes {r : Request} (h : ¬Shadowed r) {rule : Request → Option Result}
    (hrule : rule ∈ rules) (hyes : rule r = some .yes) : combined r = some .yes := by
  by_cases hcontested : Contested r
  · -- one of the first three files says YES, and none of them anything else
    have hfirst : firstMatch [gentooSandbox, openvpnClient, iscsiCtrl] r = some .yes := by
      have hsome : ∀ rule ∈ [gentooSandbox, openvpnClient, iscsiCtrl], ∀ x,
          rule r = some x → x = .yes := by
        intro rule hrule x hx
        simp only [List.mem_cons, List.not_mem_nil, or_false] at hrule
        rcases hrule with rfl | rfl | rfl
        all_goals exact unitRule_eq_some hx
      have hagree : Agree [gentooSandbox, openvpnClient, iscsiCtrl] r :=
        fun rule hrule rule' hrule' x y hx hy =>
          (hsome rule hrule x hx).trans (hsome rule' hrule' y hy).symm
      rw [firstMatch_eq_some_iff hagree]
      rcases contested_iff.1 hcontested with h₁ | h₁ | h₁ | h₁
      · exact ⟨_, by simp, h₁⟩
      · exact ⟨_, by simp, h₁⟩
      · exact ⟨_, by simp, h₁⟩
      · exact absurd (shadowed_iff.2 h₁) h
    exact firstMatch_append hfirst [cpuPowerlimit, xbox360Disable, openvpnServer]
  · exact (firstMatch_eq_some_iff (agree_iff.2 hcontested) _).2 ⟨rule, hrule, hyes⟩

/-- **In the order of their names the files say YES whenever one of them does, if and only if
the request is not that of the fifth file; and they say the same in every order if and only if
neither the first three files nor the fifth say YES.** -/
theorem combined_iff (r : Request) :
    ((combined r = some .yes ↔ ∃ rule ∈ rules, rule r = some .yes) ↔ ¬Shadowed r) ∧
      ((∀ order, order.Perm rules → firstMatch order r = combined r) ↔ ¬Contested r) := by
  constructor
  · constructor
    · intro h hshadowed
      have hyes := h.2 ⟨xbox360Disable, by simp [rules], shadowed_iff.1 hshadowed⟩
      rw [combined_of_shadowed hshadowed] at hyes
      cases hyes
    · intro h
      constructor
      · exact exists_of_firstMatch
      · rintro ⟨rule, hrule, hyes⟩
        exact combined_of_yes h hrule hyes
  · rw [← agree_iff]
    exact firstMatch_perm_iff

/-- Starting the unit of the fifth file. -/
def startXbox360Disable : Request where
  id := manageUnits
  lookup key :=
    if key = "unit" then some "xbox360-disable.service"
    else if key = "verb" then some "start" else none
  user := "liquid"

/-- The fifth file alone says YES to it. -/
theorem not_combined_iff :
    ¬∀ r : Request, combined r = some .yes ↔ ∃ rule ∈ rules, rule r = some .yes := by
  intro h
  have hyes := (h startXbox360Disable).2 ⟨xbox360Disable, by simp [rules], by decide⟩
  revert hyes
  decide

/-- The fourth file put first refuses what the first one grants. -/
example :
    let r := { startXbox360Disable with
      lookup := fun key => if key = "unit" then some "gentoo-sandbox.service" else some "stop" }
    combined r = some .yes ∧ firstMatch [cpuPowerlimit, gentooSandbox] r = some .no := by
  decide

end Polkit
end TjTools
