/-
# The utility among other clients

`main` of `src/src/aecram_util.cpp`, run any number of times between the calls that other
clients make to the driver.  Each run opens a session, configures it, reads and closes it, and
goes through the same buffer and the same registers as everyone else.

Seen from outside it is a function of the array (`Memory.util`): what is printed is what the
other clients' writes have left, every refusal has its text and its status, and nothing of the
array or of the open sessions changes.  So a history with runs of the utility gives the other
clients the answers of the history without them (`Driver.history`).  No signal comes to the other
clients, nothing faults on their requests, and each run has a descriptor of its own.
-/

import TjTools.Aecram.Dump

namespace TjTools
namespace Aecram

open Runs

/-! ### `main` -/

/-- The variables map, once the command line is parsed. -/
structure Options where
  help : Bool
  offset : Option UInt64
  length : Option UInt64

/-- How a process ends, with what it wrote. -/
structure Exit where
  status : ℤ
  stdout : List (List Char)
  stderr : List String
  deriving DecidableEq

/-- The end of `main` after `dump`, where what was printed is what `dump` printed. -/
def Exit.ofDump (stdout : List (List Char)) : Except String Unit → Exit
  | .ok () => ⟨0, stdout, []⟩
  | .error what => ⟨-3, stdout, ["error: dump failed: " ++ what]⟩

/-- `main`, where `desc` is the description of the options as it is printed. -/
def main (desc : List Char) (env : Env) (vm : Options) (driver : Driver) : Exit × Driver :=
  if vm.help then (⟨0, [desc], []⟩, driver)
  else
    match vm.offset with
    | none => (⟨-1, [], ["error: missing offset argument"]⟩, driver)
    | some offset =>
      match vm.length with
      | none => (⟨-2, [], ["error: missing length argument"]⟩, driver)
      | some length =>
        let (result, u) := dump env offset length ⟨driver, []⟩
        (Exit.ofDump u.stdout result, u.driver)

/-! ### What the utility is for -/

namespace Memory

/-- The bytes of a range above `kUnknownOffset`, or why they are not given, where the device is
opened under a descriptor of its own. -/
def dump (env : Env) (offset length : UInt64) (memory : Memory) :
    Except String (List (List Char)) :=
  if 0x2eff < offset.toNat then .error "invalid offset"
  else if aecramBufferSize < length.toNat then .error "invalid length"
  else if !env.allocated then
    .error ("failed to open AECRAM device: " ++ env.strerror ENOMEM)
  else if !env.accessOk then .error ("failed to read AECRAM: " ++ env.strerror EFAULT)
  else if !env.readable ∨ 0x10000 < 0xd100 + offset.toNat + length.toNat then
    .error ("failed to read AECRAM: " ++ env.strerror EINVAL)
  else if env.fault.getD length.toNat < length.toNat then
    .error ("failed to read AECRAM: " ++ env.strerror EFAULT)
  else .ok (memoryLines memory.bytes offset.toNat length.toNat)

/-- What a run of the utility prints and how it ends, on the array. -/
def util (desc : List Char) (env : Env) (vm : Options) (memory : Memory) : Exit :=
  if vm.help then ⟨0, [desc], []⟩
  else
    match vm.offset, vm.length with
    | none, _ => ⟨-1, [], ["error: missing offset argument"]⟩
    | some _, none => ⟨-2, [], ["error: missing length argument"]⟩
    | some offset, some length =>
      match memory.dump env offset length with
      | .ok lines => ⟨0, lines, []⟩
      | .error what => ⟨-3, [], ["error: dump failed: " ++ what]⟩

end Memory

/-! ### The sessions -/

/-- The descriptor a call is about. -/
def Call.fd : Call → ℕ
  | .open fd _ => fd
  | .ioctl fd _ => fd
  | .close fd => fd

/-- A call leaves the sessions of the other descriptors. -/
theorem call_sessions_of_ne (d : Driver) {c : Call} {fd : ℕ} (h : fd ≠ c.fd) :
    (d.call c).2.sessions fd = d.sessions fd := by
  cases c with
  | «open» fd' allocated =>
    rw [Driver.call]
    rcases hs : d.sessions fd' with _ | session
    · cases allocated
      · rfl
      · exact Function.update_of_ne h _ _
    · rfl
  | ioctl fd' command =>
    rw [Driver.call]
    rcases hs : d.sessions fd' with _ | session
    · rfl
    · exact Function.update_of_ne h _ _
  | close fd' =>
    rw [Driver.call]
    rcases hs : d.sessions fd' with _ | session
    · rfl
    · exact Function.update_of_ne h _ _

/-- A descriptor has one session at a time. -/
theorem call_open_busy {d : Driver} {fd : ℕ} {session : Session}
    (hs : d.sessions fd = some session) (allocated : Bool) :
    d.call (.open fd allocated) = (⟨-EBADF, none⟩, d) := by
  rw [Driver.call, hs]

theorem call_close_sessions (d : Driver) (fd : ℕ) : (d.call (.close fd)).2.sessions fd = none := by
  rw [Driver.call]
  rcases hs : d.sessions fd with _ | session
  · exact hs
  · exact Function.update_self _ _ _

/-- What `dump` does with the open device leaves the sessions of the other descriptors. -/
theorem dumpOpened_sessions_of_ne (env : Env) (offset length : UInt64) (u : Utility) {fd : ℕ}
    (h : fd ≠ env.fd) :
    (dumpOpened env offset length u).2.driver.sessions fd = u.driver.sessions fd := by
  have hsetType := call_sessions_of_ne u.driver (c := .ioctl env.fd (.setType aecramTypeAyaneo)) h
  unfold dumpOpened
  simp only
  split_ifs with hset hread
  · exact hsetType
  · exact (call_sessions_of_ne _ (c := .ioctl env.fd _) h).trans hsetType
  · exact (call_sessions_of_ne _ (c := .ioctl env.fd _) h).trans hsetType

/-- **`dump` leaks no session**: whatever state the driver is in and wherever it fails, the
sessions are those before. -/
theorem dump_sessions (env : Env) (offset length : UInt64) (u : Utility) :
    (dump env offset length u).2.driver.sessions = u.driver.sessions := by
  unfold dump
  split_ifs with hoffset hlength
  · rfl
  · rfl
  · simp only
    rcases call_open_cases u.driver env.fd env.allocated with ⟨hret, hsame⟩ | ⟨hret, -, -⟩
    · simp only [hret, if_true, hsame]
    · have hfree : u.driver.sessions env.fd = none := by
        by_contra hopen
        obtain ⟨session, hs⟩ := Option.ne_none_iff_exists'.1 hopen
        rw [call_open_busy hs] at hret
        have hne : -EBADF ≠ 0 := by decide
        exact hne hret
      simp only [hret, Int.lt_irrefl, if_false]
      funext fd
      by_cases hfd : fd = env.fd
      · rw [hfd, call_close_sessions, hfree]
      · rw [call_sessions_of_ne _ (c := .close env.fd) hfd,
          dumpOpened_sessions_of_ne env offset length _ hfd]
        exact call_sessions_of_ne u.driver (c := .open env.fd env.allocated) hfd

/-! ### The answer to the request -/

/-- A request to read leaves the machine ready, whatever it faults on. -/
theorem ioctlRead_ready (u : User) {m : Machine} (hm : m.Ready) :
    (ioctlRead u ⟨some configDefault⟩ m).2.Ready := by
  by_cases htransfers : u.Transfers
  · obtain ⟨r, hr⟩ : ∃ r, r = m.aecramReadBufferFrom configDefault u.getOffset 0
      u.getLength.toNat := ⟨_, rfl⟩
    obtain ⟨hret, hcalm, hheld⟩ :=
      Machine.aecramReadBufferFrom_calm hm.calm u.getOffset 0 u.getLength.toNat
    rw [← hr] at hret hcalm hheld
    rw [ioctlRead_transfers htransfers hr, if_pos hret]
    exact ⟨hcalm, hheld hm.free⟩
  · rw [(ioctl_idle htransfers m).1]
    exact hm

/-- What a configured session answers on a machine that is ready, by the first check that
fails. -/
theorem ioctlRead_ret (u : User) {m : Machine} (hm : m.Ready) :
    (ioctlRead u ⟨some configDefault⟩ m).1.ret =
      if u.accessOk = false then -EFAULT
      else if isValidParam u.getOffset u.getLength = false then -EINVAL
      else if u.fault.getD u.getLength.toNat < u.getLength.toNat then -EFAULT
      else 0 := by
  by_cases haccess : u.accessOk = false
  · rw [if_pos haccess, ioctlRead]
    simp only [haccess, Bool.not_false, if_true]
  rw [if_neg haccess]
  rw [Bool.not_eq_false] at haccess
  by_cases hvalid : isValidParam u.getOffset u.getLength = false
  · rw [if_pos hvalid, ioctlRead]
    simp only [haccess, hvalid, Bool.not_true, Bool.not_false, Bool.false_eq_true, if_false,
      if_true]
  rw [if_neg hvalid]
  rw [Bool.not_eq_false] at hvalid
  by_cases hzero : u.getLength = 0
  · rw [(ioctl_empty haccess hvalid hzero m).1, hzero]
    exact (if_neg (Nat.not_lt_zero _)).symm
  · have htransfers : u.Transfers := ⟨haccess, hvalid, hzero⟩
    obtain ⟨hret, -, -⟩ :=
      Machine.aecramReadBufferFrom_calm hm.calm u.getOffset 0 u.getLength.toNat
    rw [ioctlRead_transfers htransfers rfl, if_pos hret, User.copyTo]
    simp only [decide_eq_true_eq]

/-- The driver takes the numbers of `dump` for valid where it can read them and the range lies
in the memory. -/
theorem isValidParam_user {env : Env} {offset length : UInt64} (h : Checked offset length) :
    isValidParam (env.user (dumpRequest offset length)).getOffset
        (env.user (dumpRequest offset length)).getLength = true ↔
      env.readable = true ∧ 0xd100 + offset.toNat + length.toNat ≤ 0x10000 := by
  obtain ⟨hoffset, hlength⟩ := toNat_dumpRequest h
  rw [User.getOffset, User.getLength, Env.user]
  cases env.readable with
  | false =>
    refine iff_of_false ?_ (fun h => Bool.noConfusion h.1)
    simp only [Bool.false_eq_true, if_false]
    decide
  | true =>
    simp only [if_true, true_and]
    rw [isValidParam_iff, hoffset, hlength]
    constructor
    · exact fun hvalid => hvalid.2.1
    · exact fun hrange => ⟨h.2, hrange, .inl (by omega)⟩

/-- `dump` fails with the error of its request, once the device is open. -/
theorem dumpOpened_eq (env : Env) (offset length : UInt64) {u : Utility} {session : Session}
    (hs : u.driver.sessions env.fd = some session) :
    let r := ioctlRead (env.user (dumpRequest offset length)) ⟨some configDefault⟩ u.driver.machine
    (dumpOpened env offset length u).1 =
        (if r.1.ret < 0 then .error ("failed to read AECRAM: " ++ env.strerror (-r.1.ret))
        else .ok ()) ∧
      (dumpOpened env offset length u).2.driver.machine = r.2 := by
  intro r
  have hcall : (Driver.mk u.driver.machine (Function.update u.driver.sessions env.fd
      (some ⟨some configDefault⟩))).call
        (.ioctl env.fd (.read (env.user (dumpRequest offset length))))
        = (r.1, ⟨r.2, Function.update (Function.update u.driver.sessions env.fd
          (some ⟨some configDefault⟩)) env.fd (some ⟨some configDefault⟩)⟩) := by
    rw [Driver.call]
    simp only [Function.update_self, aecramUnlockedIoctl]
    rfl
  unfold dumpOpened
  simp only [call_setType hs, Int.lt_irrefl, if_false, hcall]
  split_ifs
  · exact ⟨rfl, rfl⟩
  · exact ⟨rfl, rfl⟩

/-! ### `dump` on the array -/

/-- `dump` leaves the machine ready, and the memory as it is. -/
theorem dump_machine (env : Env) (offset length : UInt64) {u : Utility}
    (hm : u.driver.machine.Ready) :
    (dump env offset length u).2.driver.machine.Ready ∧
      (dump env offset length u).2.driver.machine.controller.ram
        = u.driver.machine.controller.ram := by
  unfold dump
  split_ifs with hoffset hlength
  · exact ⟨hm, rfl⟩
  · exact ⟨hm, rfl⟩
  · simp only
    rcases call_open_cases u.driver env.fd env.allocated with ⟨hret, hsame⟩ | ⟨hret, hmachine, hs⟩
    · simp only [hret, if_true, hsame]
      exact ⟨hm, trivial⟩
    · generalize u.driver.call (.open env.fd env.allocated) = opened at hret hmachine hs
      have hrun := (dumpOpened_eq env offset length (u := { u with driver := opened.2 }) hs).2
      simp only [hmachine] at hrun
      simp only [hret, Int.lt_irrefl, if_false, call_close_machine, hrun]
      exact ⟨ioctlRead_ready _ hm, (ioctlRead_cases rfl _).1⟩

/-- How `dump` ends, once the numbers are checked and the device is open. -/
theorem dumpOpened_result {env : Env} {offset length : UInt64} (h : Checked offset length)
    {u : Utility} (hm : u.driver.machine.Ready) {session : Session}
    (hs : u.driver.sessions env.fd = some session) :
    (dumpOpened env offset length u).1 =
      if !env.accessOk then .error ("failed to read AECRAM: " ++ env.strerror EFAULT)
      else if !env.readable ∨ 0x10000 < 0xd100 + offset.toNat + length.toNat then
        .error ("failed to read AECRAM: " ++ env.strerror EINVAL)
      else if env.fault.getD length.toNat < length.toNat then
        .error ("failed to read AECRAM: " ++ env.strerror EFAULT)
      else .ok () := by
  have hfault : -EFAULT < 0 := by decide
  have hinval : -EINVAL < 0 := by decide
  rw [(dumpOpened_eq env offset length hs).1, ioctlRead_ret _ hm]
  by_cases haccess : env.accessOk = false
  · simp only [Env.user, haccess, if_true, Bool.not_false, hfault, Int.neg_neg]
  rw [if_neg (show ¬(env.user (dumpRequest offset length)).accessOk = false from haccess)]
  rw [Bool.not_eq_false] at haccess
  simp only [haccess, Bool.not_true, Bool.false_eq_true, if_false]
  by_cases hvalid : isValidParam (env.user (dumpRequest offset length)).getOffset
      (env.user (dumpRequest offset length)).getLength = true
  · obtain ⟨hreadable, hrange⟩ := (isValidParam_user h).1 hvalid
    have hlength : (env.user (dumpRequest offset length)).getLength.toNat = length.toNat :=
      (congrArg UInt8.toNat (if_pos hreadable)).trans (toNat_dumpRequest h).2
    have hin : ¬((!env.readable) = true ∨ 0x10000 < 0xd100 + offset.toNat + length.toNat) := by
      rw [hreadable]
      rintro (hnot | hlong)
      · exact Bool.noConfusion hnot
      · omega
    have huser : (env.user (dumpRequest offset length)).fault = env.fault := rfl
    rw [if_neg hin]
    simp only [hvalid, Bool.true_eq_false, if_false, hlength, huser]
    by_cases hmissing : env.fault.getD length.toNat < length.toNat
    · simp only [hmissing, if_true, hfault, Int.neg_neg]
    · simp only [hmissing, if_false, Int.lt_irrefl]
  · have hout : (!env.readable) = true ∨ 0x10000 < 0xd100 + offset.toNat + length.toNat := by
      rw [isValidParam_user h, not_and_or] at hvalid
      refine hvalid.imp (fun hread => ?_) (fun hrange => by omega)
      rw [Bool.not_eq_true] at hread
      rw [hread]
      rfl
    rw [Bool.not_eq_true] at hvalid
    simp only [hvalid, if_true, hinval, Int.neg_neg]
    rw [if_pos hout]

/-- The check of the offset. -/
theorem offset_gt_iff {offset : UInt64} :
    offset > 0xffff - kUnknownOffset.toUInt64 ↔ 0x2eff < offset.toNat := by
  have hmax : (0xffff - kUnknownOffset.toUInt64 : UInt64).toNat = 0x2eff := by decide
  rw [gt_iff_lt, UInt64.lt_iff_toNat_lt, hmax]

/-- Setting the type never fails, so `dump` ends as its description on the array says. -/
theorem dump_result {d : Driver} {memory : Memory} (h : d.Refines memory) {env : Env}
    (hs : d.sessions env.fd = none) (offset length : UInt64) (stdout : List (List Char)) :
    (dump env offset length ⟨d, stdout⟩).1 =
      (memory.dump env offset length).map fun _ => () := by
  unfold dump Memory.dump
  by_cases hoffset : offset > 0xffff - kUnknownOffset.toUInt64
  · rw [if_pos hoffset, if_pos (offset_gt_iff.1 hoffset)]
    rfl
  have hsmall : ¬0x2eff < offset.toNat := fun hlarge => hoffset (offset_gt_iff.2 hlarge)
  rw [if_neg hoffset, if_neg hsmall]
  by_cases hlength : length.toNat > aecramBufferSize
  · rw [if_pos hlength, if_pos hlength]
    rfl
  rw [if_neg hlength, if_neg hlength]
  have henomem : -ENOMEM < 0 := by decide
  cases hallocated : env.allocated with
  | false =>
    have hopen : d.call (.open env.fd false) = (⟨-ENOMEM, none⟩, d) := by
      rw [Driver.call, hs]
      rfl
    simp only [hopen, henomem, if_true, Int.neg_neg, Bool.not_false]
    rfl
  | true =>
    have hopen : d.call (.open env.fd true) = (⟨0, none⟩,
        ⟨d.machine, Function.update d.sessions env.fd (some ⟨none⟩)⟩) := by
      rw [Driver.call, hs]
      rfl
    have hopened := dumpOpened_result (checked_iff.2 ⟨hoffset, hlength⟩)
      (u := ⟨⟨d.machine, Function.update d.sessions env.fd (some ⟨none⟩)⟩, stdout⟩) h.ready
      (Function.update_self _ _ _)
    simp only [hopen, Int.lt_irrefl, if_false, Bool.not_true, Bool.false_eq_true, hopened]
    split_ifs
    · rfl
    · rfl
    · rfl
    · rfl

/-- `dump` fails and prints nothing, or prints bytes of the memory. -/
theorem dump_ends (env : Env) (offset length : UInt64) (u : Utility) :
    let r := dump env offset length u
    (∃ what, r.1 = .error what ∧ r.2.stdout = u.stdout) ∨
      (r.1 = .ok () ∧ r.2.stdout = u.stdout
        ++ memoryLines u.driver.machine.controller.ram offset.toNat length.toNat) := by
  by_cases h : Checked offset length
  · exact (dump_checked_cases env h u).2.imp_right fun ⟨hok, _, hstdout⟩ => ⟨hok, hstdout⟩
  · obtain ⟨what, hwhat⟩ := dump_unchecked env h u
    rw [hwhat]
    exact .inl ⟨what, rfl, rfl⟩

theorem Memory.dump_ok {memory : Memory} {env : Env} {offset length : UInt64}
    {lines : List (List Char)} (h : memory.dump env offset length = .ok lines) :
    lines = memoryLines memory.bytes offset.toNat length.toNat := by
  unfold Memory.dump at h
  split_ifs at h
  exact (Except.ok.inj h).symm

/-- **`dump` is its description on the array**: it ends and prints alike, and the driver stands
for the same array and the same sessions. -/
theorem dump_refines {d : Driver} {memory : Memory} (h : d.Refines memory) {env : Env}
    (hs : d.sessions env.fd = none) (offset length : UInt64) (stdout : List (List Char)) :
    let r := dump env offset length ⟨d, stdout⟩
    r.1 = ((memory.dump env offset length).map fun _ => ()) ∧
      r.2.stdout = stdout ++ (memory.dump env offset length).toOption.getD [] ∧
      r.2.driver.Refines memory ∧ r.2.driver.sessions = d.sessions := by
  have hresult := dump_result h hs offset length stdout
  have hsessions := dump_sessions env offset length ⟨d, stdout⟩
  obtain ⟨hready, hram⟩ := dump_machine env offset length (u := ⟨d, stdout⟩) h.ready
  refine ⟨hresult, ?_, ⟨hready, hram.trans h.bytes, ?_, ?_⟩, hsessions⟩
  · rcases dump_ends env offset length ⟨d, stdout⟩ with ⟨what, herror, hstdout⟩ | ⟨hok, hstdout⟩
    · rw [hresult] at herror
      cases hdump : memory.dump env offset length with
      | error what' => rw [hstdout, Except.toOption, Option.getD_none, List.append_nil]
      | ok lines =>
        rw [hdump] at herror
        cases herror
    · rw [hresult] at hok
      cases hdump : memory.dump env offset length with
      | error what =>
        rw [hdump] at hok
        cases hok
      | ok lines =>
        rw [hstdout, Except.toOption, Option.getD_some, Memory.dump_ok hdump, h.bytes]
  · rw [hsessions]
    exact h.default
  · rw [hsessions]
    exact h.sessions

/-- **A run of the utility** prints and ends as on the array, and leaves the array and every
session. -/
theorem main_refines {d : Driver} {memory : Memory} (h : d.Refines memory) (desc : List Char)
    {env : Env} (hs : d.sessions env.fd = none) (vm : Options) :
    (main desc env vm d).1 = memory.util desc env vm ∧
      (main desc env vm d).2.Refines memory ∧
      (main desc env vm d).2.sessions = d.sessions := by
  obtain ⟨help, offset, length⟩ := vm
  cases help with
  | true => exact ⟨rfl, h, rfl⟩
  | false =>
    cases offset with
    | none => exact ⟨rfl, h, rfl⟩
    | some offset =>
      cases length with
      | none => exact ⟨rfl, h, rfl⟩
      | some length =>
        obtain ⟨hresult, hstdout, hrefines, hsessions⟩ := dump_refines h hs offset length []
        refine ⟨?_, hrefines, hsessions⟩
        have hmain : (main desc env ⟨false, some offset, some length⟩ d).1 =
            Exit.ofDump (dump env offset length ⟨d, []⟩).2.stdout
              (dump env offset length ⟨d, []⟩).1 := rfl
        rw [hmain, hresult, hstdout, List.nil_append]
        unfold Memory.util
        cases hdump : memory.dump env offset length with
        | error what =>
          simp only [hdump]
          rfl
        | ok lines =>
          simp only [hdump]
          rfl

/-! ### Histories -/

/-- What happens to the driver: a call of some client, or a run of the utility. -/
inductive Act where
  | call (c : Call)
  | util (desc : List Char) (env : Env) (vm : Options)

/-- What is seen of it. -/
inductive Seen where
  | reply (r : Reply)
  | exit (e : Exit)
  deriving DecidableEq

/-- The calls of the other clients. -/
def Act.call? : Act → Option Call
  | .call c => some c
  | .util _ _ _ => none

/-- What the other clients see. -/
def Seen.reply? : Seen → Option Reply
  | .reply r => some r
  | .exit _ => none

def Driver.act (d : Driver) : Act → Seen × Driver
  | .call c =>
    let (reply, d) := d.call c
    (.reply reply, d)
  | .util desc env vm =>
    let (exit, d) := main desc env vm d
    (.exit exit, d)

/-- On the array a run of the utility changes nothing. -/
def Memory.act (memory : Memory) : Act → Seen × Memory
  | .call c =>
    let (reply, memory) := memory.call c
    (.reply reply, memory)
  | .util desc env vm => (.exit (memory.util desc env vm), memory)

/-- A client's request that nothing faults on, or a run of the utility to which the kernel gives a
descriptor of its own. -/
def Driver.Allows (d : Driver) : Act → Prop
  | .call c => c.Plain
  | .util _ env _ => d.sessions env.fd = none

/-- The calls of a history. -/
def calls (acts : List Act) : List Call := acts.filterMap Act.call?

/-- The runs of the utility can be left out of a history on the array. -/
theorem Memory.replies_act (memory : Memory) (acts : List Act) :
    (replies Memory.act memory acts).filterMap Seen.reply?
        = replies Memory.call memory (calls acts) ∧
      after Memory.act memory acts = after Memory.call memory (calls acts) := by
  induction acts generalizing memory with
  | nil => exact ⟨rfl, rfl⟩
  | cons act acts ih =>
    cases act with
    | call c =>
      obtain ⟨hreplies, hafter⟩ := ih (memory.call c).2
      refine ⟨?_, hafter⟩
      show (memory.call c).1 :: _ = (memory.call c).1 :: _
      exact congrArg _ hreplies
    | util desc env vm => exact ih memory

/-- One step of a history on the driver is the step on the array. -/
theorem act_refines {d : Driver} {memory : Memory} (h : d.Refines memory) {act : Act}
    (hallows : d.Allows act) :
    (d.act act).1 = (memory.act act).1 ∧ (d.act act).2.Refines (memory.act act).2 := by
  cases act with
  | call c =>
    obtain ⟨hreply, hrefines, -⟩ := Driver.call_refines h c hallows
    exact ⟨congrArg Seen.reply hreply, hrefines⟩
  | util desc env vm =>
    obtain ⟨hexit, hrefines, -⟩ := main_refines h desc hallows vm
    exact ⟨congrArg Seen.exit hexit, hrefines⟩

theorem plain_calls {d : Driver} {acts : List Act}
    (h : Along (fun d act => (d.act act).2) Driver.Allows d acts) : ∀ c ∈ calls acts, c.Plain := by
  induction acts generalizing d with
  | nil => exact fun c hc => absurd hc List.not_mem_nil
  | cons act acts ih =>
    cases act with
    | call c =>
      intro c' hc'
      rcases List.mem_cons.1 hc' with rfl | hc'
      · exact h.1
      · exact ih h.2 c' hc'
    | util desc env vm => exact ih h.2

/-- Two drivers that stand for the same array have the same sessions. -/
theorem Driver.Refines.sessions_eq {d d' : Driver} {memory : Memory} (h : d.Refines memory)
    (h' : d'.Refines memory) : d.sessions = d'.sessions := by
  funext fd
  have hconfigured := (h.sessions fd).symm.trans (h'.sessions fd)
  cases hs : d.sessions fd with
  | none =>
    rw [hs, Option.map_none, eq_comm, Option.map_eq_none_iff] at hconfigured
    exact hconfigured.symm
  | some session =>
    cases hs' : d'.sessions fd with
    | none =>
      rw [hs, hs'] at hconfigured
      cases hconfigured
    | some session' =>
      rw [hs, hs'] at hconfigured
      have hsome : session.config.isSome = session'.config.isSome := Option.some.inj hconfigured
      have hdefault := h.default fd session hs
      have hdefault' := h'.default fd session' hs'
      obtain ⟨config⟩ := session
      obtain ⟨config'⟩ := session'
      rcases hdefault with rfl | rfl <;> rcases hdefault' with rfl | rfl
      · rfl
      · cases hsome
      · cases hsome
      · rfl

/-- **The utility among other clients.**  In every history of the driver that is allowed, from its
loading on and without a signal, with runs of the utility anywhere between the calls, each run
prints and ends as its description says on the array as the calls before have left it, and the
other clients get the answers, the sessions and the memory of the history without the utility. -/
theorem Driver.history (controller : Controller) (buffer : Buffer) (acts : List Act)
    (hacts : Along (fun d act => (d.act act).2) Driver.Allows (Driver.loaded controller buffer)
      acts) :
    let start := Driver.loaded controller buffer
    let final := after Driver.act start acts
    let alone := after Driver.call start (calls acts)
    replies Driver.act start acts
        = replies Memory.act ⟨controller.ram, fun _ => none⟩ acts ∧
      (replies Driver.act start acts).filterMap Seen.reply?
        = replies Driver.call start (calls acts) ∧
      final.sessions = alone.sessions ∧
      final.machine.controller.ram = alone.machine.controller.ram := by
  intro start final alone
  have hstart : start.Refines ⟨controller.ram, fun _ => none⟩ := refines_loaded controller buffer
  obtain ⟨hseen, hfinal⟩ := replies_simulates Driver.Refines
    (fun d memory act hok h => @act_refines d memory h act hok) hstart acts hacts
  obtain ⟨hcalls, halone⟩ := replies_simulates Driver.Refines
    (fun d memory c hok h => ⟨(call_refines h c hok).1, (call_refines h c hok).2.1⟩)
    hstart (calls acts) (along_of_forall (plain_calls hacts) start)
  obtain ⟨hreplies, hafter⟩ := Memory.replies_act ⟨controller.ram, fun _ => none⟩ acts
  rw [hafter] at hfinal
  refine ⟨hseen, ?_, hfinal.sessions_eq halone, hfinal.bytes.trans halone.bytes.symm⟩
  rw [hseen, hreplies]
  exact hcalls.symm

/-- Nothing stands in the way of the utility. -/
def sampleEnv : Env := ⟨4, true, true, true, none, fun _ => "Invalid argument"⟩

/-- A client writes two bytes, the utility reads them and then runs over the end of the memory,
and the client reads what is after its bytes. -/
def sampleActs : List Act :=
  [.call (.open 3 true), .call (.ioctl 3 (.setType 1)),
    .call (.ioctl 3 (.write (.mapped ⟨0xd101, 2, Vector.replicate 64 255⟩))),
    .util [] sampleEnv ⟨false, some 1, some 2⟩, .util [] sampleEnv ⟨false, some 0x2eff, some 2⟩,
    .call (.ioctl 3 (.read (.mapped ⟨0xd103, 64, Vector.replicate 64 0⟩)))]

theorem Driver.history_sampleActs :
    (replies Driver.act (loaded ⟨1, 2, 3, 4, fun _ => 5⟩ (Vector.replicate 64 6))
        sampleActs).drop 3 =
      [.exit ⟨0, ["ff\n".toList, "ff\n".toList], []⟩,
        .exit ⟨-3, [], ["error: dump failed: failed to read AECRAM: Invalid argument"]⟩,
        .reply ⟨0, some (Vector.replicate 64 5)⟩] := by
  have hallowed : Along (fun d act => (Driver.act d act).2) Driver.Allows
      (loaded ⟨1, 2, 3, 4, fun _ => 5⟩ (Vector.replicate 64 6)) sampleActs :=
    ⟨trivial, trivial, ⟨rfl, ⟨rfl, rfl⟩, rfl, by decide⟩, rfl, rfl,
      ⟨rfl, ⟨rfl, rfl⟩, rfl, by decide⟩, trivial⟩
  obtain ⟨hseen, -⟩ := history ⟨1, 2, 3, 4, fun _ => 5⟩ (Vector.replicate 64 6) sampleActs hallowed
  rw [hseen]
  decide +kernel

end Aecram
end TjTools
