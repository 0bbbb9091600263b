/-
# `aecram_util`

`AECRAM::dump` of `src/src/aecram_util.cpp` prints bytes of the memory at an offset from
`kUnknownOffset`, over a request to the driver.  It checks the offset and the length as 64-bit
numbers and then narrows both for the request; the driver checks the narrowed numbers, and
adds the index of each byte with 16 bits.

The driver here may be in any state, with other sessions open; its attempts to take the mutex
may be interrupted, and the request may fault.  In every case `dump` throws or prints the bytes
that were asked for (`dump_prints_ram`); where nothing of this happens it prints them (`dump_ok`).
-/

import TjTools.Aecram.Memory

namespace TjTools
namespace Aecram

/-- `kUnknownOffset` -/
def kUnknownOffset : UInt16 := 0xd100

/-- What `dump` finds: the descriptor the kernel gives it, whether the driver can make a
session, what the request faults on, and the texts of the error numbers.  The numbers of the request
lie side by side on its stack, and are readable both or none. -/
structure Env where
  fd : ℕ
  allocated : Bool
  accessOk : Bool
  readable : Bool
  fault : Option ℕ
  strerror : ℤ → String

/-- The utility, before the driver. -/
structure Utility where
  driver : Driver
  /-- The lines on `std::cout`. -/
  stdout : List (List Char)

/-- A byte as `std::hex` prints it, and `std::endl`. -/
def hexLine (b : UInt8) : List Char := Nat.toDigits 16 b.toNat ++ ['\n']

/-- The request for some bytes, its numbers narrowed. -/
def dumpRequest (offset length : UInt64) : Request where
  offset := (kUnknownOffset.toUInt64 + offset).toUInt16
  length := length.toUInt8
  buffer := Vector.replicate aecramBufferSize 0

/-- The request of `dump`, as the kernel finds it. -/
def Env.user (env : Env) (req : Request) : User :=
  ⟨req, env.accessOk, env.readable, env.readable, env.fault⟩

/-- What `dump` does with the open device. -/
def dumpOpened (env : Env) (offset length : UInt64) (u : Utility) :
    Except String Unit × Utility :=
  let (reply, driver) := u.driver.call (.ioctl env.fd (.setType aecramTypeAyaneo))
  let u := { u with driver := driver }
  if reply.ret < 0 then
    (.error ("failed to set AECRAM type: " ++ env.strerror (-reply.ret)), u)
  else
    let req := dumpRequest offset length
    let (reply, driver) :=
      u.driver.call (.ioctl env.fd (.read (env.user req)))
    let u := { u with driver := driver }
    if reply.ret < 0 then
      (.error ("failed to read AECRAM: " ++ env.strerror (-reply.ret)), u)
    else
      let buffer := reply.buffer.getD req.buffer
      (.ok (), { u with
        stdout := u.stdout ++ (List.range length.toNat).map fun i => hexLine (cell buffer i) })

/-- `AECRAM::dump` -/
def dump (env : Env) (offset length : UInt64) (u : Utility) : Except String Unit × Utility :=
  if offset > 0xffff - kUnknownOffset.toUInt64 then (.error "invalid offset", u)
  else if length.toNat > aecramBufferSize then (.error "invalid length", u)
  else
    let (reply, driver) := u.driver.call (.open env.fd env.allocated)
    let u := { u with driver := driver }
    if reply.ret < 0 then
      (.error ("failed to open AECRAM device: " ++ env.strerror (-reply.ret)), u)
    else
      let (result, u) := dumpOpened env offset length u
      (result, { u with driver := (u.driver.call (.close env.fd)).2 })

/-! ### The narrowed numbers -/

/-- The offset is in the part of the memory above `kUnknownOffset`, and the length fits the
buffer. -/
def Checked (offset length : UInt64) : Prop :=
  offset.toNat ≤ 0x2eff ∧ length.toNat ≤ aecramBufferSize

theorem checked_iff {offset length : UInt64} :
    Checked offset length ↔
      ¬offset > 0xffff - kUnknownOffset.toUInt64 ∧ ¬length.toNat > aecramBufferSize := by
  have hmax : (0xffff - kUnknownOffset.toUInt64 : UInt64).toNat = 0x2eff := by decide
  rw [Checked, gt_iff_lt, UInt64.lt_iff_toNat_lt, hmax]
  omega

/-- **Neither number changes when it is narrowed.** -/
theorem toNat_dumpRequest {offset length : UInt64} (h : Checked offset length) :
    (dumpRequest offset length).offset.toNat = 0xd100 + offset.toNat ∧
      (dumpRequest offset length).length.toNat = length.toNat := by
  obtain ⟨hoffset, hlength⟩ := h
  have hbase : kUnknownOffset.toUInt64.toNat = 0xd100 := by decide
  unfold aecramBufferSize at hlength
  constructor
  · rw [dumpRequest, UInt64.toNat_toUInt16, UInt64.toNat_add, hbase]
    omega
  · rw [dumpRequest, UInt64.toNat_toUInt8]
    omega

/-! ### The request -/

/-- A request that is not accessible or not valid gets an error and no port access. -/
theorem ioctlRead_refused {u : User}
    (h : u.accessOk = false ∨ isValidParam u.getOffset u.getLength = false) (m : Machine) :
    (ioctlRead u ⟨some configDefault⟩ m).1.ret < 0 ∧
      (ioctlRead u ⟨some configDefault⟩ m).2 = m := by
  have hfault : -EFAULT < 0 := by decide
  have hinval : -EINVAL < 0 := by decide
  unfold ioctlRead
  cases haccess : u.accessOk with
  | false =>
    simp only [Bool.not_false, if_true]
    exact ⟨hfault, trivial⟩
  | true =>
    have hinvalid := h.resolve_left (by rw [haccess]; exact Bool.noConfusion)
    simp only [Bool.not_true, Bool.false_eq_true, if_false, hinvalid, Bool.not_false, if_true]
    exact ⟨hinval, trivial⟩

/-- A valid request gets the bytes of its range, or an error. -/
theorem ioctlRead_valid {u : User} (haccess : u.accessOk = true)
    (hvalid : isValidParam u.getOffset u.getLength = true) (m : Machine) :
    let r := ioctlRead u ⟨some configDefault⟩ m
    r.2.controller.ram = m.controller.ram ∧
      (r.1.ret < 0 ∨ (r.1.ret = 0 ∧ ∃ buffer, r.1.buffer = some buffer ∧
        ∀ i < u.getLength.toNat,
          cell buffer i = m.controller.ram (u.getOffset + UInt16.ofNat i))) := by
  by_cases hzero : u.getLength = 0
  · rw [(ioctl_empty haccess hvalid hzero m).1, hzero]
    exact ⟨rfl, .inr ⟨rfl, _, rfl, fun i hi => absurd hi (Nat.not_lt_zero i)⟩⟩
  have htransfers : u.Transfers := ⟨haccess, hvalid, hzero⟩
  have hbound : 0 + u.getLength.toNat ≤ aecramBufferSize := by
    rw [Nat.zero_add]
    exact htransfers.inRange.1
  obtain ⟨hram, hends⟩ :=
    Machine.aecramReadBufferFrom_cases m u.getOffset 0 u.getLength.toNat hbound
  obtain ⟨r, hr⟩ : ∃ r, r = m.aecramReadBufferFrom configDefault u.getOffset 0
    u.getLength.toNat := ⟨_, rfl⟩
  rw [← hr] at hram hends
  rw [ioctlRead_transfers htransfers hr]
  rcases hends with hinterrupted | ⟨hret, hbuffer⟩
  · have hnegative : -EINTR < 0 := by decide
    have hne : r.1 ≠ 0 := by
      rw [hinterrupted]
      decide
    rw [if_neg hne, hinterrupted]
    exact ⟨hram, .inl hnegative⟩
  · rw [if_pos hret]
    refine ⟨hram, ?_⟩
    by_cases hmissing : u.fault.getD u.getLength.toNat < u.getLength.toNat
    · left
      simp only [User.copyTo, hmissing, decide_true, if_true]
      decide
    · right
      simp only [User.copyTo, hmissing, decide_false, Bool.false_eq_true, if_false]
      refine ⟨trivial, _, rfl, fun i hi => ?_⟩
      rw [cell_copyPrefix, if_pos (by omega), hbuffer, if_pos (by omega)]

/-- A valid request that nothing stands in the way of is answered. -/
theorem ioctlRead_calm {u : User} (haccess : u.accessOk = true)
    (hvalid : isValidParam u.getOffset u.getLength = true) (hfault : u.fault = none)
    {m : Machine} (hm : m.Calm) : (ioctlRead u ⟨some configDefault⟩ m).1.ret = 0 := by
  by_cases hzero : u.getLength = 0
  · rw [(ioctl_empty haccess hvalid hzero m).1]
  · obtain ⟨hret, -, -⟩ :=
      Machine.aecramReadBufferFrom_calm hm u.getOffset 0 u.getLength.toNat
    rw [ioctlRead_transfers ⟨haccess, hvalid, hzero⟩ rfl, if_pos hret]
    simp only [User.copyTo, hfault, Option.getD_none, Nat.lt_irrefl, decide_false,
      Bool.false_eq_true, if_false]

/-- What a configured session answers to a request to read, both numbers of which are readable or
none: it refuses an invalid one without a port access, and otherwise it fails or gives the bytes of
the range. -/
theorem ioctlRead_cases {u : User} (hboth : u.offsetReadable = u.lengthReadable) (m : Machine) :
    let r := ioctlRead u ⟨some configDefault⟩ m
    r.2.controller.ram = m.controller.ram ∧
      (isValidParam u.request.offset u.request.length = false → r.2.accesses = m.accesses) ∧
      (r.1.ret < 0 ∨
        (r.1.ret = 0 ∧ isValidParam u.request.offset u.request.length = true ∧
          ∃ buffer, r.1.buffer = some buffer ∧ ∀ i < u.request.length.toNat,
            cell buffer i = m.controller.ram (u.request.offset + UInt16.ofNat i))) := by
  by_cases h : u.accessOk = false ∨ isValidParam u.getOffset u.getLength = false
  · obtain ⟨hret, hmachine⟩ := ioctlRead_refused h m
    simp only [hmachine]
    exact ⟨trivial, fun _ => trivial, .inl hret⟩
  · obtain ⟨haccess, hvalid⟩ := not_or.1 h
    rw [Bool.not_eq_false] at haccess hvalid
    -- numbers that could not be read are an invalid request
    have hreadable : u.lengthReadable = true := by
      by_contra hunreadable
      rw [User.getOffset, User.getLength, hboth, if_neg hunreadable, if_neg hunreadable] at hvalid
      revert hvalid
      decide
    have hoffset : u.getOffset = u.request.offset := if_pos (hboth.trans hreadable)
    have hlength : u.getLength = u.request.length := if_pos hreadable
    obtain ⟨hram, hends⟩ := ioctlRead_valid haccess hvalid m
    rw [hoffset, hlength] at hends hvalid
    refine ⟨hram, fun hinvalid => ?_, ?_⟩
    · rw [hvalid] at hinvalid
      cases hinvalid
    · refine hends.imp_right ?_
      rintro ⟨hret, hbuffer⟩
      exact ⟨hret, hvalid, hbuffer⟩

/-! ### The calls of the utility -/

/-- The kernel opens the device, or nothing happens. -/
theorem call_open_cases (d : Driver) (fd : ℕ) (allocated : Bool) :
    ((d.call (.open fd allocated)).1.ret < 0 ∧ (d.call (.open fd allocated)).2 = d) ∨
      ((d.call (.open fd allocated)).1.ret = 0 ∧
        (d.call (.open fd allocated)).2.machine = d.machine ∧
          (d.call (.open fd allocated)).2.sessions fd = some ⟨none⟩) := by
  have hebadf : -EBADF < 0 := by decide
  have henomem : -ENOMEM < 0 := by decide
  rw [Driver.call]
  rcases hs : d.sessions fd with _ | session
  · cases allocated
    · exact .inl ⟨henomem, rfl⟩
    · exact .inr ⟨rfl, rfl, Function.update_self _ _ _⟩
  · exact .inl ⟨hebadf, rfl⟩

/-- Setting the type configures the session. -/
theorem call_setType {d : Driver} {fd : ℕ} {session : Session} (h : d.sessions fd = some session) :
    d.call (.ioctl fd (.setType aecramTypeAyaneo))
      = (⟨0, none⟩, ⟨d.machine, Function.update d.sessions fd (some ⟨some configDefault⟩)⟩) := by
  rw [Driver.call, h]
  rfl

/-- A request to read, through a configured session. -/
theorem call_read_cases {d : Driver} {fd : ℕ} (h : d.sessions fd = some ⟨some configDefault⟩)
    {u : User} (hboth : u.offsetReadable = u.lengthReadable) :
    let r := d.call (.ioctl fd (.read u))
    r.2.machine.controller.ram = d.machine.controller.ram ∧
      (isValidParam u.request.offset u.request.length = false →
        r.2.machine.accesses = d.machine.accesses) ∧
      (r.1.ret < 0 ∨
        (r.1.ret = 0 ∧ isValidParam u.request.offset u.request.length = true ∧
          ∃ buffer, r.1.buffer = some buffer ∧ ∀ i < u.request.length.toNat,
            cell buffer i = d.machine.controller.ram (u.request.offset + UInt16.ofNat i))) := by
  rw [Driver.call, h]
  exact ioctlRead_cases hboth d.machine

theorem call_close_machine (d : Driver) (fd : ℕ) :
    (d.call (.close fd)).2.machine = d.machine := by
  rw [Driver.call]
  rcases d.sessions fd with _ | session <;> rfl

/-- A range that the driver accepts lies in the memory, and its addresses do not wrap. -/
theorem address_dumpRequest {offset length : UInt64} (h : Checked offset length)
    (hvalid : isValidParam (dumpRequest offset length).offset (dumpRequest offset length).length
      = true) :
    0xd100 + offset.toNat + length.toNat ≤ 0x10000 ∧ ∀ i < length.toNat,
      (dumpRequest offset length).offset + UInt16.ofNat i
        = UInt16.ofNat (0xd100 + offset.toNat + i) := by
  obtain ⟨hoffset, hlength⟩ := toNat_dumpRequest h
  obtain ⟨-, hrange, -⟩ := (isValidParam_iff _ _).1 hvalid
  rw [hoffset, hlength] at hrange
  refine ⟨hrange, fun i hi => ?_⟩
  apply UInt16.toNat_inj.1
  rw [Machine.toNat_add_ofNat _ i (by omega), hoffset, UInt16.toNat_ofNat']
  omega

/-- What is printed of the memory. -/
def memoryLines (ram : UInt16 → UInt8) (offset length : ℕ) : List (List Char) :=
  (List.range length).map fun i => hexLine (ram (UInt16.ofNat (0xd100 + offset + i)))

/-- What `dump` does with the open device: it fails, or prints the bytes that were asked for. -/
theorem dumpOpened_cases {env : Env} {offset length : UInt64} (h : Checked offset length)
    {u : Utility} {session : Session} (hs : u.driver.sessions env.fd = some session) :
    let r := dumpOpened env offset length u
    r.2.driver.machine.controller.ram = u.driver.machine.controller.ram ∧
      (isValidParam (dumpRequest offset length).offset (dumpRequest offset length).length = false →
        r.2.driver.machine.accesses = u.driver.machine.accesses) ∧
      ((∃ what, r.1 = .error what ∧ r.2.stdout = u.stdout) ∨
        (r.1 = .ok () ∧
          isValidParam (dumpRequest offset length).offset (dumpRequest offset length).length
            = true ∧
          r.2.stdout = u.stdout
            ++ memoryLines u.driver.machine.controller.ram offset.toNat length.toNat)) := by
  have hconfigured : (Driver.mk u.driver.machine (Function.update u.driver.sessions env.fd
      (some ⟨some configDefault⟩))).sessions env.fd = some ⟨some configDefault⟩ :=
    Function.update_self _ _ _
  obtain ⟨hram, haccesses, hends⟩ := call_read_cases hconfigured
    (u := env.user (dumpRequest offset length)) rfl
  unfold dumpOpened
  simp only [call_setType hs, Int.lt_irrefl, if_false]
  generalize Driver.call _ (.ioctl env.fd (.read _)) = r at hram haccesses hends
  rcases hends with hfails | ⟨hret, hvalid, buffer, hbuffer, hcells⟩
  · simp only [hfails, if_true]
    exact ⟨hram, haccesses, .inl ⟨_, rfl, trivial⟩⟩
  · simp only [hret, Int.lt_irrefl, if_false, hbuffer, Option.getD_some]
    refine ⟨hram, haccesses, .inr ⟨trivial, hvalid, ?_⟩⟩
    have haddress := (address_dumpRequest h hvalid).2
    have hbytes : ∀ i < (dumpRequest offset length).length.toNat, cell buffer i =
        u.driver.machine.controller.ram ((dumpRequest offset length).offset + UInt16.ofNat i) :=
      hcells
    rw [memoryLines]
    refine congrArg _ (List.map_congr_left fun i hi => ?_)
    have hlt : i < length.toNat := List.mem_range.1 hi
    rw [hbytes i (by rw [(toNat_dumpRequest h).2]; exact hlt), haddress i hlt]

/-- Numbers that the utility refuses do not get to the driver. -/
theorem dump_unchecked (env : Env) {offset length : UInt64} (h : ¬Checked offset length)
    (u : Utility) : ∃ what, dump env offset length u = (.error what, u) := by
  rw [checked_iff, not_and_or, not_not, not_not] at h
  rw [dump]
  rcases h with hoffset | hlength
  · exact ⟨_, if_pos hoffset⟩
  · rw [if_pos hlength]
    split_ifs
    · exact ⟨_, rfl⟩
    · exact ⟨_, rfl⟩

/-- What `dump` does with numbers that the utility accepts: it fails, or prints the bytes that
were asked for. -/
theorem dump_checked_cases (env : Env) {offset length : UInt64} (h : Checked offset length)
    (u : Utility) :
    let r := dump env offset length u
    (isValidParam (dumpRequest offset length).offset (dumpRequest offset length).length = false →
        r.2.driver.machine.accesses = u.driver.machine.accesses) ∧
      ((∃ what, r.1 = .error what ∧ r.2.stdout = u.stdout) ∨
        (r.1 = .ok () ∧
          isValidParam (dumpRequest offset length).offset (dumpRequest offset length).length
            = true ∧
          r.2.stdout = u.stdout
            ++ memoryLines u.driver.machine.controller.ram offset.toNat length.toNat)) := by
  obtain ⟨hoffset, hlength⟩ := checked_iff.1 h
  unfold dump
  simp only [hoffset, hlength, if_false]
  rcases call_open_cases u.driver env.fd env.allocated with ⟨hret, hsame⟩ | ⟨hret, hmachine, hs⟩
  · simp only [hret, if_true, hsame]
    exact ⟨fun _ => trivial, .inl ⟨_, rfl, trivial⟩⟩
  · generalize u.driver.call (.open env.fd env.allocated) = opened at hret hmachine hs
    obtain ⟨-, haccesses, hends⟩ := dumpOpened_cases h (u := { u with driver := opened.2 }) hs
    simp only [hret, Int.lt_irrefl, if_false, call_close_machine, ← hmachine]
    exact ⟨haccesses, hends⟩

/-- The descriptor is free, there is memory for a session, and nothing interrupts the driver or
faults. -/
structure Unhindered (env : Env) (d : Driver) : Prop where
  free : d.sessions env.fd = none
  allocated : env.allocated = true
  accessOk : env.accessOk = true
  readable : env.readable = true
  fault : env.fault = none
  calm : d.machine.Calm

theorem dumpOpened_ok {env : Env} {offset length : UInt64} {u : Utility} {session : Session}
    (hs : u.driver.sessions env.fd = some session)
    (hread : (ioctlRead (env.user (dumpRequest offset length)) ⟨some configDefault⟩
      u.driver.machine).1.ret = 0) :
    (dumpOpened env offset length u).1 = .ok () := by
  have hcall : ((Driver.mk u.driver.machine (Function.update u.driver.sessions env.fd
      (some ⟨some configDefault⟩))).call (.ioctl env.fd (.read
        (env.user (dumpRequest offset length))))).1.ret = 0 := by
    rw [Driver.call]
    simp only [Function.update_self, aecramUnlockedIoctl]
    exact hread
  unfold dumpOpened
  simp only [call_setType hs, hcall, Int.lt_irrefl, if_false]

/-- `dump` does not throw on bytes of the memory, where nothing stands in its way. -/
theorem dump_ok {env : Env} {offset length : UInt64} {u : Utility}
    (hu : Unhindered env u.driver) (h : Checked offset length)
    (hrange : 0xd100 + offset.toNat + length.toNat ≤ 0x10000) :
    (dump env offset length u).1 = .ok () := by
  obtain ⟨hoffset, hlength⟩ := checked_iff.1 h
  have hvalid : isValidParam (dumpRequest offset length).offset (dumpRequest offset length).length
      = true := by
    rw [isValidParam_iff, (toNat_dumpRequest h).1, (toNat_dumpRequest h).2]
    exact ⟨h.2, hrange, by omega⟩
  have hopen : u.driver.call (.open env.fd env.allocated) = (⟨0, none⟩,
      ⟨u.driver.machine, Function.update u.driver.sessions env.fd (some ⟨none⟩)⟩) := by
    rw [Driver.call, hu.free, hu.allocated]
    rfl
  have hread : (ioctlRead (env.user (dumpRequest offset length)) ⟨some configDefault⟩
      u.driver.machine).1.ret = 0 := by
    refine ioctlRead_calm hu.accessOk ?_ hu.fault hu.calm
    rw [User.getOffset, User.getLength, Env.user, hu.readable]
    exact hvalid
  unfold dump
  simp only [hoffset, hlength, if_false, hopen, Int.lt_irrefl]
  exact dumpOpened_ok (Function.update_self _ _ _) hread

/-- **`dump` throws, or prints the bytes that were asked for.**  On a request that one of the
two checks refuses it throws without a port access; where it gets past its own check the
numbers are those it was given, and where it gets past the driver's so are the addresses. -/
theorem dump_prints_ram (env : Env) (offset length : UInt64) (u : Utility) :
    let r := dump env offset length u
    let req := dumpRequest offset length
    ((∃ what, r.1 = .error what ∧ r.2.stdout = u.stdout) ∨
        (r.1 = .ok () ∧ 0xd100 + offset.toNat + length.toNat ≤ 0x10000 ∧
          r.2.stdout = u.stdout
            ++ memoryLines u.driver.machine.controller.ram offset.toNat length.toNat)) ∧
      (Checked offset length →
        req.offset.toNat = 0xd100 + offset.toNat ∧ req.length.toNat = length.toNat ∧
          (isValidParam req.offset req.length = true → ∀ i < length.toNat,
            (req.offset + UInt16.ofNat i).toNat = 0xd100 + offset.toNat + i)) ∧
      ((¬Checked offset length ∨ isValidParam req.offset req.length = false) →
        (∃ what, r.1 = .error what) ∧
          r.2.driver.machine.accesses = u.driver.machine.accesses) := by
  intro r req
  by_cases h : Checked offset length
  · obtain ⟨haccesses, hends⟩ := dump_checked_cases env h u
    refine ⟨hends.imp_right fun ⟨hok, hvalid, hstdout⟩ =>
      ⟨hok, (address_dumpRequest h hvalid).1, hstdout⟩, fun _ => ?_, fun hrefused => ?_⟩
    · refine ⟨(toNat_dumpRequest h).1, (toNat_dumpRequest h).2, fun hvalid i hi => ?_⟩
      obtain ⟨hrange, haddress⟩ := address_dumpRequest h hvalid
      rw [haddress i hi, UInt16.toNat_ofNat']
      omega
    · have hinvalid := hrefused.resolve_left (not_not.2 h)
      refine ⟨?_, haccesses hinvalid⟩
      rcases hends with ⟨what, herror, -⟩ | ⟨-, hvalid, -⟩
      · exact ⟨what, herror⟩
      · rw [hinvalid] at hvalid
        cases hvalid
  · obtain ⟨what, hwhat⟩ := dump_unchecked env h u
    have herror : r.1 = .error what := congrArg Prod.fst hwhat
    have hsame : r.2 = u := congrArg Prod.snd hwhat
    refine ⟨.inl ⟨what, herror, by rw [hsame]⟩, fun hchecked => absurd hchecked h, fun _ => ?_⟩
    exact ⟨⟨what, herror⟩, by rw [hsame]⟩

end Aecram
end TjTools
