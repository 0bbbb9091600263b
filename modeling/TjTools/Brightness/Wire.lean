/-
# The wire grammar

Which datagrams are commands, said apart from the code: `Denotes d cmd` lists the
five forms `[type, len] ++ payload`.  `Command.encode` writes a command in its form,
and a datagram denotes at most one command.

`handleFrame` and the receive handler accept in three places: at least two bytes,
a length byte of at most 32 that agrees with the bytes received, and the length that
the type asks for.  `decode` is what they accept together (`receive_run`), and
`denotes_iff_decode` says that it is the grammar.  A datagram longer than the buffer
is reported with 64 bytes, so its length byte would have to be 62 and the second check
refuses it.
-/

import TjTools.Brightness.Socket

namespace TjTools
namespace Brightness

open SocketContext

/-- The grammar of datagrams.  The payload of `SetState` is a little-endian unsigned
number, that of `ModifyState` a little-endian number in two's complement. -/
inductive Denotes : List UInt8 → Command → Prop where
  | setState {payload : List UInt8} (h : payload.length = 4) :
    Denotes (0 :: 4 :: payload) (.setState (LittleEndian.u32 payload))
  | modifyState {payload : List UInt8} (h : payload.length = 4) :
    Denotes (1 :: 4 :: payload) (.modifyState (LittleEndian.i32 payload))
  | saveState : Denotes [2, 0] .saveState
  | restoreState : Denotes [3, 0] .restoreState
  | setPowersave : Denotes [4, 0] .setPowersave

/-- The datagram of a command. -/
def Command.encode : Command → List UInt8
  | .setState value => 0 :: 4 :: LittleEndian.ofU32 value
  | .modifyState value => 1 :: 4 :: LittleEndian.ofU32 value.toUInt32
  | .saveState => [2, 0]
  | .restoreState => [3, 0]
  | .setPowersave => [4, 0]

theorem denotes_encode (cmd : Command) : Denotes cmd.encode cmd := by
  cases cmd with
  | setState v =>
    have h := Denotes.setState (LittleEndian.length_ofU32 v)
    rwa [LittleEndian.u32_ofU32] at h
  | modifyState v =>
    have h := Denotes.modifyState (LittleEndian.length_ofU32 v.toUInt32)
    rwa [LittleEndian.i32, LittleEndian.u32_ofU32, Int32.toInt32_toUInt32] at h
  | saveState => exact .saveState
  | restoreState => exact .restoreState
  | setPowersave => exact .setPowersave

namespace CommandType

/-- The byte of a type. -/
def byte : CommandType → UInt8
  | .setState => 0
  | .modifyState => 1
  | .saveState => 2
  | .restoreState => 3
  | .setPowersave => 4

theorem ofByte?_eq_some {b : UInt8} {t : CommandType} : ofByte? b = some t ↔ b = t.byte := by
  constructor
  · intro h
    apply UInt8.toNat_inj.1
    unfold ofByte? at h
    split at h <;> simp only [reduceCtorEq, Option.some.injEq] at h <;> subst h <;> assumption
  · rintro rfl
    cases t <;> rfl

/-- The payload length `handleFrame` asks for. -/
def length : CommandType → ℕ
  | .setState => 4
  | .modifyState => 4
  | .saveState => 0
  | .restoreState => 0
  | .setPowersave => 0

/-- The text of the exception where the length is another one. -/
def malformed : CommandType → String
  | .setState => "malformed set state"
  | .modifyState => "malformed modify state"
  | .saveState => "malformed save state"
  | .restoreState => "malformed restore state"
  | .setPowersave => "malformed set powerstate"

/-- The command of a type and a payload. -/
def command (payload : List UInt8) : CommandType → Command
  | .setState => .setState (LittleEndian.u32 payload)
  | .modifyState => .modifyState (LittleEndian.i32 payload)
  | .saveState => .saveState
  | .restoreState => .restoreState
  | .setPowersave => .setPowersave

/-- Bytes after a payload of the right length are not read. -/
theorem command_append (t : CommandType) {payload : List UInt8} (h : payload.length = t.length)
    (rest : List UInt8) : t.command (payload ++ rest) = t.command payload := by
  cases t with
  | setState => simp [command, LittleEndian.u32_append_of_le h.ge]
  | modifyState => simp [command, LittleEndian.i32, LittleEndian.u32_append_of_le h.ge]
  | saveState | restoreState | setPowersave => rfl

end CommandType

/-- What the three checks accept together. -/
def decode : List UInt8 → Option Command
  | type :: len :: payload =>
    match CommandType.ofByte? type with
    | none => none
    | some t =>
      if payload.length = len.toNat ∧ len.toNat = t.length then some (t.command payload) else none
  | _ => none

/-- **The grammar is what the checks accept.** -/
theorem denotes_iff_decode (d : List UInt8) (cmd : Command) :
    Denotes d cmd ↔ decode d = some cmd := by
  constructor
  · intro h
    cases h with
    | setState h => simp [decode, CommandType.ofByte?, CommandType.length, CommandType.command, h]
    | modifyState h =>
      simp [decode, CommandType.ofByte?, CommandType.length, CommandType.command, h]
    | saveState | restoreState | setPowersave => rfl
  · intro h
    unfold decode at h
    split at h
    · rename_i type len payload
      split at h
      · cases h
      · rename_i t ht
        rw [CommandType.ofByte?_eq_some] at ht
        subst ht
        split_ifs at h with hlen
        obtain ⟨hpayload, hlen⟩ := hlen
        obtain rfl := Option.some.inj h
        have hbyte : len = UInt8.ofNat t.length := by rw [← hlen, UInt8.ofNat_toNat]
        have hcount : payload.length = t.length := hpayload.trans hlen
        subst hbyte
        cases t with
        | setState => exact .setState hcount
        | modifyState => exact .modifyState hcount
        | saveState => obtain rfl := List.length_eq_zero_iff.1 hcount; exact .saveState
        | restoreState => obtain rfl := List.length_eq_zero_iff.1 hcount; exact .restoreState
        | setPowersave => obtain rfl := List.length_eq_zero_iff.1 hcount; exact .setPowersave
    · cases h

instance (d : List UInt8) (cmd : Command) : Decidable (Denotes d cmd) :=
  decidable_of_iff _ (denotes_iff_decode d cmd).symm

/-- A datagram denotes at most one command. -/
theorem Denotes.unique {d : List UInt8} {cmd cmd' : Command} (h : Denotes d cmd)
    (h' : Denotes d cmd') : cmd = cmd' := by
  rw [denotes_iff_decode] at h h'
  exact Option.some.inj (h.symm.trans h')

theorem decode_eq_none_iff (d : List UInt8) : decode d = none ↔ ∀ cmd, ¬Denotes d cmd := by
  simp only [denotes_iff_decode, Option.eq_none_iff_forall_ne_some]

namespace SocketContext

/-! ### The handler -/

/-- The object with one more journal entry. -/
def printed (s : SocketContext) (priority : Priority) (text : String) : SocketContext :=
  { s with journal := s.journal ++ [(priority, text)] }

/-- The object after the verbose notice of a command. -/
def noticed (s : SocketContext) (t : CommandType) : SocketContext :=
  if s.verbose then s.printed .notice ("handling command type: " ++ t.toString) else s

/-- The object after a command was called. -/
def called (s : SocketContext) (cmd : Command) : SocketContext :=
  { s with calls := s.calls ++ [cmd], blCtx := final (cmd.perform.run s.blCtx) }

/-- Ready for the next datagram. -/
def rearmed (s : SocketContext) : SocketContext :=
  { s with buffer := List.replicate kBufferSize 0, armed := true }

theorem call_run (cmd : Command) (s : SocketContext) :
    (call cmd).run s =
      match cmd.perform.run s.blCtx with
      | .ok _ _ => .ok () (s.called cmd)
      | .error e _ => .error e (s.called cmd) := by
  have hcall : (call cmd).run s
      = (onBacklight cmd.perform).run { s with calls := s.calls ++ [cmd] } := rfl
  rw [hcall]
  rcases h : cmd.perform.run s.blCtx with ⟨_, c⟩ | ⟨e, c⟩
  · rw [onBacklight_ok (s := { s with calls := s.calls ++ [cmd] }) h, called, h]
    rfl
  · rw [onBacklight_error (s := { s with calls := s.calls ++ [cmd] }) h, called, h]
    rfl

/-- The switch of `handleFrame`, once for all types. -/
theorem handleFrame_run {frame : CommandFrame} {t : CommandType}
    (ht : CommandType.ofByte? frame.type = some t) (s : SocketContext) :
    (handleFrame frame).run s =
      if frame.len.toNat = t.length then (call (t.command frame.value)).run (s.noticed t)
      else .error (.runtimeError t.malformed) (s.noticed t) := by
  have hlen4 : frame.len.toNat = 4 ↔ frame.len = 4 := by rw [← UInt8.toNat_inj]; rfl
  have hlen0 : frame.len.toNat = 0 ↔ frame.len = 0 := by rw [← UInt8.toNat_inj]; rfl
  have hnotice : ∀ m : Socket Unit, EStateM.run (do
      if (← get).verbose then
        journalPrint .notice ("handling command type: " ++ t.toString)
      m) s = m.run (s.noticed t) := by
    intro m
    cases hv : s.verbose <;> simp [hv, journalPrint, noticed, printed]
  have hguard : ∀ (n : UInt8) (what : String) (m : Socket Unit), EStateM.run (do
      if frame.len ≠ n then throw (.runtimeError what)
      m) (s.noticed t) =
        if frame.len = n then m.run (s.noticed t)
        else .error (.runtimeError what) (s.noticed t) := by
    intro n what m
    by_cases h : frame.len = n <;> simp [h]
  unfold handleFrame
  simp only [ht]
  rw [hnotice]
  cases t <;> rw [hguard] <;> simp only [CommandType.length, hlen4, hlen0] <;> rfl

/-- The object after a command was called and its exception, if any, printed. -/
def reported (s : SocketContext) (cmd : Command) : SocketContext :=
  match cmd.perform.run s.blCtx with
  | .ok _ _ => s.called cmd
  | .error e _ => (s.called cmd).printed .err ("error handling frame: " ++ e.what)

/-- What a datagram leaves of the object, apart from the buffer. -/
def answered (d : List UInt8) (s : SocketContext) : SocketContext :=
  match d with
  | type :: len :: payload =>
    if kCommandFrameLenMax < len.toNat ∨ payload.length ≠ len.toNat then
      s.printed .warning "malformed command frame"
    else
      match CommandType.ofByte? type with
      | none =>
        s.printed .warning ("invalid command frame type: " ++ ToString.toString type.toNat)
      | some t =>
        if len.toNat = t.length then (s.noticed t).reported (t.command payload)
        else (s.noticed t).printed .err ("error handling frame: " ++ t.malformed)
  | _ => s.printed .warning "short command frame"

/-- A frame of no type is only reported. -/
theorem handleFrame_run_of_none {frame : CommandFrame} (h : CommandType.ofByte? frame.type = none)
    (s : SocketContext) :
    (handleFrame frame).run s = .ok () (s.printed .warning
      ("invalid command frame type: " ++ ToString.toString frame.type.toNat)) := by
  unfold handleFrame
  simp only [h]
  rfl

/-- Catching what `handleFrame` throws. -/
theorem catch_handleFrame_run (frame : CommandFrame) {t : CommandType}
    (ht : CommandType.ofByte? frame.type = some t) (s : SocketContext) :
    (tryCatch (handleFrame frame) fun err =>
        if err.isRuntimeError then journalPrint .err ("error handling frame: " ++ err.what)
        else throw err).run s =
      .ok () (if frame.len.toNat = t.length then (s.noticed t).reported (t.command frame.value)
        else (s.noticed t).printed .err ("error handling frame: " ++ t.malformed)) := by
  rw [run_tryCatch, handleFrame_run ht]
  split_ifs with hlen
  · have hblCtx : (s.noticed t).blCtx = s.blCtx := by unfold noticed; split_ifs <;> rfl
    rw [call_run, reported]
    rcases h : (t.command frame.value).perform.run (s.noticed t).blCtx with ⟨_, c⟩ | ⟨e, c⟩
    · rfl
    · simp [throwsRuntime_perform _ _ e c h, journalPrint, printed]
  · rfl

/-! ### The receive -/

/-- The object with another buffer, armed or not. -/
def placed (s : SocketContext) (buffer : List UInt8) (armed : Bool) : SocketContext :=
  { s with buffer := buffer, armed := armed }

theorem noticed_placed (s : SocketContext) (buffer : List UInt8) (armed : Bool)
    (t : CommandType) : (s.placed buffer armed).noticed t = (s.noticed t).placed buffer armed := by
  have hverbose : (s.placed buffer armed).verbose = s.verbose := rfl
  unfold noticed
  rw [hverbose]
  split_ifs <;> rfl

theorem reported_placed (s : SocketContext) (buffer : List UInt8) (armed : Bool)
    (cmd : Command) :
    (s.placed buffer armed).reported cmd = (s.reported cmd).placed buffer armed := by
  have hblCtx : (s.placed buffer armed).blCtx = s.blCtx := rfl
  unfold reported
  rw [hblCtx]
  cases cmd.perform.run s.blCtx <;> rfl

/-- Neither the buffer nor the flag has a part in the answer. -/
theorem answered_placed (d : List UInt8) (s : SocketContext) (buffer : List UInt8)
    (armed : Bool) :
    answered d (s.placed buffer armed) = (answered d s).placed buffer armed := by
  match d with
  | [] => rfl
  | [_] => rfl
  | type :: len :: payload =>
    rcases ht : CommandType.ofByte? type with _ | t
    · simp only [answered, ht]
      split_ifs <;> rfl
    · simp only [answered, ht, noticed_placed, reported_placed]
      split_ifs <;> rfl

/-- The kernel changes nothing else. -/
theorem deliver_eq_placed (d : List UInt8) (s : SocketContext) :
    deliver d s = s.placed (deliver d s).buffer false := rfl

/-- The frame the handler sees: the payload, cut off at 62 bytes, and then what the
buffer held before. -/
theorem ofBuffer_deliver (type len : UInt8) (payload : List UInt8) (s : SocketContext) :
    ∃ junk, CommandFrame.ofBuffer (deliver (type :: len :: payload) s).buffer
      = ⟨type, len, payload.take 62 ++ junk⟩ :=
  ⟨s.buffer.drop ((type :: len :: payload).take kBufferSize).length, rfl⟩

/-- What the callback does with two bytes or more. -/
theorem onReceive_run (type len : UInt8) (payload : List UInt8) (s : SocketContext) : ∃ junk,
    (onReceive false (min kBufferSize (type :: len :: payload).length)).run
        (deliver (type :: len :: payload) s) =
      if kCommandFrameLenMax < len.toNat ∨ payload.length ≠ len.toNat then
        .ok () ((deliver (type :: len :: payload) s).printed .warning
          "malformed command frame").rearmed
      else
        (do
          tryCatch (handleFrame ⟨type, len, payload.take 62 ++ junk⟩) fun err : Exception =>
            if err.isRuntimeError then journalPrint .err ("error handling frame: " ++ err.what)
            else throw err
          process).run (deliver (type :: len :: payload) s) := by
  obtain ⟨junk, hframe⟩ := ofBuffer_deliver type len payload s
  have hlong : ¬min kBufferSize (type :: len :: payload).length < kCommandFrameSizeMin := by
    simp only [kBufferSize, kCommandFrameSizeMin, List.length_cons]
    omega
  -- a cut datagram has 64 bytes, and no length byte up to 32 agrees with that
  have hguard : (len.toNat > kCommandFrameLenMax ∨
      len.toNat + kCommandFrameSizeMin ≠ min kBufferSize (type :: len :: payload).length) ↔
      kCommandFrameLenMax < len.toNat ∨ payload.length ≠ len.toNat := by
    simp only [kBufferSize, kCommandFrameLenMax, kCommandFrameSizeMin, List.length_cons]
    omega
  refine ⟨junk, ?_⟩
  unfold onReceive
  simp only [Bool.not_false, if_true, if_neg hlong, EStateM.run_bind, EStateM.run_get, hframe,
    hguard]
  split_ifs <;> rfl

/-- **The whole life of a datagram.** -/
theorem receive_run (d : List UInt8) (s : SocketContext) :
    (receive d).run s = .ok () (answered d s).rearmed := by
  have hreceive : (receive d).run s
      = (onReceive false (min kBufferSize d.length)).run (deliver d s) := rfl
  rw [hreceive]
  match d with
  | [] => rfl
  | [_] => rfl
  | type :: len :: payload =>
    obtain ⟨junk, hrun⟩ := onReceive_run type len payload s
    have hplaced : (answered (type :: len :: payload) s).rearmed
        = (answered (type :: len :: payload) (deliver (type :: len :: payload) s)).rearmed := by
      rw [deliver_eq_placed, answered_placed]
      rfl
    rw [hrun, hplaced]
    by_cases hbad : kCommandFrameLenMax < len.toNat ∨ payload.length ≠ len.toNat
    · simp only [answered, if_pos hbad]
    · have htake : payload.take 62 = payload := by
        apply List.take_of_length_le
        simp only [kCommandFrameLenMax, not_or, not_not, not_lt] at hbad
        omega
      rw [if_neg hbad, htake, EStateM.run_bind]
      rcases ht : CommandType.ofByte? type with _ | t
      · rw [run_tryCatch, @handleFrame_run_of_none ⟨type, len, payload ++ junk⟩ ht]
        simp only [answered, if_neg hbad, ht]
        rfl
      · rw [catch_handleFrame_run ⟨type, len, payload ++ junk⟩ ht]
        simp only [answered, if_neg hbad, ht]
        simp only [not_or, not_not] at hbad
        by_cases hlen : len.toNat = t.length
        · simp only [if_pos hlen, t.command_append (hbad.2.trans hlen)]
          rfl
        · simp only [if_neg hlen]
          rfl

/-! ### What a datagram does -/

theorem calls_noticed (s : SocketContext) (t : CommandType) : (s.noticed t).calls = s.calls := by
  unfold noticed
  split_ifs <;> rfl

theorem blCtx_noticed (s : SocketContext) (t : CommandType) : (s.noticed t).blCtx = s.blCtx := by
  unfold noticed
  split_ifs <;> rfl

theorem calls_reported (s : SocketContext) (cmd : Command) :
    (s.reported cmd).calls = s.calls ++ [cmd] := by
  unfold reported
  cases cmd.perform.run s.blCtx <;> rfl

theorem blCtx_reported (s : SocketContext) (cmd : Command) :
    (s.reported cmd).blCtx = final (cmd.perform.run s.blCtx) := by
  have hcalled : (s.called cmd).blCtx = final (cmd.perform.run s.blCtx) := rfl
  rw [← hcalled]
  unfold reported
  split <;> rfl

/-- The command of a datagram is called, and otherwise nothing is. -/
theorem answered_effect (d : List UInt8) (s : SocketContext) :
    (answered d s).calls = s.calls ++ (decode d).toList ∧
      (answered d s).blCtx =
        (decode d).elim s.blCtx fun cmd => final (cmd.perform.run s.blCtx) := by
  match d with
  | [] => exact ⟨(List.append_nil _).symm, rfl⟩
  | [_] => exact ⟨(List.append_nil _).symm, rfl⟩
  | type :: len :: payload =>
    rcases ht : CommandType.ofByte? type with _ | t
    · simp only [answered, decode, ht]
      split_ifs <;> exact ⟨(List.append_nil _).symm, rfl⟩
    · have hmax : t.length ≤ kCommandFrameLenMax := by cases t <;> decide
      simp only [answered, decode, ht]
      by_cases hok : payload.length = len.toNat ∧ len.toNat = t.length
      · obtain ⟨hpayload, hlen⟩ := hok
        have hgood : ¬(kCommandFrameLenMax < len.toNat ∨ payload.length ≠ len.toNat) := by omega
        rw [if_neg hgood, if_pos hlen, if_pos ⟨hpayload, hlen⟩, calls_reported, blCtx_reported,
          calls_noticed, blCtx_noticed]
        exact ⟨rfl, rfl⟩
      · rw [if_neg hok]
        by_cases hbad : kCommandFrameLenMax < len.toNat ∨ payload.length ≠ len.toNat
        · rw [if_pos hbad]
          exact ⟨(List.append_nil _).symm, rfl⟩
        · have hlen : len.toNat ≠ t.length := fun h => hok ⟨by omega, h⟩
          rw [if_neg hbad, if_neg hlen]
          exact ⟨(calls_noticed s t).trans (List.append_nil _).symm, blCtx_noticed s t⟩

/-- What the buffer held before is not read. -/
theorem receive_run_buffer (d buffer : List UInt8) (s : SocketContext) :
    (receive d).run { s with buffer := buffer } = (receive d).run s := by
  have hplaced : ({ s with buffer := buffer } : SocketContext) = s.placed buffer s.armed := rfl
  rw [receive_run, receive_run, hplaced, answered_placed]
  rfl

/-- **The wire grammar is exact.**  In every state and for every datagram the handler
returns, with the next receive armed; it calls a command exactly if the datagram
denotes one, and then that one; a datagram that denotes none touches nothing of the
backlight object; what the buffer held before is never read; and every command is
denoted by its own encoding only as itself. -/
theorem receive_exact (s : SocketContext) (d : List UInt8) :
    ∃ s', (receive d).run s = .ok () s' ∧
      s'.armed = true ∧
      (∀ cmd, Denotes d cmd →
        s'.calls = s.calls ++ [cmd] ∧ s'.blCtx = final (cmd.perform.run s.blCtx)) ∧
      ((∀ cmd, ¬Denotes d cmd) → s'.calls = s.calls ∧ s'.blCtx = s.blCtx) ∧
      (∀ buffer, (receive d).run { s with buffer := buffer } = .ok () s') ∧
      ∀ cmd cmd', Denotes cmd.encode cmd' ↔ cmd' = cmd := by
  obtain ⟨hcalls, hblCtx⟩ := answered_effect d s
  refine ⟨(answered d s).rearmed, receive_run d s, rfl, ?_, ?_, ?_, ?_⟩
  · intro cmd h
    rw [denotes_iff_decode] at h
    rw [h] at hcalls hblCtx
    exact ⟨hcalls, hblCtx⟩
  · intro h
    rw [← decode_eq_none_iff] at h
    rw [h] at hcalls hblCtx
    exact ⟨hcalls.trans (List.append_nil _), hblCtx⟩
  · intro buffer
    rw [receive_run_buffer, receive_run]
  · intro cmd cmd'
    refine ⟨fun h => h.unique (denotes_encode cmd), ?_⟩
    rintro rfl
    exact denotes_encode _

end SocketContext

end Brightness
end TjTools
