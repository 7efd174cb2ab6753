import TellerOBC.Cmd.Process
import TellerOBC.Errors
import TellerOBC.Foundations.Transfer

/-!
# Messages that are not from the ground station

Only the ground station may command the onboard computer; other components may only ask for an
echo. A message with another source is to be ignored with a warning: no subsystem is to change, and
no frame is to be sent but the text of the warning.

A warning is a message of the telemetry module itself. `sendTo` allocates memory for its frame, and
sets the error `NOT_ENOUGH_MEMORY` where the allocation fails; the outbound queue takes the frame or
refuses it. So the system is given with the outcomes of the allocations and of the sends to come
(`TellerOBC.SystemState`), and the calls of the command module act on this state.

With memory for the warnings, a message is ignored for every frame type except `LCL_RESET` and
`CALIBRATION`. Their cases have no `break`, so that an ignored message of these types reaches the
case of `ECHO`, and if its payload starts with a zero byte then it is answered as an echo request.

## Main definitions

* `TellerOBC.SystemState`, `TellerOBC.SystemState.environment`: what the calls do to the system.
* `TellerOBC.InboundMessage.warnings`: the warnings about a message.
* `TellerOBC.SystemState.Ignores`: no subsystem changes, and only warnings are sent.

## Main results

* `TellerOBC.SystemState.Sends.exists_sends_sendTo`: what `sendTo` does to the system.
* `TellerOBC.processPacket_eq_warnThen`: what the control flow reaches for other components.
* `TellerOBC.SystemState.ignores_afterMessage_iff`: the messages of other components that are
  ignored.
-/

namespace TellerOBC

open Program

/-! ### The system -/

/-- The number of an error condition. -/
def ErrorCode.code : ErrorCode → Errors.Code
  | .notEnoughMemory => ⟨2, by decide⟩
  | .simulatedError => ⟨63, by decide⟩

/-- A frame in the outbound queue. -/
structure QueuedFrame where
  targets : UInt8
  frameType : UInt8
  bytes : List UInt8
  deriving DecidableEq, Repr

/-- The state of the system: the telemetry module, the error conditions, and the other subsystems,
which are the clock, the scheduler, the storage, the LCLs, the calibration and the reset. The
outcomes of the allocations and of the sends to come are given, and the readings to come of the time
since boot. -/
structure SystemState (R : Type) where
  telemetryLevel : TelemetryLevel
  telemetryChannelMask : UInt8
  seqNo : UInt8
  errors : Errors
  rest : R
  allocations : ℕ → Bool
  sends : ℕ → Bool
  times : ℕ → UInt32
  /-- The frames that the outbound queue has taken. -/
  sent : List QueuedFrame := []
  /-- The records handed to the onboard log. -/
  logged : List (UInt32 × LogCall) := []

namespace SystemState

variable {R : Type} (log2f : UInt64 → ℕ) (others : Environment SystemAnswer R)

/-- What the calls do that are no warnings. -/
def answer : Environment SystemAnswer (SystemState R)
  | .malloc _, s => (s.allocations 0, { s with allocations := Transfer.later s.allocations })
  | .free, s => ((), s)
  | .getTelemetryLevel, s => (s.telemetryLevel, s)
  | .setTelemetryLevel level, s => ((), { s with telemetryLevel := level })
  | .nextSeqNo, s => (s.seqNo, { s with seqNo := s.seqNo + 1 })
  | .sendLowLevel targets frameType bytes, s =>
    if s.sends 0 then
      (true, { s with
        sends := Transfer.later s.sends
        sent := s.sent ++ [⟨targets, frameType, bytes⟩] })
    else (false, { s with sends := Transfer.later s.sends })
  | .hasError code, s => (s.errors.hasError code.code, s)
  | .setError code present, s =>
    ((), { s with errors := s.errors.setError log2f code.code present })
  | c, s => ((others c s.rest).1, { s with rest := (others c s.rest).2 })

/-- `sendToTelemetryAndOnboardLog`: a text message and a record in the onboard log. -/
def log (call : LogCall) (s : SystemState R) : SystemState R :=
  let t := ((sendFrameTo s.telemetryChannelMask FrameType.textMessage call.frame).exec
    (answer log2f others) s).2
  { t with
    times := fun i => t.times (i + 1)
    logged := t.logged ++ [(t.times 0, call)] }

/-- What all calls of the command module do. -/
def environment : Environment SystemAnswer (SystemState R)
  | .warning text, s => ((), s.log log2f others text.logCall)
  | c, s => answer log2f others c s

end SystemState

/-! ### Ignoring a message -/

/-- The frame is the text message of a warning of the module. -/
def QueuedFrame.IsWarning (frame : QueuedFrame) : Prop :=
  frame.frameType = FrameType.textMessage ∧
    ∃ (warning : WarningText) (seqNo : UInt8),
      serialize (getMessageSizeForPayloadLength warning.logCall.frame.length)
        { seqNo := seqNo
          frameType := FrameType.textMessage
          source := Component.onboardComputer
          target := Component.groundStation } warning.logCall.frame = some frame.bytes

/-- The texts of the warnings about a message of another component, in order. -/
def InboundMessage.warnings (message : InboundMessage) : List WarningText :=
  let ignored (what : String) : WarningText := .ignored what message.envelope.source
  let type := message.envelope.frameType
  if type = FrameType.clockSync then [ignored "clock sync"]
  else if type = FrameType.reset then [ignored "reset"]
  else if type = FrameType.storage then [ignored "storage"]
  else if type = FrameType.directoryListing then [ignored "directory listing"]
  else if type = FrameType.fileDownload then [ignored "file download"]
  else if type = FrameType.lclReset then [ignored "LCL reset", ignored "calibration"]
  else if type = FrameType.calibration then [ignored "calibration"]
  else if type = FrameType.debug then [ignored "debug", .unhandled type]
  else [.unhandled type]

/-- The message is an echo request of a type whose case reaches that of `ECHO`. -/
def InboundMessage.FallsThrough (message : InboundMessage) : Prop :=
  (message.envelope.frameType = FrameType.lclReset ∨
    message.envelope.frameType = FrameType.calibration) ∧ message.payload.head? = some 0

namespace SystemState

variable {R : Type} (log2f : UInt64 → ℕ) (others : Environment SystemAnswer R)

/-- From the first state to the second one no subsystem has changed, and nothing was sent but the
text messages of warnings. The next sequence number and the onboard log may differ. -/
structure Ignores (s t : SystemState R) : Prop where
  telemetryLevel : t.telemetryLevel = s.telemetryLevel
  telemetryChannelMask : t.telemetryChannelMask = s.telemetryChannelMask
  errors : t.errors = s.errors
  rest : t.rest = s.rest
  sent : ∃ frames, t.sent = s.sent ++ frames ∧ ∀ frame ∈ frames, frame.IsWarning

/-- The error conditions after a failed allocation. -/
def outOfMemory (s : SystemState R) : Errors :=
  s.errors.setError log2f ErrorCode.notEnoughMemory.code true

/-- An allocation leaves the error conditions as they are: it succeeds, or the error that it sets
is present already, and no greater one would be replaced by it. -/
def KeepsErrors (s : SystemState R) (i : ℕ) : Prop :=
  s.allocations i = true ∨ s.outOfMemory log2f = s.errors

/-! ### What `sendTo` does -/

/-- Messages were sent from the first state to the second one: as many allocations were made, for
each that succeeded the outbound queue was asked, and the frames in the list were taken. -/
structure Sends (s : SystemState R) (n : ℕ) (frames : List QueuedFrame) (t : SystemState R) :
    Prop where
  telemetryLevel : t.telemetryLevel = s.telemetryLevel
  telemetryChannelMask : t.telemetryChannelMask = s.telemetryChannelMask
  errors : t.errors = if ∀ i < n, s.allocations i = true then s.errors else s.outOfMemory log2f
  rest : t.rest = s.rest
  allocations : t.allocations = fun i => s.allocations (i + n)
  sends : t.sends = fun i => s.sends (i + Transfer.acceptances s.allocations n)
  sent : t.sent = s.sent ++ frames

variable {log2f others} {s t : SystemState R} {n : ℕ} {frames : List QueuedFrame}

theorem sends_zero (s : SystemState R) : Sends log2f s 0 [] s where
  telemetryLevel := rfl
  telemetryChannelMask := rfl
  errors := (if_pos fun i hi => absurd hi (Nat.not_lt_zero i)).symm
  rest := rfl
  allocations := rfl
  sends := rfl
  sent := (List.append_nil _).symm

/-- Setting the error once more changes nothing. -/
theorem setError_outOfMemory (s : SystemState R) :
    (s.outOfMemory log2f).setError log2f ErrorCode.notEnoughMemory.code true =
      s.outOfMemory log2f := by
  have hcode : ErrorCode.notEnoughMemory.code ≠ noError := by decide
  rw [outOfMemory, Errors.setError_true hcode, Errors.setError_true hcode]
  refine congrArg₂ Errors.mk ?_ ?_
  · rw [UInt64.or_assoc, UInt64.or_self]
  · dsimp only
    split_ifs <;> rfl

/-- The errors after one more allocation. -/
theorem Sends.errors_succ (h : Sends log2f s n frames t) :
    (if s.allocations n = true then t.errors else t.outOfMemory log2f) =
      if ∀ i < n + 1, s.allocations i = true then s.errors else s.outOfMemory log2f := by
  have hsplit : (∀ i < n + 1, s.allocations i = true) ↔
      (∀ i < n, s.allocations i = true) ∧ s.allocations n = true := Nat.forall_lt_succ_right
  by_cases hall : ∀ i < n, s.allocations i = true
  · have herrors := h.errors.trans (if_pos hall)
    have hnext := hsplit.trans (and_iff_right hall)
    simp only [hnext, outOfMemory, herrors]
  · have herrors := h.errors.trans (if_neg hall)
    have hagain : t.outOfMemory log2f = s.outOfMemory log2f := by
      rw [outOfMemory, herrors, setError_outOfMemory]
    rw [if_neg fun hsucc => hall (hsplit.mp hsucc).1, herrors, hagain, ite_self]

/-- **What `sendTo` does** with a message that is to be sent at the present telemetry level. -/
theorem Sends.exists_sends_sendTo {env : Environment SystemAnswer (SystemState R)}
    (henv : ∀ c, (∀ text, c ≠ .warning text) → env c = answer log2f others c)
    (h : Sends log2f s n frames t) (targets : UInt8) (envelope : Envelope) {payload : List UInt8}
    (hlevel : t.telemetryLevel = .full ∨ isEssentialFrameType envelope.frameType = true)
    (hlen : payload.length ≤ maxPayloadLength) :
    ∃ bytes, serialize (getMessageSizeForPayloadLength payload.length)
        { envelope with seqNo := t.seqNo } payload = some bytes ∧
      Sends log2f s (n + 1)
        (frames ++
          if s.allocations n ∧ s.sends (Transfer.acceptances s.allocations n) then
            [⟨targets, envelope.frameType, bytes⟩]
          else [])
        ((sendTo targets envelope payload).exec env t).2 := by
  obtain ⟨bytes, hbytes⟩ := serialize_eq_some hlen { envelope with seqNo := t.seqNo }
  refine ⟨bytes, hbytes, ?_⟩
  have hsize : getMessageSizeForPayloadLength payload.length ≠ 0 := by
    rw [getMessageSizeForPayloadLength, if_pos hlen]
    exact Nat.succ_ne_zero _
  have halloc : t.allocations 0 = s.allocations n := by simp only [h.allocations, Nat.zero_add]
  have hsend : t.sends 0 = s.sends (Transfer.acceptances s.allocations n) := by
    simp only [h.sends, Nat.zero_add]
  have hlater : Transfer.later t.allocations = fun i => s.allocations (i + (n + 1)) := by
    rw [h.allocations, Transfer.later_shift]
  have herrors := h.errors_succ
  have hacceptances := Transfer.acceptances_succ s.allocations n
  cases ha : s.allocations n with
  | false =>
    have hexec : ((sendTo targets envelope payload).exec env t).2 =
        { t with
          allocations := Transfer.later t.allocations
          errors := t.outOfMemory log2f } := by
      simp [sendTo, exec, henv, answer, hlevel, hsize, halloc, ha, outOfMemory]
    rw [ha, if_neg Bool.false_ne_true] at herrors
    rw [ha, if_neg Bool.false_ne_true, Nat.add_zero] at hacceptances
    rw [hexec, if_neg fun hif => Bool.false_ne_true hif.1, List.append_nil]
    exact ⟨h.telemetryLevel, h.telemetryChannelMask, herrors, h.rest, hlater,
      hacceptances ▸ h.sends, h.sent⟩
  | true =>
    rw [ha, if_pos rfl] at herrors hacceptances
    have hsends : Transfer.later t.sends =
        fun i => s.sends (i + Transfer.acceptances s.allocations (n + 1)) := by
      rw [h.sends, Transfer.later_shift, hacceptances]
    cases hs : s.sends (Transfer.acceptances s.allocations n) with
    | false =>
      have hexec : ((sendTo targets envelope payload).exec env t).2 =
          { t with
            allocations := Transfer.later t.allocations
            seqNo := t.seqNo + 1
            sends := Transfer.later t.sends } := by
        simp [sendTo, exec, henv, answer, hlevel, hsize, halloc, ha, hbytes, hsend, hs]
      rw [hexec, if_neg fun hif => Bool.false_ne_true hif.2, List.append_nil]
      exact ⟨h.telemetryLevel, h.telemetryChannelMask, herrors, h.rest, hlater, hsends, h.sent⟩
    | true =>
      have hexec : ((sendTo targets envelope payload).exec env t).2 =
          { t with
            allocations := Transfer.later t.allocations
            seqNo := t.seqNo + 1
            sends := Transfer.later t.sends
            sent := t.sent ++ [⟨targets, envelope.frameType, bytes⟩] } := by
        simp [sendTo, exec, henv, answer, hlevel, hsize, halloc, ha, hbytes, hsend, hs]
      rw [hexec, if_pos ⟨rfl, rfl⟩, h.sent]
      exact ⟨h.telemetryLevel, h.telemetryChannelMask, herrors, h.rest, hlater, hsends,
        List.append_assoc _ _ _⟩

/-- Nothing happens to a message that the present telemetry level leaves out. -/
theorem exec_sendTo_of_leftOut {env : Environment SystemAnswer (SystemState R)}
    (henv : ∀ c, (∀ text, c ≠ .warning text) → env c = answer log2f others c) (targets : UInt8)
    {envelope : Envelope} (payload : List UInt8) (hlevel : t.telemetryLevel = .minimal)
    (hessential : isEssentialFrameType envelope.frameType = false) :
    ((sendTo targets envelope payload).exec env t).2 = t := by
  simp [sendTo, exec, henv, answer, hlevel, hessential]

/-! ### Warnings -/

variable (log2f others) in
/-- The states after warnings. -/
def warnAll (s : SystemState R) (texts : List WarningText) : SystemState R :=
  texts.foldl (fun t text => t.log log2f others text.logCall) s

theorem length_frame_le (call : LogCall) : call.frame.length ≤ maxPayloadLength := by
  have hlen := call.length_formatted_le
  have hmax : maxTextMessageLength + 1 = maxPayloadLength := rfl
  rw [LogCall.frame, encodeTextMessageFrame, List.length_cons]
  omega

/-- A warning sends its text message. -/
theorem Sends.exists_sends_log (h : Sends log2f s n frames t)
    (hframes : ∀ frame ∈ frames, frame.IsWarning) (text : WarningText) :
    ∃ frames', Sends log2f s (n + 1) frames' (t.log log2f others text.logCall) ∧
      ∀ frame ∈ frames', frame.IsWarning := by
  have henv : ∀ c : SystemCall, (∀ text, c ≠ .warning text) →
      answer log2f others c = answer log2f others c := fun _ _ => rfl
  obtain ⟨bytes, hbytes, hsends⟩ := h.exists_sends_sendTo henv t.telemetryChannelMask
    { seqNo := 0
      frameType := FrameType.textMessage
      source := Component.onboardComputer
      target := Component.groundStation } (Or.inr rfl) (length_frame_le text.logCall)
  refine ⟨_, ⟨hsends.telemetryLevel, hsends.telemetryChannelMask, hsends.errors, hsends.rest,
    hsends.allocations, hsends.sends, hsends.sent⟩, fun frame hframe => ?_⟩
  rcases List.mem_append.mp hframe with hframe | hframe
  · exact hframes frame hframe
  · split at hframe
    · rw [List.mem_singleton.mp hframe]
      exact ⟨rfl, text, t.seqNo, hbytes⟩
    · simp at hframe

/-- Warnings send their text messages. -/
theorem exists_sends_warnAll (s : SystemState R) (texts : List WarningText) :
    ∃ frames, Sends log2f s texts.length frames (s.warnAll log2f others texts) ∧
      ∀ frame ∈ frames, frame.IsWarning := by
  induction texts using List.reverseRecOn with
  | nil => exact ⟨[], sends_zero s, by simp⟩
  | append_singleton texts text ih =>
    obtain ⟨frames, hsends, hframes⟩ := ih
    rw [warnAll, List.foldl_append, List.length_append]
    exact hsends.exists_sends_log hframes text

end SystemState

/-! ### What a message of another component reaches -/

variable {message : InboundMessage}

/-- Warnings, and what follows them. -/
def warnThen : List WarningText → Program SystemAnswer Outcome → Program SystemAnswer Outcome
  | [], next => next
  | text :: texts, next => do
    let _ ← perform (.warning text)
    warnThen texts next

theorem ignoreUnlessFromGcs_eq (hsource : message.envelope.source ≠ Component.groundStation)
    (what : String) (fromGcs next : Program SystemAnswer Outcome) :
    ignoreUnlessFromGcs message what fromGcs next =
      warnThen [.ignored what message.envelope.source] next := if_pos hsource

/-- **The control flow for other components.** A message of another component reaches its warnings,
and then the end of the `switch` or, without a `break` before it, the case of `ECHO`. -/
theorem processPacket_eq_warnThen (hsource : message.envelope.source ≠ Component.groundStation)
    (hecho : message.envelope.frameType ≠ FrameType.echo) :
    processPacket message =
      warnThen message.warnings
        (if message.envelope.frameType = FrameType.lclReset ∨
            message.envelope.frameType = FrameType.calibration then echoCase message
          else afterBreak) := by
  have hother {type : UInt8} (htype : message.envelope.frameType = type)
      (hne : type ≠ FrameType.lclReset ∧ type ≠ FrameType.calibration) :
      ¬(message.envelope.frameType = FrameType.lclReset ∨
        message.envelope.frameType = FrameType.calibration) := by
    rintro (h | h)
    exacts [hne.1 (htype.symm.trans h), hne.2 (htype.symm.trans h)]
  unfold processPacket InboundMessage.warnings
  simp only [resetCase, lclResetCase, calibrationCase, debugCase, defaultCase,
    ignoreUnlessFromGcs_eq hsource]
  iterate 5
    split
    · next htype => rw [if_neg (hother htype (by decide))]
  split
  · next htype =>
    rw [if_pos (Or.inl htype)]
    rfl
  split
  · next htype =>
    rw [if_pos (Or.inr htype)]
  next hlcl hcalibration =>
  rw [if_neg (not_or_intro hlcl hcalibration)]
  split <;> rfl

/-- The envelope of the reply to an echo request. -/
def InboundMessage.replyEnvelope (message : InboundMessage) : Envelope where
  seqNo := 0
  frameType := message.envelope.frameType
  source := Component.onboardComputer
  target := message.envelope.source

namespace SystemState

variable {R : Type} {log2f : UInt64 → ℕ} {others : Environment SystemAnswer R} {s t : SystemState R}

theorem environment_of_ne (c : SystemCall) (h : ∀ text, c ≠ .warning text) :
    environment log2f others c = answer log2f others c := by
  funext s
  cases c with
  | warning text => exact absurd rfl (h text)
  | _ => rfl

theorem exec_warnThen (texts : List WarningText) (next : Program SystemAnswer Outcome)
    (s : SystemState R) :
    (warnThen texts next).exec (environment log2f others) s =
      next.exec (environment log2f others) (s.warnAll log2f others texts) := by
  induction texts generalizing s with
  | nil => rfl
  | cons text texts ih => exact ih (s.log log2f others text.logCall)

variable (log2f others) in
/-- The state after a message was processed. -/
def afterMessage (message : InboundMessage) (s : SystemState R) : SystemState R :=
  ((processReceived message).exec (environment log2f others) s).2

/-- The release of the payload changes nothing, and no handler of these messages responds. -/
theorem afterMessage_of_exec (htarget : message.envelope.target = Component.onboardComputer)
    (h : (processPacket message).exec (environment log2f others) s = (.none, t)) :
    s.afterMessage log2f others message = t := by
  rw [afterMessage, processReceived, exec_bind, processForTarget, if_pos htarget, h]
  rfl

/-- A message that is no echo request is not answered. -/
theorem exec_echoCase_of_head? (h : message.payload.head? ≠ some 0) (s : SystemState R) :
    (echoCase message).exec (environment log2f others) s = (.none, s) := by
  have hdone : ∃ answered, processEchoPacket message = .done answered := by
    rw [processEchoPacket]
    rcases hpayload : message.payload with _ | ⟨isReply, data⟩
    · exact ⟨false, rfl⟩
    · have hreply : (decodeEchoFrame (isReply :: data)).isReply ≠ 0 := by
        rintro rfl
        exact h (by rw [hpayload]; rfl)
      refine ⟨true, ?_⟩
      rw [if_neg (by simp [validateEncodedEchoFrame])]
      exact if_pos hreply
  obtain ⟨answered, heq⟩ := hdone
  rw [echoCase, heq]
  rfl

theorem exec_echoCase (s : SystemState R) :
    (echoCase message).exec (environment log2f others) s =
      (.none, ((processEchoPacket message).exec (environment log2f others) s).2) :=
  exec_bind _ _ _ _

/-- Without an echo request there are the warnings only. -/
theorem afterMessage_of_not_fallsThrough
    (htarget : message.envelope.target = Component.onboardComputer)
    (hsource : message.envelope.source ≠ Component.groundStation)
    (hecho : message.envelope.frameType ≠ FrameType.echo) (h : ¬message.FallsThrough)
    (s : SystemState R) :
    s.afterMessage log2f others message = s.warnAll log2f others message.warnings := by
  refine afterMessage_of_exec htarget ?_
  rw [processPacket_eq_warnThen hsource hecho, exec_warnThen]
  split
  · next htype => exact exec_echoCase_of_head? (fun hhead => h ⟨htype, hhead⟩) _
  · rfl

/-- The echo reply of a message that falls through. -/
theorem afterMessage_of_fallsThrough
    (htarget : message.envelope.target = Component.onboardComputer)
    (hsource : message.envelope.source ≠ Component.groundStation)
    (hecho : message.envelope.frameType ≠ FrameType.echo) (h : message.FallsThrough)
    {data : List UInt8} (hdata : message.payload = 0 :: data) (s : SystemState R) :
    s.afterMessage log2f others message =
      ((sendTo message.targets message.replyEnvelope (1 :: data)).exec (environment log2f others)
        (s.warnAll log2f others message.warnings)).2 := by
  refine afterMessage_of_exec htarget ?_
  rw [processPacket_eq_warnThen hsource hecho, exec_warnThen, if_pos h.1, exec_echoCase,
    processEchoPacket_eq_sendTo hdata]
  rfl

/-! ### The messages that are ignored -/

/-- The error conditions stay as they are exactly if every allocation keeps them. -/
theorem Sends.errors_eq_iff {n : ℕ} {frames : List QueuedFrame} (h : Sends log2f s n frames t) :
    t.errors = s.errors ↔ ∀ i < n, s.KeepsErrors log2f i := by
  rw [h.errors]
  split
  · next hall => exact iff_of_true rfl fun i hi => Or.inl (hall i hi)
  · next hfails =>
    refine ⟨fun heq i _ => Or.inr heq, fun hkeeps => ?_⟩
    obtain ⟨i, hi, hfail⟩ : ∃ i, i < n ∧ ¬s.allocations i = true := by
      simpa only [not_forall, exists_prop] using hfails
    exact (hkeeps i hi).resolve_left hfail

/-- Sending leaves all subsystems but the error conditions as they are. -/
theorem Sends.ignores_iff {n : ℕ} {frames : List QueuedFrame} (h : Sends log2f s n frames t) :
    Ignores s t ↔ (∀ i < n, s.KeepsErrors log2f i) ∧ ∀ frame ∈ frames, frame.IsWarning := by
  rw [← h.errors_eq_iff]
  constructor
  · rintro ⟨-, -, herrors, -, frames', hsent, hframes⟩
    obtain rfl := List.append_cancel_left (h.sent.symm.trans hsent)
    exact ⟨herrors, hframes⟩
  · rintro ⟨herrors, hframes⟩
    exact ⟨h.telemetryLevel, h.telemetryChannelMask, herrors, h.rest, frames, h.sent, hframes⟩

/-- A sent reply of a message that falls through is no warning. -/
theorem ignores_iff_of_fallsThrough (htarget : message.envelope.target = Component.onboardComputer)
    (hsource : message.envelope.source ≠ Component.groundStation)
    (hecho : message.envelope.frameType ≠ FrameType.echo) (h : message.FallsThrough)
    (hlen : message.payload.length ≤ maxPayloadLength) (s : SystemState R) :
    Ignores s (s.afterMessage log2f others message) ↔
      (∀ i < message.warnings.length, s.KeepsErrors log2f i) ∧
        (s.telemetryLevel = .full → s.KeepsErrors log2f message.warnings.length ∧
          ¬(s.allocations message.warnings.length = true ∧
            s.sends (Transfer.acceptances s.allocations message.warnings.length) = true)) := by
  obtain ⟨data, hdata⟩ := List.head?_eq_some_iff.mp h.2
  obtain ⟨frames, hsends, hframes⟩ := @exists_sends_warnAll R log2f others s message.warnings
  rw [afterMessage_of_fallsThrough htarget hsource hecho h hdata]
  cases hlevel : s.telemetryLevel with
  | full =>
    obtain ⟨bytes, -, hreply⟩ := hsends.exists_sends_sendTo environment_of_ne message.targets
      message.replyEnvelope (Or.inl (hsends.telemetryLevel.trans hlevel))
      (show (1 :: data).length ≤ maxPayloadLength by rwa [hdata] at hlen)
    have hreplied :
        ¬QueuedFrame.IsWarning ⟨message.targets, message.envelope.frameType, bytes⟩ := by
      rintro ⟨htype, -⟩
      rcases h.1 with htype' | htype' <;> exact absurd (htype'.symm.trans htype) (by decide)
    rw [hreply.ignores_iff, Nat.forall_lt_succ_right, and_assoc]
    refine and_congr_right fun _ => ?_
    simp only [forall_const]
    refine and_congr_right fun _ => ?_
    split
    · next hsent =>
      refine iff_of_false (fun hall => hreplied (hall _ ?_)) (fun hnot => hnot hsent)
      exact List.mem_append_right _ (List.mem_singleton_self _)
    · next hsent =>
      rw [List.append_nil]
      exact iff_of_true hframes hsent
  | minimal =>
    have hessential : isEssentialFrameType message.replyEnvelope.frameType = false := by
      rcases h.1 with htype | htype <;> rw [InboundMessage.replyEnvelope, htype] <;> rfl
    rw [exec_sendTo_of_leftOut environment_of_ne _ _ (hsends.telemetryLevel.trans hlevel)
      hessential, hsends.ignores_iff]
    exact and_congr_right fun _ => iff_of_true hframes fun hfull => nomatch hfull

variable (log2f others) in
/-- **The messages of other components that are ignored.** A message for the onboard computer whose
source is not the ground station and whose type is not `ECHO` changes no subsystem, and nothing is
sent but the text messages of its warnings, if and only if the allocations for these do not change
the error conditions and, in case it is of type `LCL_RESET` or `CALIBRATION` with a payload that
starts with a zero byte, no reply to it is sent: the telemetry level is minimal, or the allocation
for the reply fails without a change of the error conditions, or the outbound queue refuses it. -/
theorem ignores_afterMessage_iff (htarget : message.envelope.target = Component.onboardComputer)
    (hsource : message.envelope.source ≠ Component.groundStation)
    (hecho : message.envelope.frameType ≠ FrameType.echo)
    (hlen : message.payload.length ≤ maxPayloadLength) (s : SystemState R) :
    Ignores s (s.afterMessage log2f others message) ↔
      (∀ i < message.warnings.length, s.KeepsErrors log2f i) ∧
        (message.FallsThrough → s.telemetryLevel = .full →
          s.KeepsErrors log2f message.warnings.length ∧
            ¬(s.allocations message.warnings.length = true ∧
              s.sends (Transfer.acceptances s.allocations message.warnings.length) = true)) := by
  by_cases h : message.FallsThrough
  · rw [ignores_iff_of_fallsThrough htarget hsource hecho h hlen]
    exact and_congr_right fun _ => ⟨fun hreply _ => hreply, fun hreply => hreply h⟩
  · obtain ⟨frames, hsends, hframes⟩ := @exists_sends_warnAll R log2f others s message.warnings
    rw [afterMessage_of_not_fallsThrough htarget hsource hecho h, hsends.ignores_iff]
    exact and_congr_right fun _ => iff_of_true hframes fun hthrough => absurd hthrough h

/-- A system at the full telemetry level, with enough memory and room in the outbound queue. -/
def roomy : SystemState Unit where
  telemetryLevel := .full
  telemetryChannelMask := 1
  seqNo := 0
  errors := .start
  rest := ()
  allocations _ := true
  sends _ := true
  times _ := 0

/-- A debug command from the scintillator module. -/
theorem ignores_afterMessage_iff_debug :
    let message : InboundMessage := ⟨0, ⟨7, FrameType.debug, Component.scintillatorModule,
      Component.onboardComputer⟩, [9]⟩
    Ignores roomy (roomy.afterMessage (fun codes => codes.toNat.log2) permissive message) ↔
      (∀ i < 2, roomy.KeepsErrors (fun codes => codes.toNat.log2) i) ∧
        (message.FallsThrough → roomy.telemetryLevel = .full →
          roomy.KeepsErrors (fun codes => codes.toNat.log2) 2 ∧
            ¬(roomy.allocations 2 = true ∧
              roomy.sends (Transfer.acceptances roomy.allocations 2) = true)) :=
  ignores_afterMessage_iff _ _ rfl (by decide) (by decide) (by decide) roomy

/-- **An ignored LCL reset is answered.** The scintillator module sends a request to reset no LCL.
After the text messages of two warnings an echo reply goes back to it, in a frame of the type
`LCL_RESET`. -/
theorem not_ignores_afterMessage_lclReset :
    let message : InboundMessage := ⟨0, ⟨7, FrameType.lclReset, Component.scintillatorModule,
      Component.onboardComputer⟩, [0]⟩
    let after := roomy.afterMessage (fun codes => codes.toNat.log2) permissive message
    after.sent.map QueuedFrame.frameType =
        [FrameType.textMessage, FrameType.textMessage, FrameType.lclReset] ∧
      after.sent[2]? = some ⟨1, FrameType.lclReset,
        [0xCA, 0xFE, 2, 15, 0x23, 1, 1, 0x32, 0x11]⟩ ∧
      ¬Ignores roomy after := by
  refine ⟨rfl, rfl, fun h => ?_⟩
  obtain ⟨-, hreply⟩ := (ignores_iff_of_fallsThrough rfl (by decide) (by decide)
    ⟨Or.inl rfl, rfl⟩ (by decide) roomy).mp h
  exact (hreply rfl).2 ⟨rfl, rfl⟩

end SystemState

end TellerOBC
