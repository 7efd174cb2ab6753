import TellerOBC.Cmd.Process
import TellerOBC.Core.Telem.CheckedFrames
import TellerOBC.Edr.Recorders

/-!
# Memory accesses of the message handlers

`processPacket` of `modules/cmd.cpp` and the body of `processNext` with checked memory accesses. The
handlers read the payload with the validators and decoders of
`TellerOBC.Core.Telem.CheckedFrames`, and write responses to the response buffer. The calls into
other modules are those of `TellerOBC.Cmd.Process`, each with the assertions that it reaches there.
These are the assertions on the length of a text message and on the storage area of a request to
the experiment data recorder; the recorders are in any state that their tasks reach.

The contents of the response buffer and of the decoded structures before a message is processed are
arbitrary. A message writes to the response buffer once, as an echo has no other response.

## Main definitions

* `TellerOBC.SystemCall.check`: the assertions that a call reaches.
* `TellerOBC.Checked.processPacket`, `TellerOBC.Checked.processReceived`.

## Main results

* `TellerOBC.Checked.processReceived_eq_lift`: processing a message is safe.
* `TellerOBC.Checked.processes_safely`: no run of the handlers faults.
-/

namespace TellerOBC

open CheckedMemory Program StepSystem

/-- `length` of an inbound message. -/
def InboundMessage.length (message : InboundMessage) : UInt8 := UInt8.ofNat message.payload.length

theorem InboundMessage.received {message : InboundMessage}
    (h : message.payload.length ≤ maxPayloadLength) :
    Checked.Received message.payload message.length.toUInt32 := by
  refine ⟨?_, h⟩
  rw [UInt8.toNat_toUInt32, InboundMessage.length]
  exact Nat.mod_eq_of_lt (h.trans_lt (by decide))

/-! ### Assertions in other modules -/

/-- The assertions that a call reaches, given the recorders: in `encodeTextMessageFrame`, and in
the functions of the experiment data recorder. -/
def SystemCall.check {F : Type} (edr : Recorders F) : SystemCall → Except Fault Unit
  | .warning text => verify (text.logCall.formatted.length ≤ maxPayloadLength - 1)
  | .simulateIOError area => Recorders.simulateIOError area
  | .requestStopAndUnmount area => do
    let _ ← edr.requestStopAndUnmount area
    return ()
  | _ => .ok ()

section

variable {F : Type} {edr : Recorders F}

theorem check_warning (text : WarningText) : (SystemCall.warning text).check edr = .ok () :=
  if_pos text.logCall.length_formatted_le

theorem check_requestStopAndUnmount {actions : List (RecordersAction F)}
    (hvisit : Visits Recorders.step Recorders.start actions edr) (area : StorageArea) :
    (SystemCall.requestStopAndUnmount area).check edr = .ok () := by
  rw [SystemCall.check, Recorders.requestStopAndUnmount_eq_ok hvisit]
  rfl

theorem check_simulateIOError {area : StorageArea} (h : area ≠ .unknown) :
    (SystemCall.simulateIOError area).check edr = .ok () := Recorders.simulateIOError_eq_ok h

end

namespace Checked

/-! ### The handlers -/

/-- Programs of the command module that can fault. -/
abbrev Handler (α : Type) : Type := CheckedProgram SystemAnswer α

/-- The arrays that a message can write to: the response buffer, and `name`, `path` and `data` of
the decoded structures. -/
structure Arrays where
  responseBuffer : Vector UInt8 maxPayloadLength
  name : Vector UInt8 (maxDirectoryListingNameLength + 1)
  path : Vector UInt8 (maxFileDownloadPathLength + 1)
  data : Vector UInt8 maxPayloadLength

variable {F : Type} (edr : Recorders F) (arrays : Arrays) (message : InboundMessage)

/-- Calls with the assertions that they reach. -/
def calls {α : Type} (p : Program SystemAnswer α) : Handler α := withChecks (SystemCall.check edr) p

/-- `processClockSyncPacket`. -/
def processClockSyncPacket : Handler Outcome :=
  if !validateEncodedClockSyncFrame message.length.toUInt32 then return .respond .invalid
  else do
    let timestamp ← decodeClockSyncFrame message.payload
    calls edr do
      let success ← perform (.setTimeMsec timestamp)
      if success then
        let _ ← perform .sendClockStatusSoon
        return .respond (.ok 0)
      else return .respond (.failed 0)

/-- `processLCLResetRequestPacket`. -/
def processLCLResetRequestPacket : Handler Outcome :=
  if !validateEncodedLCLResetRequestFrame message.length.toUInt32 then return .respond .invalid
  else do
    let lcls ← decodeLCLResetRequestFrame message.payload
    calls edr do
      let _ ← perform (.resetMultiple lcls)
      return .respond (.ok 0)

/-- `processCalibrationPacket`. -/
def processCalibrationPacket : Handler Outcome :=
  if !validateEncodedCalibrationRequestFrame message.length.toUInt32 then return .respond .invalid
  else do
    let procedure ← decodeCalibrationRequestFrame message.payload
    calls edr <| match procedure with
      | .accel => return .respond .unsupported
      | .nop | .gyro => do
        let success ← performCalibration procedure
        return .respond (if success then .ok 0 else .failed 1)

/-- `processDebugPacket`. -/
def processDebugPacket : Handler Outcome :=
  if !validateEncodedDebugCommandFrame message.length.toUInt32 then return .respond .invalid
  else do
    let command ← decodeDebugCommandFrame message.payload
    calls edr do
      let returns ← performDebugCommand command
      return if returns then .respond (.ok 0) else .never

/-- `processEchoPacket`. -/
def processEchoPacket : Handler Bool :=
  if !validateEncodedEchoFrame message.length.toUInt32 then return false
  else do
    let data ← decodeEchoFrame message.payload message.length.toUInt32 arrays.data
    if data.isReply ≠ 0 then return true
    else
      let frame ← encodeEchoFrame { data with isReply := 1 } arrays.responseBuffer
      let payload ← readFrame frame
      calls edr <| sendTo message.targets
        { seqNo := 0
          frameType := message.envelope.frameType
          source := Component.onboardComputer
          target := message.envelope.source } payload

/-- `processStoragePacket`. -/
def processStoragePacket : Handler Outcome :=
  if !validateEncodedStorageCommandFrame message.length.toUInt32 then return .respond .invalid
  else do
    let data ← decodeStorageCommandFrame message.payload
    calls edr do return .respond (← performStorageCommand message data)

/-- `processDirectoryListingPacket`. -/
def processDirectoryListingPacket : Handler Outcome := do
  let valid ←
    validateEncodedDirectoryListingRequestFrame message.payload message.length.toUInt32
  if !valid then return .respond .invalid
  else
    let data ←
      decodeDirectoryListingRequestFrame message.payload message.length.toUInt32 arrays.name
    let name ← readCString data.name 0
    calls edr do
      let retval ← perform (.startDirectoryListing data.area name data.start data.count
        message.targets message.envelope.seqNo)
      return .respond (.ofRetval retval)

/-- `processFileDownloadPacket`. -/
def processFileDownloadPacket : Handler Outcome := do
  let valid ← validateEncodedFileDownloadRequestFrame message.payload message.length.toUInt32
  if !valid then return .respond .invalid
  else
    let data ← decodeFileDownloadRequestFrame message.payload message.length.toUInt32 arrays.path
    let path ← readCString data.path 0
    calls edr do
      let result : Except Errno UInt32 ← perform (SystemCall.startFileDownload data.area path
        data.start data.length message.targets message.envelope.seqNo)
      match result with
      | .error e => return .respond (.failed e.code)
      | .ok size => return .respond (.ok size)

/-! ### The cases of `processPacket` -/

/-- `IGNORE_UNLESS_FROM_GCS`. -/
def ignoreUnlessFromGcs (what : String) (fromGcs next : Handler Outcome) : Handler Outcome :=
  if message.envelope.source ≠ Component.groundStation then do
    let _ ← calls edr (perform (.warning (.ignored what message.envelope.source)))
    next
  else fromGcs

/-- The case of `ECHO`. -/
def echoCase : Handler Outcome := do
  let _ ← processEchoPacket edr arrays message
  calls edr afterBreak

/-- The default case. -/
def defaultCase : Handler Outcome := calls edr (TellerOBC.defaultCase message)

/-- The case of `DEBUG`. -/
def debugCase : Handler Outcome :=
  ignoreUnlessFromGcs edr message "debug" (processDebugPacket edr message)
    (defaultCase edr message)

/-- The case of `CALIBRATION`. -/
def calibrationCase : Handler Outcome :=
  ignoreUnlessFromGcs edr message "calibration" (processCalibrationPacket edr message)
    (echoCase edr arrays message)

/-- The case of `LCL_RESET`. -/
def lclResetCase : Handler Outcome :=
  ignoreUnlessFromGcs edr message "LCL reset" (processLCLResetRequestPacket edr message)
    (calibrationCase edr arrays message)

/-- `processPacket`. -/
def processPacket : Handler Outcome :=
  let type := message.envelope.frameType
  if type = FrameType.clockSync then
    ignoreUnlessFromGcs edr message "clock sync" (processClockSyncPacket edr message)
      (calls edr afterBreak)
  else if type = FrameType.reset then calls edr (resetCase message)
  else if type = FrameType.storage then
    ignoreUnlessFromGcs edr message "storage" (processStoragePacket edr message)
      (calls edr afterBreak)
  else if type = FrameType.directoryListing then
    ignoreUnlessFromGcs edr message "directory listing"
      (processDirectoryListingPacket edr arrays message) (calls edr afterBreak)
  else if type = FrameType.fileDownload then
    ignoreUnlessFromGcs edr message "file download"
      (processFileDownloadPacket edr arrays message) (calls edr afterBreak)
  else if type = FrameType.lclReset then lclResetCase edr arrays message
  else if type = FrameType.calibration then calibrationCase edr arrays message
  else if type = FrameType.echo then echoCase edr arrays message
  else if type = FrameType.debug then debugCase edr message
  else defaultCase edr message

/-- `sendResponse`. -/
def sendResponse (response : Response) : Handler Bool := do
  let frame ← encodeAckFrame
    { frameType := message.envelope.frameType
      seqNo := message.envelope.seqNo
      result := response.result
      error := response.error
      value := response.value } arrays.responseBuffer
  let payload ← readFrame frame
  calls edr (sendFrameTo message.targets FrameType.ack payload)

/-- The outcome of a message: only messages for the onboard computer are processed. -/
def processForTarget : Handler Outcome :=
  if message.envelope.target = Component.onboardComputer then processPacket edr arrays message
  else return .none

/-- `processNext` for a message that was received from the queue; whether it returns. -/
def processReceived : Handler Bool := do
  let outcome ← processForTarget edr arrays message
  match outcome with
  | .never => return false
  | .none =>
    let _ ← calls edr (perform .free)
    return true
  | .respond response =>
    let _ ← calls edr (perform .free)
    let _ ← sendResponse edr arrays message response
    return true

/-! ### Calls -/

section Calls

variable {edr}

theorem passes_sendTo (targets : UInt8) (envelope : Envelope) (payload : List UInt8) :
    Passes (SystemCall.check edr) (sendTo targets envelope payload) := by
  refine .perform rfl fun level => .ite (.ite trivial ?_) trivial
  refine .perform rfl fun allocated => .ite ?_ (.perform rfl fun _ => trivial)
  refine .perform rfl fun seqNo => ?_
  split
  · exact .perform rfl fun _ => trivial
  · exact .perform rfl fun success => .ite trivial (.perform rfl fun _ => trivial)

theorem passes_performCalibration (procedure : CalibrationProcedure) :
    Passes (SystemCall.check edr) (performCalibration procedure) := by
  cases procedure with
  | nop => trivial
  | gyro => exact ⟨rfl, fun _ => trivial⟩
  | accel => exact ⟨rfl, fun _ => trivial⟩

theorem passes_performDebugCommand (command : DebugCommand) :
    Passes (SystemCall.check edr) (performDebugCommand command) := by
  cases command with
  | nop | triggerWatchdog => trivial
  | startClock | stopClock | resetClock | toggleSimulatedError | toggleTelemetryLevel =>
    exact ⟨rfl, fun _ => ⟨rfl, fun _ => trivial⟩⟩
  | toggleCamera | reportStorageStatus | reportEdrStatus | reportMemoryUsage =>
    exact ⟨rfl, fun _ => trivial⟩
  | simulateFlashmemError | simulateSdcardError =>
    exact ⟨check_simulateIOError nofun, fun _ => trivial⟩

/-- Storage commands reach no failing assertion for any storage area. -/
theorem passes_performStorageCommand {actions : List (RecordersAction F)}
    (hvisit : Visits Recorders.step Recorders.start actions edr) (data : StorageCommandData) :
    Passes (SystemCall.check edr) (performStorageCommand message data) := by
  rw [performStorageCommand]
  split
  · exact ⟨rfl, fun _ => trivial⟩
  · exact ⟨check_requestStopAndUnmount hvisit _, fun _ => trivial⟩
  · exact ⟨rfl, fun _ => trivial⟩
  · trivial
  · exact ⟨rfl, fun _ => trivial⟩
  · exact ⟨rfl, fun _ => trivial⟩
  · exact ⟨rfl, fun _ => ⟨rfl, fun _ => ⟨rfl, fun _ => trivial⟩⟩⟩

theorem calls_eq_lift {α : Type} {p : Program SystemAnswer α}
    (h : Passes (SystemCall.check edr) p) : calls edr p = lift p := withChecks_eq_lift h

theorem calls_afterBreak : calls edr afterBreak = lift afterBreak := rfl

theorem defaultCase_eq_lift : defaultCase edr message = lift (TellerOBC.defaultCase message) :=
  calls_eq_lift ⟨check_warning _, fun _ => trivial⟩

/-- A guarded case is safe if both branches are. -/
theorem ignoreUnlessFromGcs_eq_lift (what : String) {fromGcs next : Handler Outcome}
    {p q : Program SystemAnswer Outcome} (hfromGcs : fromGcs = lift p) (hnext : next = lift q) :
    ignoreUnlessFromGcs edr message what fromGcs next =
      lift (TellerOBC.ignoreUnlessFromGcs message what p q) := by
  rw [ignoreUnlessFromGcs, TellerOBC.ignoreUnlessFromGcs]
  split
  · rw [calls_eq_lift (p := perform _) ⟨check_warning _, fun _ => trivial⟩, hnext, lift_bind]
  · exact hfromGcs

end Calls

/-! ### The handlers are safe -/

section Safe

variable {edr message}

/-- The payload is at least as long as a validator for frames of fixed length requires. -/
theorem le_length_of_valid {size : ℕ} (h : ¬(!decide (size ≤ message.payload.length)) = true) :
    size ≤ message.payload.length := by
  rwa [Bool.not_eq_true', decide_eq_false_iff_not, not_not] at h

theorem processClockSyncPacket_eq_lift (h : message.payload.length ≤ maxPayloadLength) :
    processClockSyncPacket edr message = lift (TellerOBC.processClockSyncPacket message) := by
  rw [processClockSyncPacket, TellerOBC.processClockSyncPacket, validateEncodedClockSyncFrame,
    (InboundMessage.received h).validateLength_eq, TellerOBC.validateEncodedClockSyncFrame]
  split
  · rfl
  · rename_i hvalid
    rw [decodeClockSyncFrame_of_le (le_length_of_valid hvalid), ok_bind]
    exact calls_eq_lift (.perform rfl fun success => .ite (.perform rfl fun _ => trivial) trivial)

theorem processLCLResetRequestPacket_eq_lift (h : message.payload.length ≤ maxPayloadLength) :
    processLCLResetRequestPacket edr message =
      lift (TellerOBC.processLCLResetRequestPacket message) := by
  rw [processLCLResetRequestPacket, TellerOBC.processLCLResetRequestPacket,
    validateEncodedLCLResetRequestFrame, (InboundMessage.received h).validateLength_eq,
    TellerOBC.validateEncodedLCLResetRequestFrame]
  split
  · rfl
  · rename_i hvalid
    rw [decodeLCLResetRequestFrame_of_le (le_length_of_valid hvalid), ok_bind]
    exact calls_eq_lift (.perform rfl fun _ => trivial)

theorem processCalibrationPacket_eq_lift (h : message.payload.length ≤ maxPayloadLength) :
    processCalibrationPacket edr message = lift (TellerOBC.processCalibrationPacket message) := by
  rw [processCalibrationPacket, TellerOBC.processCalibrationPacket,
    validateEncodedCalibrationRequestFrame, (InboundMessage.received h).validateLength_eq,
    TellerOBC.validateEncodedCalibrationRequestFrame]
  split
  · rfl
  · rename_i hvalid
    rw [decodeCalibrationRequestFrame_of_le (le_length_of_valid hvalid), ok_bind]
    refine calls_eq_lift ?_
    split
    · trivial
    · exact (passes_performCalibration _).bind fun _ => trivial
    · exact (passes_performCalibration _).bind fun _ => trivial

theorem processDebugPacket_eq_lift (h : message.payload.length ≤ maxPayloadLength) :
    processDebugPacket edr message = lift (TellerOBC.processDebugPacket message) := by
  rw [processDebugPacket, TellerOBC.processDebugPacket, validateEncodedDebugCommandFrame,
    (InboundMessage.received h).validateLength_eq, TellerOBC.validateEncodedDebugCommandFrame]
  split
  · rfl
  · rename_i hvalid
    rw [decodeDebugCommandFrame_of_le (le_length_of_valid hvalid), ok_bind]
    exact calls_eq_lift ((passes_performDebugCommand _).bind fun _ => trivial)

theorem processEchoPacket_eq_lift (h : message.payload.length ≤ maxPayloadLength) :
    processEchoPacket edr arrays message = lift (TellerOBC.processEchoPacket message) := by
  have hreceived := InboundMessage.received h
  rw [processEchoPacket, TellerOBC.processEchoPacket, validateEncodedEchoFrame,
    hreceived.validateLength_eq, TellerOBC.validateEncodedEchoFrame]
  split
  · rfl
  · rename_i hvalid
    have hle := le_length_of_valid hvalid
    obtain ⟨echo, hdecode, hreply, frame, hencode, hframe⟩ := exists_decodeEchoFrame hreceived
      (decide_eq_true hle) arrays.data arrays.responseBuffer
    rw [hdecode, ok_bind, hreply]
    dsimp only
    split
    · rfl
    · rw [hencode, ok_bind, hframe, ok_bind]
      exact calls_eq_lift (passes_sendTo ..)

theorem processStoragePacket_eq_lift {actions : List (RecordersAction F)}
    (hvisit : Visits Recorders.step Recorders.start actions edr)
    (h : message.payload.length ≤ maxPayloadLength) :
    processStoragePacket edr message = lift (TellerOBC.processStoragePacket message) := by
  rw [processStoragePacket, TellerOBC.processStoragePacket, validateEncodedStorageCommandFrame,
    (InboundMessage.received h).validateLength_eq, TellerOBC.validateEncodedStorageCommandFrame]
  split
  · rfl
  · rename_i hvalid
    rw [decodeStorageCommandFrame_of_le (le_length_of_valid hvalid), ok_bind]
    exact calls_eq_lift ((passes_performStorageCommand _ hvisit _).bind fun _ => trivial)

theorem processDirectoryListingPacket_eq_lift (h : message.payload.length ≤ maxPayloadLength) :
    processDirectoryListingPacket edr arrays message =
      lift (TellerOBC.processDirectoryListingPacket message) := by
  have hreceived := InboundMessage.received h
  rw [processDirectoryListingPacket, TellerOBC.processDirectoryListingPacket,
    validateEncodedDirectoryListingRequestFrame_eq hreceived, ok_bind]
  split
  · rfl
  · rename_i hvalid
    rw [Bool.not_eq_true', Bool.not_eq_false] at hvalid
    obtain ⟨name, hdecode, hname⟩ :=
      exists_decodeDirectoryListingRequestFrame hreceived hvalid arrays.name
    rw [hdecode, ok_bind, hname, ok_bind]
    exact calls_eq_lift (.perform rfl fun _ => trivial)

theorem processFileDownloadPacket_eq_lift (h : message.payload.length ≤ maxPayloadLength) :
    processFileDownloadPacket edr arrays message =
      lift (TellerOBC.processFileDownloadPacket message) := by
  have hreceived := InboundMessage.received h
  rw [processFileDownloadPacket, TellerOBC.processFileDownloadPacket,
    validateEncodedFileDownloadRequestFrame_eq hreceived, ok_bind]
  split
  · rfl
  · rename_i hvalid
    rw [Bool.not_eq_true', Bool.not_eq_false] at hvalid
    obtain ⟨path, hdecode, hpath⟩ :=
      exists_decodeFileDownloadRequestFrame hreceived hvalid arrays.path
    rw [hdecode, ok_bind, hpath, ok_bind]
    refine calls_eq_lift (.perform rfl fun result => ?_)
    split
    · trivial
    · trivial

/-! ### All messages are processed safely -/

theorem echoCase_eq_lift (h : message.payload.length ≤ maxPayloadLength) :
    echoCase edr arrays message = lift (TellerOBC.echoCase message) := by
  rw [echoCase, processEchoPacket_eq_lift arrays h, calls_afterBreak, TellerOBC.echoCase, lift_bind]

theorem calibrationCase_eq_lift (h : message.payload.length ≤ maxPayloadLength) :
    calibrationCase edr arrays message = lift (TellerOBC.calibrationCase message) :=
  ignoreUnlessFromGcs_eq_lift _ _ (processCalibrationPacket_eq_lift h) (echoCase_eq_lift arrays h)

theorem processPacket_eq_lift {actions : List (RecordersAction F)}
    (hvisit : Visits Recorders.step Recorders.start actions edr)
    (h : message.payload.length ≤ maxPayloadLength) :
    processPacket edr arrays message = lift (TellerOBC.processPacket message) := by
  have hguarded {what : String} {fromGcs : Handler Outcome} {p : Program SystemAnswer Outcome}
      (hfromGcs : fromGcs = lift p) :
      ignoreUnlessFromGcs edr message what fromGcs (calls edr afterBreak) =
        lift (TellerOBC.ignoreUnlessFromGcs message what p afterBreak) :=
    ignoreUnlessFromGcs_eq_lift _ _ hfromGcs calls_afterBreak
  have hreset : calls edr (resetCase message) = lift (TellerOBC.resetCase message) :=
    calls_eq_lift (.ite (.perform (check_warning _) fun _ => trivial)
      (.perform rfl fun _ => trivial))
  unfold processPacket TellerOBC.processPacket
  refine ite_eq_lift (hguarded (processClockSyncPacket_eq_lift h)) ?_
  refine ite_eq_lift hreset ?_
  refine ite_eq_lift (hguarded (processStoragePacket_eq_lift hvisit h)) ?_
  refine ite_eq_lift (hguarded (processDirectoryListingPacket_eq_lift arrays h)) ?_
  refine ite_eq_lift (hguarded (processFileDownloadPacket_eq_lift arrays h)) ?_
  refine ite_eq_lift (ignoreUnlessFromGcs_eq_lift _ _ (processLCLResetRequestPacket_eq_lift h)
    (calibrationCase_eq_lift arrays h)) ?_
  refine ite_eq_lift (calibrationCase_eq_lift arrays h) ?_
  refine ite_eq_lift (echoCase_eq_lift arrays h) ?_
  refine ite_eq_lift ?_ (defaultCase_eq_lift _)
  exact ignoreUnlessFromGcs_eq_lift _ _ (processDebugPacket_eq_lift h) (defaultCase_eq_lift _)

theorem sendResponse_eq_lift (response : Response) :
    sendResponse edr arrays message response = lift (TellerOBC.sendResponse message response) := by
  obtain ⟨frame, hencode, hframe⟩ := exists_encodeAckFrame
    { frameType := message.envelope.frameType
      seqNo := message.envelope.seqNo
      result := response.result
      error := response.error
      value := response.value } arrays.responseBuffer
  rw [sendResponse, hencode, ok_bind, hframe, ok_bind]
  exact calls_eq_lift (passes_sendTo ..)

/-- **Processing is safe.** For every message of at most the maximum payload length, the handlers
with checked memory accesses and assertions are those without. -/
theorem processReceived_eq_lift {actions : List (RecordersAction F)}
    (hvisit : Visits Recorders.step Recorders.start actions edr)
    (h : message.payload.length ≤ maxPayloadLength) :
    processReceived edr arrays message = lift (TellerOBC.processReceived message) := by
  have hfree : calls edr (perform SystemCall.free) = lift (perform SystemCall.free) :=
    calls_eq_lift (p := perform _) ⟨rfl, fun _ => trivial⟩
  have htarget : processForTarget edr arrays message =
      lift (TellerOBC.processForTarget message) := by
    rw [processForTarget, TellerOBC.processForTarget]
    split
    · exact processPacket_eq_lift arrays hvisit h
    · rfl
  rw [processReceived, TellerOBC.processReceived, htarget, lift_bind]
  refine congrArg (lift (TellerOBC.processForTarget message) >>= ·) (funext fun outcome => ?_)
  cases outcome with
  | never => rfl
  | none => simp only [hfree, lift_bind]; rfl
  | respond response => simp only [hfree, sendResponse_eq_lift, lift_bind]; rfl

/-- **No message reaches a fault.** In every reachable state of the recorders, with any contents of
the arrays, and whatever the other modules answer, processing a message of any type, source and
payload of at most the maximum length ends without a fault, as in the model without checks. -/
theorem processes_safely {actions : List (RecordersAction F)}
    (hvisit : Visits Recorders.step Recorders.start actions edr)
    (h : message.payload.length ≤ maxPayloadLength) {events : List (Event SystemAnswer)}
    {r : Except Fault Bool} (hruns : Runs (processReceived edr arrays message) events r) :
    ∃ returns, r = .ok returns ∧ (TellerOBC.processReceived message).Runs events returns := by
  rw [processReceived_eq_lift arrays hvisit h] at hruns
  exact runs_lift.mp hruns

/-- The ground station asks to unmount the unspecified storage area. -/
theorem processes_safely_of_unmount :
    let message : InboundMessage := ⟨0, ⟨5, FrameType.storage, Component.groundStation,
      Component.onboardComputer⟩, [0x02, 0, 0, 0, 0, 0, 0]⟩
    let arrays : Arrays := ⟨.replicate _ 0, .replicate _ 0, .replicate _ 0, .replicate _ 0⟩
    ∃ returns, (Program.exec permissive
      (processReceived (Recorders.start : Recorders Unit) arrays message) ()).1 = .ok returns := by
  intro message arrays
  have hruns := runs_trace permissive
    (processReceived (Recorders.start : Recorders Unit) arrays message) ()
  obtain ⟨returns, hr, -⟩ :=
    processes_safely arrays (visits_start Recorders.start []) (by decide) hruns
  exact ⟨returns, hr⟩

end Safe

end Checked

end TellerOBC
