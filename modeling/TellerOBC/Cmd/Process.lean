import TellerOBC.Core.Telem.CommandFrames
import TellerOBC.Foundations.Decimal
import TellerOBC.Foundations.Program
import TellerOBC.Lib.LittleFS
import TellerOBC.Loggers

/-!
# Processing of inbound messages

`processPacket` of `modules/cmd.cpp` with the handlers of all frame types, and the body of
`processNext` for a message that was received from the queue. Handlers are programs over the calls
into the other modules (`SystemCall`); `sendTo` of the telemetry module is such a program itself.
Only the result that a handler gives back tells whether it returns at all: the watchdog command
loops forever.

The cases of the `switch` in `processPacket` are definitions of their own where the control flow
of the source goes on into the next case: a message that is not from the ground station
continues from the case of `LCL_RESET` to the one of `CALIBRATION` and on to the one of `ECHO`, and
from the case of `DEBUG` to the default one.

## Main definitions

* `TellerOBC.SystemCall`, `TellerOBC.SystemAnswer`: the calls and their answers.
* `TellerOBC.sendTo`: sending a telemetry message.
* `TellerOBC.processPacket`, `TellerOBC.processReceived`.
* `TellerOBC.permissive`: surroundings in which every call succeeds.

## Main results

* `TellerOBC.serialize_eq_some`: payloads up to the maximum length are serialised.
-/

namespace TellerOBC

/-! ### Calls into other modules -/

/-- The levels of detail of the telemetry: `telemetry_level_t`. -/
inductive TelemetryLevel where
  | full
  | minimal
  deriving DecidableEq, Repr

/-- The error conditions that the command and telemetry modules set: `error_t`. -/
inductive ErrorCode where
  | notEnoughMemory
  | simulatedError
  deriving DecidableEq, Repr

/-- The texts of the warnings of the command module. -/
inductive WarningText where
  /-- `"Ignored %s req from c%d"`. -/
  | ignored (what : String) (source : UInt8)
  /-- `"Unhandled pkt: %d"`. -/
  | unhandled (frameType : UInt8)
  deriving DecidableEq, Repr

/-- The text of a warning. -/
def WarningText.bytes : WarningText → List UInt8
  | .ignored what source =>
    Decimal.ascii ("Ignored " ++ what ++ " req from c").toList ++ Decimal.print source.toNat
  | .unhandled frameType =>
    Decimal.ascii "Unhandled pkt: ".toList ++ Decimal.print frameType.toNat

/-- The log call of a warning of the command module. -/
def WarningText.logCall (text : WarningText) : LogCall := ⟨.obc, .warning, text.bytes⟩

/-- The operations on the mission clock. -/
inductive ClockOperation where
  | start
  | stop
  | reset
  deriving DecidableEq, Repr

/-- The calls of the command module into other modules. -/
inductive SystemCall where
  /-- `logger->warning`, which sends a text message. -/
  | warning (text : WarningText)
  | malloc (size : ℕ)
  | free
  | getTelemetryLevel
  | setTelemetryLevel (level : TelemetryLevel)
  /-- `seq_no++` of the telemetry module. -/
  | nextSeqNo
  /-- `sendLowLevel`, which puts a frame into the outbound queue. -/
  | sendLowLevel (targets : UInt8) (frameType : UInt8) (bytes : List UInt8)
  | sendClockStatusSoon
  | setTimeMsec (timestamp : UInt64)
  | requestReset
  | resetMultiple (lcls : UInt8)
  | startGyroCalibration
  | startAccelerometerCalibration
  | missionClock (operation : ClockOperation)
  | sendPulse
  | reportStorageStatus
  | reportEdrStatus
  | reportMemoryUsage
  | hasError (code : ErrorCode)
  | setError (code : ErrorCode) (present : Bool)
  | simulateIOError (area : StorageArea)
  | requestStopAndUnmount (area : StorageArea)
  | mountStorage (area : StorageArea) (force : Bool)
  | eraseStorage (area : StorageArea)
  | getStorageSize (area : StorageArea)
  | isStorageConfigured (area : StorageArea)
  | isStorageMounted (area : StorageArea)
  | isStorageErrored (area : StorageArea)
  | startRawStorageDownload (area : StorageArea) (address : UInt64) (length : UInt16)
      (targets seqNo : UInt8)
  | startDirectoryListing (area : StorageArea) (name : List UInt8) (start_ count : UInt16)
      (targets seqNo : UInt8)
  | startFileDownload (area : StorageArea) (path : List UInt8) (offset : UInt32)
      (length : UInt16) (targets seqNo : UInt8)
  deriving DecidableEq, Repr

/-- The answers of the other modules. -/
abbrev SystemAnswer : SystemCall → Type
  | .malloc _ | .sendLowLevel .. | .setTimeMsec _ | .hasError _ | .requestStopAndUnmount _
  | .isStorageConfigured _ | .isStorageMounted _ | .isStorageErrored _ => Bool
  | .getTelemetryLevel => TelemetryLevel
  | .nextSeqNo => UInt8
  | .getStorageSize _ => UInt32
  | .mountStorage .. | .eraseStorage _ | .startRawStorageDownload ..
  | .startDirectoryListing .. => Option Errno
  | .startFileDownload .. => Except Errno UInt32
  | _ => Unit

open Program (perform)

/-! ### Sending telemetry -/

/-- `isEssentialFrameType`: the frame types that are sent at every telemetry level. -/
def isEssentialFrameType (type : UInt8) : Bool :=
  type = FrameType.heartbeat || type = FrameType.textMessage || type = FrameType.clockStatus ||
    type = FrameType.ack || type = FrameType.binaryData || type = FrameType.directoryEntry ||
    type = FrameType.adc

/-- `sendTo` with an envelope, whose sequence number is filled in. -/
def sendTo (targets : UInt8) (envelope : Envelope) (payload : List UInt8) :
    Program SystemAnswer Bool := do
  let level : TelemetryLevel ← perform SystemCall.getTelemetryLevel
  if level = .full ∨ isEssentialFrameType envelope.frameType then
    let bufLength := getMessageSizeForPayloadLength payload.length
    if bufLength = 0 then return false
    else
      let allocated ← perform (.malloc bufLength)
      if allocated then
        let seqNo ← perform .nextSeqNo
        match serialize bufLength { envelope with seqNo := seqNo } payload with
        | none =>
          let _ ← perform .free
          return false
        | some bytes =>
          let success ← perform (.sendLowLevel targets envelope.frameType bytes)
          if success then return true
          else
            let _ ← perform .free
            return false
      else
        let _ ← perform (.setError .notEnoughMemory true)
        return false
  else
    -- pretend that the message was sent
    return true

/-- `sendTo` with a frame type; the message goes to the ground station. -/
def sendFrameTo (targets : UInt8) (type : UInt8) (payload : List UInt8) :
    Program SystemAnswer Bool :=
  sendTo targets
    { seqNo := 0
      frameType := type
      source := Component.onboardComputer
      target := Component.groundStation } payload

/-! ### Messages and responses -/

/-- An inbound message: the index of the UART that it was received from, its envelope and its
payload. -/
structure InboundMessage where
  index : UInt8
  envelope : Envelope
  payload : List UInt8
  deriving DecidableEq, Repr

/-- `1 << message.index`. -/
def InboundMessage.targets (message : InboundMessage) : UInt8 := 1 <<< message.index

/-- Description of the response to be posted for an inbound message. -/
structure Response where
  result : AckResult
  error : UInt32 := 0
  value : UInt32 := 0
  deriving DecidableEq, Repr

namespace Response

/-- The command was executed. -/
def ok (value : UInt32) : Response := { result := .accepted, value := value }

/-- The command failed with an error. -/
def failed (error : UInt32) : Response := { result := .failed, error := error }

/-- The message is invalid. -/
def invalid : Response := { result := .invalid }

/-- The command is not supported. -/
def unsupported : Response := { result := .unsupported }

end Response

/-- The error numbers of the C library of the flight computer. -/
def Errno.code : Errno → UInt32
  | .badf => 9
  | .busy => 16
  | .exist => 17
  | .fbig => 27
  | .inval => 22
  | .io => 5
  | .isdir => 21
  | .nametoolong => 91
  | .noent => 2
  | .nomem => 12
  | .nospc => 28
  | .notdir => 20
  | .notempty => 90

/-- The response to a return value of a storage function. -/
def Response.ofRetval : Option Errno → Response
  | some e => failed e.code
  | none => ok 0

/-- What a handler ends with: no response, a response, or not at all. -/
inductive Outcome where
  | none
  | respond (response : Response)
  | never
  deriving DecidableEq, Repr

/-! ### The handlers -/

variable (message : InboundMessage)

/-- `processClockSyncPacket`. -/
def processClockSyncPacket : Program SystemAnswer Outcome :=
  if !validateEncodedClockSyncFrame message.payload then return .respond .invalid
  else do
    let success ← perform (.setTimeMsec (decodeClockSyncFrame message.payload))
    if success then
      let _ ← perform .sendClockStatusSoon
      return .respond (.ok 0)
    else return .respond (.failed 0)

/-- `processLCLResetRequestPacket`. -/
def processLCLResetRequestPacket : Program SystemAnswer Outcome :=
  if !validateEncodedLCLResetRequestFrame message.payload then return .respond .invalid
  else do
    let _ ← perform (.resetMultiple (decodeLCLResetRequestFrame message.payload))
    return .respond (.ok 0)

/-- `performCalibration`. -/
def performCalibration : CalibrationProcedure → Program SystemAnswer Bool
  | .nop => return true
  | .gyro => do
    let _ ← perform .startGyroCalibration
    return true
  | .accel => do
    let _ ← perform .startAccelerometerCalibration
    return true

/-- `processCalibrationPacket`. -/
def processCalibrationPacket : Program SystemAnswer Outcome :=
  if !validateEncodedCalibrationRequestFrame message.payload then return .respond .invalid
  else
    let procedure := decodeCalibrationRequestFrame message.payload
    match procedure with
    | .accel => return .respond .unsupported
    | .nop | .gyro => do
      let success ← performCalibration procedure
      return .respond (if success then .ok 0 else .failed 1)

/-- The effect of a debug command; whether it returns. -/
def performDebugCommand : DebugCommand → Program SystemAnswer Bool
  | .nop => return true
  | .startClock => do
    let _ ← perform (.missionClock .start)
    let _ ← perform .sendClockStatusSoon
    return true
  | .stopClock => do
    let _ ← perform (.missionClock .stop)
    let _ ← perform .sendClockStatusSoon
    return true
  | .resetClock => do
    let _ ← perform (.missionClock .reset)
    let _ ← perform .sendClockStatusSoon
    return true
  | .toggleCamera => do
    let _ ← perform .sendPulse
    return true
  | .triggerWatchdog => return false
  | .reportStorageStatus => do
    let _ ← perform .reportStorageStatus
    return true
  | .toggleSimulatedError => do
    let present ← perform (.hasError .simulatedError)
    let _ ← perform (.setError .simulatedError !present)
    return true
  | .reportEdrStatus => do
    let _ ← perform .reportEdrStatus
    return true
  | .toggleTelemetryLevel => do
    let level : TelemetryLevel ← perform SystemCall.getTelemetryLevel
    let _ ← perform (.setTelemetryLevel (if level = .full then .minimal else .full))
    return true
  | .reportMemoryUsage => do
    let _ ← perform .reportMemoryUsage
    return true
  | .simulateFlashmemError => do
    let _ ← perform (.simulateIOError .flashMemory)
    return true
  | .simulateSdcardError => do
    let _ ← perform (.simulateIOError .sdCard)
    return true

/-- `processDebugPacket`. -/
def processDebugPacket : Program SystemAnswer Outcome :=
  if !validateEncodedDebugCommandFrame message.payload then return .respond .invalid
  else do
    let returns ← performDebugCommand (decodeDebugCommandFrame message.payload)
    return if returns then .respond (.ok 0) else .never

/-- `processEchoPacket`. The sequence number of the envelope is filled in by `sendTo`. -/
def processEchoPacket : Program SystemAnswer Bool :=
  if !validateEncodedEchoFrame message.payload then return false
  else
    let data := decodeEchoFrame message.payload
    if data.isReply ≠ 0 then return true
    else
      sendTo message.targets
        { seqNo := 0
          frameType := message.envelope.frameType
          source := Component.onboardComputer
          target := message.envelope.source } (encodeEchoFrame { data with isReply := 1 })

/-- The effect of a storage command and its response. -/
def performStorageCommand (data : StorageCommandData) : Program SystemAnswer Response :=
  match data.command with
  | .mount => do return .ofRetval (← perform (.mountStorage data.area true))
  | .unmount => do
    let posted ← perform (.requestStopAndUnmount data.area)
    return .ofRetval (if posted then none else some .io)
  | .erase => do return .ofRetval (← perform (.eraseStorage data.area))
  | .nop => return .ok 0
  | .read => do
    return .ofRetval (← perform (.startRawStorageDownload data.area data.offset.toUInt64
      data.length message.targets message.envelope.seqNo))
  | .getSize => do return .ok (← perform (.getStorageSize data.area))
  | .getStatus => do
    let configured ← perform (.isStorageConfigured data.area)
    let mounted ← perform (.isStorageMounted data.area)
    let errored ← perform (.isStorageErrored data.area)
    return .ok ((if configured then 1 else 0) ||| (if mounted then 2 else 0) |||
      (if errored then 4 else 0))

/-- `processStoragePacket`. -/
def processStoragePacket : Program SystemAnswer Outcome :=
  if !validateEncodedStorageCommandFrame message.payload then return .respond .invalid
  else do
    return .respond (← performStorageCommand message (decodeStorageCommandFrame message.payload))

/-- `processDirectoryListingPacket`. -/
def processDirectoryListingPacket : Program SystemAnswer Outcome :=
  if !validateEncodedDirectoryListingRequestFrame message.payload then return .respond .invalid
  else do
    let data := decodeDirectoryListingRequestFrame message.payload
    let retval ← perform (.startDirectoryListing data.area (cStringAt data.name) data.start
      data.count message.targets message.envelope.seqNo)
    return .respond (.ofRetval retval)

/-- `processFileDownloadPacket`. -/
def processFileDownloadPacket : Program SystemAnswer Outcome :=
  if !validateEncodedFileDownloadRequestFrame message.payload then return .respond .invalid
  else do
    let data := decodeFileDownloadRequestFrame message.payload
    let result : Except Errno UInt32 ← perform (SystemCall.startFileDownload data.area
      (cStringAt data.path) data.start data.length message.targets message.envelope.seqNo)
    match result with
    | .error e => return .respond (.failed e.code)
    | .ok size => return .respond (.ok size)

/-! ### The cases of `processPacket` -/

/-- `IGNORE_UNLESS_FROM_GCS`: the branch for messages of the ground station, and what the control
flow reaches after the warning for the other ones. -/
def ignoreUnlessFromGcs (what : String) (fromGcs next : Program SystemAnswer Outcome) :
    Program SystemAnswer Outcome :=
  if message.envelope.source ≠ Component.groundStation then do
    let _ ← perform (.warning (.ignored what message.envelope.source))
    next
  else fromGcs

/-- The end of the `switch`, after a `break`. -/
def afterBreak : Program SystemAnswer Outcome := return .none

/-- The default case. -/
def defaultCase : Program SystemAnswer Outcome := do
  let _ ← perform (.warning (.unhandled message.envelope.frameType))
  afterBreak

/-- The case of `DEBUG`, without a `break` before the default case. -/
def debugCase : Program SystemAnswer Outcome :=
  ignoreUnlessFromGcs message "debug" (processDebugPacket message) (defaultCase message)

/-- The case of `ECHO`. -/
def echoCase : Program SystemAnswer Outcome := do
  let _ ← processEchoPacket message
  afterBreak

/-- The case of `CALIBRATION`, without a `break` before the case of `ECHO`. -/
def calibrationCase : Program SystemAnswer Outcome :=
  ignoreUnlessFromGcs message "calibration" (processCalibrationPacket message) (echoCase message)

/-- The case of `LCL_RESET`, without a `break` before the case of `CALIBRATION`. -/
def lclResetCase : Program SystemAnswer Outcome :=
  ignoreUnlessFromGcs message "LCL reset" (processLCLResetRequestPacket message)
    (calibrationCase message)

/-- The case of `RESET`, which falls out of the guarded block. -/
def resetCase : Program SystemAnswer Outcome :=
  ignoreUnlessFromGcs message "reset"
    (do
      let _ ← perform .requestReset
      afterBreak) afterBreak

/-- `processPacket`. -/
def processPacket : Program SystemAnswer Outcome :=
  let type := message.envelope.frameType
  if type = FrameType.clockSync then
    ignoreUnlessFromGcs message "clock sync" (processClockSyncPacket message) afterBreak
  else if type = FrameType.reset then resetCase message
  else if type = FrameType.storage then
    ignoreUnlessFromGcs message "storage" (processStoragePacket message) afterBreak
  else if type = FrameType.directoryListing then
    ignoreUnlessFromGcs message "directory listing" (processDirectoryListingPacket message)
      afterBreak
  else if type = FrameType.fileDownload then
    ignoreUnlessFromGcs message "file download" (processFileDownloadPacket message) afterBreak
  else if type = FrameType.lclReset then lclResetCase message
  else if type = FrameType.calibration then calibrationCase message
  else if type = FrameType.echo then echoCase message
  else if type = FrameType.debug then debugCase message
  else defaultCase message

/-- `sendResponse`. -/
def sendResponse (response : Response) : Program SystemAnswer Bool :=
  sendFrameTo message.targets FrameType.ack (encodeAckFrame
    { frameType := message.envelope.frameType
      seqNo := message.envelope.seqNo
      result := response.result
      error := response.error
      value := response.value })

/-- The outcome of a message: only messages for the onboard computer are processed. -/
def processForTarget : Program SystemAnswer Outcome :=
  if message.envelope.target = Component.onboardComputer then processPacket message
  else return .none

/-- `processNext` for a message that was received from the queue; whether it returns. -/
def processReceived : Program SystemAnswer Bool := do
  let outcome ← processForTarget message
  match outcome with
  | .never => return false
  | .none =>
    let _ ← perform .free
    return true
  | .respond response =>
    let _ ← perform .free
    let _ ← sendResponse message response
    return true

/-! ### Serialisation -/

/-- Payloads up to the maximum length are serialised. -/
theorem serialize_eq_some {payload : List UInt8} (h : payload.length ≤ maxPayloadLength)
    (envelope : Envelope) :
    ∃ bytes, serialize (getMessageSizeForPayloadLength payload.length) envelope payload =
      some bytes := by
  have hsize : getMessageSizeForPayloadLength payload.length = payload.length + 8 := if_pos h
  have hfits : ¬(payload.length + 8 = 0 ∨ payload.length + 8 < payload.length + 8) := by omega
  simp only [serialize, hsize, if_neg hfits]
  exact ⟨_, rfl⟩

/-! ### Echo requests and surroundings -/

/-- An echo request is answered with its data. -/
theorem processEchoPacket_eq_sendTo {message : InboundMessage} {data : List UInt8}
    (h : message.payload = 0 :: data) :
    processEchoPacket message = sendTo message.targets
      { seqNo := 0
        frameType := message.envelope.frameType
        source := Component.onboardComputer
        target := message.envelope.source } (1 :: data) := by
  rw [processEchoPacket, h, if_neg (by simp [validateEncodedEchoFrame])]
  exact if_neg (fun hne => hne rfl)

/-- Surroundings in which every call succeeds. -/
def permissive : Program.Environment SystemAnswer Unit
  | .malloc _, _ | .sendLowLevel .., _ | .setTimeMsec _, _ | .hasError _, _
  | .requestStopAndUnmount _, _ | .isStorageConfigured _, _ | .isStorageMounted _, _
  | .isStorageErrored _, _ => (true, ())
  | .getTelemetryLevel, _ => (.full, ())
  | .nextSeqNo, _ | .getStorageSize _, _ => (0, ())
  | .mountStorage .., _ | .eraseStorage _, _ | .startRawStorageDownload .., _
  | .startDirectoryListing .., _ => (none, ())
  | .startFileDownload .., _ => (.ok 0, ())
  | .warning _, _ | .free, _ | .setTelemetryLevel _, _ | .sendClockStatusSoon, _
  | .requestReset, _ | .resetMultiple _, _ | .startGyroCalibration, _
  | .startAccelerometerCalibration, _ | .missionClock _, _ | .sendPulse, _
  | .reportStorageStatus, _ | .reportEdrStatus, _ | .reportMemoryUsage, _ | .setError .., _
  | .simulateIOError _, _ => ((), ())

end TellerOBC
