import TellerOBC.Core.Crc

/-!
# Telemetry protocol constants and message serialisation

The constants, enumerations and the envelope of `core/telem/generic.h`, and `serialize` of
`core/telem/generic.cpp`. Frame types and component codes travel as single bytes and the code
casts whatever it receives to its enumerations, so both are bytes here; the enumerators are
named constants.

## Main definitions

* `TellerOBC.Envelope`, `TellerOBC.StorageArea`, `TellerOBC.SubsystemStatus`: the data of a message
  envelope; storage areas; status codes.
* `TellerOBC.serialize`: the bytes of a telemetry message.
-/

namespace TellerOBC

/-- Length of the header of a telemetry message. -/
def headerLength : ℕ := 6

/-- Maximum length of the payload of a telemetry message, inclusive. -/
def maxPayloadLength : ℕ := 63

/-- Maximum size of a single telemetry message, inclusive. -/
def maxMessageLength : ℕ := maxPayloadLength + headerLength + 2

/-! ### Component codes -/

namespace Component

/-- Code of an unspecified component. -/
def unknownComponent : UInt8 := 0
/-- Code of the ground station. -/
def groundStation : UInt8 := 1
/-- Code of the onboard computer. -/
def onboardComputer : UInt8 := 2
/-- Code of the scintillator module. -/
def scintillatorModule : UInt8 := 3

end Component

/-- Envelope of a telemetry frame: `envelope_t`. -/
structure Envelope where
  seqNo : UInt8
  frameType : UInt8
  source : UInt8
  target : UInt8
  deriving DecidableEq, Repr

/-! ### Frame types -/

namespace FrameType

def unknown : UInt8 := 0
def heartbeat : UInt8 := 1
def textMessage : UInt8 := 2
def clockStatus : UInt8 := 3
def ack : UInt8 := 4
def reset : UInt8 := 5
def storage : UInt8 := 6
def imu : UInt8 := 7
def mag : UInt8 := 8
def gmm : UInt8 := 9
def scm : UInt8 := 10
def directoryListing : UInt8 := 11
def fileDownload : UInt8 := 12
def directoryEntry : UInt8 := 13
def binaryData : UInt8 := 14
def lclReset : UInt8 := 15
def calibration : UInt8 := 16
def echo : UInt8 := 17
def clockSync : UInt8 := 18
def debug : UInt8 := 19
def adc : UInt8 := 20

end FrameType

/-! ### Subsystems -/

/-- The possible status codes of subsystems: `subsystem_status_t`. -/
inductive SubsystemStatus where
  | critical
  | error
  | warning
  | ok
  deriving DecidableEq, Repr

/-! ### Storage areas -/

/-- The storage areas of the system: `storage_area_t`. -/
inductive StorageArea where
  | unknown
  | flashMemory
  | sdCard
  deriving DecidableEq, Repr

/-- The storage area with the given code; codes out of range decode as `unknown`. -/
def StorageArea.ofCode (code : UInt8) : StorageArea :=
  if code = 1 then .flashMemory else if code = 2 then .sdCard else .unknown

/-! ### Serialisation -/

/-- `getMessageSizeForPayloadLength`: size of the message, zero if the payload is too large. -/
def getMessageSizeForPayloadLength (payloadLength : ℕ) : ℕ :=
  if payloadLength ≤ maxPayloadLength then payloadLength + 8 else 0

/-- The envelope with its unspecified components filled in, as `serialize` does it first. -/
def Envelope.withDefaults (envelope : Envelope) : Envelope :=
  { envelope with
    source := if envelope.source = Component.unknownComponent then Component.onboardComputer
      else envelope.source
    target := if envelope.target = Component.unknownComponent then Component.groundStation
      else envelope.target }

/-- Header and payload of a message, the part that the checksum covers. -/
def serializeBody (envelope : Envelope) (payload : List UInt8) : List UInt8 :=
  [0xCA, 0xFE, envelope.seqNo, envelope.frameType,
    ((envelope.source &&& 0x03) <<< 4) ||| (envelope.target &&& 0x03),
    UInt8.ofNat payload.length] ++ payload

/-- `serialize`: the bytes that are written to the buffer; none if the payload is too large or
the buffer too short, when the source returns zero. -/
def serialize (bufferLength : ℕ) (envelope : Envelope) (payload : List UInt8) :
    Option (List UInt8) :=
  let spaceNeeded := getMessageSizeForPayloadLength payload.length
  if spaceNeeded = 0 ∨ bufferLength < spaceNeeded then none
  else
    let body := serializeBody envelope.withDefaults payload
    let crc := crcCcitt 0 body
    some (body ++ [(crc &&& 0xff).toUInt8, (crc >>> 8).toUInt8])

/-- The third byte of a message is its sequence number. -/
theorem seqNo_of_serialize {bufferLength : ℕ} {envelope : Envelope} {payload bytes : List UInt8}
    (h : serialize bufferLength envelope payload = some bytes) :
    bytes.getD 2 0 = envelope.seqNo := by
  rw [serialize] at h
  split at h
  · cases h
  · cases h
    rfl

end TellerOBC
