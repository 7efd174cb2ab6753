import TellerOBC.Core.Telem.StorageFrames

/-!
# Frames of the other commands

The wire encodings of `core/telem/ack.cpp`, `core/telem/calibration.cpp`,
`core/telem/clock_sync.cpp`, `core/telem/debug.cpp`, `core/telem/echo.cpp` and
`core/telem/lcl_reset.cpp`, as far as the onboard computer uses them.

## Main definitions

* `TellerOBC.AckData`, `TellerOBC.encodeAckFrame`.
* `TellerOBC.EchoData`, `TellerOBC.encodeEchoFrame`, `TellerOBC.decodeEchoFrame`.
* `TellerOBC.decodeClockSyncFrame`, `TellerOBC.decodeLCLResetRequestFrame`,
  `TellerOBC.decodeCalibrationRequestFrame`, `TellerOBC.decodeDebugCommandFrame` and their
  validators.
-/

namespace TellerOBC

/-! ### Acknowledgments -/

/-- The possible response codes in an acknowledgment frame: `ack_result_t`. -/
inductive AckResult where
  | accepted
  | denied
  | failed
  | unsupported
  | invalid
  deriving DecidableEq, Repr

/-- The code of a response. -/
def AckResult.code : AckResult → UInt8
  | accepted => 0
  | denied => 1
  | failed => 2
  | unsupported => 3
  | invalid => 4

/-- The data of an acknowledgment frame: `ack_data_t`. -/
structure AckData where
  frameType : UInt8
  seqNo : UInt8
  result : AckResult
  error : UInt32
  value : UInt32
  deriving DecidableEq, Repr

/-- The little-endian bytes of a 32-bit field. -/
def uint32Bytes (x : UInt32) : List UInt8 :=
  [x.toUInt8, (x >>> 8).toUInt8, (x >>> 16).toUInt8, (x >>> 24).toUInt8]

/-- A 32-bit field at the start of a frame is read back. -/
theorem uint32At_uint32Bytes (x : UInt32) (rest : List UInt8) :
    uint32At (uint32Bytes x ++ rest) 0 = x := by
  have hx := x.toNat_lt
  have hbyte : ∀ k : UInt32, k.toNat < 32 →
      (x >>> k).toUInt8.toNat = x.toNat / 2 ^ k.toNat % 256 := by
    intro k hk
    rw [UInt32.toNat_toUInt8, UInt32.toNat_shiftRight, Nat.mod_eq_of_lt hk,
      Nat.shiftRight_eq_div_pow]
  have h₀ : (byteAt (uint32Bytes x ++ rest) 0).toNat = x.toNat % 256 := UInt32.toNat_toUInt8 x
  have h₁ : (byteAt (uint32Bytes x ++ rest) 1).toNat = x.toNat / 256 % 256 :=
    hbyte 8 (by decide)
  have h₂ : (byteAt (uint32Bytes x ++ rest) 2).toNat = x.toNat / 65536 % 256 :=
    hbyte 16 (by decide)
  have h₃ : (byteAt (uint32Bytes x ++ rest) 3).toNat = x.toNat / 16777216 % 256 :=
    hbyte 24 (by decide)
  apply UInt32.toNat.inj
  rw [toNat_uint32At, toNat_uint16At, toNat_uint16At, h₀, h₁, h₂, h₃]
  omega

/-- `encodeAckFrame`: the bytes of the encoded frame. -/
def encodeAckFrame (data : AckData) : List UInt8 :=
  [data.frameType, data.seqNo, data.result.code] ++
    uint32Bytes (match data.result with
      | .accepted => data.value
      | .invalid => 0
      | _ => data.error)

/-! ### Echo frames -/

/-- The data of an echo frame: `echo_data_t`. -/
structure EchoData where
  isReply : UInt8
  data : List UInt8
  deriving DecidableEq, Repr

/-- `validateEncodedEchoFrame`. -/
def validateEncodedEchoFrame (encoded : List UInt8) : Bool := 1 ≤ encoded.length

/-- `decodeEchoFrame`. -/
def decodeEchoFrame (encoded : List UInt8) : EchoData :=
  { isReply := byteAt encoded 0, data := encoded.drop 1 }

/-- `encodeEchoFrame`: the bytes of the encoded frame. -/
def encodeEchoFrame (data : EchoData) : List UInt8 := data.isReply :: data.data

/-! ### Clock synchronisation -/

/-- `validateEncodedClockSyncFrame`. -/
def validateEncodedClockSyncFrame (encoded : List UInt8) : Bool := 8 ≤ encoded.length

/-- `decodeClockSyncFrame`: the timestamp in milliseconds. -/
def decodeClockSyncFrame (encoded : List UInt8) : UInt64 := uint64At encoded 0

/-! ### LCL reset requests -/

/-- `LCL_RESET_ALL`. -/
def lclResetAll : UInt8 := 63

/-- `validateEncodedLCLResetRequestFrame`. -/
def validateEncodedLCLResetRequestFrame (encoded : List UInt8) : Bool := 1 ≤ encoded.length

/-- `decodeLCLResetRequestFrame`: the LCLs to reset. -/
def decodeLCLResetRequestFrame (encoded : List UInt8) : UInt8 := byteAt encoded 0 &&& lclResetAll

/-! ### Calibration requests -/

/-- The calibration procedures: `calibration_procedure_t`. -/
inductive CalibrationProcedure where
  | nop
  | gyro
  | accel
  deriving DecidableEq, Repr

/-- `validateEncodedCalibrationRequestFrame`. -/
def validateEncodedCalibrationRequestFrame (encoded : List UInt8) : Bool := 1 ≤ encoded.length

/-- `decodeCalibrationRequestFrame`: the procedure; codes out of range decode as `nop`. -/
def decodeCalibrationRequestFrame (encoded : List UInt8) : CalibrationProcedure :=
  if byteAt encoded 0 = 1 then .gyro else if byteAt encoded 0 = 2 then .accel else .nop

/-! ### Debug commands -/

/-- The debug commands: `debug_command_t`. -/
inductive DebugCommand where
  | nop
  | startClock
  | stopClock
  | resetClock
  | toggleCamera
  | triggerWatchdog
  | reportStorageStatus
  | toggleSimulatedError
  | reportEdrStatus
  | toggleTelemetryLevel
  | reportMemoryUsage
  | simulateFlashmemError
  | simulateSdcardError
  deriving DecidableEq, Repr

/-- The debug commands in the order of their codes. -/
def debugCommands : List DebugCommand :=
  [.nop, .startClock, .stopClock, .resetClock, .toggleCamera, .triggerWatchdog,
    .reportStorageStatus, .toggleSimulatedError, .reportEdrStatus, .toggleTelemetryLevel,
    .reportMemoryUsage, .simulateFlashmemError, .simulateSdcardError]

/-- `validateEncodedDebugCommandFrame`. -/
def validateEncodedDebugCommandFrame (encoded : List UInt8) : Bool := 1 ≤ encoded.length

/-- `decodeDebugCommandFrame`: the command; codes out of range decode as `nop`. -/
def decodeDebugCommandFrame (encoded : List UInt8) : DebugCommand :=
  debugCommands.getD (byteAt encoded 0).toNat .nop

end TellerOBC
