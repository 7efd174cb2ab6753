import Mathlib.Data.Nat.Bitwise
import Mathlib.Data.Vector.Basic
import TellerOBC.Core.Telem.CommandFrames

/-!
# Frames of fixed length and their decoders

The wire encodings of `core/telem/heartbeat.cpp`, `core/telem/clock_status.cpp` and
`core/telem/gmm.cpp`, and what `core/telem/ack.cpp` and `core/telem/storage.cpp` have besides what
the onboard computer itself uses: the decoder of acknowledgments and the encoder of storage
commands.

A decoder of these frames assigns the fields of a record that the caller provides. Where it leaves a
field alone, the field keeps what the record held before, so the decoders take this record.

## Main definitions

* `TellerOBC.decodeAckFrame`, `TellerOBC.encodeStorageCommandFrame`.
* `TellerOBC.HeartbeatData`, `TellerOBC.ClockStatusData`, `TellerOBC.GMMData` with their encoders,
  decoders and validators.

## Main results

* `TellerOBC.decodeHeartbeatFrame_iff_mode`: the mode does not survive a heartbeat frame.
* `TellerOBC.fixedLengthFrames_roundTrip`: the other frames decode to what was encoded.
-/

namespace TellerOBC

/-! ### Fields of packed structures -/

/-- The little-endian bytes of a 16-bit field. -/
def uint16Bytes (x : UInt16) : List UInt8 := [x.toUInt8, (x >>> 8).toUInt8]

/-- The little-endian bytes of a 64-bit field. -/
def uint64Bytes (x : UInt64) : List UInt8 :=
  uint32Bytes x.toUInt32 ++ uint32Bytes (x >>> 32).toUInt32

/-- A 16-bit field at the start of a frame is read back. -/
theorem uint16At_uint16Bytes (x : UInt16) (rest : List UInt8) :
    uint16At (uint16Bytes x ++ rest) 0 = x := by
  have hx := x.toNat_lt
  have h₀ : (byteAt (uint16Bytes x ++ rest) 0).toNat = x.toNat % 256 := UInt16.toNat_toUInt8 x
  have h₁ : (byteAt (uint16Bytes x ++ rest) 1).toNat = x.toNat / 256 % 256 := by
    change (x >>> 8).toUInt8.toNat = _
    rw [UInt16.toNat_toUInt8, UInt16.toNat_shiftRight]
    change x.toNat >>> 8 % 256 = _
    rw [Nat.shiftRight_eq_div_pow]
  apply UInt16.toNat.inj
  rw [toNat_uint16At, h₀, h₁]
  omega

theorem toNat_uint64At (encoded : List UInt8) (i : ℕ) :
    (uint64At encoded i).toNat =
      (uint32At encoded i).toNat + (uint32At encoded (i + 4)).toNat * 4294967296 := by
  have hlow := (uint32At encoded i).toNat_lt
  have hhigh := (uint32At encoded (i + 4)).toNat_lt
  rw [uint64At, UInt64.toNat_or, UInt64.toNat_shiftLeft, UInt32.toNat_toUInt64,
    UInt32.toNat_toUInt64]
  change _ ||| (uint32At encoded (i + 4)).toNat <<< 32 % 2 ^ 64 = _
  rw [Nat.mod_eq_of_lt (by rw [Nat.shiftLeft_eq]; omega), Nat.or_comm,
    ← Nat.shiftLeft_add_eq_or_of_lt (i := 32) hlow, Nat.shiftLeft_eq, Nat.add_comm]

/-- A 64-bit field at the start of a frame is read back. -/
theorem uint64At_uint64Bytes (x : UInt64) (rest : List UInt8) :
    uint64At (uint64Bytes x ++ rest) 0 = x := by
  have hx := x.toNat_lt
  have hlow : uint32At (uint64Bytes x ++ rest) 0 = x.toUInt32 := by
    rw [uint64Bytes, List.append_assoc]
    exact uint32At_uint32Bytes _ _
  have hhigh : uint32At (uint64Bytes x ++ rest) 4 = (x >>> 32).toUInt32 :=
    uint32At_uint32Bytes (x >>> 32).toUInt32 rest
  apply UInt64.toNat.inj
  rw [toNat_uint64At, hlow, Nat.zero_add, hhigh, UInt64.toNat_toUInt32, UInt64.toNat_toUInt32,
    UInt64.toNat_shiftRight]
  change x.toNat % 2 ^ 32 + x.toNat >>> 32 % 2 ^ 32 * 4294967296 = _
  rw [Nat.shiftRight_eq_div_pow]
  omega

/-! ### Acknowledgments -/

/-- `validateEncodedAckFrame`. -/
def validateEncodedAckFrame (encoded : List UInt8) : Bool := 7 ≤ encoded.length

/-- `decodeAckFrame`. A frame with an invalid result keeps the error and the value of the record. -/
def decodeAckFrame (encoded : List UInt8) (decoded : AckData) : AckData :=
  let code := byteAt encoded 2
  let errorOrValue := uint32At encoded 3
  let decoded := { decoded with frameType := byteAt encoded 0, seqNo := byteAt encoded 1 }
  if 4 ≤ code then { decoded with result := .invalid }
  else if code = 0 then { decoded with result := .accepted, error := 0, value := errorOrValue }
  else { decoded with
    result := if code = 1 then .denied else if code = 2 then .failed else .unsupported
    value := 0
    error := errorOrValue }

/-- What an acknowledgment can carry: one of the error and the value, as the result says. -/
structure AckData.WellFormed (data : AckData) : Prop where
  result_ne : data.result ≠ .invalid
  error_eq : data.result = .accepted → data.error = 0
  value_eq : data.result ≠ .accepted → data.value = 0

theorem validateEncodedAckFrame_encode (data : AckData) :
    validateEncodedAckFrame (encodeAckFrame data) = true := rfl

theorem decodeAckFrame_encode {data : AckData} (h : data.WellFormed) (decoded : AckData) :
    decodeAckFrame (encodeAckFrame data) decoded = data := by
  obtain ⟨frameType, seqNo, result, error, value⟩ := data
  obtain ⟨hresult, herror, hvalue⟩ := h
  have hfield (code : UInt8) (x : UInt32) :
      uint32At ([frameType, seqNo, code] ++ uint32Bytes x) 3 = x := by
    rw [← List.append_nil (uint32Bytes x)]
    exact uint32At_uint32Bytes x []
  cases result with
  | accepted =>
    obtain rfl : error = 0 := herror rfl
    simp only [encodeAckFrame, decodeAckFrame, hfield]
    rfl
  | denied | failed | unsupported =>
    obtain rfl : value = 0 := hvalue nofun
    simp only [encodeAckFrame, decodeAckFrame, hfield]
    rfl
  | invalid => exact absurd rfl hresult

/-! ### Storage commands -/

/-- The code of a storage area. -/
def StorageArea.code : StorageArea → UInt8
  | .unknown => 0
  | .flashMemory => 1
  | .sdCard => 2

/-- The code of a storage command. -/
def StorageCommand.code : StorageCommand → UInt8
  | .nop => 0
  | .mount => 1
  | .unmount => 2
  | .erase => 3
  | .read => 4
  | .getSize => 5
  | .getStatus => 6

/-- `encodeStorageCommandFrame`: the bytes of the encoded frame. -/
def encodeStorageCommandFrame (data : StorageCommandData) : List UInt8 :=
  [(data.area.code <<< 4) ||| (data.command.code &&& 0x0F)] ++ uint32Bytes data.offset ++
    uint16Bytes (if data.length = maxReadLength then 0 else data.length)

theorem validateEncodedStorageCommandFrame_encode (data : StorageCommandData) :
    validateEncodedStorageCommandFrame (encodeStorageCommandFrame data) = true := rfl

/-- The area and the command share a byte. -/
theorem area_command_of_byte (area : StorageArea) (command : StorageCommand) :
    StorageArea.ofCode (((area.code <<< 4) ||| (command.code &&& 0x0F)) >>> 4) = area ∧
      StorageCommand.ofCode (((area.code <<< 4) ||| (command.code &&& 0x0F)) &&& 0x0F) =
        command := by
  cases area <;> cases command <;> decide

theorem decodeStorageCommandFrame_encode {data : StorageCommandData} (h : data.length ≠ 0) :
    decodeStorageCommandFrame (encodeStorageCommandFrame data) = data := by
  obtain ⟨area, command, offset, length⟩ := data
  have hlength : uint16At (encodeStorageCommandFrame ⟨area, command, offset, length⟩) 5 =
      if length = maxReadLength then 0 else length := by
    rw [encodeStorageCommandFrame, ← List.append_nil (uint16Bytes _)]
    exact uint16At_uint16Bytes _ []
  have hoffset : uint32At (encodeStorageCommandFrame ⟨area, command, offset, length⟩) 1 =
      offset :=
    uint32At_uint32Bytes offset (uint16Bytes (if length = maxReadLength then 0 else length))
  obtain ⟨harea, hcommand⟩ := area_command_of_byte area command
  simp only [decodeStorageCommandFrame, hlength, hoffset, StorageCommandData.mk.injEq]
  refine ⟨harea, hcommand, trivial, ?_⟩
  by_cases hmax : length = maxReadLength
  · rw [if_pos hmax, if_neg (not_not.mpr rfl), hmax]
  · rw [if_neg hmax, if_pos h]

/-! ### Clock status frames -/

/-- The data of a clock status frame: `clock_status_data_t`. -/
structure ClockStatusData where
  timestampInMsec : UInt32
  missionClockInMsec : UInt32
  rtcTimestampInMsec : UInt64
  liftoffTimestampInMsec : UInt32
  missionClockIsRunning : Bool
  liftoffHappened : Bool
  deriving DecidableEq, Repr

/-- A time with a flag in its uppermost bit. -/
def withFlag (time : UInt32) (flag : Bool) : UInt32 :=
  if flag then time ||| 0x80000000 else time &&& ~~~0x80000000

/-- `encodeClockStatusFrame`: the bytes of the encoded frame. -/
def encodeClockStatusFrame (data : ClockStatusData) : List UInt8 :=
  uint32Bytes data.timestampInMsec ++
    (uint32Bytes (withFlag data.missionClockInMsec data.missionClockIsRunning) ++
      (uint64Bytes data.rtcTimestampInMsec ++
        uint32Bytes (withFlag data.liftoffTimestampInMsec data.liftoffHappened)))

/-- `decodeClockStatusFrame`: every field of the record is assigned. -/
def decodeClockStatusFrame (encoded : List UInt8) (decoded : ClockStatusData) : ClockStatusData :=
  { decoded with
    timestampInMsec := uint32At encoded 0
    rtcTimestampInMsec := uint64At encoded 8
    missionClockIsRunning := uint32At encoded 4 &&& 0x80000000 ≠ 0
    missionClockInMsec := uint32At encoded 4 &&& 0x7FFFFFFF
    liftoffHappened := uint32At encoded 16 &&& 0x80000000 ≠ 0
    liftoffTimestampInMsec := uint32At encoded 16 &&& 0x7FFFFFFF }

/-- `validateEncodedClockStatusFrame`. -/
def validateEncodedClockStatusFrame (encoded : List UInt8) : Bool := 20 ≤ encoded.length

theorem validateEncodedClockStatusFrame_encode (data : ClockStatusData) :
    validateEncodedClockStatusFrame (encodeClockStatusFrame data) = true := rfl

/-- A time that leaves its uppermost bit free is read back. -/
theorem withFlag_time {time : UInt32} (h : time.toNat < 2 ^ 31) (flag : Bool) :
    withFlag time flag &&& 0x7FFFFFFF = time := by
  apply UInt32.toNat.inj
  cases flag with
  | true =>
    change (time.toNat ||| 2 ^ 31) &&& 2 ^ 31 - 1 = time.toNat
    rw [Nat.and_two_pow_sub_one_eq_mod, Nat.or_mod_two_pow, Nat.mod_self, Nat.or_zero,
      Nat.mod_eq_of_lt h]
  | false =>
    change (time.toNat &&& 2 ^ 31 - 1) &&& 2 ^ 31 - 1 = time.toNat
    rw [Nat.and_two_pow_sub_one_eq_mod, Nat.and_two_pow_sub_one_eq_mod, Nat.mod_mod,
      Nat.mod_eq_of_lt h]

/-- The flag is read back. -/
theorem withFlag_flag (time : UInt32) (flag : Bool) :
    decide (withFlag time flag &&& 0x80000000 ≠ 0) = flag := by
  have hbit : (withFlag time flag &&& 0x80000000).toNat = flag.toNat * 2 ^ 31 := by
    cases flag with
    | true =>
      change (time.toNat ||| 2 ^ 31) &&& 2 ^ 31 = _
      rw [Nat.and_two_pow, Nat.testBit_lor, Nat.testBit_two_pow_self, Bool.or_true]
    | false =>
      change (time.toNat &&& 2 ^ 31 - 1) &&& 2 ^ 31 = _
      rw [Nat.and_two_pow, Nat.testBit_land, Nat.testBit_two_pow_sub_one, decide_eq_false
        (Nat.lt_irrefl _), Bool.and_false]
  simp only [ne_eq, ← UInt32.toNat_inj, hbit]
  cases flag <;> rfl

theorem decodeClockStatusFrame_encode {data : ClockStatusData}
    (hmission : data.missionClockInMsec.toNat < 2 ^ 31)
    (hliftoff : data.liftoffTimestampInMsec.toNat < 2 ^ 31) (decoded : ClockStatusData) :
    decodeClockStatusFrame (encodeClockStatusFrame data) decoded = data := by
  have htimestamp : uint32At (encodeClockStatusFrame data) 0 = data.timestampInMsec :=
    uint32At_uint32Bytes _ _
  have hmissionField : uint32At (encodeClockStatusFrame data) 4 =
      withFlag data.missionClockInMsec data.missionClockIsRunning :=
    uint32At_uint32Bytes (withFlag data.missionClockInMsec data.missionClockIsRunning)
      (uint64Bytes data.rtcTimestampInMsec ++
        uint32Bytes (withFlag data.liftoffTimestampInMsec data.liftoffHappened))
  have hrtc : uint64At (encodeClockStatusFrame data) 8 = data.rtcTimestampInMsec :=
    uint64At_uint64Bytes data.rtcTimestampInMsec
      (uint32Bytes (withFlag data.liftoffTimestampInMsec data.liftoffHappened))
  have hliftoffField : uint32At (encodeClockStatusFrame data) 16 =
      withFlag data.liftoffTimestampInMsec data.liftoffHappened :=
    uint32At_uint32Bytes (withFlag data.liftoffTimestampInMsec data.liftoffHappened) []
  simp only [decodeClockStatusFrame, htimestamp, hmissionField, hrtc, hliftoffField,
    withFlag_time hmission, withFlag_time hliftoff, withFlag_flag]

/-! ### GMM frames -/

/-- The data of a GMM frame: `gmm_data_t`, with the hit counts by their index. -/
structure GMMData where
  timestampInMsec : UInt32
  hitCounts : Vector UInt8 10
  deriving DecidableEq, Repr

/-- `encodeGMMFrame`: the bytes of the encoded frame. -/
def encodeGMMFrame (data : GMMData) : List UInt8 :=
  uint32Bytes data.timestampInMsec ++ data.hitCounts.toList

/-- `decodeGMMFrame`: every field of the record is assigned. -/
def decodeGMMFrame (encoded : List UInt8) (decoded : GMMData) : GMMData :=
  { decoded with
    timestampInMsec := uint32At encoded 0
    hitCounts := .ofFn fun i => byteAt encoded (4 + i) }

/-- `validateEncodedGMMFrame`. -/
def validateEncodedGMMFrame (encoded : List UInt8) : Bool := 14 ≤ encoded.length

theorem validateEncodedGMMFrame_encode (data : GMMData) :
    validateEncodedGMMFrame (encodeGMMFrame data) = true := by
  rw [validateEncodedGMMFrame, encodeGMMFrame, List.length_append, Vector.length_toList]
  rfl

theorem decodeGMMFrame_encode (data decoded : GMMData) :
    decodeGMMFrame (encodeGMMFrame data) decoded = data := by
  have htimestamp : uint32At (encodeGMMFrame data) 0 = data.timestampInMsec :=
    uint32At_uint32Bytes _ _
  have hcounts : Vector.ofFn (fun i : Fin 10 => byteAt (encodeGMMFrame data) (4 + i)) =
      data.hitCounts := by
    refine Vector.ext fun i hi => ?_
    rw [Vector.getElem_ofFn, byteAt, encodeGMMFrame,
      List.getD_append_right _ _ _ _ (Nat.le_add_right 4 i)]
    change data.hitCounts.toList.getD (4 + i - 4) 0 = _
    rw [Nat.add_sub_cancel_left, List.getD_eq_getElem _ _ (by rwa [Vector.length_toList]),
      Vector.getElem_toList]
  rw [decodeGMMFrame, htimestamp, hcounts]

/-! ### Heartbeat frames -/

/-- The possible modes of the onboard computer: `obc_mode_t`. -/
inductive ObcMode where
  | unknown
  | mission
  | testing
  deriving DecidableEq, Repr

/-- The status bits of the RXSM signals in a heartbeat. -/
structure RxsmStatusBits where
  sods : Bool
  soe : Bool
  lo : Bool
  deriving DecidableEq, Repr

/-- The statuses of the subsystems in a heartbeat. -/
structure SubsystemStatuses where
  gmm : SubsystemStatus
  scm : SubsystemStatus
  cam : SubsystemStatus
  imu : SubsystemStatus
  mag : SubsystemStatus
  sto : SubsystemStatus
  deriving DecidableEq, Repr

/-- The status bits of the LCLs in a heartbeat. -/
structure LclStatusBits where
  gmm : Bool
  scm : Bool
  suc1 : Bool
  suc2 : Bool
  suc3 : Bool
  cam : Bool
  deriving DecidableEq, Repr

/-- The data of a heartbeat frame: `heartbeat_data_t`. -/
structure HeartbeatData where
  timestampInMsec : UInt32
  error : UInt8
  mode : ObcMode
  voltageInVolts : Float32
  temperatureInCelsius : Float32
  rxsmStatusBits : RxsmStatusBits
  subsystemStatus : SubsystemStatuses
  lclStatusBits : LclStatusBits

/-- `std::clamp` of a single precision number. -/
def clampFloat (value low high : Float32) : Float32 :=
  if value < low then low else if high < value then high else value

/-- The number of a subsystem status. -/
def SubsystemStatus.code : SubsystemStatus → UInt16
  | .critical => 0
  | .error => 1
  | .warning => 2
  | .ok => 3

/-- The subsystem status with a number of two bits. -/
def SubsystemStatus.ofCode (code : UInt16) : SubsystemStatus :=
  if code = 0 then .critical else if code = 1 then .error else if code = 2 then .warning else .ok

/-- The byte with a single bit, or zero. -/
def bitIf (set : Bool) (bitIndex : UInt8) : UInt8 := if set then 1 <<< bitIndex else 0

/-- The byte of the RXSM status bits and the mode. -/
def encodeRxsmStatusBits (bits : RxsmStatusBits) (mode : ObcMode) : UInt8 :=
  bitIf bits.lo 2 ||| bitIf bits.sods 0 ||| bitIf bits.soe 1 ||| bitIf (mode ≠ .mission) 7

/-- The word of the subsystem statuses, two bits for each. -/
def encodeSubsystemStatus (status : SubsystemStatuses) : UInt16 :=
  (status.gmm.code <<< 0) ||| (status.scm.code <<< 2) ||| (status.cam.code <<< 4) |||
    (status.imu.code <<< 6) ||| (status.mag.code <<< 8) ||| (status.sto.code <<< 10)

/-- The byte of the LCL status bits. -/
def encodeLclStatusBits (bits : LclStatusBits) : UInt8 :=
  (bits.gmm.toUInt8 <<< 0) ||| (bits.scm.toUInt8 <<< 1) ||| (bits.suc1.toUInt8 <<< 2) |||
    (bits.suc2.toUInt8 <<< 3) ||| (bits.suc3.toUInt8 <<< 4) ||| (bits.cam.toUInt8 <<< 5)

/-- `encodeHeartbeatFrame`: the bytes of the encoded frame. -/
def encodeHeartbeatFrame (data : HeartbeatData) : List UInt8 :=
  uint32Bytes data.timestampInMsec ++
    ([data.error, (clampFloat data.voltageInVolts 0 25.5 * 10).round.toUInt8,
      (clampFloat data.temperatureInCelsius (-128) 127).round.toInt8.toUInt8,
      encodeRxsmStatusBits data.rxsmStatusBits data.mode] ++
    (uint16Bytes (encodeSubsystemStatus data.subsystemStatus) ++
      [encodeLclStatusBits data.lclStatusBits]))

/-- The subsystem status at a bit index of the word of the subsystem statuses. -/
def subsystemStatusAt (status bitIndex : UInt16) : SubsystemStatus :=
  .ofCode ((status >>> bitIndex) &&& 0x03)

/-- The bit at a bit index of a byte. -/
def bitAt (bits bitIndex : UInt8) : Bool := bits &&& (1 <<< bitIndex) ≠ 0

/-- `decodeHeartbeatFrame`: every field of the record is assigned but the mode. -/
def decodeHeartbeatFrame (encoded : List UInt8) (decoded : HeartbeatData) : HeartbeatData :=
  let rxsmStatusBits := byteAt encoded 7
  let status := uint16At encoded 8
  let lclStatusBits := byteAt encoded 10
  { decoded with
    timestampInMsec := uint32At encoded 0
    error := byteAt encoded 4
    voltageInVolts := (byteAt encoded 5).toFloat32 / 10
    temperatureInCelsius := (byteAt encoded 6).toInt8.toFloat32
    rxsmStatusBits :=
      { lo := bitAt rxsmStatusBits 2
        sods := bitAt rxsmStatusBits 0
        soe := bitAt rxsmStatusBits 1 }
    subsystemStatus :=
      { gmm := subsystemStatusAt status 0, scm := subsystemStatusAt status 2
        cam := subsystemStatusAt status 4, imu := subsystemStatusAt status 6
        mag := subsystemStatusAt status 8, sto := subsystemStatusAt status 10 }
    lclStatusBits :=
      { gmm := bitAt lclStatusBits 0, scm := bitAt lclStatusBits 1, suc1 := bitAt lclStatusBits 2
        suc2 := bitAt lclStatusBits 3, suc3 := bitAt lclStatusBits 4
        cam := bitAt lclStatusBits 5 } }

/-- `validateEncodedHeartbeatFrame`. -/
def validateEncodedHeartbeatFrame (encoded : List UInt8) : Bool := 11 ≤ encoded.length

theorem bitAt_encodeRxsmStatusBits (bits : RxsmStatusBits) (mode : ObcMode) :
    RxsmStatusBits.mk (bitAt (encodeRxsmStatusBits bits mode) 0)
      (bitAt (encodeRxsmStatusBits bits mode) 1) (bitAt (encodeRxsmStatusBits bits mode) 2) =
        bits := by
  obtain ⟨sods, soe, lo⟩ := bits
  cases sods <;> cases soe <;> cases lo <;> cases mode <;> rfl

theorem bitAt_encodeLclStatusBits (bits : LclStatusBits) :
    LclStatusBits.mk (bitAt (encodeLclStatusBits bits) 0) (bitAt (encodeLclStatusBits bits) 1)
      (bitAt (encodeLclStatusBits bits) 2) (bitAt (encodeLclStatusBits bits) 3)
      (bitAt (encodeLclStatusBits bits) 4) (bitAt (encodeLclStatusBits bits) 5) = bits := by
  obtain ⟨gmm, scm, suc1, suc2, suc3, cam⟩ := bits
  cases gmm <;> cases scm <;> cases suc1 <;> cases suc2 <;> cases suc3 <;> cases cam <;> rfl

theorem or_and_distrib (a b c : UInt16) : (a ||| b) &&& c = (a &&& c) ||| (b &&& c) := by
  apply UInt16.toNat.inj
  simp only [UInt16.toNat_and, UInt16.toNat_or, Nat.and_or_distrib_right]

/-- A shifted status fills its own two bits and no others. -/
theorem code_shift_eq (status : SubsystemStatus) :
    ∀ i ∈ [0, 2, 4, 6, 8, 10], ∀ j ∈ [0, 2, 4, 6, 8, 10],
      ((status.code <<< i) >>> j) &&& 0x03 = if i = j then status.code else 0 := by
  intro i hi j hj
  simp only [List.mem_cons, List.not_mem_nil, or_false] at hi hj
  rcases hi with rfl | rfl | rfl | rfl | rfl | rfl <;>
    rcases hj with rfl | rfl | rfl | rfl | rfl | rfl <;> cases status <;> rfl

theorem SubsystemStatus.ofCode_code (status : SubsystemStatus) : ofCode status.code = status := by
  cases status <;> rfl

theorem subsystemStatusAt_encodeSubsystemStatus (status : SubsystemStatuses) :
    SubsystemStatuses.mk (subsystemStatusAt (encodeSubsystemStatus status) 0)
      (subsystemStatusAt (encodeSubsystemStatus status) 2)
      (subsystemStatusAt (encodeSubsystemStatus status) 4)
      (subsystemStatusAt (encodeSubsystemStatus status) 6)
      (subsystemStatusAt (encodeSubsystemStatus status) 8)
      (subsystemStatusAt (encodeSubsystemStatus status) 10) = status := by
  simp (disch := decide) only [subsystemStatusAt, encodeSubsystemStatus, UInt16.shiftRight_or,
    or_and_distrib, code_shift_eq]
  simp [SubsystemStatus.ofCode_code]

theorem validateEncodedHeartbeatFrame_encode (data : HeartbeatData) :
    validateEncodedHeartbeatFrame (encodeHeartbeatFrame data) = true := rfl

/-- Two heartbeats agree in everything but the voltage and the temperature. -/
structure HeartbeatData.SameStatus (p q : HeartbeatData) : Prop where
  timestampInMsec_eq : p.timestampInMsec = q.timestampInMsec
  error_eq : p.error = q.error
  mode_eq : p.mode = q.mode
  rxsmStatusBits_eq : p.rxsmStatusBits = q.rxsmStatusBits
  subsystemStatus_eq : p.subsystemStatus = q.subsystemStatus
  lclStatusBits_eq : p.lclStatusBits = q.lclStatusBits

/-- A decoded heartbeat is the encoded one with the mode of the record it was decoded to. -/
theorem decodeHeartbeatFrame_encode (data decoded : HeartbeatData) :
    (decodeHeartbeatFrame (encodeHeartbeatFrame data) decoded).SameStatus
      { data with mode := decoded.mode } where
  timestampInMsec_eq := uint32At_uint32Bytes _ _
  error_eq := rfl
  mode_eq := rfl
  rxsmStatusBits_eq := bitAt_encodeRxsmStatusBits data.rxsmStatusBits data.mode
  subsystemStatus_eq := by
    have hstatus : uint16At (encodeHeartbeatFrame data) 8 =
        encodeSubsystemStatus data.subsystemStatus :=
      uint16At_uint16Bytes (encodeSubsystemStatus data.subsystemStatus)
        [encodeLclStatusBits data.lclStatusBits]
    simp only [decodeHeartbeatFrame, hstatus]
    exact subsystemStatusAt_encodeSubsystemStatus data.subsystemStatus
  lclStatusBits_eq := bitAt_encodeLclStatusBits data.lclStatusBits

/-- **Heartbeat frames lose the mode.** What a heartbeat frame carries comes back, whatever the
record held, except for the mode: it is right only if the record had the right one before. -/
theorem decodeHeartbeatFrame_iff_mode (data decoded : HeartbeatData) :
    (decodeHeartbeatFrame (encodeHeartbeatFrame data) decoded).SameStatus data ↔
      decoded.mode = data.mode := by
  have hdecoded := decodeHeartbeatFrame_encode data decoded
  constructor
  · intro hsame
    exact hdecoded.mode_eq.symm.trans hsame.mode_eq
  · intro hmode
    rwa [hmode] at hdecoded

/-- A record cleared with `memset`. -/
def HeartbeatData.zero : HeartbeatData :=
  ⟨0, 0, .unknown, 0, 0, ⟨false, false, false⟩,
    ⟨.critical, .critical, .critical, .critical, .critical, .critical⟩,
    ⟨false, false, false, false, false, false⟩⟩

theorem not_decodeHeartbeatFrame_sameStatus :
    ¬∀ data decoded : HeartbeatData, data.mode = .mission ∨ data.mode = .testing →
      (decodeHeartbeatFrame (encodeHeartbeatFrame data) decoded).SameStatus data := by
  intro h
  have hsame := h { HeartbeatData.zero with mode := .testing } .zero (.inr rfl)
  exact absurd hsame.mode_eq (by decide)

/-! ### Round trips -/

/-- **Frames of fixed length.** What the encoders of acknowledgments, storage commands, clock
statuses and GMM counts write is valid and decodes to what was encoded, whatever the record held
that it is decoded to. -/
theorem fixedLengthFrames_roundTrip :
    (∀ data : AckData, data.WellFormed → validateEncodedAckFrame (encodeAckFrame data) = true ∧
      ∀ decoded, decodeAckFrame (encodeAckFrame data) decoded = data) ∧
    (∀ data : StorageCommandData, data.length ≠ 0 →
      validateEncodedStorageCommandFrame (encodeStorageCommandFrame data) = true ∧
      decodeStorageCommandFrame (encodeStorageCommandFrame data) = data) ∧
    (∀ data : ClockStatusData, data.missionClockInMsec.toNat < 2 ^ 31 →
      data.liftoffTimestampInMsec.toNat < 2 ^ 31 →
      validateEncodedClockStatusFrame (encodeClockStatusFrame data) = true ∧
      ∀ decoded, decodeClockStatusFrame (encodeClockStatusFrame data) decoded = data) ∧
    ∀ data : GMMData, validateEncodedGMMFrame (encodeGMMFrame data) = true ∧
      ∀ decoded, decodeGMMFrame (encodeGMMFrame data) decoded = data := by
  refine ⟨fun data h => ⟨validateEncodedAckFrame_encode data, decodeAckFrame_encode h⟩,
    fun data h => ⟨validateEncodedStorageCommandFrame_encode data,
      decodeStorageCommandFrame_encode h⟩,
    fun data hmission hliftoff => ⟨validateEncodedClockStatusFrame_encode data,
      decodeClockStatusFrame_encode hmission hliftoff⟩,
    fun data => ⟨validateEncodedGMMFrame_encode data, decodeGMMFrame_encode data⟩⟩

end TellerOBC
