import TellerOBC.Core.Telem.CommandFrames
import TellerOBC.Foundations.CheckedMemory

/-!
# Validating and decoding commands with checked memory accesses

The validators and decoders of the command frames and the encoders of the responses once more, as
the source has them: with the received length apart from the payload, with unsigned subtractions of
lengths, with casts of bytes from the wire to enumerations, and with `memcpy` into the arrays of the
decoded structures, whose contents are arbitrary before. `size_t` has 32 bits.

For each frame, what the validator admits is decoded without a fault, and the result is that of the
definitions in `TellerOBC.Core.Telem.StorageFrames` and `TellerOBC.Core.Telem.CommandFrames`.

## Main definitions

* `TellerOBC.Checked.decodeDirectoryListingRequestFrame`,
  `TellerOBC.Checked.decodeFileDownloadRequestFrame`, `TellerOBC.Checked.decodeEchoFrame` and their
  validators.
* `TellerOBC.Checked.encodeEchoFrame`, `TellerOBC.Checked.encodeAckFrame`.

## Main results

* `TellerOBC.Checked.exists_decodeDirectoryListingRequestFrame`,
  `TellerOBC.Checked.exists_decodeFileDownloadRequestFrame`,
  `TellerOBC.Checked.exists_decodeEchoFrame`: decoding a valid frame.
-/

namespace TellerOBC.Checked

open CheckedMemory

/-! ### Fields of packed structures -/

/-- A byte of a payload. -/
def readUInt8 (encoded : List UInt8) (i : ℕ) : Except Fault UInt8 := readAt encoded i

/-- A little-endian 16-bit field. -/
def readUInt16 (encoded : List UInt8) (i : ℕ) : Except Fault UInt16 := do
  let low ← readUInt8 encoded i
  let high ← readUInt8 encoded (i + 1)
  return low.toUInt16 ||| (high.toUInt16 <<< 8)

/-- A little-endian 32-bit field. -/
def readUInt32 (encoded : List UInt8) (i : ℕ) : Except Fault UInt32 := do
  let low ← readUInt16 encoded i
  let high ← readUInt16 encoded (i + 2)
  return low.toUInt32 ||| (high.toUInt32 <<< 16)

/-- A little-endian 64-bit field. -/
def readUInt64 (encoded : List UInt8) (i : ℕ) : Except Fault UInt64 := do
  let low ← readUInt32 encoded i
  let high ← readUInt32 encoded (i + 4)
  return low.toUInt64 ||| (high.toUInt64 <<< 32)

theorem readUInt8_of_lt {encoded : List UInt8} {i : ℕ} (h : i < encoded.length) :
    readUInt8 encoded i = .ok (byteAt encoded i) := readAt_of_lt h 0

theorem readUInt16_of_le {encoded : List UInt8} {i : ℕ} (h : i + 2 ≤ encoded.length) :
    readUInt16 encoded i = .ok (uint16At encoded i) := by
  rw [readUInt16, readUInt8_of_lt (by omega), readUInt8_of_lt (by omega)]
  rfl

theorem readUInt32_of_le {encoded : List UInt8} {i : ℕ} (h : i + 4 ≤ encoded.length) :
    readUInt32 encoded i = .ok (uint32At encoded i) := by
  rw [readUInt32, readUInt16_of_le (by omega), readUInt16_of_le (by omega)]
  rfl

theorem readUInt64_of_le {encoded : List UInt8} {i : ℕ} (h : i + 8 ≤ encoded.length) :
    readUInt64 encoded i = .ok (uint64At encoded i) := by
  rw [readUInt64, readUInt32_of_le (by omega), readUInt32_of_le (by omega)]
  rfl

/-! ### Casts -/

/-- The cast of a byte that is less than the number of the enumerators; other bytes give the value
for everything else. -/
def castOr {α : Type} (enumerators : List α) (otherwise : α) (code : UInt8) : Except Fault α :=
  if code.toNat < enumerators.length then enumerator enumerators code.toNat else .ok otherwise

theorem castOr_eq_ok {α : Type} (enumerators : List α) (otherwise : α) (code : UInt8) :
    castOr enumerators otherwise code = .ok (enumerators.getD code.toNat otherwise) := by
  rw [castOr]
  split_ifs with h
  · exact enumerator_of_lt h otherwise
  · rw [List.getD_eq_default _ _ (Nat.le_of_not_lt h)]

/-- The storage areas in the order of their codes. -/
def storageAreas : List StorageArea := [.unknown, .flashMemory, .sdCard]

/-- The storage commands in the order of their codes. -/
def storageCommands : List StorageCommand :=
  [.nop, .mount, .unmount, .erase, .read, .getSize, .getStatus]

/-- The calibration procedures in the order of their codes. -/
def calibrationProcedures : List CalibrationProcedure := [.nop, .gyro, .accel]

/-- An enumeration with three enumerators, the first one of which stands for other codes as well. -/
theorem castOr_three {α : Type} (a b c : α) (code : UInt8) :
    castOr [a, b, c] a code = .ok (if code = 1 then b else if code = 2 then c else a) := by
  have hcode (k : UInt8) : code = k ↔ code.toNat = k.toNat := UInt8.toNat_inj.symm
  simp only [castOr_eq_ok, hcode]
  generalize code.toNat = n
  match n with
  | 0 | 1 | 2 => rfl
  | n + 3 =>
    have hlarge (k : UInt8) (hk : k.toNat < 3) : n + 3 ≠ k.toNat := by omega
    simp only [hlarge 1 (by decide), hlarge 2 (by decide), if_false]
    rfl

theorem castOr_storageAreas (code : UInt8) :
    castOr storageAreas .unknown code = .ok (StorageArea.ofCode code) := castOr_three ..

theorem castOr_storageCommands (code : UInt8) :
    castOr storageCommands .nop code = .ok (StorageCommand.ofCode code) := by
  have hcode (k : UInt8) : code = k ↔ code.toNat = k.toNat := UInt8.toNat_inj.symm
  simp only [castOr_eq_ok, StorageCommand.ofCode, hcode]
  generalize code.toNat = n
  match n with
  | 0 | 1 | 2 | 3 | 4 | 5 | 6 => rfl
  | n + 7 =>
    have hlarge (k : UInt8) (hk : k.toNat < 7) : n + 7 ≠ k.toNat := by omega
    simp only [hlarge 1 (by decide), hlarge 2 (by decide), hlarge 3 (by decide),
      hlarge 4 (by decide), hlarge 5 (by decide), hlarge 6 (by decide), if_false]
    rfl

/-! ### Frames of fixed length -/

/-- A validator that looks at the received length only. -/
def validateLength (size : ℕ) (length : UInt32) : Bool := size ≤ length.toNat

/-- `validateEncodedClockSyncFrame`. -/
def validateEncodedClockSyncFrame (length : UInt32) : Bool := validateLength 8 length

/-- `decodeClockSyncFrame`. -/
def decodeClockSyncFrame (encoded : List UInt8) : Except Fault UInt64 := readUInt64 encoded 0

/-- `validateEncodedLCLResetRequestFrame`. -/
def validateEncodedLCLResetRequestFrame (length : UInt32) : Bool := validateLength 1 length

/-- `decodeLCLResetRequestFrame`. -/
def decodeLCLResetRequestFrame (encoded : List UInt8) : Except Fault UInt8 := do
  let lcls ← readUInt8 encoded 0
  return lcls &&& lclResetAll

/-- `validateEncodedCalibrationRequestFrame`. -/
def validateEncodedCalibrationRequestFrame (length : UInt32) : Bool := validateLength 1 length

/-- `decodeCalibrationRequestFrame`. -/
def decodeCalibrationRequestFrame (encoded : List UInt8) : Except Fault CalibrationProcedure := do
  let procedure ← readUInt8 encoded 0
  castOr calibrationProcedures .nop procedure

/-- `validateEncodedDebugCommandFrame`. -/
def validateEncodedDebugCommandFrame (length : UInt32) : Bool := validateLength 1 length

/-- `decodeDebugCommandFrame`. -/
def decodeDebugCommandFrame (encoded : List UInt8) : Except Fault DebugCommand := do
  let command ← readUInt8 encoded 0
  castOr debugCommands .nop command

/-- `validateEncodedStorageCommandFrame`. -/
def validateEncodedStorageCommandFrame (length : UInt32) : Bool := validateLength 7 length

/-- `decodeStorageCommandFrame`. -/
def decodeStorageCommandFrame (encoded : List UInt8) : Except Fault StorageCommandData := do
  let areaAndCommand ← readUInt8 encoded 0
  let area ← castOr storageAreas .unknown (areaAndCommand >>> 4)
  let command ← castOr storageCommands .nop (areaAndCommand &&& 0x0F)
  let offset ← readUInt32 encoded 1
  let length ← readUInt16 encoded 5
  return ⟨area, command, offset, if length ≠ 0 then length else maxReadLength⟩

/-- The received length of a payload in `size_t`. -/
structure Received (encoded : List UInt8) (length : UInt32) : Prop where
  length_eq : length.toNat = encoded.length
  length_le : encoded.length ≤ maxPayloadLength

namespace Received

variable {encoded : List UInt8} {length : UInt32}

theorem validateLength_eq (h : Received encoded length) (size : ℕ) :
    validateLength size length = decide (size ≤ encoded.length) := by
  rw [validateLength, h.length_eq]

theorem lt_iff (h : Received encoded length) {n : UInt32} :
    length < n ↔ encoded.length < n.toNat := by
  rw [UInt32.lt_iff_toNat_lt, h.length_eq]

/-- The length of a frame without its preamble. -/
theorem toNat_sub (h : Received encoded length) (preamble : UInt32)
    (hle : preamble.toNat ≤ encoded.length) :
    (length - preamble).toNat = encoded.length - preamble.toNat := by
  have hle' : preamble ≤ length := UInt32.le_iff_toNat_le.mpr (h.length_eq ▸ hle)
  rw [UInt32.toNat_sub_of_le _ _ hle', h.length_eq]

end Received

theorem decodeClockSyncFrame_of_le {encoded : List UInt8} (h : 8 ≤ encoded.length) :
    decodeClockSyncFrame encoded = .ok (TellerOBC.decodeClockSyncFrame encoded) :=
  readUInt64_of_le (by omega)

theorem decodeLCLResetRequestFrame_of_le {encoded : List UInt8} (h : 1 ≤ encoded.length) :
    decodeLCLResetRequestFrame encoded = .ok (TellerOBC.decodeLCLResetRequestFrame encoded) := by
  rw [decodeLCLResetRequestFrame, readUInt8_of_lt h]
  rfl

theorem decodeCalibrationRequestFrame_of_le {encoded : List UInt8} (h : 1 ≤ encoded.length) :
    decodeCalibrationRequestFrame encoded =
      .ok (TellerOBC.decodeCalibrationRequestFrame encoded) := by
  rw [decodeCalibrationRequestFrame, readUInt8_of_lt h]
  exact castOr_three ..

theorem decodeDebugCommandFrame_of_le {encoded : List UInt8} (h : 1 ≤ encoded.length) :
    decodeDebugCommandFrame encoded = .ok (TellerOBC.decodeDebugCommandFrame encoded) := by
  rw [decodeDebugCommandFrame, readUInt8_of_lt h]
  exact castOr_eq_ok ..

theorem decodeStorageCommandFrame_of_le {encoded : List UInt8} (h : 7 ≤ encoded.length) :
    decodeStorageCommandFrame encoded = .ok (TellerOBC.decodeStorageCommandFrame encoded) := by
  simp only [decodeStorageCommandFrame, readUInt8_of_lt (show 0 < encoded.length by omega),
    readUInt32_of_le (show 1 + 4 ≤ encoded.length by omega),
    readUInt16_of_le (show 5 + 2 ≤ encoded.length by omega), castOr_storageAreas,
    castOr_storageCommands]
  rfl

/-! ### Strings at the end of a frame -/

/-- `memcpy` of what follows the preamble of a frame to an array, and a zero behind it. -/
def copyString {n : ℕ} (encoded : List UInt8) (length preamble : UInt32) (array : Vector UInt8 n) :
    Except Fault (Vector UInt8 n) := do
  let bytes ← readRange encoded preamble.toNat (length - preamble).toNat
  let array ← writeRange array 0 bytes
  writeRange array (length - preamble).toNat [0]

/-- The string is copied if the array is larger than what follows the preamble. -/
theorem exists_copyString {n : ℕ} {encoded : List UInt8} {length : UInt32}
    (h : Received encoded length) (preamble : UInt32) (hpreamble : preamble.toNat ≤ encoded.length)
    (array : Vector UInt8 n) (hfits : encoded.length < n + preamble.toNat) :
    ∃ array', copyString encoded length preamble array = .ok array' ∧
      readCString array' 0 = .ok (cStringAt (encoded.drop preamble.toNat)) := by
  have hlength : (length - preamble).toNat = (encoded.drop preamble.toNat).length := by
    rw [h.toNat_sub preamble hpreamble, List.length_drop]
  have hbytes : readRange encoded preamble.toNat (encoded.drop preamble.toNat).length =
      .ok (encoded.drop preamble.toNat) := by
    rw [readRange_of_le (by rw [List.length_drop]; omega), List.take_length]
  have hlt : (encoded.drop preamble.toNat).length < n := by
    rw [List.length_drop]
    omega
  obtain ⟨array₁, hwrite, harray₁⟩ := exists_writeRange_zero array _ hlt.le
  obtain ⟨array₂, hzero, harray₂⟩ := exists_writeRange harray₁ [0] (by
    rw [List.length_drop, Vector.length_toList, List.length_singleton]
    omega)
  rw [List.append_assoc, List.singleton_append] at harray₂
  refine ⟨array₂, ?_, readCString_of_toList harray₂⟩
  simp only [copyString, hlength, hbytes, hwrite, hzero, bind, Except.bind]

/-! ### Directory listing requests -/

/-- `MAX_DIRECTORY_LISTING_NAME_LENGTH`. -/
def maxDirectoryListingNameLength : ℕ := maxPayloadLength - 5

/-- The decoded directory listing request: `directory_listing_request_data_t`. -/
structure DirectoryListingRequestData where
  area : StorageArea
  start : UInt16
  count : UInt16
  name : Vector UInt8 (maxDirectoryListingNameLength + 1)

/-- `validateEncodedDirectoryListingRequestFrame`. -/
def validateEncodedDirectoryListingRequestFrame (encoded : List UInt8) (length : UInt32) :
    Except Fault Bool := do
  if length < 5 then return false
  else
    let count ← readUInt16 encoded 3
    return count ≤ 256

/-- `decodeDirectoryListingRequestFrame` into a structure with these contents of `name`. -/
def decodeDirectoryListingRequestFrame (encoded : List UInt8) (length : UInt32)
    (name : Vector UInt8 (maxDirectoryListingNameLength + 1)) :
    Except Fault DirectoryListingRequestData := do
  let area ← readUInt8 encoded 0
  let area ← castOr storageAreas .unknown (area &&& 0x0F)
  let start ← readUInt16 encoded 1
  let count ← readUInt16 encoded 3
  let name ← copyString encoded length 5 name
  return ⟨area, start, count, name⟩

theorem validateEncodedDirectoryListingRequestFrame_eq {encoded : List UInt8} {length : UInt32}
    (h : Received encoded length) :
    validateEncodedDirectoryListingRequestFrame encoded length =
      .ok (TellerOBC.validateEncodedDirectoryListingRequestFrame encoded) := by
  rw [validateEncodedDirectoryListingRequestFrame,
    TellerOBC.validateEncodedDirectoryListingRequestFrame]
  split_ifs with hlt
  · have hnot : ¬5 ≤ encoded.length := Nat.not_le_of_lt (h.lt_iff.mp hlt)
    rw [decide_eq_false hnot, Bool.false_and]
    rfl
  · have hle : 5 ≤ encoded.length := Nat.le_of_not_lt fun hlt' => hlt (h.lt_iff.mpr hlt')
    rw [readUInt16_of_le hle, decide_eq_true hle, Bool.true_and]
    rfl

/-- Decoding a valid directory listing request. -/
theorem exists_decodeDirectoryListingRequestFrame {encoded : List UInt8} {length : UInt32}
    (h : Received encoded length)
    (hvalid : TellerOBC.validateEncodedDirectoryListingRequestFrame encoded = true)
    (name : Vector UInt8 (maxDirectoryListingNameLength + 1)) :
    ∃ name', decodeDirectoryListingRequestFrame encoded length name =
        .ok ⟨(TellerOBC.decodeDirectoryListingRequestFrame encoded).area,
          (TellerOBC.decodeDirectoryListingRequestFrame encoded).start,
          (TellerOBC.decodeDirectoryListingRequestFrame encoded).count, name'⟩ ∧
      readCString name' 0 =
        .ok (cStringAt (TellerOBC.decodeDirectoryListingRequestFrame encoded).name) := by
  have hle : 5 ≤ encoded.length := of_decide_eq_true (Bool.and_eq_true_iff.mp hvalid).1
  have hmax : encoded.length < maxDirectoryListingNameLength + 1 + 5 :=
    Nat.lt_succ_of_le h.length_le
  obtain ⟨name', hcopy, hstring⟩ := exists_copyString h 5 hle name hmax
  refine ⟨name', ?_, hstring⟩
  simp only [decodeDirectoryListingRequestFrame, readUInt8_of_lt (show 0 < encoded.length by omega),
    readUInt16_of_le (show 1 + 2 ≤ encoded.length by omega), readUInt16_of_le hle,
    castOr_storageAreas, hcopy, bind, Except.bind]
  rfl

/-- The decoder needs the validator: it would read behind a frame without a complete preamble. -/
example : decodeDirectoryListingRequestFrame [0x01, 0x00] 2 (.replicate _ 0) = .error .read := rfl

/-! ### File download requests -/

/-- `MAX_FILE_DOWNLOAD_PATH_LENGTH`. -/
def maxFileDownloadPathLength : ℕ := maxPayloadLength - 7

/-- The decoded file download request: `file_download_request_data_t`. -/
structure FileDownloadRequestData where
  area : StorageArea
  start : UInt32
  length : UInt16
  path : Vector UInt8 (maxFileDownloadPathLength + 1)

/-- `validateEncodedFileDownloadRequestFrame`. -/
def validateEncodedFileDownloadRequestFrame (encoded : List UInt8) (length : UInt32) :
    Except Fault Bool := do
  if length < 7 then return false
  else
    let readLength ← readUInt16 encoded 5
    return readLength < maxReadLength

/-- `decodeFileDownloadRequestFrame` into a structure with these contents of `path`. -/
def decodeFileDownloadRequestFrame (encoded : List UInt8) (length : UInt32)
    (path : Vector UInt8 (maxFileDownloadPathLength + 1)) :
    Except Fault FileDownloadRequestData := do
  let area ← readUInt8 encoded 0
  let area ← castOr storageAreas .unknown (area &&& 0x0F)
  let start ← readUInt32 encoded 1
  let readLength ← readUInt16 encoded 5
  let readLength := readLength &&& (maxReadLength - 1)
  let path ← copyString encoded length 7 path
  return ⟨area, start, if readLength = 0 then maxReadLength else readLength, path⟩

theorem validateEncodedFileDownloadRequestFrame_eq {encoded : List UInt8} {length : UInt32}
    (h : Received encoded length) :
    validateEncodedFileDownloadRequestFrame encoded length =
      .ok (TellerOBC.validateEncodedFileDownloadRequestFrame encoded) := by
  rw [validateEncodedFileDownloadRequestFrame, TellerOBC.validateEncodedFileDownloadRequestFrame]
  split_ifs with hlt
  · have hnot : ¬7 ≤ encoded.length := Nat.not_le_of_lt (h.lt_iff.mp hlt)
    rw [decide_eq_false hnot, Bool.false_and]
    rfl
  · have hle : 7 ≤ encoded.length := Nat.le_of_not_lt fun hlt' => hlt (h.lt_iff.mpr hlt')
    rw [readUInt16_of_le hle, decide_eq_true hle, Bool.true_and]
    rfl

/-- Decoding a valid file download request. -/
theorem exists_decodeFileDownloadRequestFrame {encoded : List UInt8} {length : UInt32}
    (h : Received encoded length)
    (hvalid : TellerOBC.validateEncodedFileDownloadRequestFrame encoded = true)
    (path : Vector UInt8 (maxFileDownloadPathLength + 1)) :
    ∃ path', decodeFileDownloadRequestFrame encoded length path =
        .ok ⟨(TellerOBC.decodeFileDownloadRequestFrame encoded).area,
          (TellerOBC.decodeFileDownloadRequestFrame encoded).start,
          (TellerOBC.decodeFileDownloadRequestFrame encoded).length, path'⟩ ∧
      readCString path' 0 =
        .ok (cStringAt (TellerOBC.decodeFileDownloadRequestFrame encoded).path) := by
  have hle : 7 ≤ encoded.length := of_decide_eq_true (Bool.and_eq_true_iff.mp hvalid).1
  have hmax : encoded.length < maxFileDownloadPathLength + 1 + 7 := Nat.lt_succ_of_le h.length_le
  obtain ⟨path', hcopy, hstring⟩ := exists_copyString h 7 hle path hmax
  refine ⟨path', ?_, hstring⟩
  simp only [decodeFileDownloadRequestFrame, readUInt8_of_lt (show 0 < encoded.length by omega),
    readUInt32_of_le (show 1 + 4 ≤ encoded.length by omega), readUInt16_of_le hle,
    castOr_storageAreas, hcopy, bind, Except.bind]
  rfl

/-! ### Echo frames -/

/-- The decoded echo frame: `echo_data_t`. -/
structure EchoData where
  isReply : UInt8
  data : Vector UInt8 maxPayloadLength
  dataLength : UInt8

/-- `validateEncodedEchoFrame`. -/
def validateEncodedEchoFrame (length : UInt32) : Bool := validateLength 1 length

/-- `decodeEchoFrame` into a structure with these contents of `data`. -/
def decodeEchoFrame (encoded : List UInt8) (length : UInt32)
    (data : Vector UInt8 maxPayloadLength) : Except Fault EchoData := do
  let isReply ← readUInt8 encoded 0
  let dataLength := if 1 ≤ length then (length - 1).toUInt8 else 0
  let bytes ← readRange encoded 1 dataLength.toNat
  let data ← writeRange data 0 bytes
  return ⟨isReply, data, dataLength⟩

/-- `encodeEchoFrame` into an array: the length of the frame, and the array after it. -/
def encodeEchoFrame (data : EchoData) (encoded : Vector UInt8 maxPayloadLength) :
    Except Fault (UInt8 × Vector UInt8 maxPayloadLength) := do
  let encoded ← writeRange encoded 0 [data.isReply]
  let bytes ← readRange data.data.toList 0 data.dataLength.toNat
  let encoded ← writeRange encoded 1 bytes
  return (data.dataLength + 1, encoded)

/-- What `sendTo` reads of the response buffer: as many bytes as the encoder says. -/
def readFrame (frame : UInt8 × Vector UInt8 maxPayloadLength) : Except Fault (List UInt8) :=
  readRange frame.2.toList 0 frame.1.toNat

/-- A frame at the start of the response buffer. -/
theorem readFrame_of_toList {length : UInt8} {buffer : Vector UInt8 maxPayloadLength}
    {frame rest : List UInt8} (hlength : length.toNat = frame.length)
    (hbuffer : buffer.toList = frame ++ rest) : readFrame (length, buffer) = .ok frame := by
  rw [readFrame, hbuffer, hlength]
  exact readRange_append ..

/-- Decoding a valid echo frame, and encoding the reply. -/
theorem exists_decodeEchoFrame {encoded : List UInt8} {length : UInt32}
    (h : Received encoded length)
    (hvalid : TellerOBC.validateEncodedEchoFrame encoded = true)
    (data buffer : Vector UInt8 maxPayloadLength) :
    ∃ echo, decodeEchoFrame encoded length data = .ok echo ∧
      echo.isReply = (TellerOBC.decodeEchoFrame encoded).isReply ∧
      ∃ frame, encodeEchoFrame { echo with isReply := 1 } buffer = .ok frame ∧
        readFrame frame = .ok (TellerOBC.encodeEchoFrame
          { TellerOBC.decodeEchoFrame encoded with isReply := 1 }) := by
  have hle : 1 ≤ encoded.length := of_decide_eq_true hvalid
  have hmax : encoded.length ≤ 63 := h.length_le
  have hone : 1 ≤ length := UInt32.le_iff_toNat_le.mpr (h.length_eq ▸ hle)
  have hdataLength : (length - 1).toUInt8.toNat = (encoded.drop 1).length := by
    rw [UInt32.toNat_toUInt8, h.toNat_sub 1 hle, List.length_drop]
    exact Nat.mod_eq_of_lt (by omega)
  have hbytes : readRange encoded 1 (encoded.drop 1).length = .ok (encoded.drop 1) := by
    rw [readRange_of_le (by rw [List.length_drop]; omega), List.take_length]
  obtain ⟨data', hdata, htoList⟩ := exists_writeRange_zero data (encoded.drop 1) (by
    rw [List.length_drop]
    exact Nat.sub_le_of_le_add (hmax.trans (Nat.le_succ 63)))
  obtain ⟨buffer₁, hreply, hbuffer₁⟩ := exists_writeRange_zero buffer [1] (by decide)
  obtain ⟨buffer₂, hwrite, hbuffer₂⟩ := exists_writeRange hbuffer₁ (encoded.drop 1) (by
    rw [List.length_drop, List.length_drop, Vector.length_toList]
    exact Nat.sub_le_sub_right hmax 1)
  refine ⟨⟨byteAt encoded 0, data', (length - 1).toUInt8⟩, ?_, rfl,
    ((length - 1).toUInt8 + 1, buffer₂), ?_, readFrame_of_toList ?_ hbuffer₂⟩
  · simp only [decodeEchoFrame, readUInt8_of_lt (show 0 < encoded.length by omega), if_pos hone,
      hdataLength, hbytes, hdata, bind, Except.bind]
    rfl
  · simp only [encodeEchoFrame, hreply, hdataLength, htoList, readRange_append, bind, Except.bind]
    rw [List.length_singleton] at hwrite
    rw [hwrite]
    rfl
  · rw [UInt8.toNat_add, hdataLength, List.length_drop]
    change (encoded.length - 1 + 1) % 256 = (encoded.drop 1).length + 1
    rw [List.length_drop]
    omega

/-! ### Acknowledgments -/

/-- `encodeAckFrame` into an array, as the fields of a packed structure. -/
def encodeAckFrame (data : AckData) (encoded : Vector UInt8 maxPayloadLength) :
    Except Fault (UInt8 × Vector UInt8 maxPayloadLength) := do
  let encoded ← writeRange encoded 0 (TellerOBC.encodeAckFrame data)
  return (7, encoded)

theorem exists_encodeAckFrame (data : AckData) (buffer : Vector UInt8 maxPayloadLength) :
    ∃ frame, encodeAckFrame data buffer = .ok frame ∧
      readFrame frame = .ok (TellerOBC.encodeAckFrame data) := by
  have hlength : (TellerOBC.encodeAckFrame data).length = 7 := rfl
  obtain ⟨buffer', hwrite, hbuffer'⟩ :=
    exists_writeRange_zero buffer (TellerOBC.encodeAckFrame data) (by rw [hlength]; decide)
  refine ⟨(7, buffer'), ?_, readFrame_of_toList hlength.symm hbuffer'⟩
  rw [encodeAckFrame, hwrite]
  rfl

end TellerOBC.Checked
