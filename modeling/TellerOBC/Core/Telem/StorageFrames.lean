import Mathlib.Data.List.Basic
import TellerOBC.Core.Telem.Generic

/-!
# Frames of the storage commands and downloads

The wire encodings of `core/telem/binary_data.cpp`, `core/telem/directory_entry.cpp`,
`core/telem/storage.cpp`, `core/telem/file_download.cpp` and `core/telem/directory_listing.cpp`.
The packed structures of the source are read from a payload byte by byte, multi-byte fields in
little-endian order.

## Main definitions

* `TellerOBC.BinaryData`, `TellerOBC.encodeBinaryDataFrame`, `TellerOBC.BinaryDataFrame`.
* `TellerOBC.DirectoryEntryData`, `TellerOBC.encodeDirectoryEntryFrame`.
* `TellerOBC.decodeStorageCommandFrame`, `TellerOBC.decodeFileDownloadRequestFrame`,
  `TellerOBC.decodeDirectoryListingRequestFrame` and their validators.
-/

namespace TellerOBC

/-! ### Reading packed structures -/

/-- The byte of a payload at an offset. -/
def byteAt (encoded : List UInt8) (i : ℕ) : UInt8 := encoded.getD i 0

/-- The little-endian 16-bit field at an offset. -/
def uint16At (encoded : List UInt8) (i : ℕ) : UInt16 :=
  (byteAt encoded i).toUInt16 ||| ((byteAt encoded (i + 1)).toUInt16 <<< 8)

/-- The little-endian 32-bit field at an offset. -/
def uint32At (encoded : List UInt8) (i : ℕ) : UInt32 :=
  (uint16At encoded i).toUInt32 ||| ((uint16At encoded (i + 2)).toUInt32 <<< 16)

/-- The little-endian 64-bit field at an offset. -/
def uint64At (encoded : List UInt8) (i : ℕ) : UInt64 :=
  (uint32At encoded i).toUInt64 ||| ((uint32At encoded (i + 4)).toUInt64 <<< 32)

theorem toNat_uint16At (encoded : List UInt8) (i : ℕ) :
    (uint16At encoded i).toNat =
      (byteAt encoded i).toNat + (byteAt encoded (i + 1)).toNat * 256 := by
  have hlow := (byteAt encoded i).toNat_lt
  have hhigh := (byteAt encoded (i + 1)).toNat_lt
  rw [uint16At, UInt16.toNat_or, UInt16.toNat_shiftLeft, UInt8.toNat_toUInt16,
    UInt8.toNat_toUInt16]
  change _ ||| (byteAt encoded (i + 1)).toNat <<< 8 % 2 ^ 16 = _
  rw [Nat.mod_eq_of_lt (by rw [Nat.shiftLeft_eq]; omega), Nat.or_comm,
    ← Nat.shiftLeft_add_eq_or_of_lt (i := 8) hlow, Nat.shiftLeft_eq, Nat.add_comm]

theorem toNat_uint32At (encoded : List UInt8) (i : ℕ) :
    (uint32At encoded i).toNat =
      (uint16At encoded i).toNat + (uint16At encoded (i + 2)).toNat * 65536 := by
  have hlow := (uint16At encoded i).toNat_lt
  have hhigh := (uint16At encoded (i + 2)).toNat_lt
  rw [uint32At, UInt32.toNat_or, UInt32.toNat_shiftLeft, UInt16.toNat_toUInt32,
    UInt16.toNat_toUInt32]
  change _ ||| (uint16At encoded (i + 2)).toNat <<< 16 % 2 ^ 32 = _
  rw [Nat.mod_eq_of_lt (by rw [Nat.shiftLeft_eq]; omega), Nat.or_comm,
    ← Nat.shiftLeft_add_eq_or_of_lt (i := 16) hlow, Nat.shiftLeft_eq, Nat.add_comm]

/-- The C string at the start of a character array. -/
def cStringAt (array : List UInt8) : List UInt8 := array.takeWhile (· ≠ 0)

/-! ### C strings -/

/-- The characters of a C string, without its terminating zero. -/
@[ext]
structure CString where
  bytes : List UInt8
  noNul : 0 ∉ bytes
  deriving DecidableEq

namespace CString

/-- The empty string. -/
def empty : CString := ⟨[], by simp⟩

/-- The string `"/"`. -/
def slash : CString := ⟨[0x2F], by decide⟩

/-- `snprintf(buffer, size, "%s%s", a, b)`: what fits in `size` characters with the zero. -/
def snprintf (size : ℕ) (a b : CString) : CString :=
  ⟨(a.bytes ++ b.bytes).take (size - 1), fun h => by
    rcases List.mem_append.mp (List.mem_of_mem_take h) with h | h
    exacts [a.noNul h, b.noNul h]⟩

@[simp] theorem bytes_empty : empty.bytes = [] := rfl

theorem bytes_snprintf (size : ℕ) (a b : CString) :
    (snprintf size a b).bytes = (a.bytes ++ b.bytes).take (size - 1) := rfl

end CString

/-! ### Binary data frames -/

/-- `MAX_BINARY_DATA_FRAGMENT_LENGTH`. -/
def maxBinaryDataFragmentLength : ℕ := maxPayloadLength - 4

/-- The data of a binary data frame: `binary_data_t`. -/
structure BinaryData where
  frameType : UInt8
  seqNo : UInt8
  maxFragmentIndex : UInt8
  fragmentIndex : UInt8
  /-- The array of `MAX_BINARY_DATA_FRAGMENT_LENGTH` bytes. -/
  data : List UInt8
  dataLength : UInt8

/-- A `binary_data_t` cleared with `memset`. -/
def BinaryData.zero : BinaryData :=
  ⟨0, 0, 0, 0, List.replicate maxBinaryDataFragmentLength 0, 0⟩

/-- Write bytes to the start of an array; the rest of the array keeps its contents. -/
def overwrite (array bytes : List UInt8) : List UInt8 := bytes ++ array.drop bytes.length

theorem take_overwrite (array bytes : List UInt8) :
    (overwrite array bytes).take bytes.length = bytes :=
  List.take_left' rfl

/-- `encodeBinaryDataFrame`: the bytes of the encoded frame. -/
def encodeBinaryDataFrame (data : BinaryData) : List UInt8 :=
  [data.frameType, data.seqNo, data.maxFragmentIndex, data.fragmentIndex] ++
    data.data.take data.dataLength.toNat

/-- The fields of an encoded binary data frame: `binary_data_frame_t`, with the bytes that
follow its preamble as the fragment. -/
structure BinaryDataFrame where
  frameType : UInt8
  seqNo : UInt8
  maxFragmentIndex : UInt8
  fragmentIndex : UInt8
  data : List UInt8
  deriving DecidableEq

/-- The binary data frame that a payload encodes. -/
def BinaryDataFrame.ofPayload (encoded : List UInt8) : BinaryDataFrame :=
  ⟨byteAt encoded 0, byteAt encoded 1, byteAt encoded 2, byteAt encoded 3, encoded.drop 4⟩

theorem BinaryDataFrame.ofPayload_encode (data : BinaryData) :
    ofPayload (encodeBinaryDataFrame data) =
      ⟨data.frameType, data.seqNo, data.maxFragmentIndex, data.fragmentIndex,
        data.data.take data.dataLength.toNat⟩ := rfl

/-! ### Directory entry frames -/

/-- `MAX_DIRECTORY_ENTRY_NAME_LENGTH`. -/
def maxDirectoryEntryNameLength : ℕ := maxPayloadLength - 5

/-- The data of a directory entry frame: `directory_entry_data_t`. -/
structure DirectoryEntryData where
  frameType : UInt8
  seqNo : UInt8
  maxEntryIndex : UInt8
  entryIndex : UInt8
  name : CString

/-- A `directory_entry_data_t` cleared with `memset`. -/
def DirectoryEntryData.zero : DirectoryEntryData := ⟨0, 0, 0, 0, .empty⟩

/-- `encodeDirectoryEntryFrame`: the bytes of the encoded frame. -/
def encodeDirectoryEntryFrame (data : DirectoryEntryData) : List UInt8 :=
  [data.frameType, data.seqNo, data.maxEntryIndex, data.entryIndex] ++ data.name.bytes

/-- The fields of an encoded directory entry frame: `directory_entry_frame_t`, with the bytes
that follow its preamble as the name. -/
structure DirectoryEntryFrame where
  frameType : UInt8
  seqNo : UInt8
  maxEntryIndex : UInt8
  entryIndex : UInt8
  name : List UInt8
  deriving DecidableEq

/-- The directory entry frame that a payload encodes. -/
def DirectoryEntryFrame.ofPayload (encoded : List UInt8) : DirectoryEntryFrame :=
  ⟨byteAt encoded 0, byteAt encoded 1, byteAt encoded 2, byteAt encoded 3, encoded.drop 4⟩

/-! ### Storage command frames -/

/-- `MAX_READ_LENGTH` of the storage command and file download frames. -/
def maxReadLength : UInt16 := 8192

/-- The commands of a storage command frame: `storage_command_t`. -/
inductive StorageCommand where
  | nop
  | mount
  | unmount
  | erase
  | read
  | getSize
  | getStatus
  deriving DecidableEq, Repr

/-- The command with the given code; codes out of range decode as `nop`. -/
def StorageCommand.ofCode (code : UInt8) : StorageCommand :=
  if code = 1 then .mount else if code = 2 then .unmount else if code = 3 then .erase
  else if code = 4 then .read else if code = 5 then .getSize else if code = 6 then .getStatus
  else .nop

/-- The decoded storage command: `storage_command_data_t`. -/
structure StorageCommandData where
  area : StorageArea
  command : StorageCommand
  offset : UInt32
  length : UInt16
  deriving DecidableEq, Repr

/-- `validateEncodedStorageCommandFrame`. -/
def validateEncodedStorageCommandFrame (encoded : List UInt8) : Bool := 7 ≤ encoded.length

/-- `decodeStorageCommandFrame`. The length field is taken as it is, only zero is replaced. -/
def decodeStorageCommandFrame (encoded : List UInt8) : StorageCommandData :=
  let areaAndCommand := byteAt encoded 0
  let length := uint16At encoded 5
  { area := .ofCode (areaAndCommand >>> 4)
    command := .ofCode (areaAndCommand &&& 0x0F)
    offset := uint32At encoded 1
    length := if length ≠ 0 then length else maxReadLength }

/-! ### File download requests -/

/-- The decoded file download request: `file_download_request_data_t`. -/
structure FileDownloadRequestData where
  area : StorageArea
  start : UInt32
  length : UInt16
  /-- The path array before its terminating zero. -/
  path : List UInt8
  deriving DecidableEq, Repr

/-- `validateEncodedFileDownloadRequestFrame`. -/
def validateEncodedFileDownloadRequestFrame (encoded : List UInt8) : Bool :=
  7 ≤ encoded.length && uint16At encoded 5 < maxReadLength

/-- `decodeFileDownloadRequestFrame`. -/
def decodeFileDownloadRequestFrame (encoded : List UInt8) : FileDownloadRequestData :=
  let length := uint16At encoded 5 &&& (maxReadLength - 1)
  { area := .ofCode (byteAt encoded 0 &&& 0x0F)
    start := uint32At encoded 1
    length := if length = 0 then maxReadLength else length
    path := encoded.drop 7 }

/-- A decoded request asks for at least one byte and at most `MAX_READ_LENGTH` bytes. -/
theorem length_decodeFileDownloadRequestFrame (encoded : List UInt8) :
    0 < (decodeFileDownloadRequestFrame encoded).length ∧
      (decodeFileDownloadRequestFrame encoded).length ≤ maxReadLength := by
  simp only [decodeFileDownloadRequestFrame]
  split
  · decide
  · next hne =>
    refine ⟨UInt16.pos_iff_ne_zero.mpr hne, ?_⟩
    rw [UInt16.le_iff_toNat_le, UInt16.toNat_and]
    exact Nat.le_trans Nat.and_le_right (by decide)

/-! ### Directory listing requests -/

/-- The decoded directory listing request: `directory_listing_request_data_t`. -/
structure DirectoryListingRequestData where
  area : StorageArea
  start : UInt16
  count : UInt16
  /-- The name array before its terminating zero. -/
  name : List UInt8
  deriving DecidableEq, Repr

/-- `validateEncodedDirectoryListingRequestFrame`. -/
def validateEncodedDirectoryListingRequestFrame (encoded : List UInt8) : Bool :=
  5 ≤ encoded.length && uint16At encoded 3 ≤ 256

/-- `decodeDirectoryListingRequestFrame`. -/
def decodeDirectoryListingRequestFrame (encoded : List UInt8) : DirectoryListingRequestData :=
  { area := .ofCode (byteAt encoded 0 &&& 0x0F)
    start := uint16At encoded 1
    count := uint16At encoded 3
    name := encoded.drop 5 }

end TellerOBC
