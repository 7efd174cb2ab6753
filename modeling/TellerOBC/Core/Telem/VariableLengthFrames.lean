import TellerOBC.Core.Telem.CheckedFrames
import TellerOBC.Core.Telem.FixedLengthFrames

/-!
# Frames of variable length

The encoders, validators and decoders of `core/telem/text_message.cpp`,
`core/telem/directory_listing.cpp`, `core/telem/file_download.cpp`,
`core/telem/directory_entry.cpp` and `core/telem/binary_data.cpp`, with checked memory accesses. A
frame has a preamble of fixed length, and a string or the bytes of a fragment up to its end.

An encoder writes to a buffer of `MAX_PAYLOAD_LENGTH` bytes and gives the length of the frame as a
byte. A decoder writes to a record of the caller, the arrays of which keep what it does not
overwrite. So records are compared by what they mean: strings up to the terminating zero, and
fragments up to their length.

## Main definitions

* `TellerOBC.Checked.FrameCodec`, `TellerOBC.Checked.FrameCodec.RoundTrips`.
* `TellerOBC.Checked.textMessageCodec`, `TellerOBC.Checked.directoryListingRequestCodec`,
  `TellerOBC.Checked.fileDownloadRequestCodec`, `TellerOBC.Checked.directoryEntryCodec`,
  `TellerOBC.Checked.binaryDataCodec`.

## Main results

* `TellerOBC.Checked.stringFrames_roundTrip`: frames with a string come back.
* `TellerOBC.Checked.binaryDataFrame_roundTrip_iff`: frames with a fragment come back only if the
  fragment is full.
-/

namespace TellerOBC.Checked

open CheckedMemory

/-! ### Codecs -/

/-- The functions of a frame, and when two of its records mean the same. -/
structure FrameCodec (Record : Type) where
  encode : Record → Vector UInt8 maxPayloadLength →
    Except Fault (UInt8 × Vector UInt8 maxPayloadLength)
  validate : List UInt8 → UInt32 → Except Fault Bool
  decode : List UInt8 → UInt32 → Record → Except Fault Record
  Same : Record → Record → Prop

/-- The record is encoded to a buffer, the encoding is valid, and decoding as many bytes as the
encoder says to another record gives the same. -/
def FrameCodec.RoundTrips {Record : Type} (codec : FrameCodec Record) (data : Record)
    (buffer : Vector UInt8 maxPayloadLength) (decoded : Record) : Prop :=
  ∃ frame payload, codec.encode data buffer = .ok frame ∧ readFrame frame = .ok payload ∧
    codec.validate payload frame.1.toUInt32 = .ok true ∧
    ∃ decoded', codec.decode payload frame.1.toUInt32 decoded = .ok decoded' ∧
      codec.Same decoded' data

/-- A preamble at the start of the buffer, what comes behind it, and the length of both. -/
def writeFrame (buffer : Vector UInt8 maxPayloadLength) (preamble tail : List UInt8) :
    Except Fault (UInt8 × Vector UInt8 maxPayloadLength) := do
  let buffer ← writeRange buffer 0 preamble
  let buffer ← writeRange buffer preamble.length tail
  return (UInt8.ofNat (preamble.length + tail.length), buffer)

/-- What fits is written, and can be read back with the length that the encoder gives. -/
theorem exists_writeFrame (buffer : Vector UInt8 maxPayloadLength) {preamble tail : List UInt8}
    (h : (preamble ++ tail).length ≤ maxPayloadLength) :
    ∃ frame, writeFrame buffer preamble tail = .ok frame ∧
      readFrame frame = .ok (preamble ++ tail) ∧ Received (preamble ++ tail) frame.1.toUInt32 := by
  have hle : preamble.length + tail.length ≤ 63 := by rwa [← List.length_append]
  obtain ⟨buffer₁, hpreamble, hbuffer₁⟩ :=
    exists_writeRange_zero buffer preamble ((Nat.le_add_right ..).trans hle)
  obtain ⟨buffer₂, htail, hbuffer₂⟩ := exists_writeRange hbuffer₁ tail (by
    rw [List.length_drop, Vector.length_toList]
    exact Nat.le_sub_of_add_le' hle)
  have hlength : (UInt8.ofNat (preamble.length + tail.length)).toNat =
      (preamble ++ tail).length := by
    rw [UInt8.toNat_ofNat', List.length_append, Nat.mod_eq_of_lt (by omega)]
  refine ⟨(UInt8.ofNat (preamble.length + tail.length), buffer₂), ?_,
    readFrame_of_toList hlength hbuffer₂, ⟨?_, h⟩⟩
  · rw [writeFrame, hpreamble]
    simp only [htail, bind, Except.bind]
    rfl
  · rw [UInt8.toNat_toUInt32, hlength]

namespace FrameCodec

variable {Record : Type} {codec : FrameCodec Record} {data : Record}
  {buffer : Vector UInt8 maxPayloadLength} {preamble tail : List UInt8}

/-- The round trip of a frame that fits is a matter of the validator and the decoder. -/
theorem roundTrips_iff (hencode : codec.encode data buffer = writeFrame buffer preamble tail)
    (hfits : (preamble ++ tail).length ≤ maxPayloadLength) (decoded : Record) :
    ∃ length, Received (preamble ++ tail) length ∧
      (codec.RoundTrips data buffer decoded ↔
        codec.validate (preamble ++ tail) length = .ok true ∧
        ∃ decoded', codec.decode (preamble ++ tail) length decoded = .ok decoded' ∧
          codec.Same decoded' data) := by
  obtain ⟨frame, hwrite, hread, hreceived⟩ := exists_writeFrame buffer hfits
  refine ⟨frame.1.toUInt32, hreceived, ?_, fun h => ⟨frame, _, hencode.trans hwrite, hread, h⟩⟩
  rintro ⟨frame', payload, hencode', hread', h⟩
  obtain rfl : frame = frame' := Except.ok.inj (hwrite.symm.trans (hencode.symm.trans hencode'))
  obtain rfl : preamble ++ tail = payload := Except.ok.inj (hread.symm.trans hread')
  exact h

/-- A frame that fits comes back if what the encoder writes is valid and decodes to the same. -/
theorem RoundTrips.of_writeFrame
    (hencode : codec.encode data buffer = writeFrame buffer preamble tail)
    (hfits : (preamble ++ tail).length ≤ maxPayloadLength) {decoded : Record}
    (h : ∀ length, Received (preamble ++ tail) length →
      codec.validate (preamble ++ tail) length = .ok true ∧
      ∃ decoded', codec.decode (preamble ++ tail) length decoded = .ok decoded' ∧
        codec.Same decoded' data) :
    codec.RoundTrips data buffer decoded := by
  obtain ⟨length, hreceived, hiff⟩ := roundTrips_iff hencode hfits decoded
  exact hiff.mpr (h length hreceived)

end FrameCodec

/-! ### Strings in arrays -/

/-- The string of a character array. -/
def stringOf {n : ℕ} (array : Vector UInt8 n) : List UInt8 := cStringAt array.toList

variable {n : ℕ} {array : Vector UInt8 n}

theorem readCString_eq_ok (h : 0 ∈ array.toList) : readCString array 0 = .ok (stringOf array) :=
  if_pos h

theorem stringOf_of_readCString {s : List UInt8} (h : readCString array 0 = .ok s) :
    stringOf array = s := by
  rw [readCString] at h
  split at h
  · exact Except.ok.inj h
  · cases h

/-- A string leaves room for its terminating zero. -/
theorem length_stringOf_lt (h : 0 ∈ array.toList) : (stringOf array).length < n := by
  have hne : stringOf array ≠ array.toList := by
    intro heq
    have hzero : (0 : UInt8) ∈ stringOf array := heq ▸ h
    exact absurd (List.mem_takeWhile_imp hzero) (by decide)
  have hsublist : (stringOf array).Sublist array.toList := List.takeWhile_sublist _
  have hlt : (stringOf array).length < array.toList.length :=
    lt_of_le_of_ne hsublist.length_le fun heq => hne (hsublist.eq_of_length heq)
  rwa [Vector.length_toList] at hlt

theorem cStringAt_stringOf : cStringAt (stringOf array) = stringOf array := by
  change (array.toList.takeWhile (· ≠ 0)).takeWhile (· ≠ 0) = _
  rw [List.takeWhile_takeWhile]
  simp only [and_self, decide_eq_true_eq, stringOf, cStringAt]

/-- The string behind a preamble is copied to an array that is large enough. -/
theorem exists_copyString_append {m : ℕ} {preamble tail : List UInt8} {length : UInt32}
    (h : Received (preamble ++ tail) length) (preambleLength : UInt32)
    (hpreamble : preamble.length = preambleLength.toNat) (decoded : Vector UInt8 m)
    (hfits : tail.length < m) :
    ∃ decoded', copyString (preamble ++ tail) length preambleLength decoded = .ok decoded' ∧
      stringOf decoded' = cStringAt tail := by
  obtain ⟨decoded', hcopy, hread⟩ := exists_copyString h preambleLength
    (by rw [List.length_append]; omega) decoded (by rw [List.length_append]; omega)
  refine ⟨decoded', hcopy, (stringOf_of_readCString hread).trans ?_⟩
  rw [← hpreamble, List.drop_left]

/-! ### Text messages -/

/-- The data of a text message: `text_message_data_t`, with the numbers of the module and the
level. -/
structure TextMessageData where
  module : UInt8
  level : UInt8
  message : Vector UInt8 maxPayloadLength

/-- The byte of the level and the module. -/
def textMessageHeader (level module : UInt8) : UInt8 :=
  (level &&& (0x07 : UInt8)) ||| (module <<< (3 : UInt8))

/-- `encodeTextMessageFrame`. -/
def encodeTextMessageFrame (data : TextMessageData) (encoded : Vector UInt8 maxPayloadLength) :
    Except Fault (UInt8 × Vector UInt8 maxPayloadLength) := do
  let message ← readCString data.message 0
  verify (message.length ≤ maxPayloadLength - 1)
  writeFrame encoded [textMessageHeader data.level data.module] message

/-- `validateEncodedTextMessageFrame`. -/
def validateEncodedTextMessageFrame (length : UInt32) : Bool := validateLength 1 length

/-- `decodeTextMessageFrame`. -/
def decodeTextMessageFrame (encoded : List UInt8) (length : UInt32) (decoded : TextMessageData) :
    Except Fault TextMessageData := do
  verify (length.toNat ≤ maxPayloadLength)
  let header ← readUInt8 encoded 0
  let message ← copyString encoded length 1 decoded.message
  return ⟨header >>> (3 : UInt8), header &&& (0x07 : UInt8), message⟩

/-- What a text message can carry. -/
structure TextMessageData.WellFormed (data : TextMessageData) : Prop where
  level_lt : data.level < 8
  module_lt : data.module < 32
  terminated : 0 ∈ data.message.toList

/-- The codec of text messages. -/
def textMessageCodec : FrameCodec TextMessageData where
  encode := encodeTextMessageFrame
  validate _ length := .ok (validateEncodedTextMessageFrame length)
  decode := decodeTextMessageFrame
  Same p q := p.module = q.module ∧ p.level = q.level ∧ stringOf p.message = stringOf q.message

/-- The level and the module share a byte. -/
theorem level_module_of_byte {level module : UInt8} (hlevel : level < 8) (hmodule : module < 32) :
    textMessageHeader level module &&& (0x07 : UInt8) = level ∧
      textMessageHeader level module >>> (3 : UInt8) = module := by
  rw [UInt8.lt_iff_toNat_lt] at hlevel hmodule
  change level.toNat < 2 ^ 3 at hlevel
  change module.toNat < 2 ^ 5 at hmodule
  have hshift : module.toNat <<< 3 < 2 ^ 8 := by
    rw [Nat.shiftLeft_eq]
    exact Nat.mul_lt_mul_of_pos_right hmodule (by decide)
  have hheader : (textMessageHeader level module).toNat = module.toNat * 2 ^ 3 + level.toNat := by
    rw [textMessageHeader, UInt8.toNat_or, UInt8.toNat_and, UInt8.toNat_shiftLeft]
    change (level.toNat &&& 2 ^ 3 - 1) ||| module.toNat <<< 3 % 2 ^ 8 = _
    rw [Nat.and_two_pow_sub_one_eq_mod, Nat.mod_eq_of_lt (show level.toNat < 2 ^ 3 from hlevel),
      Nat.mod_eq_of_lt hshift, Nat.or_comm, ← Nat.shiftLeft_add_eq_or_of_lt hlevel,
      Nat.shiftLeft_eq]
  constructor
  · apply UInt8.toNat.inj
    rw [UInt8.toNat_and, hheader]
    change _ &&& 2 ^ 3 - 1 = _
    rw [Nat.and_two_pow_sub_one_eq_mod, Nat.mul_add_mod_of_lt hlevel]
  · apply UInt8.toNat.inj
    rw [UInt8.toNat_shiftRight, hheader]
    change _ >>> 3 = _
    rw [Nat.shiftRight_eq_div_pow]
    omega

/-- A text message comes back. -/
theorem textMessageCodec_roundTrips {data : TextMessageData} (h : data.WellFormed)
    (buffer : Vector UInt8 maxPayloadLength) (decoded : TextMessageData) :
    textMessageCodec.RoundTrips data buffer decoded := by
  have hstring : (stringOf data.message).length < maxPayloadLength :=
    length_stringOf_lt h.terminated
  have hencode : textMessageCodec.encode data buffer =
      writeFrame buffer [textMessageHeader data.level data.module] (stringOf data.message) := by
    simp only [textMessageCodec, encodeTextMessageFrame, readCString_eq_ok h.terminated, verify,
      if_pos (Nat.le_sub_one_of_lt hstring), bind, Except.bind]
  obtain ⟨hlevel, hmodule⟩ := level_module_of_byte h.level_lt h.module_lt
  refine .of_writeFrame hencode (by rw [List.length_append, Nat.add_comm]; exact hstring)
    fun length hreceived => ⟨?_, ?_⟩
  · change Except.ok (validateLength 1 length) = _
    rw [hreceived.validateLength_eq]
    rfl
  · obtain ⟨message, hcopy, hmessage⟩ :=
      exists_copyString_append hreceived 1 rfl decoded.message hstring
    refine ⟨⟨_, _, message⟩, ?_, hmodule, hlevel, hmessage.trans cStringAt_stringOf⟩
    simp only [textMessageCodec, decodeTextMessageFrame, verify,
      if_pos (hreceived.length_eq ▸ hreceived.length_le), hcopy, bind, Except.bind]
    rfl

/-! ### Directory listing requests -/

/-- `encodeDirectoryListingRequestFrame`. -/
def encodeDirectoryListingRequestFrame (data : DirectoryListingRequestData)
    (encoded : Vector UInt8 maxPayloadLength) :
    Except Fault (UInt8 × Vector UInt8 maxPayloadLength) := do
  let name ← readCString data.name 0
  verify (name.length ≤ maxPayloadLength - 5)
  writeFrame encoded
    ([data.area.code &&& 0x0F] ++ (uint16Bytes data.start ++ uint16Bytes data.count)) name

/-- The codec of directory listing requests. -/
def directoryListingRequestCodec : FrameCodec DirectoryListingRequestData where
  encode := encodeDirectoryListingRequestFrame
  validate := validateEncodedDirectoryListingRequestFrame
  decode encoded length decoded := decodeDirectoryListingRequestFrame encoded length decoded.name
  Same p q := p.area = q.area ∧ p.start = q.start ∧ p.count = q.count ∧
    stringOf p.name = stringOf q.name

/-- What a directory listing request can carry. -/
structure DirectoryListingRequestData.WellFormed (data : DirectoryListingRequestData) : Prop where
  count_le : data.count ≤ 256
  terminated : 0 ∈ data.name.toList

/-- The area fits the bits that the frames keep of it. -/
theorem ofCode_code_and (area : StorageArea) :
    StorageArea.ofCode ((area.code &&& 0x0F) &&& 0x0F) = area := by
  cases area <;> rfl

/-- A directory listing request comes back. -/
theorem directoryListingRequestCodec_roundTrips {data : DirectoryListingRequestData}
    (h : data.WellFormed) (buffer : Vector UInt8 maxPayloadLength)
    (decoded : DirectoryListingRequestData) :
    directoryListingRequestCodec.RoundTrips data buffer decoded := by
  have hstring : (stringOf data.name).length < 59 := length_stringOf_lt h.terminated
  have hencode : directoryListingRequestCodec.encode data buffer =
      writeFrame buffer
        ([data.area.code &&& 0x0F] ++ (uint16Bytes data.start ++ uint16Bytes data.count))
        (stringOf data.name) := by
    simp only [directoryListingRequestCodec, encodeDirectoryListingRequestFrame,
      readCString_eq_ok h.terminated, verify, bind, Except.bind,
      if_pos (show (stringOf data.name).length ≤ maxPayloadLength - 5 from
        Nat.le_of_lt_succ hstring)]
  refine .of_writeFrame hencode (Nat.add_le_add_right (Nat.le_of_lt_succ hstring) 5)
    fun length hreceived => ?_
  have hstart : uint16At ([data.area.code &&& 0x0F] ++
      (uint16Bytes data.start ++ uint16Bytes data.count) ++ stringOf data.name) 1 = data.start :=
    uint16At_uint16Bytes data.start (uint16Bytes data.count ++ stringOf data.name)
  have hcount : uint16At ([data.area.code &&& 0x0F] ++
      (uint16Bytes data.start ++ uint16Bytes data.count) ++ stringOf data.name) 3 = data.count :=
    uint16At_uint16Bytes data.count (stringOf data.name)
  have hvalid : TellerOBC.validateEncodedDirectoryListingRequestFrame
      ([data.area.code &&& 0x0F] ++ (uint16Bytes data.start ++ uint16Bytes data.count) ++
        stringOf data.name) = true := by
    rw [TellerOBC.validateEncodedDirectoryListingRequestFrame, hcount, Bool.and_eq_true_iff]
    exact ⟨decide_eq_true (Nat.le_add_left 5 _), decide_eq_true h.count_le⟩
  obtain ⟨name, hdecode, hname⟩ :=
    exists_decodeDirectoryListingRequestFrame hreceived hvalid decoded.name
  refine ⟨(validateEncodedDirectoryListingRequestFrame_eq hreceived).trans (by rw [hvalid]),
    _, hdecode, ofCode_code_and data.area, hstart, hcount, ?_⟩
  exact (stringOf_of_readCString hname).trans cStringAt_stringOf

/-! ### File download requests -/

/-- `encodeFileDownloadRequestFrame`. -/
def encodeFileDownloadRequestFrame (data : FileDownloadRequestData)
    (encoded : Vector UInt8 maxPayloadLength) :
    Except Fault (UInt8 × Vector UInt8 maxPayloadLength) := do
  let path ← readCString data.path 0
  verify (path.length ≤ maxPayloadLength - 7)
  let length := (if data.length = maxReadLength then 0 else data.length) &&& (maxReadLength - 1)
  writeFrame encoded
    ([data.area.code &&& 0x0F] ++ (uint32Bytes data.start ++ uint16Bytes length)) path

/-- The codec of file download requests. -/
def fileDownloadRequestCodec : FrameCodec FileDownloadRequestData where
  encode := encodeFileDownloadRequestFrame
  validate := validateEncodedFileDownloadRequestFrame
  decode encoded length decoded := decodeFileDownloadRequestFrame encoded length decoded.path
  Same p q := p.area = q.area ∧ p.start = q.start ∧ p.length = q.length ∧
    stringOf p.path = stringOf q.path

/-- What a file download request can carry. -/
structure FileDownloadRequestData.WellFormed (data : FileDownloadRequestData) : Prop where
  length_ne : data.length ≠ 0
  length_le : data.length ≤ maxReadLength
  terminated : 0 ∈ data.path.toList

/-- The maximum length is encoded as zero, and no other length is. -/
theorem length_and_mask {length : UInt16} (hle : length ≤ maxReadLength) :
    ((if length = maxReadLength then 0 else length) &&& (maxReadLength - 1)) =
      if length = maxReadLength then 0 else length := by
  split_ifs with hmax
  · rfl
  · have hlt : length.toNat < 2 ^ 13 :=
      lt_of_le_of_ne (UInt16.le_iff_toNat_le.mp hle) fun heq => hmax (UInt16.toNat.inj heq)
    apply UInt16.toNat.inj
    rw [UInt16.toNat_and]
    change length.toNat &&& 2 ^ 13 - 1 = _
    rw [Nat.and_two_pow_sub_one_eq_mod, Nat.mod_eq_of_lt hlt]

/-- A file download request comes back. -/
theorem fileDownloadRequestCodec_roundTrips {data : FileDownloadRequestData}
    (h : data.WellFormed) (buffer : Vector UInt8 maxPayloadLength)
    (decoded : FileDownloadRequestData) :
    fileDownloadRequestCodec.RoundTrips data buffer decoded := by
  obtain ⟨field, hfield⟩ : ∃ field, field =
    (if data.length = maxReadLength then 0 else data.length) := ⟨_, rfl⟩
  have hmask := length_and_mask h.length_le
  rw [← hfield] at hmask
  have hstring : (stringOf data.path).length < 57 := length_stringOf_lt h.terminated
  have hencode : fileDownloadRequestCodec.encode data buffer =
      writeFrame buffer
        ([data.area.code &&& 0x0F] ++ (uint32Bytes data.start ++ uint16Bytes field))
        (stringOf data.path) := by
    simp only [fileDownloadRequestCodec, encodeFileDownloadRequestFrame,
      readCString_eq_ok h.terminated, verify, bind, Except.bind, ← hfield, hmask,
      if_pos (show (stringOf data.path).length ≤ maxPayloadLength - 7 from
        Nat.le_of_lt_succ hstring)]
  refine .of_writeFrame hencode (Nat.add_le_add_right (Nat.le_of_lt_succ hstring) 7)
    fun length hreceived => ?_
  have hstart : uint32At ([data.area.code &&& 0x0F] ++
      (uint32Bytes data.start ++ uint16Bytes field) ++ stringOf data.path) 1 = data.start :=
    uint32At_uint32Bytes data.start (uint16Bytes field ++ stringOf data.path)
  have hlength : uint16At ([data.area.code &&& 0x0F] ++
      (uint32Bytes data.start ++ uint16Bytes field) ++ stringOf data.path) 5 = field :=
    uint16At_uint16Bytes field (stringOf data.path)
  have hlt : field < maxReadLength := by
    rw [hfield]
    split_ifs with hmax
    · decide
    · exact UInt16.lt_of_le_of_ne h.length_le hmax
  have hvalid : TellerOBC.validateEncodedFileDownloadRequestFrame
      ([data.area.code &&& 0x0F] ++ (uint32Bytes data.start ++ uint16Bytes field) ++
        stringOf data.path) = true := by
    rw [TellerOBC.validateEncodedFileDownloadRequestFrame, hlength, Bool.and_eq_true_iff]
    exact ⟨decide_eq_true (Nat.le_add_left 7 _), decide_eq_true hlt⟩
  obtain ⟨path, hdecode, hpath⟩ :=
    exists_decodeFileDownloadRequestFrame hreceived hvalid decoded.path
  refine ⟨(validateEncodedFileDownloadRequestFrame_eq hreceived).trans (by rw [hvalid]),
    _, hdecode, ofCode_code_and data.area, hstart, ?_, ?_⟩
  · simp only [TellerOBC.decodeFileDownloadRequestFrame, hlength, hmask]
    by_cases hmax : data.length = maxReadLength
    · rw [hfield, if_pos hmax, if_pos rfl, hmax]
    · rw [hfield, if_neg hmax, if_neg h.length_ne]
  · exact (stringOf_of_readCString hpath).trans cStringAt_stringOf

/-! ### Directory entries -/

/-- The data of a directory entry frame: `directory_entry_data_t`. -/
structure DirectoryEntryData where
  frameType : UInt8
  seqNo : UInt8
  maxEntryIndex : UInt8
  entryIndex : UInt8
  name : Vector UInt8 (maxDirectoryEntryNameLength + 1)

/-- `encodeDirectoryEntryFrame`. -/
def encodeDirectoryEntryFrame (data : DirectoryEntryData)
    (encoded : Vector UInt8 maxPayloadLength) :
    Except Fault (UInt8 × Vector UInt8 maxPayloadLength) := do
  let name ← readCString data.name 0
  writeFrame encoded [data.frameType, data.seqNo, data.maxEntryIndex, data.entryIndex] name

/-- `validateEncodedDirectoryEntryFrame`. -/
def validateEncodedDirectoryEntryFrame (encoded : List UInt8) (length : UInt32) :
    Except Fault Bool := do
  if length < 4 then return false
  else
    let maxEntryIndex ← readUInt8 encoded 2
    let entryIndex ← readUInt8 encoded 3
    return maxEntryIndex ≥ entryIndex

/-- `decodeDirectoryEntryFrame`. -/
def decodeDirectoryEntryFrame (encoded : List UInt8) (length : UInt32)
    (decoded : DirectoryEntryData) : Except Fault DirectoryEntryData := do
  let frameType ← readUInt8 encoded 0
  let seqNo ← readUInt8 encoded 1
  let maxEntryIndex ← readUInt8 encoded 2
  let entryIndex ← readUInt8 encoded 3
  let name ← copyString encoded length 4 decoded.name
  return ⟨frameType, seqNo, maxEntryIndex, entryIndex, name⟩

/-- The codec of directory entries. -/
def directoryEntryCodec : FrameCodec DirectoryEntryData where
  encode := encodeDirectoryEntryFrame
  validate := validateEncodedDirectoryEntryFrame
  decode := decodeDirectoryEntryFrame
  Same p q := p.frameType = q.frameType ∧ p.seqNo = q.seqNo ∧
    p.maxEntryIndex = q.maxEntryIndex ∧ p.entryIndex = q.entryIndex ∧
    stringOf p.name = stringOf q.name

/-- What a directory entry can carry. -/
structure DirectoryEntryData.WellFormed (data : DirectoryEntryData) : Prop where
  entryIndex_le : data.entryIndex ≤ data.maxEntryIndex
  terminated : 0 ∈ data.name.toList

/-- A directory entry comes back. -/
theorem directoryEntryCodec_roundTrips {data : DirectoryEntryData} (h : data.WellFormed)
    (buffer : Vector UInt8 maxPayloadLength) (decoded : DirectoryEntryData) :
    directoryEntryCodec.RoundTrips data buffer decoded := by
  have hstring : (stringOf data.name).length < 59 := length_stringOf_lt h.terminated
  have hencode : directoryEntryCodec.encode data buffer =
      writeFrame buffer [data.frameType, data.seqNo, data.maxEntryIndex, data.entryIndex]
        (stringOf data.name) := by
    simp only [directoryEntryCodec, encodeDirectoryEntryFrame, readCString_eq_ok h.terminated,
      bind, Except.bind]
  refine .of_writeFrame hencode (Nat.add_le_add_right hstring.le 4) fun length hreceived => ⟨?_, ?_⟩
  · have hlong : ¬length < 4 := fun hlt => by
      have hshort := hreceived.lt_iff.mp hlt
      exact absurd hshort (Nat.not_lt_of_le (Nat.le_add_left 4 _))
    change validateEncodedDirectoryEntryFrame _ length = _
    rw [validateEncodedDirectoryEntryFrame, if_neg hlong]
    exact congrArg Except.ok (decide_eq_true h.entryIndex_le)
  · obtain ⟨name, hcopy, hname⟩ :=
      exists_copyString_append hreceived 4 rfl decoded.name hstring
    refine ⟨⟨_, _, _, _, name⟩, ?_, rfl, rfl, rfl, rfl, hname.trans cStringAt_stringOf⟩
    simp only [directoryEntryCodec, decodeDirectoryEntryFrame, hcopy, bind, Except.bind]
    rfl

/-- **Frames with a string.** Text messages, requests for directory listings and file downloads, and
directory entries are valid when encoded, and decode to what was encoded. -/
theorem stringFrames_roundTrip (buffer : Vector UInt8 maxPayloadLength) :
    (∀ data : TextMessageData, data.WellFormed → ∀ decoded,
      textMessageCodec.RoundTrips data buffer decoded) ∧
    (∀ data : DirectoryListingRequestData, data.WellFormed → ∀ decoded,
      directoryListingRequestCodec.RoundTrips data buffer decoded) ∧
    (∀ data : FileDownloadRequestData, data.WellFormed → ∀ decoded,
      fileDownloadRequestCodec.RoundTrips data buffer decoded) ∧
    ∀ data : DirectoryEntryData, data.WellFormed → ∀ decoded,
      directoryEntryCodec.RoundTrips data buffer decoded :=
  ⟨fun _ h => textMessageCodec_roundTrips h buffer,
    fun _ h => directoryListingRequestCodec_roundTrips h buffer,
    fun _ h => fileDownloadRequestCodec_roundTrips h buffer,
    fun _ h => directoryEntryCodec_roundTrips h buffer⟩

/-! ### Binary data -/

/-- The data of a binary data frame: `binary_data_t`. -/
structure BinaryData where
  frameType : UInt8
  seqNo : UInt8
  maxFragmentIndex : UInt8
  fragmentIndex : UInt8
  data : Vector UInt8 maxBinaryDataFragmentLength
  dataLength : UInt8

/-- The bytes of the fragment. -/
def BinaryData.fragment (data : BinaryData) : List UInt8 :=
  data.data.toList.take data.dataLength.toNat

/-- `encodeBinaryDataFrame`. -/
def encodeBinaryDataFrame (data : BinaryData) (encoded : Vector UInt8 maxPayloadLength) :
    Except Fault (UInt8 × Vector UInt8 maxPayloadLength) := do
  let bytes ← readRange data.data.toList 0 data.dataLength.toNat
  writeFrame encoded [data.frameType, data.seqNo, data.maxFragmentIndex, data.fragmentIndex] bytes

/-- `validateEncodedBinaryDataFrame`. The size of the packed structure counts its data array in
full. -/
def validateEncodedBinaryDataFrame (encoded : List UInt8) (length : UInt32) :
    Except Fault Bool := do
  if length < 63 then return false
  else
    let maxFragmentIndex ← readUInt8 encoded 2
    let fragmentIndex ← readUInt8 encoded 3
    return maxFragmentIndex ≥ fragmentIndex

/-- `decodeBinaryDataFrame`. -/
def decodeBinaryDataFrame (encoded : List UInt8) (length : UInt32) (decoded : BinaryData) :
    Except Fault BinaryData := do
  let frameType ← readUInt8 encoded 0
  let seqNo ← readUInt8 encoded 1
  let maxFragmentIndex ← readUInt8 encoded 2
  let fragmentIndex ← readUInt8 encoded 3
  let dataLength := if 4 ≤ length then (length - 4).toUInt8 else 0
  let bytes ← readRange encoded 4 dataLength.toNat
  let data ← writeRange decoded.data 0 bytes
  return ⟨frameType, seqNo, maxFragmentIndex, fragmentIndex, data, dataLength⟩

/-- The codec of binary data. -/
def binaryDataCodec : FrameCodec BinaryData where
  encode := encodeBinaryDataFrame
  validate := validateEncodedBinaryDataFrame
  decode := decodeBinaryDataFrame
  Same p q := p.frameType = q.frameType ∧ p.seqNo = q.seqNo ∧
    p.maxFragmentIndex = q.maxFragmentIndex ∧ p.fragmentIndex = q.fragmentIndex ∧
    p.dataLength = q.dataLength ∧ p.fragment = q.fragment

/-- What is behind the preamble is copied to the array of the record. -/
theorem exists_decodeBinaryDataFrame {encoded : List UInt8} {length : UInt32}
    (h : Received encoded length) (hle : 4 ≤ encoded.length) (decoded : BinaryData) :
    ∃ data', decodeBinaryDataFrame encoded length decoded =
        .ok ⟨byteAt encoded 0, byteAt encoded 1, byteAt encoded 2, byteAt encoded 3, data',
          (length - 4).toUInt8⟩ ∧
      (length - 4).toUInt8.toNat = encoded.length - 4 ∧
      data'.toList.take (encoded.length - 4) = encoded.drop 4 := by
  have hmax : encoded.length ≤ 63 := h.length_le
  have hfour : 4 ≤ length := UInt32.le_iff_toNat_le.mpr (h.length_eq ▸ hle)
  have hdataLength : (length - 4).toUInt8.toNat = encoded.length - 4 := by
    rw [UInt32.toNat_toUInt8, h.toNat_sub 4 hle]
    exact Nat.mod_eq_of_lt (lt_of_le_of_lt (Nat.sub_le_sub_right hmax 4) (by decide))
  have hdrop : (encoded.drop 4).length = encoded.length - 4 := List.length_drop
  have hbytes : readRange encoded 4 (length - 4).toUInt8.toNat = .ok (encoded.drop 4) := by
    rw [hdataLength, readRange_of_le (by omega), ← hdrop, List.take_length]
  obtain ⟨data', hdata, htoList⟩ := exists_writeRange_zero decoded.data (encoded.drop 4)
    (hdrop ▸ Nat.sub_le_sub_right hmax 4)
  refine ⟨data', ?_, hdataLength, by rw [htoList, ← hdrop, List.take_left]⟩
  simp only [decodeBinaryDataFrame, readUInt8_of_lt (show 0 < encoded.length by omega),
    readUInt8_of_lt (show 1 < encoded.length by omega),
    readUInt8_of_lt (show 2 < encoded.length by omega),
    readUInt8_of_lt (show 3 < encoded.length by omega), if_pos hfour, hbytes, hdata, bind,
    Except.bind]
  rfl

theorem validateEncodedBinaryDataFrame_eq {encoded : List UInt8} {length : UInt32}
    (h : Received encoded length) :
    validateEncodedBinaryDataFrame encoded length =
      .ok (63 ≤ encoded.length ∧ byteAt encoded 3 ≤ byteAt encoded 2 : Bool) := by
  rw [validateEncodedBinaryDataFrame]
  split_ifs with hlt
  · have hnot : ¬63 ≤ encoded.length := Nat.not_le_of_lt (h.lt_iff.mp hlt)
    simp only [hnot, false_and, decide_false]
    rfl
  · have hle : 63 ≤ encoded.length := Nat.le_of_not_lt fun hlt' => hlt (h.lt_iff.mpr hlt')
    simp only [readUInt8_of_lt (show 2 < encoded.length by omega),
      readUInt8_of_lt (show 3 < encoded.length by omega), hle, true_and, bind, Except.bind]
    rfl

section RoundTrip

variable {data : BinaryData} (hlength : data.dataLength.toNat ≤ maxBinaryDataFragmentLength)
  {buffer : Vector UInt8 maxPayloadLength} {decoded : BinaryData}

/-- The bytes of an encoded binary data frame. -/
def BinaryData.frame (data : BinaryData) : List UInt8 :=
  TellerOBC.encodeBinaryDataFrame ⟨data.frameType, data.seqNo, data.maxFragmentIndex,
    data.fragmentIndex, data.data.toList, data.dataLength⟩

include hlength

theorem BinaryData.length_frame : data.frame.length = data.dataLength.toNat + 4 := by
  rw [frame, TellerOBC.encodeBinaryDataFrame, List.length_append, List.length_take,
    Vector.length_toList, Nat.min_eq_left hlength, Nat.add_comm]
  rfl

theorem encodeBinaryDataFrame_eq : encodeBinaryDataFrame data buffer =
    writeFrame buffer [data.frameType, data.seqNo, data.maxFragmentIndex, data.fragmentIndex]
      data.fragment := by
  have hread : readRange data.data.toList 0 data.dataLength.toNat = .ok data.fragment :=
    readRange_of_le (by rwa [Nat.zero_add, Vector.length_toList])
  simp only [encodeBinaryDataFrame, hread, bind, Except.bind]

/-- The validator and the decoder on what the encoder writes. -/
theorem binaryDataCodec_roundTrips_iff : ∃ length, Received data.frame length ∧
    (binaryDataCodec.RoundTrips data buffer decoded ↔
      (63 ≤ data.dataLength.toNat + 4 ∧ data.fragmentIndex ≤ data.maxFragmentIndex) ∧
      ∃ decoded', decodeBinaryDataFrame data.frame length decoded = .ok decoded' ∧
        binaryDataCodec.Same decoded' data) := by
  have hfits : data.frame.length ≤ maxPayloadLength := by
    rw [BinaryData.length_frame hlength]
    exact Nat.add_le_add_right hlength 4
  have hencode : binaryDataCodec.encode data buffer = writeFrame buffer _ data.fragment :=
    encodeBinaryDataFrame_eq hlength
  obtain ⟨length, hreceived, hiff⟩ := FrameCodec.roundTrips_iff hencode hfits decoded
  have hvalid : binaryDataCodec.validate data.frame length =
      .ok (63 ≤ data.dataLength.toNat + 4 ∧ data.fragmentIndex ≤ data.maxFragmentIndex : Bool) := by
    rw [← BinaryData.length_frame hlength]
    exact validateEncodedBinaryDataFrame_eq hreceived
  refine ⟨length, hreceived, hiff.trans (and_congr_left' ?_)⟩
  change binaryDataCodec.validate data.frame length = .ok true ↔ _
  rw [hvalid, Except.ok.injEq, decide_eq_true_iff]

/-- A fragment comes back only if it is full. -/
theorem full_of_roundTrips (h : binaryDataCodec.RoundTrips data buffer decoded) :
    data.dataLength.toNat = maxBinaryDataFragmentLength := by
  obtain ⟨length, -, hiff⟩ := binaryDataCodec_roundTrips_iff hlength
  have hfull : 59 + 4 ≤ data.dataLength.toNat + 4 := (hiff.mp h).1.1
  exact Nat.le_antisymm hlength (Nat.le_of_add_le_add_right hfull)

/-- A full fragment comes back. -/
theorem roundTrips_of_full (hfull : data.dataLength.toNat = maxBinaryDataFragmentLength)
    (hindex : data.fragmentIndex ≤ data.maxFragmentIndex) :
    binaryDataCodec.RoundTrips data buffer decoded := by
  have hframe := BinaryData.length_frame hlength
  obtain ⟨length, hreceived, hiff⟩ := binaryDataCodec_roundTrips_iff hlength
  refine hiff.mpr ⟨⟨Nat.add_le_add_right hfull.ge 4, hindex⟩, ?_⟩
  obtain ⟨data', hdecode, hdataLength, htake⟩ :=
    exists_decodeBinaryDataFrame hreceived (hframe ▸ Nat.le_add_left 4 _) decoded
  rw [hframe, Nat.add_sub_cancel] at hdataLength htake
  refine ⟨_, hdecode, rfl, rfl, rfl, rfl, UInt8.toNat.inj hdataLength, ?_⟩
  rw [BinaryData.fragment, hdataLength]
  exact htake

/-- **Frames with a fragment come back only if it is full.** The validator of binary data asks for
as many bytes as the packed structure has, so it refuses the last fragment of a download unless that
is full, and the empty fragment that ends a download. -/
theorem binaryDataFrame_roundTrip_iff (hindex : data.fragmentIndex ≤ data.maxFragmentIndex) :
    binaryDataCodec.RoundTrips data buffer decoded ↔
      data.dataLength.toNat = maxBinaryDataFragmentLength :=
  ⟨full_of_roundTrips hlength, fun hfull => roundTrips_of_full hlength hfull hindex⟩

end RoundTrip

/-- The fragment that ends a file download. -/
def endOfFile : BinaryData := ⟨FrameType.fileDownload, 0, 0, 0, .replicate _ 0, 0⟩

theorem binaryDataFrame_roundTrip_full :
    binaryDataCodec.RoundTrips { endOfFile with dataLength := 59 } (.replicate _ 0) endOfFile :=
  (binaryDataFrame_roundTrip_iff (by decide) (by decide)).mpr rfl

theorem not_binaryDataFrame_roundTrip :
    ¬∀ data : BinaryData, data.dataLength.toNat ≤ maxBinaryDataFragmentLength →
      data.fragmentIndex ≤ data.maxFragmentIndex → ∀ buffer decoded,
      binaryDataCodec.RoundTrips data buffer decoded := by
  intro h
  have hroundTrips := h endOfFile (by decide) (by decide) (.replicate _ 0) endOfFile
  exact absurd (full_of_roundTrips (by decide) hroundTrips) (by decide)

end TellerOBC.Checked
