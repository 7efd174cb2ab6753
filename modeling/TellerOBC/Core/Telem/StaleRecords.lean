import TellerOBC.Core.Telem.VariableLengthFrames

/-!
# What decoding leaves of an earlier message

A record to which a message is decoded may hold an earlier one. Decoding the same payload to two
records gives the same if the decoder assigns every field, so that nothing of the earlier messages
is left. Two of the nine decoders here do not: acknowledgments with an invalid result keep the error
and the value of the record, and heartbeats keep the mode.

## Main definitions

* `TellerOBC.Checked.DecodedFrame`, `TellerOBC.Checked.DecodedFrame.codec`.
* `TellerOBC.Checked.FrameCodec.Forgets`: decoding to two records gives the same.
* `TellerOBC.Checked.DecodedFrame.Assigns`: the decoder assigns what the records differ in.

## Main results

* `TellerOBC.Checked.decoders_forget_iff`.
-/

namespace TellerOBC.Checked

open CheckedMemory

/-! ### The frames with their decoders -/

/-- A frame of fixed length, the functions of which access no memory but its fields. -/
def fixedLengthCodec {Record : Type} (size : ℕ) (encode : Record → List UInt8)
    (decode : List UInt8 → Record → Record) : FrameCodec Record where
  encode data buffer := writeFrame buffer (encode data) []
  validate _ length := .ok (validateLength size length)
  decode encoded _ decoded := .ok (decode encoded decoded)
  Same := Eq

/-- The frames whose decoders are compared on two records. -/
inductive DecodedFrame where
  | ack
  | heartbeat
  | clockStatus
  | storageCommand
  | binaryData
  | directoryEntry
  | directoryListing
  | fileDownload
  | textMessage

namespace DecodedFrame

/-- The record of a frame. -/
def Record : DecodedFrame → Type
  | ack => AckData
  | heartbeat => HeartbeatData
  | clockStatus => ClockStatusData
  | storageCommand => StorageCommandData
  | binaryData => BinaryData
  | directoryEntry => DirectoryEntryData
  | directoryListing => DirectoryListingRequestData
  | fileDownload => FileDownloadRequestData
  | textMessage => TextMessageData

/-- The functions of a frame. -/
def codec : (frame : DecodedFrame) → FrameCodec frame.Record
  | ack => fixedLengthCodec 7 TellerOBC.encodeAckFrame decodeAckFrame
  | heartbeat => fixedLengthCodec 11 encodeHeartbeatFrame decodeHeartbeatFrame
  | clockStatus => fixedLengthCodec 20 encodeClockStatusFrame decodeClockStatusFrame
  | storageCommand => fixedLengthCodec 7 encodeStorageCommandFrame fun encoded _ =>
      TellerOBC.decodeStorageCommandFrame encoded
  | binaryData => binaryDataCodec
  | directoryEntry => directoryEntryCodec
  | directoryListing => directoryListingRequestCodec
  | fileDownload => fileDownloadRequestCodec
  | textMessage => textMessageCodec

/-- The decoder assigns the fields in which the records differ, and no more than the record has. -/
def Assigns : (frame : DecodedFrame) → List UInt8 → frame.Record → frame.Record → Prop
  | ack, payload, (p : AckData), (q : AckData) =>
    byteAt payload 2 < AckResult.invalid.code ∨ (p.error = q.error ∧ p.value = q.value)
  | heartbeat, _, (p : HeartbeatData), (q : HeartbeatData) => p.mode = q.mode
  | directoryEntry, payload, _, _ => payload.length < maxPayloadLength
  | _, _, _, _ => True

end DecodedFrame

/-- Decoding a payload to two records gives the same. -/
def FrameCodec.Forgets {Record : Type} (codec : FrameCodec Record) (payload : List UInt8)
    (length : UInt32) (p q : Record) : Prop :=
  ∃ p' q', codec.decode payload length p = .ok p' ∧ codec.decode payload length q = .ok q' ∧
    codec.Same p' q'

/-! ### Frames of fixed length -/

theorem fixedLengthCodec_forgets_iff {Record : Type} {size : ℕ} {encode : Record → List UInt8}
    {decode : List UInt8 → Record → Record} {payload : List UInt8} {length : UInt32}
    {p q : Record} :
    (fixedLengthCodec size encode decode).Forgets payload length p q ↔
      decode payload p = decode payload q := by
  constructor
  · rintro ⟨p', q', hp, hq, hsame⟩
    exact (Except.ok.inj hp).trans (hsame.trans (Except.ok.inj hq).symm)
  · intro h
    exact ⟨_, _, rfl, rfl, h⟩

/-- An invalid acknowledgment keeps the error and the value. -/
theorem decodeAckFrame_eq_iff (payload : List UInt8) (p q : AckData) :
    decodeAckFrame payload p = decodeAckFrame payload q ↔
      byteAt payload 2 < AckResult.invalid.code ∨ (p.error = q.error ∧ p.value = q.value) := by
  have hle : 4 ≤ byteAt payload 2 ↔ ¬byteAt payload 2 < AckResult.invalid.code :=
    UInt8.not_lt.symm
  simp only [decodeAckFrame, hle]
  by_cases hvalid : byteAt payload 2 < AckResult.invalid.code
  · simp only [hvalid, not_true_eq_false, if_false, true_or]
  · simp only [hvalid, not_false_eq_true, if_true, false_or, AckData.mk.injEq, true_and]

/-- A heartbeat keeps the mode. -/
theorem decodeHeartbeatFrame_eq_iff (payload : List UInt8) (p q : HeartbeatData) :
    decodeHeartbeatFrame payload p = decodeHeartbeatFrame payload q ↔ p.mode = q.mode := by
  simp only [decodeHeartbeatFrame, HeartbeatData.mk.injEq, true_and, and_true]

/-! ### Frames of variable length -/

section VariableLength

variable {payload : List UInt8} {length : UInt32} (h : Received payload length)
include h

/-- What is behind the preamble is the string of the array, whatever the array held. -/
theorem exists_copyString_stringOf {n : ℕ} (preamble : UInt32)
    (hpreamble : preamble.toNat ≤ payload.length) (hfits : payload.length < n + preamble.toNat)
    (array : Vector UInt8 n) :
    ∃ array', copyString payload length preamble array = .ok array' ∧
      stringOf array' = cStringAt (payload.drop preamble.toNat) := by
  obtain ⟨array', hcopy, hread⟩ := exists_copyString h preamble hpreamble array hfits
  exact ⟨array', hcopy, stringOf_of_readCString hread⟩

theorem binaryDataCodec_forgets (hvalid : binaryDataCodec.validate payload length = .ok true)
    (p q : BinaryData) : binaryDataCodec.Forgets payload length p q := by
  have hle : 4 ≤ payload.length := by
    have htrue := hvalid.symm.trans (validateEncodedBinaryDataFrame_eq h)
    exact (of_decide_eq_true (Except.ok.inj htrue).symm).1.trans' (by decide)
  obtain ⟨data, hp, hlength, hdata⟩ := exists_decodeBinaryDataFrame h hle p
  obtain ⟨data', hq, -, hdata'⟩ := exists_decodeBinaryDataFrame h hle q
  refine ⟨_, _, hp, hq, rfl, rfl, rfl, rfl, rfl, ?_⟩
  rw [BinaryData.fragment, BinaryData.fragment, hlength, hdata, hdata']

/-- A string that fills the array leaves no room for its terminating zero. -/
theorem copyString_of_full {n : ℕ} (preamble : UInt32)
    (hlength : payload.length = n + preamble.toNat) (array : Vector UInt8 n) :
    copyString payload length preamble array = .error .write := by
  have hsub : (length - preamble).toNat = n := by
    rw [h.toNat_sub preamble (hlength ▸ Nat.le_add_left ..), hlength, Nat.add_sub_cancel]
  have hdrop : (payload.drop preamble.toNat).length = n := by
    rw [List.length_drop, hlength, Nat.add_sub_cancel]
  have hbytes : readRange payload preamble.toNat n = .ok (payload.drop preamble.toNat) := by
    rw [readRange_of_le (by rw [hlength, Nat.add_comm]), List.take_of_length_le hdrop.le]
  obtain ⟨array', hwrite, -⟩ :=
    exists_writeRange_zero array (payload.drop preamble.toNat) hdrop.le
  have hzero : writeRange array' n [0] = .error .write := dif_neg (Nat.not_succ_le_self n)
  simp only [copyString, hsub, hbytes, hwrite, hzero, bind, Except.bind]

omit h in
theorem directoryEntryCodec_decode (hle : 4 ≤ payload.length) (decoded : DirectoryEntryData) :
    directoryEntryCodec.decode payload length decoded =
      (copyString payload length 4 decoded.name).map fun name =>
        ⟨byteAt payload 0, byteAt payload 1, byteAt payload 2, byteAt payload 3, name⟩ := by
  simp only [directoryEntryCodec, decodeDirectoryEntryFrame,
    readUInt8_of_lt (show 0 < payload.length by omega),
    readUInt8_of_lt (show 1 < payload.length by omega),
    readUInt8_of_lt (show 2 < payload.length by omega),
    readUInt8_of_lt (show 3 < payload.length by omega), bind, Except.bind]
  cases copyString payload length 4 decoded.name <;> rfl

/-- The name array of a directory entry is one byte too short for the longest payload. -/
theorem directoryEntryCodec_forgets_iff
    (hvalid : directoryEntryCodec.validate payload length = .ok true) (p q : DirectoryEntryData) :
    directoryEntryCodec.Forgets payload length p q ↔ payload.length < maxPayloadLength := by
  have hle : 4 ≤ payload.length := by
    refine Nat.le_of_not_lt fun hlt => ?_
    have hshort : length < 4 := h.lt_iff.mpr hlt
    change validateEncodedDirectoryEntryFrame payload length = .ok true at hvalid
    rw [validateEncodedDirectoryEntryFrame, if_pos hshort] at hvalid
    cases hvalid
  have hsize : maxPayloadLength = maxDirectoryEntryNameLength + 1 + UInt32.toNat 4 := rfl
  rw [hsize]
  constructor
  · rintro ⟨p', q', hp, -⟩
    refine lt_of_le_of_ne (hsize ▸ h.length_le) fun hfull => ?_
    rw [directoryEntryCodec_decode hle, copyString_of_full h 4 hfull p.name] at hp
    cases hp
  · intro hlt
    have hdecode (decoded : DirectoryEntryData) : ∃ name,
        directoryEntryCodec.decode payload length decoded =
          .ok ⟨byteAt payload 0, byteAt payload 1, byteAt payload 2, byteAt payload 3, name⟩ ∧
        stringOf name = cStringAt (payload.drop 4) := by
      obtain ⟨name, hcopy, hname⟩ := exists_copyString_stringOf h 4 hle hlt decoded.name
      refine ⟨name, ?_, hname⟩
      rw [directoryEntryCodec_decode hle, hcopy]
      rfl
    obtain ⟨name, hp, hname⟩ := hdecode p
    obtain ⟨name', hq, hname'⟩ := hdecode q
    exact ⟨_, _, hp, hq, rfl, rfl, rfl, rfl, hname.trans hname'.symm⟩

theorem directoryListingRequestCodec_forgets
    (hvalid : directoryListingRequestCodec.validate payload length = .ok true)
    (p q : DirectoryListingRequestData) :
    directoryListingRequestCodec.Forgets payload length p q := by
  have hvalid' := Except.ok.inj
    ((validateEncodedDirectoryListingRequestFrame_eq h).symm.trans hvalid)
  obtain ⟨name, hp, hname⟩ := exists_decodeDirectoryListingRequestFrame h hvalid' p.name
  obtain ⟨name', hq, hname'⟩ := exists_decodeDirectoryListingRequestFrame h hvalid' q.name
  refine ⟨_, _, hp, hq, rfl, rfl, rfl, ?_⟩
  exact (stringOf_of_readCString hname).trans (stringOf_of_readCString hname').symm

theorem fileDownloadRequestCodec_forgets
    (hvalid : fileDownloadRequestCodec.validate payload length = .ok true)
    (p q : FileDownloadRequestData) :
    fileDownloadRequestCodec.Forgets payload length p q := by
  have hvalid' := Except.ok.inj
    ((validateEncodedFileDownloadRequestFrame_eq h).symm.trans hvalid)
  obtain ⟨path, hp, hpath⟩ := exists_decodeFileDownloadRequestFrame h hvalid' p.path
  obtain ⟨path', hq, hpath'⟩ := exists_decodeFileDownloadRequestFrame h hvalid' q.path
  refine ⟨_, _, hp, hq, rfl, rfl, rfl, ?_⟩
  exact (stringOf_of_readCString hpath).trans (stringOf_of_readCString hpath').symm

theorem textMessageCodec_forgets (hvalid : textMessageCodec.validate payload length = .ok true)
    (p q : TextMessageData) : textMessageCodec.Forgets payload length p q := by
  have hle : 1 ≤ payload.length := by
    have htrue : validateLength 1 length = true := Except.ok.inj hvalid
    rw [h.validateLength_eq] at htrue
    exact of_decide_eq_true htrue
  have hdecode (decoded : TextMessageData) : ∃ message,
      textMessageCodec.decode payload length decoded =
        .ok ⟨byteAt payload 0 >>> 3, byteAt payload 0 &&& 0x07, message⟩ ∧
      stringOf message = cStringAt (payload.drop 1) := by
    obtain ⟨message, hcopy, hmessage⟩ :=
      exists_copyString_stringOf h 1 hle (Nat.lt_succ_of_le h.length_le) decoded.message
    refine ⟨message, ?_, hmessage⟩
    simp only [textMessageCodec, decodeTextMessageFrame, verify,
      if_pos (h.length_eq ▸ h.length_le), readUInt8_of_lt hle, hcopy, bind, Except.bind]
    rfl
  obtain ⟨message, hp, hmessage⟩ := hdecode p
  obtain ⟨message', hq, hmessage'⟩ := hdecode q
  exact ⟨_, _, hp, hq, rfl, rfl, hmessage.trans hmessage'.symm⟩

/-- **Decoders that leave something of an earlier message.** Decoding a valid payload to two records
gives the same, except for acknowledgments with an invalid result, heartbeats and the longest
directory entries. -/
theorem decoders_forget_iff (frame : DecodedFrame)
    (hvalid : frame.codec.validate payload length = .ok true) (p q : frame.Record) :
    frame.codec.Forgets payload length p q ↔ frame.Assigns payload p q := by
  cases frame with
  | ack => exact fixedLengthCodec_forgets_iff.trans (decodeAckFrame_eq_iff payload p q)
  | heartbeat => exact fixedLengthCodec_forgets_iff.trans (decodeHeartbeatFrame_eq_iff payload p q)
  | clockStatus | storageCommand => exact fixedLengthCodec_forgets_iff.trans (iff_true_intro rfl)
  | binaryData => exact iff_true_intro (binaryDataCodec_forgets h hvalid p q)
  | directoryEntry => exact directoryEntryCodec_forgets_iff h hvalid p q
  | directoryListing => exact iff_true_intro (directoryListingRequestCodec_forgets h hvalid p q)
  | fileDownload => exact iff_true_intro (fileDownloadRequestCodec_forgets h hvalid p q)
  | textMessage => exact iff_true_intro (textMessageCodec_forgets h hvalid p q)

end VariableLength

theorem decoders_forget_iff_rejected :
    DecodedFrame.ack.codec.Forgets [0, 0, 1, 5, 0, 0, 0] 7 ⟨0, 0, .invalid, 2, 0⟩
      ⟨0, 0, .accepted, 0, 9⟩ :=
  (decoders_forget_iff ⟨rfl, by decide⟩ .ack rfl _ _).mpr (.inl (by decide))

theorem not_decoders_forget :
    ¬∀ (frame : DecodedFrame) (payload : List UInt8) (length : UInt32), Received payload length →
      frame.codec.validate payload length = .ok true → ∀ p q : frame.Record,
      frame.codec.Forgets payload length p q := by
  intro h
  have hforgets := h .heartbeat (.replicate 11 0) 11 ⟨rfl, by decide⟩ rfl .zero
    { HeartbeatData.zero with mode := .testing }
  have hmode := (decodeHeartbeatFrame_eq_iff ..).mp (fixedLengthCodec_forgets_iff.mp hforgets)
  exact absurd hmode (by decide)

end TellerOBC.Checked
