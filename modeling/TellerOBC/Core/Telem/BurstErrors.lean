import TellerOBC.Core.CrcPolynomials
import TellerOBC.Core.Telem.RoundTrip

/-!
# Bursts of errors on the wire

The checksum of a frame is the shift register of its polynomial, so the checksum of a corrupted
frame is the one of the error. The bits of a byte travel with the least significant one first,
which is the order in which the register takes them; an error in at most sixteen consecutive bits
is a burst that the register cannot lose. The parser finds the frame where it was if the error
leaves the sync word and the length byte alone, and refuses it at its last byte.

## Main definitions

* `TellerOBC.corrupt`: a frame with some of its bits inverted.

## Main results

* `TellerOBC.crcCcitt_corrupt`: the checksum of a corrupted frame.
* `TellerOBC.Parser.feed_frame_rejected`: frames that have a bad checksum.
* `TellerOBC.feed_corrupt_serialize`: bursts of errors are detected.
-/

namespace TellerOBC

open ShiftRegister

/-- The bytes of a frame, with the bits inverted that are set in the error. -/
def corrupt (frame error : List UInt8) : List UInt8 :=
  List.zipWith (· ^^^ ·) frame error

theorem length_corrupt {frame error : List UInt8} (h : error.length = frame.length) :
    (corrupt frame error).length = frame.length := by
  rw [corrupt, List.length_zipWith, h, Nat.min_self]

/-- A byte without errors arrives. -/
theorem getElem?_corrupt {frame error : List UInt8} {i : ℕ} {byte : UInt8}
    (hframe : frame[i]? = some byte) (herror : error[i]? = some 0) :
    (corrupt frame error)[i]? = some byte := by
  rw [corrupt, List.getElem?_zipWith, hframe, herror]
  exact congrArg some UInt8.xor_zero

/-! ### The checksum of an error -/

theorem bitsLsbFirst_corrupt {frame error : List UInt8} (h : error.length = frame.length) :
    bitsLsbFirst (corrupt frame error) =
      List.zipWith xor (bitsLsbFirst frame) (bitsLsbFirst error) := by
  induction frame generalizing error with
  | nil => rfl
  | cons byte frame ih =>
    cases error with
    | nil => simp at h
    | cons e error =>
      have htail := ih (Nat.succ.inj h)
      simp only [bitsLsbFirst, corrupt, List.zipWith_cons_cons, List.flatMap_cons] at htail ⊢
      rw [htail, List.zipWith_append (by simp), zipWith_xor_lsbFirst]
      rfl

theorem length_bitsLsbFirst (buf : List UInt8) : (bitsLsbFirst buf).length = 8 * buf.length := by
  induction buf with
  | nil => rfl
  | cons byte buf ih =>
    rw [bitsLsbFirst, List.flatMap_cons, List.length_append, length_lsbFirst, ← bitsLsbFirst, ih,
      List.length_cons]
    omega

/-- The checksum of a corrupted frame is the one of the frame, combined with the one of the
error. -/
theorem crcCcitt_corrupt {frame error : List UInt8} (h : error.length = frame.length) :
    crcCcitt 0 (corrupt frame error) = crcCcitt 0 frame ^^^ crcCcitt 0 error := by
  apply UInt16.toBitVec_inj.mp
  have hzero : (0 : UInt16).toBitVec = (0 : UInt16).toBitVec ^^^ (0 : UInt16).toBitVec := rfl
  rw [toBitVec_crcCcitt, hzero, bitsLsbFirst_corrupt h, feed_xor, ← toBitVec_crcCcitt,
    ← toBitVec_crcCcitt]
  · rfl
  · rw [length_bitsLsbFirst, length_bitsLsbFirst, h]

/-- A byte that is not zero has a bit that is set. -/
theorem true_mem_bitsLsbFirst {error : List UInt8} (h : ∃ byte ∈ error, byte ≠ 0) :
    true ∈ bitsLsbFirst error := by
  obtain ⟨byte, hmem, hne⟩ := h
  refine List.mem_flatMap.mpr ⟨byte, hmem, ?_⟩
  by_contra hnone
  refine hne (UInt8.toBitVec_inj.mp (BitVec.eq_of_getLsbD_eq fun i hi => ?_))
  have hbit : byte.toBitVec.getLsbD i = false := Bool.eq_false_iff.mpr fun htrue =>
    hnone (List.mem_map.mpr ⟨i, List.mem_range.mpr hi, htrue⟩)
  simp [hbit]

/-- The checksum sees an error in at most sixteen consecutive bits. -/
theorem crcCcitt_burst_ne_zero {error : List UInt8} (hburst : IsBurst 16 (bitsLsbFirst error))
    (hne : ∃ byte ∈ error, byte ≠ 0) : crcCcitt 0 error ≠ 0 := by
  intro h
  refine feed_burst_ne_zero (show (0x8408#16).msb = true from rfl) hburst
    (true_mem_bitsLsbFirst hne) ?_
  exact (toBitVec_crcCcitt 0 error).symm.trans (congrArg UInt16.toBitVec h)

/-! ### Frames with a bad checksum -/

namespace Parser

variable {frame : List UInt8} {n : ℕ} {p : Parser} {ch : UInt8}

/-- The last byte of a frame that has a bad checksum. -/
theorem Receiving.feed_last_rejected (h : Receiving frame n (n + 7) p)
    (hframe : FrameLayout n frame) (hcrc : crcCcitt 0 frame ≠ 0) (hch : frame[n + 7]? = some ch) :
    (p.feed ch).1 = 0 ∧ (p.feed ch).2.state = .waitingSyncByte1 := by
  have hs : p.state = .readingChecksum := h.state_eq.trans (stateAfter_checksum (by omega))
  have hend : p.endPtr = n + 8 := by
    rw [h.endPtr_eq (by omega), endAfter, if_neg (by omega), if_neg (by omega)]
  have hle := hframe.le_max
  simp only [maxPayloadLength] at hle
  have hstored : (p.store ch).received = frame := by
    rw [h.received_store (by omega) hch, List.take_of_length_le (by rw [hframe.length_eq])]
  have hptr : (p.store ch).messageWritePtr = (p.store ch).endPtr := by
    rw [store_messageWritePtr, store_endPtr, h.ptr_eq, hend]
  have htake : (p.store ch).message.toList.take (p.store ch).endPtr = frame := by
    rw [← hptr]
    exact hstored
  have hstep : p.feedInternal ch = (.waitingSyncByte1, (p.store ch).reset) := by
    simp only [feedInternal, hs, hptr, htake, hcrc, ↓reduceIte]
  rw [feed_of_ne_done hstep (by simp)]
  exact ⟨rfl, rfl⟩

/-- **Frames with a bad checksum.** A parser that waits for the first sync byte, whatever its
buffer and its pointers are, answers zero to all bytes of a frame whose checksum is bad, and then
waits for the first sync byte again. -/
theorem feed_frame_rejected (hs : p.state = .waitingSyncByte1) (hframe : FrameLayout n frame)
    (hcrc : crcCcitt 0 frame ≠ 0) :
    p.feedResults frame = List.replicate frame.length 0 ∧
      (p.feedAll frame).state = .waitingSyncByte1 := by
  have hlen := hframe.length_eq
  obtain ⟨hzeros, hrec⟩ := feed_frame_init hs hframe (k := n + 7) (by omega) (by omega)
  have hch : frame[n + 7]? = some frame[n + 7] := List.getElem?_eq_getElem (by omega)
  obtain ⟨hresult, hstate⟩ := hrec.feed_last_rejected hframe hcrc hch
  have hsplit : frame = frame.take (n + 7) ++ [frame[n + 7]] := by
    conv_lhs => rw [← List.take_append_drop (n + 7) frame]
    rw [List.drop_eq_getElem_cons (by omega), List.drop_of_length_le (by omega)]
  rw [hlen, List.replicate_succ', hsplit, feedResults_append, feedAll_append, hzeros]
  exact ⟨congrArg (List.replicate (n + 7) 0 ++ [·]) hresult, hstate⟩

end Parser

/-! ### Corrupted messages -/

/-- Sync word and length byte are found where they were. -/
theorem FrameLayout.corrupt {n : ℕ} {frame error : List UInt8} (h : FrameLayout n frame)
    (hlen : error.length = frame.length) (hsync : error.take 2 = [0, 0])
    (hlength : error[5]? = some 0) : FrameLayout n (corrupt frame error) := by
  refine ⟨(length_corrupt hlen).trans h.length_eq, h.le_max, ?_,
    getElem?_corrupt h.lengthByte hlength⟩
  rw [TellerOBC.corrupt, List.take_zipWith, h.sync, hsync]
  rfl

/-- **Bursts of errors are detected.** Corrupt a message of `serialize` in at most sixteen
consecutive bits of the transmission, but neither in the sync word nor in the length byte. A parser
that waits for the first sync byte, with anything in its buffer, reports nothing during these
bytes. -/
theorem feed_corrupt_serialize {bufferLength : ℕ} {envelope : Envelope}
    {payload frame error : List UInt8}
    (hframe : serialize bufferLength envelope payload = some frame)
    (hlen : error.length = frame.length) (hne : ∃ byte ∈ error, byte ≠ 0)
    (hburst : IsBurst 16 (bitsLsbFirst error)) (hsync : error.take 2 = [0, 0])
    (hlength : error[5]? = some 0) {p : Parser} (hs : p.state = .waitingSyncByte1) :
    p.feedResults (corrupt frame error) = List.replicate frame.length 0 := by
  have hwell := wellFormedFrame_of_serialize hframe
  have hcrc : crcCcitt 0 (corrupt frame error) ≠ 0 := by
    rw [crcCcitt_corrupt hlen, hwell.crc_eq, UInt16.zero_xor]
    exact crcCcitt_burst_ne_zero hburst hne
  obtain ⟨hresults, -⟩ :=
    Parser.feed_frame_rejected hs (hwell.layout.corrupt hlen hsync hlength) hcrc
  rw [hresults, length_corrupt hlen]

/-- Sixteen inverted bits in the payload, over three bytes. -/
theorem feed_corrupt_serialize_payload :
    Parser.fresh.feedResults (corrupt
      [0xCA, 0xFE, 0x07, 0x11, 0x21, 0x03, 0x61, 0x62, 0x63, 0x60, 0x22]
      [0, 0, 0, 0, 0, 0, 0x80, 0xFF, 0x7F, 0, 0]) = List.replicate 11 0 := by
  have hframe : serialize 71 ⟨7, FrameType.echo, 0, 0⟩ [0x61, 0x62, 0x63] =
      some [0xCA, 0xFE, 0x07, 0x11, 0x21, 0x03, 0x61, 0x62, 0x63, 0x60, 0x22] := by
    decide
  have hne : ∃ byte ∈ ([0, 0, 0, 0, 0, 0, 0x80, 0xFF, 0x7F, 0, 0] : List UInt8), byte ≠ 0 :=
    ⟨0x80, by decide, by decide⟩
  have hburst : IsBurst 16 (bitsLsbFirst [0, 0, 0, 0, 0, 0, 0x80, 0xFF, 0x7F, 0, 0]) :=
    isBurst_of_forall_lt 55 (by decide +kernel)
  exact feed_corrupt_serialize hframe (by rfl) hne hburst rfl rfl rfl

end TellerOBC
