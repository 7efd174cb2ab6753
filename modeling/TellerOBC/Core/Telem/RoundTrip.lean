import TellerOBC.Core.Telem.Parser

/-!
# The parser reads what `serialize` writes

`reports_are_frames` says that whatever the parser reports is a well-formed frame. Here is the
other direction: a parser that waits for the first sync byte, with anything left in its buffer,
reports every well-formed frame that it is fed, at the last byte and not before, and then waits
for the next one. The messages of `serialize` are well-formed frames, so a message survives the
trip through the wire.

`Parser.Receiving frame n k p` describes the parser `p` after the first `k` bytes of a frame with
a payload of `n` bytes: the state and the end of its section depend on `k` and `n` only.

## Main definitions

* `TellerOBC.WellFormedFrame`: sync word, length byte and checksum.
* `TellerOBC.Parser.feedResults`: the results of feeding bytes in order.

## Main results

* `TellerOBC.wellFormedFrame_of_serialize`: the messages of `serialize` are well-formed.
* `TellerOBC.Parser.feed_frame`: a waiting parser reports a well-formed frame.
* `TellerOBC.Parser.feed_serialize`: the round trip of a message.
-/

namespace TellerOBC

/-- A frame with a payload of `n` bytes: it starts with the sync word, its sixth byte is the
length of the payload, and it has the checksum zero. -/
structure WellFormedFrame (n : ℕ) (frame : List UInt8) : Prop where
  length_eq : frame.length = n + 8
  le_max : n ≤ maxPayloadLength
  sync : frame.take 2 = [0xCA, 0xFE]
  lengthByte : frame[5]? = some (UInt8.ofNat n)
  crc_eq : crcCcitt 0 frame = 0

/-- The layout of a frame with a payload of `n` bytes: what the parser checks before the last byte
of the checksum. -/
structure FrameLayout (n : ℕ) (frame : List UInt8) : Prop where
  length_eq : frame.length = n + 8
  le_max : n ≤ maxPayloadLength
  sync : frame.take 2 = [0xCA, 0xFE]
  lengthByte : frame[5]? = some (UInt8.ofNat n)

theorem WellFormedFrame.layout {n : ℕ} {frame : List UInt8} (h : WellFormedFrame n frame) :
    FrameLayout n frame :=
  ⟨h.length_eq, h.le_max, h.sync, h.lengthByte⟩

theorem FrameLayout.getElem?_zero {n : ℕ} {frame : List UInt8} (h : FrameLayout n frame) :
    frame[0]? = some 0xCA := by
  rw [← List.getElem?_take_of_lt (show 0 < 2 by omega), h.sync]
  rfl

theorem FrameLayout.getElem?_one {n : ℕ} {frame : List UInt8} (h : FrameLayout n frame) :
    frame[1]? = some 0xFE := by
  rw [← List.getElem?_take_of_lt (show 1 < 2 by omega), h.sync]
  rfl

theorem WellFormedFrame.eq_cons {n : ℕ} {frame : List UInt8} (h : WellFormedFrame n frame) :
    frame = 0xCA :: 0xFE :: frame.drop 2 := by
  conv_lhs => rw [← List.take_append_drop 2 frame, h.sync]
  rfl

theorem length_serializeBody (envelope : Envelope) (payload : List UInt8) :
    (serializeBody envelope payload).length = payload.length + 6 := by
  rw [serializeBody, List.length_append]
  exact Nat.add_comm _ _

/-- What `serialize` returns when the payload is not too long and the buffer not too short. -/
theorem eq_of_serialize_eq_some {bufferLength : ℕ} {envelope : Envelope}
    {payload frame : List UInt8} (h : serialize bufferLength envelope payload = some frame) :
    payload.length ≤ maxPayloadLength ∧
      frame = serializeBody envelope.withDefaults payload ++
        [(crcCcitt 0 (serializeBody envelope.withDefaults payload) &&& 0xff).toUInt8,
          (crcCcitt 0 (serializeBody envelope.withDefaults payload) >>> 8).toUInt8] := by
  simp only [serialize, getMessageSizeForPayloadLength] at h
  by_cases hle : payload.length ≤ maxPayloadLength
  · simp only [hle, ↓reduceIte] at h
    rcases Nat.lt_or_ge bufferLength (payload.length + 8) with hlt | hge
    · simp [hlt] at h
    · rw [if_neg (by omega)] at h
      exact ⟨hle, (Option.some.inj h).symm⟩
  · simp [hle] at h

/-- The messages of `serialize` are well-formed frames. -/
theorem wellFormedFrame_of_serialize {bufferLength : ℕ} {envelope : Envelope}
    {payload frame : List UInt8} (h : serialize bufferLength envelope payload = some frame) :
    WellFormedFrame payload.length frame := by
  obtain ⟨hle, rfl⟩ := eq_of_serialize_eq_some h
  refine ⟨?_, hle, rfl, rfl, crcCcitt_residue _⟩
  rw [List.length_append, length_serializeBody]
  rfl

namespace Parser

/-- The results of feeding the bytes of a list in order. -/
def feedResults : Parser → List UInt8 → List UInt8
  | _, [] => []
  | p, ch :: bytes => (p.feed ch).1 :: feedResults (p.feed ch).2 bytes

@[simp] theorem feedAll_nil (p : Parser) : p.feedAll [] = p := rfl

@[simp] theorem feedAll_cons (p : Parser) (ch : UInt8) (bytes : List UInt8) :
    p.feedAll (ch :: bytes) = (p.feed ch).2.feedAll bytes := rfl

theorem feedAll_append (p : Parser) (xs ys : List UInt8) :
    p.feedAll (xs ++ ys) = (p.feedAll xs).feedAll ys :=
  List.foldl_append

theorem feedResults_append (p : Parser) (xs ys : List UInt8) :
    p.feedResults (xs ++ ys) = p.feedResults xs ++ (p.feedAll xs).feedResults ys := by
  induction xs generalizing p with
  | nil => rfl
  | cons ch xs ih => exact congrArg (List.cons _) (ih _)

/-! ### In the middle of a frame -/

/-- The state after `k` bytes of a frame with a payload of `n` bytes. -/
def stateAfter (n k : ℕ) : ParserState :=
  if k = 0 then .waitingSyncByte1
  else if k = 1 then .waitingSyncByte2
  else if k < 6 then .readingHeader
  else if k < n + 6 then .readingPayload
  else .readingChecksum

/-- The end of the section that is read after `k ≥ 2` bytes of a frame with a payload of `n`
bytes. -/
def endAfter (n k : ℕ) : ℕ :=
  if k < 6 then 6 else if k < n + 6 then n + 6 else n + 8

theorem stateAfter_header {n k : ℕ} (hlow : 2 ≤ k) (hhigh : k < 6) :
    stateAfter n k = .readingHeader := by
  rw [stateAfter, if_neg (by omega), if_neg (by omega), if_pos hhigh]

theorem stateAfter_payload {n k : ℕ} (hlow : 6 ≤ k) (hhigh : k < n + 6) :
    stateAfter n k = .readingPayload := by
  rw [stateAfter, if_neg (by omega), if_neg (by omega), if_neg (by omega), if_pos hhigh]

theorem stateAfter_checksum {n k : ℕ} (h : n + 6 ≤ k) : stateAfter n k = .readingChecksum := by
  rw [stateAfter, if_neg (by omega), if_neg (by omega), if_neg (by omega), if_neg (by omega)]

/-- The parser has received the first `k` bytes of the frame. -/
structure Receiving (frame : List UInt8) (n k : ℕ) (p : Parser) : Prop where
  state_eq : p.state = stateAfter n k
  ptr_eq : p.messageWritePtr = k
  received_eq : p.received = frame.take k
  endPtr_eq : 2 ≤ k → p.endPtr = endAfter n k

variable {frame : List UInt8} {n k : ℕ} {p : Parser} {ch : UInt8}

theorem Receiving.received_store (h : Receiving frame n k p) (hk : k < 72)
    (hch : frame[k]? = some ch) : (p.store ch).received = frame.take (k + 1) := by
  rw [Parser.received_store ch (by rw [h.ptr_eq]; exact hk), h.received_eq, List.take_add_one, hch]
  rfl

/-- A step of the parser that stores the next byte of the frame, sets the end of the section and
enters the state for one more byte. -/
theorem Receiving.feed_of_step (h : Receiving frame n k p) (hk : k < 72)
    (hch : frame[k]? = some ch) {state : ParserState} {e : ℕ}
    (hstep : p.feedInternal ch = (state, { p.store ch with endPtr := e }))
    (hne : state ≠ .done) (hs : state = stateAfter n (k + 1)) (he : e = endAfter n (k + 1)) :
    (p.feed ch).1 = 0 ∧ Receiving frame n (k + 1) (p.feed ch).2 := by
  rw [feed_of_ne_done hstep hne]
  exact ⟨rfl, hs, congrArg Nat.succ h.ptr_eq, h.received_store hk hch, fun _ => he⟩

/-- The first byte of a frame, whatever the buffer and the pointers were. -/
theorem receiving_first (hs : p.state = .waitingSyncByte1) (hframe : FrameLayout n frame) :
    (p.feed 0xCA).1 = 0 ∧ Receiving frame n 1 (p.feed 0xCA).2 := by
  have hstep : p.feedInternal 0xCA = (.waitingSyncByte2, p.reset.store 0xCA) := by
    simp only [feedInternal, hs, ↓reduceIte]
  have hrec : (p.reset.store 0xCA).received = frame.take 1 := by
    rw [Parser.received_store _ (by simp), List.take_add_one, hframe.getElem?_zero]
    simp [received]
  rw [feed_of_ne_done hstep (by simp)]
  exact ⟨rfl, rfl, rfl, hrec, fun h => absurd h (by omega)⟩

/-- The second byte of a frame. -/
theorem Receiving.feed_sync (h : Receiving frame n 1 p) (hframe : FrameLayout n frame) :
    (p.feed 0xFE).1 = 0 ∧ Receiving frame n 2 (p.feed 0xFE).2 := by
  have hs : p.state = .waitingSyncByte2 := h.state_eq
  have hstep : p.feedInternal 0xFE = (.readingHeader, { p.store 0xFE with endPtr := 6 }) := by
    simp only [feedInternal, hs, store_messageWritePtr, h.ptr_eq, ↓reduceIte]
  exact h.feed_of_step (by omega) hframe.getElem?_one hstep (by simp) rfl rfl

/-- A byte of the header. The last one is the length of the payload, which decides whether a
payload follows. -/
theorem Receiving.feed_header (h : Receiving frame n k p) (hframe : FrameLayout n frame)
    (hlow : 2 ≤ k) (hhigh : k < 6) (hch : frame[k]? = some ch) :
    (p.feed ch).1 = 0 ∧ Receiving frame n (k + 1) (p.feed ch).2 := by
  have hs : p.state = .readingHeader := h.state_eq.trans (stateAfter_header hlow hhigh)
  have hend : p.endPtr = 6 := by
    rw [h.endPtr_eq hlow, endAfter, if_pos hhigh]
  by_cases hlast : k = 5
  · subst hlast
    have hle := hframe.le_max
    have hbyte : ch = UInt8.ofNat n := Option.some.inj (hch.symm.trans hframe.lengthByte)
    have hnat : ch.toNat = n := by
      simp only [maxPayloadLength] at hle
      rw [hbyte, UInt8.toNat_ofNat']
      omega
    rw [← hnat] at hle
    by_cases hzero : ch = 0
    · have hn : n = 0 := by
        rw [← hnat, hzero]
        rfl
      have hstep : p.feedInternal ch =
          (.readingChecksum, { p.store ch with endPtr := 8 }) := by
        simp only [feedInternal, hs, store_messageWritePtr, store_endPtr, h.ptr_eq, hend, hle,
          ↓reduceIte]
        rw [if_pos hzero]
      exact h.feed_of_step (by omega) hch hstep (by simp) (by rw [hn]; rfl) (by rw [hn]; rfl)
    · have hpos : 0 < n := by
        rw [← hnat]
        exact Nat.pos_of_ne_zero fun h0 => hzero (UInt8.toNat_inj.mp h0)
      have hstep : p.feedInternal ch =
          (.readingPayload, { p.store ch with endPtr := 6 + n }) := by
        simp only [feedInternal, hs, store_messageWritePtr, store_endPtr, h.ptr_eq, hend, hle,
          ↓reduceIte]
        rw [if_neg hzero, hnat]
      refine h.feed_of_step (by omega) hch hstep (by simp)
        (stateAfter_payload (by omega) (by omega)).symm ?_
      rw [endAfter, if_neg (by omega), if_pos (by omega), Nat.add_comm]
  · have hnext : k + 1 ≠ 6 := by omega
    have hstep : p.feedInternal ch = (.readingHeader, p.store ch) := by
      simp only [feedInternal, hs, store_messageWritePtr, store_endPtr, h.ptr_eq, hend, hnext,
        ↓reduceIte]
    refine h.feed_of_step (by omega) hch (e := p.endPtr) hstep (by simp)
      (stateAfter_header (by omega) (by omega)).symm ?_
    rw [hend, endAfter, if_pos (by omega)]

/-- A byte of the payload. -/
theorem Receiving.feed_payload (h : Receiving frame n k p) (hframe : FrameLayout n frame)
    (hlow : 6 ≤ k) (hhigh : k < n + 6) (hch : frame[k]? = some ch) :
    (p.feed ch).1 = 0 ∧ Receiving frame n (k + 1) (p.feed ch).2 := by
  have hs : p.state = .readingPayload := h.state_eq.trans (stateAfter_payload hlow hhigh)
  have hend : p.endPtr = n + 6 := by
    rw [h.endPtr_eq (by omega), endAfter, if_neg (by omega), if_pos hhigh]
  have hle := hframe.le_max
  simp only [maxPayloadLength] at hle
  by_cases hlast : k + 1 = n + 6
  · have hstep : p.feedInternal ch =
        (.readingChecksum, { p.store ch with endPtr := n + 8 }) := by
      simp only [feedInternal, hs, store_messageWritePtr, store_endPtr, h.ptr_eq, hend, hlast,
        ↓reduceIte]
    refine h.feed_of_step (by omega) hch hstep (by simp)
      (stateAfter_checksum (by omega)).symm ?_
    rw [endAfter, if_neg (by omega), if_neg (by omega)]
  · have hstep : p.feedInternal ch = (.readingPayload, p.store ch) := by
      simp only [feedInternal, hs, store_messageWritePtr, store_endPtr, h.ptr_eq, hend, hlast,
        ↓reduceIte]
    refine h.feed_of_step (by omega) hch (e := p.endPtr) hstep (by simp)
      (stateAfter_payload (by omega) (by omega)).symm ?_
    rw [hend, endAfter, if_neg (by omega), if_pos (by omega)]

/-- The first byte of the checksum. -/
theorem Receiving.feed_checksum (h : Receiving frame n (n + 6) p)
    (hframe : FrameLayout n frame) (hch : frame[n + 6]? = some ch) :
    (p.feed ch).1 = 0 ∧ Receiving frame n (n + 7) (p.feed ch).2 := by
  have hs : p.state = .readingChecksum := h.state_eq.trans (stateAfter_checksum le_rfl)
  have hend : p.endPtr = n + 8 := by
    rw [h.endPtr_eq (by omega), endAfter, if_neg (by omega), if_neg (by omega)]
  have hle := hframe.le_max
  simp only [maxPayloadLength] at hle
  have hstep : p.feedInternal ch = (.readingChecksum, p.store ch) := by
    have hne : n + 6 + 1 ≠ n + 8 := by omega
    simp only [feedInternal, hs, store_messageWritePtr, store_endPtr, h.ptr_eq, hend, hne,
      ↓reduceIte]
  refine h.feed_of_step (by omega) hch (e := p.endPtr) hstep (by simp)
    (stateAfter_checksum (by omega)).symm ?_
  rw [hend, endAfter, if_neg (by omega), if_neg (by omega)]

/-- A byte of the frame that is not its last one. -/
theorem Receiving.feed_next (h : Receiving frame n k p) (hframe : FrameLayout n frame)
    (hpos : 0 < k) (hk : k + 1 < frame.length) (hch : frame[k]? = some ch) :
    (p.feed ch).1 = 0 ∧ Receiving frame n (k + 1) (p.feed ch).2 := by
  rw [hframe.length_eq] at hk
  by_cases hsync : k = 1
  · subst hsync
    obtain rfl : ch = 0xFE := Option.some.inj (hch.symm.trans hframe.getElem?_one)
    exact h.feed_sync hframe
  · by_cases hheader : k < 6
    · exact h.feed_header hframe (by omega) hheader hch
    · by_cases hpayload : k < n + 6
      · exact h.feed_payload hframe (by omega) hpayload hch
      · obtain rfl : k = n + 6 := by omega
        exact h.feed_checksum hframe hch

/-! ### Whole frames -/

/-- All the bytes of a frame but the last one. -/
theorem feed_frame_init (hs : p.state = .waitingSyncByte1) (hframe : FrameLayout n frame)
    (hpos : 0 < k) (hk : k < frame.length) :
    p.feedResults (frame.take k) = List.replicate k 0 ∧
      Receiving frame n k (p.feedAll (frame.take k)) := by
  induction k with
  | zero => exact absurd hpos (Nat.lt_irrefl 0)
  | succ k ih =>
    by_cases hk0 : k = 0
    · subst hk0
      have htake : frame.take 1 = [0xCA] := by
        rw [List.take_add_one, hframe.getElem?_zero]
        rfl
      obtain ⟨hzero, hrec⟩ := receiving_first hs hframe
      rw [htake, feedResults, hzero]
      exact ⟨rfl, hrec⟩
    · obtain ⟨hzeros, hrec⟩ := ih (by omega) (by omega)
      have hch : frame[k]? = some frame[k] := List.getElem?_eq_getElem (by omega)
      obtain ⟨hzero, hnext⟩ := hrec.feed_next hframe (by omega) hk hch
      have htake : frame.take (k + 1) = frame.take k ++ [frame[k]] := by
        rw [List.take_add_one, hch]
        rfl
      rw [htake, feedResults_append, feedAll_append, hzeros, List.replicate_succ']
      exact ⟨congrArg (List.replicate k 0 ++ [·]) hzero, hnext⟩

/-- The last byte of a frame is answered with the report. -/
theorem Receiving.feed_last (h : Receiving frame n (n + 7) p) (hframe : WellFormedFrame n frame)
    (hch : frame[n + 7]? = some ch) :
    (p.feed ch).1 = UInt8.ofNat (n + 1) ∧ (p.feed ch).2.state = .waitingSyncByte1 ∧
      IsReportOf frame (p.feed ch).1 (p.feed ch).2 := by
  have hs : p.state = .readingChecksum := h.state_eq.trans (stateAfter_checksum (by omega))
  have hend : p.endPtr = n + 8 := by
    rw [h.endPtr_eq (by omega), endAfter, if_neg (by omega), if_neg (by omega)]
  have hle := hframe.le_max
  simp only [maxPayloadLength] at hle
  have hstored : (p.store ch).received = frame := by
    rw [h.received_store (by omega) hch, List.take_of_length_le (by rw [hframe.length_eq])]
  have hlen : (p.store ch).payloadLength = n := by
    rw [payloadLength, hstored, hframe.lengthByte, Option.getD_some, UInt8.toNat_ofNat']
    omega
  have hptr : (p.store ch).messageWritePtr = (p.store ch).endPtr := by
    rw [store_messageWritePtr, store_endPtr, h.ptr_eq, hend]
  have hend' : (p.store ch).endPtr = 8 + (p.store ch).payloadLength := by
    rw [store_endPtr, hend, hlen, Nat.add_comm]
  have htake : (p.store ch).message.toList.take (p.store ch).endPtr = frame := by
    rw [← hptr]
    exact hstored
  have hstep : p.feed ch = (UInt8.ofInt (((p.store ch).endPtr : ℤ) - headerLength - 1),
      (p.store ch).reset.updateEnvelope) := by
    simp only [feed, feedInternal, hs, hptr, htake, hframe.crc_eq, ↓reduceIte]
    rfl
  have hreport := isReportOf_received hptr hend' (by rw [hlen]; exact hle)
    (by rw [hstored]; exact hframe.sync) (by rw [hstored]; exact hframe.crc_eq)
  have hn := toNat_reportedLength hend' (by rw [hlen]; exact hle)
  rw [hstored] at hreport
  rw [hstep]
  refine ⟨UInt8.toNat_inj.mp ?_, rfl, hreport⟩
  rw [hn, hlen, UInt8.toNat_ofNat']
  omega

/-- **Completeness of the parser.** A parser that waits for the first sync byte, whatever its
buffer and its pointers are, answers zero to all bytes of a well-formed frame but the last one,
and reports the frame at the last one. -/
theorem feed_frame (hs : p.state = .waitingSyncByte1) (hframe : WellFormedFrame n frame) :
    p.feedResults frame = List.replicate (n + 7) 0 ++ [UInt8.ofNat (n + 1)] ∧
      (p.feedAll frame).state = .waitingSyncByte1 ∧
      IsReportOf frame (UInt8.ofNat (n + 1)) (p.feedAll frame) := by
  have hlen := hframe.length_eq
  obtain ⟨hzeros, hrec⟩ := feed_frame_init hs hframe.layout (k := n + 7) (by omega) (by omega)
  have hch : frame[n + 7]? = some frame[n + 7] := List.getElem?_eq_getElem (by omega)
  obtain ⟨hresult, hstate, hreport⟩ := hrec.feed_last hframe hch
  have hsplit : frame = frame.take (n + 7) ++ [frame[n + 7]] := by
    conv_lhs => rw [← List.take_append_drop (n + 7) frame]
    rw [List.drop_eq_getElem_cons (by omega), List.drop_of_length_le (by omega)]
  have hresults : p.feedResults frame =
      List.replicate (n + 7) 0 ++ [UInt8.ofNat (n + 1)] := by
    rw [hsplit, feedResults_append, hzeros]
    exact congrArg (List.replicate (n + 7) 0 ++ [·]) hresult
  have hall : p.feedAll frame = ((p.feedAll (frame.take (n + 7))).feed frame[n + 7]).2 := by
    conv_lhs => rw [hsplit, feedAll_append, feedAll_cons, feedAll_nil]
  rw [hall, ← hresult]
  exact ⟨by rw [hresult]; exact hresults, hstate, hreport⟩

end Parser

/-! ### Messages -/

/-- The codes of the enumeration `component_t`. -/
def Component.all : List UInt8 :=
  [unknownComponent, groundStation, onboardComputer, scintillatorModule]

/-- The components of an envelope are codes of the enumeration. -/
structure Envelope.InRange (envelope : Envelope) : Prop where
  source : envelope.source ∈ Component.all
  target : envelope.target ∈ Component.all

theorem Envelope.InRange.withDefaults {envelope : Envelope} (h : envelope.InRange) :
    envelope.withDefaults.InRange := by
  constructor
  · simp only [Envelope.withDefaults]
    split_ifs
    · simp [Component.all]
    · exact h.source
  · simp only [Envelope.withDefaults]
    split_ifs
    · simp [Component.all]
    · exact h.target

/-- The packed components of an envelope are unpacked by the parser. -/
theorem unpack_components {source target : UInt8} (hsource : source ∈ Component.all)
    (htarget : target ∈ Component.all) :
    (((source &&& 0x03) <<< 4) ||| (target &&& 0x03)) >>> 4 = source ∧
      (((source &&& 0x03) <<< 4) ||| (target &&& 0x03)) &&& 0x0F = target := by
  have hall : ∀ source ∈ Component.all, ∀ target ∈ Component.all,
      (((source &&& 0x03) <<< 4) ||| (target &&& 0x03)) >>> 4 = source ∧
        (((source &&& 0x03) <<< 4) ||| (target &&& 0x03)) &&& 0x0F = target := by
    decide +kernel
  exact hall source hsource target htarget

/-- What a parser reports about a message of `serialize`. -/
theorem report_serialize {bufferLength : ℕ} {envelope : Envelope} {payload frame : List UInt8}
    (hrange : envelope.InRange) (h : serialize bufferLength envelope payload = some frame)
    {p : Parser} (hreport : p.IsReportOf frame (UInt8.ofNat (payload.length + 1))) :
    p.envelope = envelope.withDefaults ∧ p.getPayload.take payload.length = payload := by
  obtain ⟨hle, rfl⟩ := eq_of_serialize_eq_some h
  obtain ⟨hsource, htarget⟩ :=
    unpack_components hrange.withDefaults.source hrange.withDefaults.target
  have hn : (UInt8.ofNat (payload.length + 1)).toNat - 1 = payload.length := by
    simp only [maxPayloadLength] at hle
    rw [UInt8.toNat_ofNat']
    omega
  have hpayload := hreport.payload_eq
  rw [hn] at hpayload
  constructor
  · rw [hreport.envelope_eq]
    exact congrArg₂ (Envelope.mk _ _) hsource htarget
  · rw [hpayload]
    exact List.take_left

/-- **The round trip of a message.** Take an envelope with components of the enumeration and a
payload that is not too long, serialise them into a large enough buffer and feed the bytes to a
parser that waits for the first sync byte, with anything in its buffer. The parser answers zero
until the last byte and the length of the payload plus one then, has the envelope, with its
unspecified components filled in, and the payload, and waits for the first sync byte again. -/
theorem feed_serialize {envelope : Envelope} (hrange : envelope.InRange) {payload : List UInt8}
    (hle : payload.length ≤ maxPayloadLength) {bufferLength : ℕ}
    (hbuffer : getMessageSizeForPayloadLength payload.length ≤ bufferLength) {p : Parser}
    (hs : p.state = .waitingSyncByte1) :
    ∃ frame, serialize bufferLength envelope payload = some frame ∧
      p.feedResults frame =
        List.replicate (payload.length + 7) 0 ++ [UInt8.ofNat (payload.length + 1)] ∧
      (p.feedAll frame).envelope = envelope.withDefaults ∧
      (p.feedAll frame).getPayload.take payload.length = payload ∧
      (p.feedAll frame).state = .waitingSyncByte1 := by
  simp only [getMessageSizeForPayloadLength, if_pos hle] at hbuffer
  have hsome : ∃ frame, serialize bufferLength envelope payload = some frame := by
    simp only [serialize, getMessageSizeForPayloadLength, if_pos hle]
    rw [if_neg (by omega)]
    exact ⟨_, rfl⟩
  obtain ⟨frame, hframe⟩ := hsome
  obtain ⟨hresults, hstate, hreport⟩ :=
    Parser.feed_frame hs (wellFormedFrame_of_serialize hframe)
  obtain ⟨henvelope, hpayload⟩ := report_serialize hrange hframe hreport
  exact ⟨frame, hframe, hresults, henvelope, hpayload, hstate⟩

/-- A message with unspecified components and the sync word in its payload makes the round
trip. -/
theorem feed_serialize_syncWord :
    ∃ frame, serialize 71 ⟨7, FrameType.echo, 0, 0⟩ [0xCA, 0xFE] = some frame ∧
      Parser.fresh.feedResults frame = List.replicate 9 0 ++ [3] ∧
      (Parser.fresh.feedAll frame).envelope = ⟨7, FrameType.echo, 2, 1⟩ ∧
      (Parser.fresh.feedAll frame).getPayload.take 2 = [0xCA, 0xFE] ∧
      (Parser.fresh.feedAll frame).state = .waitingSyncByte1 :=
  have hrange : Envelope.InRange ⟨7, FrameType.echo, 0, 0⟩ := ⟨by decide, by decide⟩
  have hle : ([0xCA, 0xFE] : List UInt8).length ≤ maxPayloadLength := by decide
  feed_serialize hrange hle (by decide) rfl

end TellerOBC
