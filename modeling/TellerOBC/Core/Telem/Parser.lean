import Mathlib.Data.List.Infix
import Mathlib.Tactic.Common
import TellerOBC.Core.Telem.Generic

/-!
# The telemetry parser

The byte-wise parser of `core/telem/parser.cpp`. The source keeps two pointers into its message
buffer, the write pointer and the end of the section being read; here they are offsets, and a
write outside the buffer would be lost.

`Parser.Tracks since p` describes the parser `p` after the bytes `since`, the bytes fed after
its last reset or its last reported message: while a message is being read, the buffer up to
the write pointer is a suffix of `since`. One byte keeps this or completes a message
(`Parser.Tracks.feed`).

## Main definitions

* `TellerOBC.Parser`, `TellerOBC.Parser.feed`, `TellerOBC.Parser.feedAll`.
* `TellerOBC.Parser.IsReportOf`: what the parser reports about a frame.

## Main results

* `TellerOBC.Parser.reports_are_frames`: every report is about a well-formed frame that ends at
  the byte just fed, and no byte belongs to two reported frames.
-/

namespace TellerOBC

/-- The parser states of `core/telem/parser.h`. -/
inductive ParserState where
  | waitingSyncByte1
  | waitingSyncByte2
  | readingHeader
  | readingPayload
  | readingChecksum
  | done
  deriving DecidableEq, Repr

/-- Stateful parser of telemetry messages in a stream of bytes. -/
structure Parser where
  state : ParserState
  envelope : Envelope
  /-- Copy of the message being parsed. -/
  message : Vector UInt8 (maxMessageLength + 1)
  /-- Offset of the write pointer in the message. -/
  messageWritePtr : ℕ
  /-- Offset of the end of the section being read. -/
  endPtr : ℕ

namespace Parser

/-- Reset the parser to its base state. The buffer keeps its contents. -/
def reset (p : Parser) : Parser :=
  { p with
    state := .waitingSyncByte1
    endPtr := 0
    messageWritePtr := 0
    envelope := ⟨0, 0, 0, 0⟩ }

/-- Write a byte at the write pointer and advance it. -/
def store (p : Parser) (ch : UInt8) : Parser :=
  { p with
    message := p.message.setIfInBounds p.messageWritePtr ch
    messageWritePtr := p.messageWritePtr + 1 }

/-- The internal part of `feed`, `_feed` in the source: it handles the byte and returns the next
state, which `feed` then assigns. -/
def feedInternal (p : Parser) (ch : UInt8) : ParserState × Parser :=
  match p.state with
  | .waitingSyncByte2 =>
    if ch = 0xFE then
      let p := p.store ch
      (.readingHeader, { p with endPtr := p.messageWritePtr + 4 })
    else (.waitingSyncByte1, p)
  | .readingHeader =>
    let p := p.store ch
    if p.messageWritePtr = p.endPtr then
      if ch.toNat ≤ maxPayloadLength then
        if ch = 0 then (.readingChecksum, { p with endPtr := p.endPtr + 2 })
        else (.readingPayload, { p with endPtr := p.endPtr + ch.toNat })
      else (.waitingSyncByte1, p.reset)
    else (.readingHeader, p)
  | .readingPayload =>
    let p := p.store ch
    if p.messageWritePtr = p.endPtr then
      (.readingChecksum, { p with endPtr := p.endPtr + 2 })
    else (.readingPayload, p)
  | .readingChecksum =>
    let p := p.store ch
    if p.messageWritePtr = p.endPtr then
      if crcCcitt 0 (p.message.toList.take p.endPtr) = 0 then (.done, p)
      else (.waitingSyncByte1, p.reset)
    else (.readingChecksum, p)
  -- `waitingSyncByte1` shares the catch-all case of the source
  | _ =>
    if ch = 0xCA then (.waitingSyncByte2, p.reset.store ch)
    else (.waitingSyncByte1, p)

/-- The envelope found in the message buffer. -/
def updateEnvelope (p : Parser) : Parser :=
  { p with
    envelope :=
      { seqNo := p.message[2]
        frameType := p.message[3]
        source := p.message[4] >>> 4
        target := p.message[4] &&& 0x0F } }

/-- Feed a byte. The result is zero, or the length of the payload plus one when the byte was
the last one of a message. -/
def feed (p : Parser) (ch : UInt8) : UInt8 × Parser :=
  let r := p.feedInternal ch
  let p : Parser := { r.2 with state := r.1 }
  if p.state = .done then
    (UInt8.ofInt ((p.endPtr : ℤ) - headerLength - 1), p.reset.updateEnvelope)
  else (0, p)

/-- The bytes from the start of the payload to the end of the buffer: `getPayload`. -/
def getPayload (p : Parser) : List UInt8 :=
  p.message.toList.drop headerLength

/-- Feed the bytes of a list in order, discarding the results. -/
def feedAll (p : Parser) (bytes : List UInt8) : Parser :=
  bytes.foldl (fun p ch => (p.feed ch).2) p

theorem feedAll_concat (p : Parser) (bs : List UInt8) (ch : UInt8) :
    p.feedAll (bs ++ [ch]) = ((p.feedAll bs).feed ch).2 := by
  simp only [feedAll, List.foldl_append, List.foldl_cons, List.foldl_nil]

/-! ### The part of the message received so far -/

/-- The bytes of the message buffer before the write pointer. -/
def received (p : Parser) : List UInt8 :=
  p.message.toList.take p.messageWritePtr

theorem length_message (p : Parser) : p.message.toList.length = 72 :=
  p.message.length_toList

theorem length_received {p : Parser} (h : p.messageWritePtr ≤ 72) :
    p.received.length = p.messageWritePtr := by
  rw [received, List.length_take, length_message]
  omega

theorem received_store {p : Parser} (ch : UInt8) (h : p.messageWritePtr < 72) :
    (p.store ch).received = p.received ++ [ch] := by
  simp only [received, store, Vector.toList_setIfInBounds]
  rw [List.take_add_one, List.take_set_of_le le_rfl, List.getElem?_set_self]
  · rfl
  · rwa [length_message]

@[simp] theorem store_messageWritePtr (p : Parser) (ch : UInt8) :
    (p.store ch).messageWritePtr = p.messageWritePtr + 1 := rfl

@[simp] theorem store_endPtr (p : Parser) (ch : UInt8) : (p.store ch).endPtr = p.endPtr := rfl

@[simp] theorem reset_messageWritePtr (p : Parser) : p.reset.messageWritePtr = 0 := rfl

/-! ### What the parser knows of the bytes it was fed -/

/-- The payload length found in the header received so far. -/
def payloadLength (p : Parser) : ℕ := ((p.received)[5]?.getD 0).toNat

/-- Where the pointers of a parser stand in each state, and that the part of the message
received so far starts with the sync word. -/
def InSection (p : Parser) : Prop :=
  match p.state with
  | .waitingSyncByte1 => True
  | .waitingSyncByte2 => p.messageWritePtr = 1 ∧ p.received = [0xCA]
  | .readingHeader =>
    2 ≤ p.messageWritePtr ∧ p.messageWritePtr < p.endPtr ∧ p.endPtr = 6 ∧
      p.received.take 2 = [0xCA, 0xFE]
  | .readingPayload =>
    6 ≤ p.messageWritePtr ∧ p.messageWritePtr < p.endPtr ∧ p.endPtr = 6 + p.payloadLength ∧
      p.payloadLength ≤ 63 ∧ p.received.take 2 = [0xCA, 0xFE]
  | .readingChecksum =>
    6 + p.payloadLength ≤ p.messageWritePtr ∧ p.messageWritePtr < p.endPtr ∧
      p.endPtr = 8 + p.payloadLength ∧ p.payloadLength ≤ 63 ∧ p.received.take 2 = [0xCA, 0xFE]
  | .done => False

/-- The parser `p` after the bytes `since` fed after its last reset or report: its pointers are
in the section that its state names, and outside of the first state the part of the message
received so far is what was fed last. -/
structure Tracks (since : List UInt8) (p : Parser) : Prop where
  inSection : p.InSection
  suffix : p.state ≠ .waitingSyncByte1 → p.received <:+ since

/-- What a parser that returned `n` for the last byte of `frame` reports about it. -/
structure IsReportOf (frame : List UInt8) (n : UInt8) (p : Parser) : Prop where
  length_eq : frame.length = n.toNat - 1 + 8
  sync : frame.take 2 = [0xCA, 0xFE]
  payloadLength_eq : (frame[5]?.getD 0).toNat = n.toNat - 1
  payloadLength_le : n.toNat - 1 ≤ maxPayloadLength
  crc_eq : crcCcitt 0 frame = 0
  envelope_eq : p.envelope =
    { seqNo := frame[2]?.getD 0
      frameType := frame[3]?.getD 0
      source := frame[4]?.getD 0 >>> 4
      target := frame[4]?.getD 0 &&& 0x0F }
  payload_eq : p.getPayload.take (n.toNat - 1) = (frame.drop headerLength).take (n.toNat - 1)

/-! ### One byte -/

/-- What one byte does to a parser after the bytes `since`: it goes on, or it completes a frame
that ends at the byte, reports it and starts afresh. -/
def Advances (since : List UInt8) (ch : UInt8) (r : UInt8 × Parser) : Prop :=
  (r.1 = 0 ∧ Tracks (since ++ [ch]) r.2) ∨
    (r.1 ≠ 0 ∧ r.2.state = .waitingSyncByte1 ∧
      ∃ frame, frame <:+ since ++ [ch] ∧ IsReportOf frame r.1 r.2)

theorem tracks_of_waiting {p : Parser} (since : List UInt8) (h : p.state = .waitingSyncByte1) :
    Tracks since p :=
  ⟨by simp only [InSection, h], fun hne => absurd h hne⟩

theorem feed_of_ne_done {p : Parser} {ch : UInt8} {state : ParserState} {q : Parser}
    (h : p.feedInternal ch = (state, q)) (hne : state ≠ .done) :
    p.feed ch = (0, { q with state := state }) := by
  simp only [feed, h, hne, ↓reduceIte]

theorem suffix_concat {r since : List UInt8} (h : r <:+ since) (ch : UInt8) :
    r ++ [ch] <:+ since ++ [ch] := by
  obtain ⟨t, rfl⟩ := h
  exact ⟨t, (List.append_assoc t r [ch]).symm⟩

/-- One more byte of the message is one more byte of the stream. -/
theorem Tracks.suffix_store {since : List UInt8} {p : Parser} (h : Tracks since p) (ch : UInt8)
    (hs : p.state ≠ .waitingSyncByte1) (hptr : p.messageWritePtr < 72) :
    (p.store ch).received <:+ since ++ [ch] := by
  rw [received_store ch hptr]
  exact suffix_concat (h.suffix hs) ch

theorem payloadLength_store {p : Parser} (ch : UInt8) (h : 6 ≤ p.messageWritePtr)
    (h' : p.messageWritePtr < 72) : (p.store ch).payloadLength = p.payloadLength := by
  rw [payloadLength, received_store ch h', List.getElem?_append_left, payloadLength]
  rw [length_received (by omega)]
  omega

theorem payloadLength_store_header {p : Parser} (ch : UInt8) (h : p.messageWritePtr = 5) :
    (p.store ch).payloadLength = ch.toNat := by
  rw [payloadLength, received_store ch (by omega), List.getElem?_append_right]
  · rw [length_received (by omega), h]
    rfl
  · rw [length_received (by omega), h]

theorem sync_store {p : Parser} (ch : UInt8) (h : 2 ≤ p.messageWritePtr)
    (h' : p.messageWritePtr < 72) (hsync : p.received.take 2 = [0xCA, 0xFE]) :
    (p.store ch).received.take 2 = [0xCA, 0xFE] := by
  rw [received_store ch h', List.take_append_of_le_length, hsync]
  rw [length_received (by omega)]
  omega

theorem advances_waiting {since : List UInt8} {p : Parser} (ch : UInt8)
    (hs : p.state = .waitingSyncByte1) : Advances since ch (p.feed ch) := by
  left
  by_cases hch : ch = 0xCA
  · have hstep : p.feedInternal ch = (.waitingSyncByte2, p.reset.store ch) := by
      simp only [feedInternal, hs, hch, ↓reduceIte]
    have hrec : (p.reset.store ch).received = [0xCA] := by
      rw [received_store ch (by simp)]
      simp [received, hch]
    rw [feed_of_ne_done hstep (by simp)]
    refine ⟨rfl, ⟨rfl, hrec⟩, fun _ => ?_⟩
    change (p.reset.store ch).received <:+ _
    rw [hrec, hch]
    exact List.suffix_append since _
  · have hstep : p.feedInternal ch = (.waitingSyncByte1, p) := by
      simp only [feedInternal, hs, hch, ↓reduceIte]
    rw [feed_of_ne_done hstep (by simp)]
    exact ⟨rfl, tracks_of_waiting _ rfl⟩

theorem advances_sync {since : List UInt8} {p : Parser} (ch : UInt8) (h : Tracks since p)
    (hs : p.state = .waitingSyncByte2) : Advances since ch (p.feed ch) := by
  left
  have hin := h.inSection
  simp only [InSection, hs] at hin
  obtain ⟨hptr, hrec⟩ := hin
  by_cases hch : ch = 0xFE
  · have hstep : p.feedInternal ch = (.readingHeader,
        { p.store ch with endPtr := (p.store ch).messageWritePtr + 4 }) := by
      simp only [feedInternal, hs, hch, ↓reduceIte]
    have hrec' : (p.store ch).received = [0xCA, 0xFE] := by
      rw [received_store ch (by omega), hrec, hch]
      rfl
    rw [feed_of_ne_done hstep (by simp)]
    refine ⟨rfl, ⟨?_, ?_, ?_, ?_⟩, fun _ => ?_⟩
    · change 2 ≤ (p.store ch).messageWritePtr
      rw [store_messageWritePtr]
      omega
    · exact Nat.lt_add_of_pos_right (by omega)
    · change (p.store ch).messageWritePtr + 4 = 6
      rw [store_messageWritePtr]
      omega
    · change (p.store ch).received.take 2 = _
      rw [hrec']
      rfl
    · exact h.suffix_store ch (by simp [hs]) (by omega)
  · have hstep : p.feedInternal ch = (.waitingSyncByte1, p) := by
      simp only [feedInternal, hs, hch, ↓reduceIte]
    rw [feed_of_ne_done hstep (by simp)]
    exact ⟨rfl, tracks_of_waiting _ rfl⟩

theorem advances_header {since : List UInt8} {p : Parser} (ch : UInt8) (h : Tracks since p)
    (hs : p.state = .readingHeader) : Advances since ch (p.feed ch) := by
  left
  have hin := h.inSection
  simp only [InSection, hs] at hin
  obtain ⟨hlow, hlt, hend, hsync⟩ := hin
  have hsuffix := h.suffix_store ch (by simp [hs]) (by omega)
  have hsync' := sync_store ch hlow (by omega) hsync
  by_cases hfull : p.messageWritePtr + 1 = p.endPtr
  · have hlen := payloadLength_store_header ch (p := p) (by omega)
    by_cases hle : ch.toNat ≤ maxPayloadLength
    · by_cases hzero : ch = 0
      · have hstep : p.feedInternal ch = (.readingChecksum,
            { p.store ch with endPtr := p.endPtr + 2 }) := by
          simp only [feedInternal, hs, store_messageWritePtr, store_endPtr, hfull, hzero,
            ↓reduceIte]
          simp
        have hlen' : (p.store ch).payloadLength = 0 := by rw [hlen, hzero]; rfl
        rw [feed_of_ne_done hstep (by simp)]
        refine ⟨rfl, ?_, fun _ => hsuffix⟩
        change 6 + (p.store ch).payloadLength ≤ p.messageWritePtr + 1 ∧
          p.messageWritePtr + 1 < p.endPtr + 2 ∧
          p.endPtr + 2 = 8 + (p.store ch).payloadLength ∧ (p.store ch).payloadLength ≤ 63 ∧ _
        rw [hlen']
        exact ⟨by omega, by omega, by omega, by omega, hsync'⟩
      · have hstep : p.feedInternal ch = (.readingPayload,
            { p.store ch with endPtr := p.endPtr + ch.toNat }) := by
          simp only [feedInternal, hs, store_messageWritePtr, store_endPtr, hfull, hle, hzero,
            ↓reduceIte]
        have hpos : 0 < ch.toNat :=
          Nat.pos_of_ne_zero fun h0 => hzero (UInt8.toNat_inj.mp h0)
        rw [feed_of_ne_done hstep (by simp)]
        refine ⟨rfl, ?_, fun _ => hsuffix⟩
        change 6 ≤ p.messageWritePtr + 1 ∧ p.messageWritePtr + 1 < p.endPtr + ch.toNat ∧
          p.endPtr + ch.toNat = 6 + (p.store ch).payloadLength ∧
          (p.store ch).payloadLength ≤ 63 ∧ _
        rw [hlen]
        exact ⟨by omega, by omega, by omega, hle, hsync'⟩
    · have hstep : p.feedInternal ch = (.waitingSyncByte1, (p.store ch).reset) := by
        simp only [feedInternal, hs, store_messageWritePtr, store_endPtr, hfull, hle, ↓reduceIte]
      rw [feed_of_ne_done hstep (by simp)]
      exact ⟨rfl, tracks_of_waiting _ rfl⟩
  · have hstep : p.feedInternal ch = (.readingHeader, p.store ch) := by
      simp only [feedInternal, hs, store_messageWritePtr, store_endPtr, hfull, ↓reduceIte]
    rw [feed_of_ne_done hstep (by simp)]
    refine ⟨rfl, ?_, fun _ => hsuffix⟩
    change 2 ≤ p.messageWritePtr + 1 ∧ p.messageWritePtr + 1 < p.endPtr ∧ p.endPtr = 6 ∧ _
    exact ⟨by omega, by omega, hend, hsync'⟩

theorem advances_payload {since : List UInt8} {p : Parser} (ch : UInt8) (h : Tracks since p)
    (hs : p.state = .readingPayload) : Advances since ch (p.feed ch) := by
  left
  have hin := h.inSection
  simp only [InSection, hs] at hin
  obtain ⟨hlow, hlt, hend, hle, hsync⟩ := hin
  have hlen := payloadLength_store ch hlow (by omega)
  have hsuffix := h.suffix_store ch (by simp [hs]) (by omega)
  have hsync' := sync_store ch (by omega) (by omega) hsync
  by_cases hfull : p.messageWritePtr + 1 = p.endPtr
  · have hstep : p.feedInternal ch = (.readingChecksum,
        { p.store ch with endPtr := p.endPtr + 2 }) := by
      simp only [feedInternal, hs, store_messageWritePtr, store_endPtr, hfull, ↓reduceIte]
    rw [feed_of_ne_done hstep (by simp)]
    refine ⟨rfl, ?_, fun _ => hsuffix⟩
    change 6 + (p.store ch).payloadLength ≤ p.messageWritePtr + 1 ∧
      p.messageWritePtr + 1 < p.endPtr + 2 ∧ p.endPtr + 2 = 8 + (p.store ch).payloadLength ∧
      (p.store ch).payloadLength ≤ 63 ∧ _
    rw [hlen]
    exact ⟨by omega, by omega, by omega, hle, hsync'⟩
  · have hstep : p.feedInternal ch = (.readingPayload, p.store ch) := by
      simp only [feedInternal, hs, store_messageWritePtr, store_endPtr, hfull, ↓reduceIte]
    rw [feed_of_ne_done hstep (by simp)]
    refine ⟨rfl, ?_, fun _ => hsuffix⟩
    change 6 ≤ p.messageWritePtr + 1 ∧ p.messageWritePtr + 1 < p.endPtr ∧
      p.endPtr = 6 + (p.store ch).payloadLength ∧ (p.store ch).payloadLength ≤ 63 ∧ _
    rw [hlen]
    exact ⟨by omega, by omega, hend, hle, hsync'⟩

/-- A byte of the received part is the byte of the buffer at its place. -/
theorem getElem?_received {p : Parser} {i : ℕ} (h : i < p.messageWritePtr) (h' : i < 72) :
    (p.received)[i]?.getD 0 = p.message[i] := by
  rw [received, List.getElem?_take_of_lt h, List.getElem?_eq_getElem (by rwa [length_message]),
    Option.getD_some, Vector.getElem_toList]
  rfl

/-- The result of `feed` for a complete message is the payload length plus one: the difference
of the pointers does not wrap in the byte it is stored in. -/
theorem toNat_reportedLength {p : Parser} (hend : p.endPtr = 8 + p.payloadLength)
    (hle : p.payloadLength ≤ 63) :
    (UInt8.ofInt ((p.endPtr : ℤ) - headerLength - 1)).toNat = p.payloadLength + 1 := by
  have hint : (p.endPtr : ℤ) - headerLength - 1 = ((p.payloadLength + 1 : ℕ) : ℤ) := by
    simp only [headerLength, hend]
    omega
  rw [hint]
  rw [UInt8.ofInt]
  simp only [Int.natCast_add, Int.cast_ofNat_Int, Int.reducePow, UInt8.toNat_ofNat',
    Nat.reducePow]
  omega

/-- A parser that has received a whole message with a good checksum reports it. -/
theorem isReportOf_received {p : Parser} (hptr : p.messageWritePtr = p.endPtr)
    (hend : p.endPtr = 8 + p.payloadLength) (hle : p.payloadLength ≤ 63)
    (hsync : p.received.take 2 = [0xCA, 0xFE]) (hcrc : crcCcitt 0 p.received = 0) :
    IsReportOf p.received (UInt8.ofInt ((p.endPtr : ℤ) - headerLength - 1))
      p.reset.updateEnvelope := by
  have hn := toNat_reportedLength hend hle
  have hlen : p.received.length = p.payloadLength + 8 := by
    rw [length_received (by omega)]
    omega
  refine ⟨by omega, hsync, by rw [hn]; rfl, by rw [hn]; exact hle, hcrc, ?_, ?_⟩
  · simp only [updateEnvelope, Envelope.mk.injEq]
    refine ⟨?_, ?_, ?_, ?_⟩
    · exact (getElem?_received (p := p) (i := 2) (by omega) (by omega)).symm
    · exact (getElem?_received (p := p) (i := 3) (by omega) (by omega)).symm
    · rw [getElem?_received (p := p) (i := 4) (by omega) (by omega)]
      rfl
    · rw [getElem?_received (p := p) (i := 4) (by omega) (by omega)]
      rfl
  · rw [hn, Nat.add_sub_cancel]
    change (p.message.toList.drop headerLength).take _ = _
    rw [received, List.drop_take, List.take_take]
    congr 1
    simp only [headerLength]
    omega

theorem advances_checksum {since : List UInt8} {p : Parser} (ch : UInt8) (h : Tracks since p)
    (hs : p.state = .readingChecksum) : Advances since ch (p.feed ch) := by
  have hin := h.inSection
  simp only [InSection, hs] at hin
  obtain ⟨hlow, hlt, hend, hle, hsync⟩ := hin
  have hlen := payloadLength_store ch (p := p) (by omega) (by omega)
  have hsuffix := h.suffix_store ch (by simp [hs]) (by omega)
  have hsync' := sync_store ch (by omega) (by omega) hsync
  by_cases hfull : p.messageWritePtr + 1 = p.endPtr
  · have htake : (p.store ch).message.toList.take p.endPtr = (p.store ch).received := by
      rw [received, store_messageWritePtr, hfull]
    by_cases hcrc : crcCcitt 0 (p.store ch).received = 0
    · right
      have hreport := isReportOf_received (p := p.store ch) hfull
        (by rw [store_endPtr, hlen]; exact hend) (by rw [hlen]; exact hle) hsync' hcrc
      have hstep : p.feed ch = (UInt8.ofInt (((p.store ch).endPtr : ℤ) - headerLength - 1),
          (p.store ch).reset.updateEnvelope) := by
        simp only [feed, feedInternal, hs, store_messageWritePtr, store_endPtr, hfull, htake,
          hcrc, ↓reduceIte]
        rfl
      rw [hstep]
      refine ⟨fun h0 => ?_, rfl, _, hsuffix, hreport⟩
      have hn := toNat_reportedLength (p := p.store ch) (by rw [store_endPtr, hlen]; exact hend)
        (by rw [hlen]; exact hle)
      rw [show UInt8.ofInt _ = 0 from h0] at hn
      exact absurd hn (Nat.succ_ne_zero _).symm
    · left
      have hstep : p.feedInternal ch = (.waitingSyncByte1, (p.store ch).reset) := by
        simp only [feedInternal, hs, store_messageWritePtr, store_endPtr, hfull, htake, hcrc,
          ↓reduceIte]
      rw [feed_of_ne_done hstep (by simp)]
      exact ⟨rfl, tracks_of_waiting _ rfl⟩
  · left
    have hstep : p.feedInternal ch = (.readingChecksum, p.store ch) := by
      simp only [feedInternal, hs, store_messageWritePtr, store_endPtr, hfull, ↓reduceIte]
    rw [feed_of_ne_done hstep (by simp)]
    refine ⟨rfl, ?_, fun _ => hsuffix⟩
    change 6 + (p.store ch).payloadLength ≤ p.messageWritePtr + 1 ∧
      p.messageWritePtr + 1 < p.endPtr ∧ p.endPtr = 8 + (p.store ch).payloadLength ∧
      (p.store ch).payloadLength ≤ 63 ∧ _
    rw [hlen]
    exact ⟨by omega, by omega, hend, hle, hsync'⟩

/-- One byte keeps a parser on the track of its stream or completes a frame. -/
theorem Tracks.feed {since : List UInt8} {p : Parser} (h : Tracks since p) (ch : UInt8) :
    Advances since ch (p.feed ch) := by
  cases hs : p.state with
  | waitingSyncByte1 => exact advances_waiting ch hs
  | waitingSyncByte2 => exact advances_sync ch h hs
  | readingHeader => exact advances_header ch h hs
  | readingPayload => exact advances_payload ch h hs
  | readingChecksum => exact advances_checksum ch h hs
  | done => exact absurd h.inSection (by simp [InSection, hs])

/-! ### Whole streams -/

/-- After any bytes, a parser that tracked `since` tracks a suffix of `since` and the bytes. -/
theorem Tracks.feedAll {since : List UInt8} {p : Parser} (h : Tracks since p)
    (bs : List UInt8) : ∃ since', since' <:+ since ++ bs ∧ Tracks since' (p.feedAll bs) := by
  induction bs generalizing since p with
  | nil => exact ⟨since, by simp, h⟩
  | cons ch bs ih =>
    have hsplit : since ++ ch :: bs = (since ++ [ch]) ++ bs := by simp
    rcases h.feed ch with ⟨-, hnext⟩ | ⟨-, hstate, -⟩
    · obtain ⟨since', hsuffix, htracks⟩ := ih hnext
      exact ⟨since', by rwa [hsplit], htracks⟩
    · obtain ⟨since', hsuffix, htracks⟩ := ih (tracks_of_waiting [] hstate)
      exact ⟨since', hsuffix.trans ⟨since ++ [ch], by simp⟩, htracks⟩

/-- A report is about a frame that ends at the byte just fed and starts no earlier than the
bytes that the parser tracks. -/
theorem Tracks.report {since : List UInt8} {p : Parser} (h : Tracks since p) {bs : List UInt8}
    {ch : UInt8} (hreport : ((p.feedAll bs).feed ch).1 ≠ 0) :
    ∃ frame, frame <:+ since ++ (bs ++ [ch]) ∧
      IsReportOf frame ((p.feedAll bs).feed ch).1 ((p.feedAll bs).feed ch).2 := by
  obtain ⟨since', hsuffix, htracks⟩ := h.feedAll bs
  rcases htracks.feed ch with ⟨h0, -⟩ | ⟨-, -, frame, hframe, hrep⟩
  · exact absurd h0 hreport
  · refine ⟨frame, hframe.trans ?_, hrep⟩
    rw [← List.append_assoc]
    exact suffix_concat hsuffix ch

/-- **Soundness of the parser.** Feed any bytes to a parser that was just reset, whatever its
buffer holds. Whenever `feed` returns a nonzero `n`, the last `(n - 1) + 8` bytes fed are a
well-formed frame that the parser describes (`IsReportOf`); and between two reports there are
at least as many bytes as the second frame has, so no byte belongs to two reported frames. -/
theorem reports_are_frames (p : Parser) (bs : List UInt8) (ch : UInt8)
    (hreport : ((p.reset.feedAll bs).feed ch).1 ≠ 0) :
    (∃ frame, frame <:+ bs ++ [ch] ∧
      IsReportOf frame ((p.reset.feedAll bs).feed ch).1 ((p.reset.feedAll bs).feed ch).2) ∧
    ∀ cs ch', (((p.reset.feedAll (bs ++ [ch])).feedAll cs).feed ch').1 ≠ 0 →
      (((p.reset.feedAll (bs ++ [ch])).feedAll cs).feed ch').1.toNat - 1 + 8 ≤
        (cs ++ [ch']).length := by
  have hstart : Tracks [] p.reset := tracks_of_waiting [] rfl
  refine ⟨by simpa using hstart.report hreport, fun cs ch' hreport' => ?_⟩
  obtain ⟨since, -, htracks⟩ := hstart.feedAll bs
  rcases htracks.feed ch with ⟨h0, -⟩ | ⟨-, hstate, -⟩
  · exact absurd h0 hreport
  · have hfresh : Tracks [] (p.reset.feedAll (bs ++ [ch])) := by
      rw [feedAll_concat]
      exact tracks_of_waiting [] hstate
    obtain ⟨frame, hsuffix, hrep⟩ := hfresh.report hreport'
    rw [← hrep.length_eq]
    simpa using hsuffix.length_le

/-- A parser as its constructor leaves it, with a zeroed buffer. -/
def fresh : Parser :=
  reset ⟨.waitingSyncByte1, ⟨0, 0, 0, 0⟩, Vector.replicate _ 0, 0, 0⟩

/-- The reset command of the command tests, after two bytes of noise, is reported and sound. -/
theorem reports_are_frames_resetCommand :
    ((fresh.reset.feedAll [0x00, 0x00, 0xCA, 0xFE, 0x00, 0x05, 0x12, 0x00, 0xFF]).feed 0x4F).1
      ≠ 0 ∧
    ∃ frame, frame <:+ [0x00, 0x00, 0xCA, 0xFE, 0x00, 0x05, 0x12, 0x00, 0xFF] ++ [0x4F] ∧
      IsReportOf frame
        ((fresh.reset.feedAll [0x00, 0x00, 0xCA, 0xFE, 0x00, 0x05, 0x12, 0x00, 0xFF]).feed
          0x4F).1
        ((fresh.reset.feedAll [0x00, 0x00, 0xCA, 0xFE, 0x00, 0x05, 0x12, 0x00, 0xFF]).feed
          0x4F).2 := by
  have hreport : ((fresh.reset.feedAll
      [0x00, 0x00, 0xCA, 0xFE, 0x00, 0x05, 0x12, 0x00, 0xFF]).feed 0x4F).1 ≠ 0 := by decide
  exact ⟨hreport, (reports_are_frames fresh _ _ hreport).1⟩

end Parser

end TellerOBC
