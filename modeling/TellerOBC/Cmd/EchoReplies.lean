import TellerOBC.Cmd.Process
import TellerOBC.Core.CrcPolynomials
import TellerOBC.Core.Telem.RoundTrip

/-!
# Answering what was received

The parser reads the components of a frame from the two halves of a byte, `serialize` keeps two
bits of each. A frame that the parser has accepted is written again with the same bytes if its
components have codes that fit in two bits, and with the components changed otherwise; the checksum
follows from the bytes before it. The reply to an echo request goes to the component with the code
that is left of the source of the request.

## Main definitions

* `TellerOBC.SentTo`: an event that puts no frame for another component into the outbound queue.

## Main results

* `TellerOBC.Parser.IsReportOf.serialize_iff`: which accepted frames are written again.
* `TellerOBC.always_sentTo_processEchoPacket_iff`: which echo requests are answered rightly.
* `TellerOBC.Parser.reserialised_iff`: both for every stream of bytes.
-/

namespace TellerOBC

open Program

/-! ### Frames that are written again -/

/-- The halves of a byte are packed again if they fit in two bits. -/
theorem pack_components_iff (components : UInt8) :
    (((components >>> 4) &&& 0x03) <<< 4) ||| ((components &&& 0x0F) &&& 0x03) = components ↔
      components >>> 4 < 4 ∧ components &&& 0x0F < 4 := by
  have hall : ∀ components : Fin 256,
      ((((UInt8.ofFin components >>> 4) &&& 0x03) <<< 4) |||
        ((UInt8.ofFin components &&& 0x0F) &&& 0x03) = UInt8.ofFin components ↔
      UInt8.ofFin components >>> 4 < 4 ∧ UInt8.ofFin components &&& 0x0F < 4) := by
    decide +kernel
  exact hall components.toFin

namespace Parser

variable {frame : List UInt8} {n : ℕ} {p : Parser} {reported : UInt8}

/-- The parts of an accepted frame. -/
theorem IsReportOf.eq_append (h : p.IsReportOf frame reported) :
    ∃ components low high,
      frame = [0xCA, 0xFE, p.envelope.seqNo, p.envelope.frameType, components,
        UInt8.ofNat (reported.toNat - 1)] ++ p.getPayload.take (reported.toNat - 1) ++
          [low, high] ∧
      p.envelope.source = components >>> 4 ∧ p.envelope.target = components &&& 0x0F := by
  obtain ⟨hlen, hsync, hbyte, -, -, henvelope, hpayload⟩ := h
  rw [henvelope, hpayload]
  generalize reported.toNat - 1 = m at *
  obtain ⟨header, rest, rfl, hheader⟩ : ∃ header rest, frame = header ++ rest ∧
      header.length = 6 :=
    ⟨frame.take 6, frame.drop 6, (List.take_append_drop 6 frame).symm, by
      rw [List.length_take]
      omega⟩
  obtain ⟨b₀, b₁, b₂, b₃, b₄, b₅, rfl⟩ :
      ∃ b₀ b₁ b₂ b₃ b₄ b₅, header = [b₀, b₁, b₂, b₃, b₄, b₅] := by
    rcases header with _ | ⟨b₀, _ | ⟨b₁, _ | ⟨b₂, _ | ⟨b₃, _ | ⟨b₄, _ | ⟨b₅, _ | _⟩⟩⟩⟩⟩⟩ <;>
      simp at hheader
    exact ⟨b₀, b₁, b₂, b₃, b₄, b₅, rfl⟩
  have hrest : (rest.drop m).length = 2 := by
    rw [List.length_append, hheader] at hlen
    rw [List.length_drop]
    omega
  obtain ⟨low, high, hlast⟩ := List.length_eq_two.mp hrest
  obtain ⟨rfl, rfl⟩ : b₀ = 0xCA ∧ b₁ = 0xFE := by simpa using hsync
  obtain rfl : b₅ = UInt8.ofNat m := by
    rw [← show b₅.toNat = m from hbyte, UInt8.ofNat_toNat]
  refine ⟨b₄, low, high, ?_, rfl, rfl⟩
  conv_lhs => rw [← List.take_append_drop m rest, hlast]
  exact (List.append_assoc _ _ _).symm

/-- The message that `serialize` makes of an accepted frame whose components are specified. -/
theorem IsReportOf.serialize_iff (h : p.IsReportOf frame reported)
    (hsource : p.envelope.source ≠ Component.unknownComponent)
    (htarget : p.envelope.target ≠ Component.unknownComponent) {bufferLength : ℕ}
    (hbuffer : frame.length ≤ bufferLength) :
    serialize bufferLength p.envelope (p.getPayload.take (reported.toNat - 1)) = some frame ↔
      p.envelope.source < 4 ∧ p.envelope.target < 4 := by
  obtain ⟨components, low, high, hframe, hs, ht⟩ := h.eq_append
  obtain ⟨hlen, -, -, hle, hcrc, -, -⟩ := h
  have hpayload : (p.getPayload.take (reported.toNat - 1)).length = reported.toNat - 1 := by
    rw [hframe] at hlen
    simp at hlen ⊢
    omega
  generalize p.getPayload.take (reported.toNat - 1) = payload at *
  rw [← hpayload] at hlen hle hframe
  have hdefaults : p.envelope.withDefaults = p.envelope := by
    rw [Envelope.withDefaults, if_neg hsource, if_neg htarget]
  have hserialize : serialize bufferLength p.envelope payload =
      some (serializeBody p.envelope payload ++
        [(crcCcitt 0 (serializeBody p.envelope payload) &&& 0xff).toUInt8,
          (crcCcitt 0 (serializeBody p.envelope payload) >>> 8).toUInt8]) := by
    rw [serialize, getMessageSizeForPayloadLength, if_pos hle, if_neg (by omega), hdefaults]
  rw [hserialize, Option.some_inj, hs, ht, ← pack_components_iff]
  constructor
  · intro heq
    have hbyte := congrArg (·[4]?) (heq.trans hframe)
    rw [← hs, ← ht]
    simpa [serializeBody] using hbyte
  · intro hpack
    have hbody : serializeBody p.envelope payload = [0xCA, 0xFE, p.envelope.seqNo,
        p.envelope.frameType, components, UInt8.ofNat payload.length] ++ payload := by
      rw [serializeBody, hs, ht, hpack]
    rw [← hbody] at hframe
    rw [hframe, crcCcitt_append] at hcrc
    obtain ⟨hlow, hhigh⟩ := checksum_unique hcrc
    rw [hframe, hlow, hhigh]

end Parser

/-! ### Replies -/

/-- The event puts no frame for another component than the given one into the outbound queue. -/
def SentTo (component : UInt8) : Event SystemAnswer → Prop
  | ⟨.sendLowLevel _ _ bytes, _⟩ => bytes[4]?.getD 0 &&& 0x0F = component
  | _ => True

/-- The code that a frame is addressed to. -/
theorem target_of_serialize {bufferLength : ℕ} {envelope : Envelope} {payload bytes : List UInt8}
    (h : serialize bufferLength envelope payload = some bytes) :
    bytes[4]?.getD 0 &&& 0x0F = envelope.withDefaults.target &&& 0x03 := by
  obtain ⟨-, rfl⟩ := eq_of_serialize_eq_some h
  have hall : ∀ x : Fin 256, (UInt8.ofFin x <<< 4) &&& 0x0F = 0 := by decide +kernel
  have hhigh (x : UInt8) : (x <<< 4) &&& 0x0F = 0 := hall x.toFin
  change (((envelope.withDefaults.source &&& 0x03) <<< 4) |||
    (envelope.withDefaults.target &&& 0x03)) &&& 0x0F = _
  have hdistrib (x y z : UInt8) : (x ||| y) &&& z = (x &&& z) ||| (y &&& z) :=
    UInt8.toBitVec_inj.mp BitVec.and_or_distrib_right
  rw [hdistrib, hhigh, UInt8.zero_or, UInt8.and_assoc]
  rfl

/-- **Sent frames.** Whatever the other modules answer, the frame that `sendTo` makes of a payload
goes to the code that is left of the target. -/
theorem always_sentTo_sendTo_iff (targets : UInt8) {envelope : Envelope} {payload : List UInt8}
    (hle : payload.length ≤ maxPayloadLength) (component : UInt8) :
    (sendTo targets envelope payload).Always (SentTo component) (fun _ => True) ↔
      envelope.withDefaults.target &&& 0x03 = component := by
  have hsize : getMessageSizeForPayloadLength payload.length ≠ 0 := by
    rw [getMessageSizeForPayloadLength, if_pos hle]
    exact Nat.succ_ne_zero _
  rw [sendTo, perform_bind]
  constructor
  · intro h
    obtain ⟨bytes, hbytes⟩ := serialize_eq_some hle { envelope with seqNo := 0 }
    have hsent := (h .full).2
    dsimp only at hsent
    rw [if_pos (Or.inl rfl), if_neg hsize] at hsent
    have hnumbered := ((hsent true).2 0).2
    simp only [Program.bind, hbytes] at hnumbered
    exact (target_of_serialize hbytes).symm.trans (hnumbered true).1
  · intro h level
    refine ⟨trivial, ?_⟩
    dsimp only
    by_cases hsends : level = .full ∨ isEssentialFrameType envelope.frameType
    · rw [if_pos hsends, if_neg hsize]
      refine fun allocated => ⟨trivial, ?_⟩
      cases allocated with
      | false => exact fun _ => ⟨trivial, trivial⟩
      | true =>
        refine fun seqNo => ⟨trivial, ?_⟩
        obtain ⟨bytes, hbytes⟩ := serialize_eq_some hle { envelope with seqNo := seqNo }
        simp only [Program.bind, hbytes]
        refine fun success => ⟨(target_of_serialize hbytes).trans h, ?_⟩
        cases success with
        | false => exact fun _ => ⟨trivial, trivial⟩
        | true => trivial
    · rw [if_neg hsends]
      trivial

/-- **Echo replies.** The reply to an echo request goes to the component with the code of its
source if that fits in two bits. -/
theorem always_sentTo_processEchoPacket_iff (message : InboundMessage)
    (hrequest : message.payload.head? = some 0)
    (hle : message.payload.length ≤ maxPayloadLength)
    (hsource : message.envelope.source ≠ Component.unknownComponent) :
    (processEchoPacket message).Always (SentTo message.envelope.source) (fun _ => True) ↔
      message.envelope.source < 4 := by
  have hfits : ∀ code : Fin 256, UInt8.ofFin code &&& 0x03 = UInt8.ofFin code ↔
      UInt8.ofFin code < 4 := by decide +kernel
  obtain ⟨data, hpayload⟩ := List.head?_eq_some_iff.mp hrequest
  rw [hpayload] at hle
  have hle' : (1 :: data : List UInt8).length ≤ maxPayloadLength := hle
  rw [processEchoPacket_eq_sendTo hpayload, always_sentTo_sendTo_iff _ hle',
    Envelope.withDefaults, if_neg hsource]
  exact hfits message.envelope.source.toFin

/-! ### Streams -/

/-- **Accepted frames, written again.** Feed any bytes to a parser that was just reset. Whenever it
reports a frame whose source and target are specified, `serialize` makes the same bytes of the
reported envelope and payload exactly if both codes are less than four; and if the payload is an
echo request, the reply goes to the code of the source exactly if that is less than four. -/
theorem Parser.reserialised_iff (p : Parser) (bs : List UInt8) (ch : UInt8)
    {reported : UInt8} {q : Parser} (hfeed : (p.reset.feedAll bs).feed ch = (reported, q))
    (hreport : reported ≠ 0) (hsource : q.envelope.source ≠ Component.unknownComponent)
    (htarget : q.envelope.target ≠ Component.unknownComponent) :
    ∃ frame, frame <:+ bs ++ [ch] ∧ IsReportOf frame reported q ∧
      (∀ bufferLength, frame.length ≤ bufferLength →
        (serialize bufferLength q.envelope (q.getPayload.take (reported.toNat - 1)) = some frame ↔
          q.envelope.source < 4 ∧ q.envelope.target < 4)) ∧
      ((q.getPayload.take (reported.toNat - 1)).head? = some 0 → ∀ index,
        ((processEchoPacket ⟨index, q.envelope, q.getPayload.take (reported.toNat - 1)⟩).Always
            (SentTo q.envelope.source) (fun _ => True) ↔ q.envelope.source < 4)) := by
  have hframes := (reports_are_frames p bs ch (by rwa [hfeed])).1
  rw [hfeed] at hframes
  obtain ⟨frame, hsuffix, hrep⟩ := hframes
  refine ⟨frame, hsuffix, hrep, fun bufferLength hbuffer =>
    hrep.serialize_iff hsource htarget hbuffer, fun hrequest index => ?_⟩
  have hle := (List.length_take_le (reported.toNat - 1) q.getPayload).trans hrep.payloadLength_le
  exact always_sentTo_processEchoPacket_iff
    ⟨index, q.envelope, q.getPayload.take (reported.toNat - 1)⟩ hrequest hle hsource

/-- An echo request from the ground station, whose codes fit. -/
theorem reserialised_iff_groundStation :
    ∃ frame reported q, (Parser.fresh.reset.feedAll
        [0xCA, 0xFE, 0x07, 0x11, 0x12, 0x02, 0x00, 0x68, 0x44]).feed 0x9A = (reported, q) ∧
      reported = 3 ∧ q.envelope = ⟨7, FrameType.echo, 1, 2⟩ ∧ q.IsReportOf frame reported ∧
      serialize 71 q.envelope (q.getPayload.take 2) = some frame := by
  have hfacts : ((Parser.fresh.reset.feedAll
        [0xCA, 0xFE, 0x07, 0x11, 0x12, 0x02, 0x00, 0x68, 0x44]).feed 0x9A).1 = 3 ∧
      ((Parser.fresh.reset.feedAll
        [0xCA, 0xFE, 0x07, 0x11, 0x12, 0x02, 0x00, 0x68, 0x44]).feed 0x9A).2.envelope =
        ⟨7, FrameType.echo, 1, 2⟩ := by decide +kernel
  rcases hfeed : (Parser.fresh.reset.feedAll
      [0xCA, 0xFE, 0x07, 0x11, 0x12, 0x02, 0x00, 0x68, 0x44]).feed 0x9A with ⟨reported, q⟩
  rw [hfeed] at hfacts
  obtain ⟨hreport, henvelope⟩ : reported = 3 ∧ q.envelope = ⟨7, FrameType.echo, 1, 2⟩ := hfacts
  obtain ⟨frame, hsuffix, hrep, hiff, -⟩ := Parser.reserialised_iff Parser.fresh
    [0xCA, 0xFE, 0x07, 0x11, 0x12, 0x02, 0x00, 0x68, 0x44] 0x9A hfeed (by rw [hreport]; decide)
    (by rw [henvelope]; decide) (by rw [henvelope]; decide)
  refine ⟨frame, reported, q, rfl, hreport, henvelope, hrep, ?_⟩
  subst hreport
  refine (hiff 71 (hsuffix.length_le.trans (by decide))).mpr ?_
  rw [henvelope]
  decide

/-- An echo request from the code 5 is accepted. Written again it comes from the code 1, and the
reply goes there. -/
theorem not_reserialised_code5 :
    Parser.fresh.feedResults [0xCA, 0xFE, 0x07, 0x11, 0x52, 0x02, 0x00, 0x68, 0xF3, 0x8C] =
        List.replicate 9 0 ++ [3] ∧
      (Parser.fresh.feedAll [0xCA, 0xFE, 0x07, 0x11, 0x52, 0x02, 0x00, 0x68, 0xF3, 0x8C]).envelope =
        ⟨7, FrameType.echo, 5, 2⟩ ∧
      (Parser.fresh.feedAll
        [0xCA, 0xFE, 0x07, 0x11, 0x52, 0x02, 0x00, 0x68, 0xF3, 0x8C]).getPayload.take 2 =
        [0x00, 0x68] ∧
      serialize 71 ⟨7, FrameType.echo, 5, 2⟩ [0x00, 0x68] =
        some [0xCA, 0xFE, 0x07, 0x11, 0x12, 0x02, 0x00, 0x68, 0x44, 0x9A] ∧
      ⟨.sendLowLevel 1 FrameType.echo
          [0xCA, 0xFE, 0x00, 0x11, 0x21, 0x02, 0x01, 0x68, 0x72, 0xF6], true⟩ ∈
        (processEchoPacket ⟨0, ⟨7, FrameType.echo, 5, 2⟩, [0x00, 0x68]⟩).trace permissive () := by
  refine ⟨by decide +kernel, by decide +kernel, by decide +kernel, by decide +kernel, ?_⟩
  exact .tail _ (.tail _ (.tail _ (.head _)))

end TellerOBC
