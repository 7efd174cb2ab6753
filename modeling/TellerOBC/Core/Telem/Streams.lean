import TellerOBC.Core.Telem.Resync

/-!
# Streams of messages

A stream of messages with noise between them, as the receiving tasks of `modules/uart_rx.cpp` feed
it to their parsers: whenever `feed` returns a length, the envelope and the payload are passed on.
If no noise has a sync word or an odd number of bytes `0xCA` at its end, then the messages of the
stream are passed on, each once and in order, and nothing else.

## Main definitions

* `TellerOBC.Parser.reports`: the messages that a parser finds in a list of bytes.
* `TellerOBC.Segment`: noise and a message.

## Main results

* `TellerOBC.Parser.reports_stream`: the messages of a stream.
-/

namespace TellerOBC

namespace Parser

/-- The messages that are passed on when bytes are fed to a parser in order, with their envelopes
and payloads. -/
def reports : Parser → List UInt8 → List (Envelope × List UInt8)
  | _, [] => []
  | p, ch :: bytes =>
    let r := p.feed ch
    if r.1 ≠ 0 then (r.2.envelope, r.2.getPayload.take (r.1.toNat - 1)) :: r.2.reports bytes
    else r.2.reports bytes

theorem reports_append (p : Parser) (xs ys : List UInt8) :
    p.reports (xs ++ ys) = p.reports xs ++ (p.feedAll xs).reports ys := by
  induction xs generalizing p with
  | nil => rfl
  | cons ch xs ih =>
    simp only [List.cons_append, reports, feedAll_cons, ih]
    split_ifs
    · rfl
    · rfl

/-- Bytes that are all answered with zero. -/
theorem reports_of_feedResults_eq {p : Parser} {bytes : List UInt8} {k : ℕ}
    (h : p.feedResults bytes = List.replicate k 0) : p.reports bytes = [] := by
  induction bytes generalizing p k with
  | nil => rfl
  | cons ch bytes ih =>
    cases k with
    | zero => cases h
    | succ k =>
      obtain ⟨hzero, hrest⟩ := List.cons.inj h
      rw [reports]
      simp only [hzero, ne_eq, not_true_eq_false, if_false]
      exact ih hrest

/-- A parser that has not found a sync word answers zero. -/
theorem feed_fst_of_waiting {p : Parser} {ch : UInt8}
    (hs : p.state = .waitingSyncByte1 ∨ p.state = .waitingSyncByte2) : (p.feed ch).1 = 0 := by
  have hne : (p.feedInternal ch).1 ≠ .done := by
    rcases hs with hs | hs <;> simp only [feedInternal, hs] <;> split_ifs <;> simp
  rw [feed_of_ne_done rfl hne]

/-- Nothing is found in noise. -/
theorem reports_noise {p : Parser} (hs : p.state = .waitingSyncByte1) {noise : List UInt8}
    (h : ∀ i, ¬SyncWordAt noise i) : p.reports noise = [] := by
  induction noise using List.reverseRecOn with
  | nil => rfl
  | append_singleton noise ch ih =>
    have hfront : ∀ i, ¬SyncWordAt noise i := by
      rintro i ⟨h0, h1⟩
      have hi : i + 1 < noise.length := (List.getElem?_eq_some_iff.mp h1).1
      refine h i ⟨?_, ?_⟩
      · rw [List.getElem?_append_left (by omega), h0]
      · rw [List.getElem?_append_left hi, h1]
    have hwaiting : (p.feedAll noise).state = .waitingSyncByte1 ∨
        (p.feedAll noise).state = .waitingSyncByte2 := by
      rw [state_feedAll_noise hs noise hfront]
      split_ifs
      · exact Or.inl rfl
      · exact Or.inr rfl
    rw [reports_append, ih hfront, reports]
    simp only [feed_fst_of_waiting hwaiting, ne_eq, not_true_eq_false, if_false]
    rfl

/-- Bytes that are answered with zero but for the last one. -/
theorem reports_of_feedResults_eq_concat {p : Parser} {bytes : List UInt8} {k : ℕ} {n : UInt8}
    (h : p.feedResults bytes = List.replicate k 0 ++ [n]) (hn : n ≠ 0) :
    p.reports bytes =
      [((p.feedAll bytes).envelope, (p.feedAll bytes).getPayload.take (n.toNat - 1))] := by
  rcases List.eq_nil_or_concat bytes with rfl | ⟨front, last, rfl⟩
  · exact absurd (congrArg List.length h) (by simp [feedResults])
  · rw [List.concat_eq_append] at h ⊢
    rw [feedResults_append] at h
    obtain ⟨hfront, hlast⟩ := List.append_inj' h rfl
    have hresult : ((p.feedAll front).feed last).1 = n := (List.cons.inj hlast).1
    rw [reports_append, reports_of_feedResults_eq hfront, feedAll_append, reports]
    simp only [hresult, if_pos hn]
    rfl

/-- A message of `serialize` is found where it ends. -/
theorem reports_serialize {p : Parser} (hs : p.state = .waitingSyncByte1) {envelope : Envelope}
    (hrange : envelope.InRange) {bufferLength : ℕ} {payload frame : List UInt8}
    (hframe : serialize bufferLength envelope payload = some frame) :
    p.reports frame = [(envelope.withDefaults, payload)] ∧
      (p.feedAll frame).state = .waitingSyncByte1 := by
  have hwell := wellFormedFrame_of_serialize hframe
  have hle := hwell.le_max
  simp only [maxPayloadLength] at hle
  obtain ⟨hresults, hstate, hreport⟩ := feed_frame hs hwell
  obtain ⟨henvelope, hpayload⟩ := report_serialize hrange hframe hreport
  have hn : (UInt8.ofNat (payload.length + 1)).toNat = payload.length + 1 := by
    rw [UInt8.toNat_ofNat']
    omega
  have hne : UInt8.ofNat (payload.length + 1) ≠ 0 := fun hzero => by
    rw [hzero] at hn
    exact absurd hn (Nat.succ_ne_zero _).symm
  refine ⟨?_, hstate⟩
  rw [reports_of_feedResults_eq_concat hresults hne, hn, Nat.add_sub_cancel, henvelope, hpayload]

end Parser

/-- Noise that does not get in the way of the message behind it, and the message. -/
structure Segment where
  noise : List UInt8
  envelope : Envelope
  payload : List UInt8
  frame : List UInt8
  noSyncWord : ∀ i, ¬SyncWordAt noise i
  even : Even (trailingSyncBytes noise)
  inRange : envelope.InRange
  serialized : ∃ bufferLength, serialize bufferLength envelope payload = some frame

/-- The bytes of a segment. -/
def Segment.bytes (s : Segment) : List UInt8 := s.noise ++ s.frame

namespace Parser

/-- The message of a segment is found, and the parser waits for the next one. -/
theorem reports_segment {p : Parser} (hs : p.state = .waitingSyncByte1) (s : Segment) :
    p.reports s.bytes = [(s.envelope.withDefaults, s.payload)] ∧
      (p.feedAll s.bytes).state = .waitingSyncByte1 := by
  obtain ⟨bufferLength, hframe⟩ := s.serialized
  have hnoise := state_feedAll_noise hs s.noise s.noSyncWord
  rw [if_pos s.even] at hnoise
  obtain ⟨hreports, hstate⟩ := reports_serialize hnoise s.inRange hframe
  rw [Segment.bytes, reports_append, reports_noise hs s.noSyncWord, feedAll_append]
  exact ⟨hreports, hstate⟩

/-- Segments one after the other. -/
theorem reports_segments {p : Parser} (hs : p.state = .waitingSyncByte1) (segments : List Segment) :
    p.reports (segments.flatMap Segment.bytes) =
        segments.map (fun s => (s.envelope.withDefaults, s.payload)) ∧
      (p.feedAll (segments.flatMap Segment.bytes)).state = .waitingSyncByte1 := by
  induction segments generalizing p with
  | nil => exact ⟨rfl, hs⟩
  | cons s segments ih =>
    obtain ⟨hreports, hstate⟩ := reports_segment hs s
    obtain ⟨hrest, hend⟩ := ih hstate
    rw [List.flatMap_cons, reports_append, hreports, hrest, feedAll_append]
    exact ⟨rfl, hend⟩

/-- **The messages of a stream.** From a stream of messages, with noise before each of them and
after the last one, that has no sync word and, before a message, no odd number of bytes `0xCA` at
its end, a parser that waits for the first sync byte, with anything in its buffer, passes on exactly
the messages, each once and in order, with their envelopes and payloads. -/
theorem reports_stream {p : Parser} (hs : p.state = .waitingSyncByte1) (segments : List Segment)
    {noise : List UInt8} (hnoise : ∀ i, ¬SyncWordAt noise i) :
    p.reports (segments.flatMap Segment.bytes ++ noise) =
      segments.map fun s => (s.envelope.withDefaults, s.payload) := by
  obtain ⟨hreports, hstate⟩ := reports_segments hs segments
  rw [reports_append, hreports, reports_noise hstate hnoise, List.append_nil]

/-- Two bytes `0xCA` before a heartbeat. -/
def heartbeatSegment : Segment where
  noise := [0xCA, 0xCA]
  envelope := ⟨1, FrameType.heartbeat, 2, 1⟩
  payload := []
  frame := [0xCA, 0xFE, 0x01, 0x01, 0x21, 0x00, 0xEF, 0xAC]
  noSyncWord := by
    rintro (_ | _ | i) ⟨-, h⟩
    · exact absurd h (by decide)
    · exact absurd h (by decide)
    · exact absurd h (by simp)
  even := by decide
  inRange := ⟨by decide, by decide⟩
  serialized := ⟨71, by decide⟩

/-- Two heartbeats are found between bytes `0xCA` and before a byte `0xCA` at the end. -/
theorem reports_stream_heartbeats :
    fresh.reports ([heartbeatSegment, heartbeatSegment].flatMap Segment.bytes ++ [0xCA]) =
      [(⟨1, FrameType.heartbeat, 2, 1⟩, []), (⟨1, FrameType.heartbeat, 2, 1⟩, [])] :=
  reports_stream rfl [heartbeatSegment, heartbeatSegment] fun i h => absurd h.2 (by simp)

end Parser

end TellerOBC
