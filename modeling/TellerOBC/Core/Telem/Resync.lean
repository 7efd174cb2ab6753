import Mathlib.Algebra.Group.Nat.Even
import TellerOBC.Core.Telem.RoundTrip

/-!
# Synchronisation after noise

A parser that is fed noise before a message should find the message. The sync matcher compares
the byte after a `0xCA` with `0xFE` and, if it differs, starts over without looking whether that
byte is a `0xCA` itself. So when noise without a sync word ends in a run of bytes `0xCA`, the
parser pairs them up: after an even run it waits for the first sync byte and reads the message,
after an odd run the `0xCA` of the message completes the last pair and the message is lost.

## Main definitions

* `TellerOBC.FirstSyncWordAt`: the first place where the sync word occurs.
* `TellerOBC.trailingSyncBytes`: the number of bytes `0xCA` at the end of the noise.

## Main results

* `TellerOBC.Parser.state_feedAll_noise`: the state of the parser after noise.
* `TellerOBC.Parser.reports_after_noise_iff`: the message after the noise is reported exactly when
  the noise ends in an even number of bytes `0xCA`.
-/

namespace TellerOBC

/-- The two bytes of the sync word stand at the given place. -/
def SyncWordAt (bytes : List UInt8) (i : ℕ) : Prop :=
  bytes[i]? = some 0xCA ∧ bytes[i + 1]? = some 0xFE

/-- The sync word stands at the given place and at no earlier one. -/
def FirstSyncWordAt (bytes : List UInt8) (i : ℕ) : Prop :=
  SyncWordAt bytes i ∧ ∀ j < i, ¬ SyncWordAt bytes j

instance (bytes : List UInt8) (i : ℕ) : Decidable (SyncWordAt bytes i) :=
  inferInstanceAs (Decidable (_ ∧ _))

instance (bytes : List UInt8) (i : ℕ) : Decidable (FirstSyncWordAt bytes i) :=
  inferInstanceAs (Decidable (_ ∧ _))

/-- The number of consecutive bytes `0xCA` at the end of a list. -/
def trailingSyncBytes (bytes : List UInt8) : ℕ :=
  (bytes.reverse.takeWhile (· = 0xCA)).length

theorem trailingSyncBytes_concat_sync (bytes : List UInt8) :
    trailingSyncBytes (bytes ++ [0xCA]) = trailingSyncBytes bytes + 1 := by
  simp [trailingSyncBytes]

theorem trailingSyncBytes_concat_of_ne {ch : UInt8} (h : ch ≠ 0xCA) (bytes : List UInt8) :
    trailingSyncBytes (bytes ++ [ch]) = 0 := by
  simp [trailingSyncBytes, h]

namespace Parser

/-- The parser, fed the bytes, reports at the last one a message with the given envelope and
payload. -/
structure ReportsAtEnd (p : Parser) (bytes : List UInt8) (envelope : Envelope)
    (payload : List UInt8) : Prop where
  result : (p.feedResults bytes).getLast? = some (UInt8.ofNat (payload.length + 1))
  envelope : (p.feedAll bytes).envelope = envelope
  payload : (p.feedAll bytes).getPayload.take payload.length = payload

/-! ### The state after noise -/

variable {p : Parser} {ch : UInt8}

theorem feed_sync_of_waiting (hs : p.state = .waitingSyncByte1) :
    (p.feed 0xCA).2.state = .waitingSyncByte2 := by
  have hstep : p.feedInternal 0xCA = (.waitingSyncByte2, p.reset.store 0xCA) := by
    simp only [feedInternal, hs, ↓reduceIte]
  rw [feed_of_ne_done hstep (by simp)]

theorem feed_other_of_waiting (hs : p.state = .waitingSyncByte1) (hch : ch ≠ 0xCA) :
    (p.feed ch).2.state = .waitingSyncByte1 := by
  have hstep : p.feedInternal ch = (.waitingSyncByte1, p) := by
    simp only [feedInternal, hs, hch, ↓reduceIte]
  rw [feed_of_ne_done hstep (by simp)]

/-- The slip: a `0xCA` after a `0xCA` is not taken for the start of a sync word. -/
theorem feed_of_waitingSyncByte2 (hs : p.state = .waitingSyncByte2) (hch : ch ≠ 0xFE) :
    (p.feed ch).2.state = .waitingSyncByte1 := by
  have hstep : p.feedInternal ch = (.waitingSyncByte1, p) := by
    simp only [feedInternal, hs, hch, ↓reduceIte]
  rw [feed_of_ne_done hstep (by simp)]

/-- Noise that ends in a `0xCA` is not continued by `0xFE` if it is free of sync words. -/
theorem ne_of_not_syncWordAt {noise : List UInt8} (hpos : 0 < trailingSyncBytes noise)
    (h : ∀ i < noise.length, ¬ SyncWordAt (noise ++ [ch]) i) : ch ≠ 0xFE := by
  rintro rfl
  rcases List.eq_nil_or_concat noise with rfl | ⟨front, last, rfl⟩
  · exact absurd hpos (Nat.lt_irrefl 0)
  · by_cases hlast : last = 0xCA
    · subst hlast
      refine h front.length (by simp) ⟨?_, ?_⟩ <;> simp
    · rw [List.concat_eq_append, trailingSyncBytes_concat_of_ne hlast] at hpos
      exact absurd hpos (Nat.lt_irrefl 0)

/-- **The state after noise.** A waiting parser that is fed noise without a sync word has paired
up the bytes `0xCA` at the end of the noise. -/
theorem state_feedAll_noise (hs : p.state = .waitingSyncByte1) (noise : List UInt8)
    (h : ∀ i, ¬ SyncWordAt noise i) :
    (p.feedAll noise).state =
      if Even (trailingSyncBytes noise) then .waitingSyncByte1 else .waitingSyncByte2 := by
  induction noise using List.reverseRecOn with
  | nil => simpa [trailingSyncBytes] using hs
  | append_singleton noise ch ih =>
    have hfront : ∀ i, ¬ SyncWordAt noise i := by
      rintro i ⟨h0, h1⟩
      have hi : i + 1 < noise.length := (List.getElem?_eq_some_iff.mp h1).1
      refine h i ⟨?_, ?_⟩
      · rw [List.getElem?_append_left (by omega), h0]
      · rw [List.getElem?_append_left hi, h1]
    have hstate := ih hfront
    rw [feedAll_concat]
    by_cases heven : Even (trailingSyncBytes noise)
    · rw [if_pos heven] at hstate
      by_cases hch : ch = 0xCA
      · subst hch
        rw [feed_sync_of_waiting hstate, trailingSyncBytes_concat_sync,
          if_neg fun h => Nat.even_add_one.mp h heven]
      · rw [feed_other_of_waiting hstate hch, trailingSyncBytes_concat_of_ne hch,
          if_pos Even.zero]
    · rw [if_neg heven] at hstate
      have hpos : 0 < trailingSyncBytes noise :=
        Nat.pos_of_ne_zero fun h0 => heven (h0 ▸ Even.zero)
      have hne : ch ≠ 0xFE := ne_of_not_syncWordAt hpos fun i _ => h i
      rw [feed_of_waitingSyncByte2 hstate hne]
      by_cases hch : ch = 0xCA
      · subst hch
        rw [trailingSyncBytes_concat_sync,
          if_pos (Nat.even_add_one.mpr heven)]
      · rw [trailingSyncBytes_concat_of_ne hch, if_pos Even.zero]

/-! ### The message after the noise -/

/-- A parser that has read the `0xFE` of the frame while it waited for a first sync byte has the
rest of the frame left, which is too short for a report about the frame. -/
theorem not_report_of_rest {n : ℕ} {rest : List UInt8} (hs : p.state = .waitingSyncByte1)
    (hlen : rest.length < n + 8) (hle : n ≤ maxPayloadLength) :
    (p.feedResults rest).getLast? ≠ some (UInt8.ofNat (n + 1)) := by
  intro hresult
  rcases List.eq_nil_or_concat rest with rfl | ⟨front, last, rfl⟩
  · simp [feedResults] at hresult
  · rw [List.concat_eq_append] at hlen hresult
    simp only [feedResults_append, feedResults, List.getLast?_append, List.getLast?_singleton,
      Option.some_or, Option.some.injEq] at hresult
    have hn : (UInt8.ofNat (n + 1)).toNat = n + 1 := by
      simp only [maxPayloadLength] at hle
      rw [UInt8.toNat_ofNat']
      omega
    have hne : ((p.feedAll front).feed last).1 ≠ 0 := by
      intro h0
      rw [← hresult, h0] at hn
      exact absurd hn (Nat.succ_ne_zero n).symm
    obtain ⟨frame, hsuffix, hreport⟩ := (tracks_of_waiting [] hs).report hne
    have hlen' := hreport.length_eq
    rw [hresult, hn] at hlen'
    have hle' := hsuffix.length_le
    simp only [List.nil_append] at hle'
    omega

variable {n : ℕ} {noise frame : List UInt8}

/-- After an odd run of bytes `0xCA` the sync word of the frame is missed. -/
theorem not_report_of_waitingSyncByte2 (hs : p.state = .waitingSyncByte2)
    (hframe : WellFormedFrame n frame) :
    (p.feedResults frame).getLast? ≠ some (UInt8.ofNat (n + 1)) := by
  have hfirst : (p.feed 0xCA).2.state = .waitingSyncByte1 :=
    feed_of_waitingSyncByte2 hs (by decide)
  have hsecond : ((p.feed 0xCA).2.feed 0xFE).2.state = .waitingSyncByte1 :=
    feed_other_of_waiting hfirst (by decide)
  have hlen := hframe.length_eq
  have hsplit : p.feedResults frame = [(p.feed 0xCA).1, ((p.feed 0xCA).2.feed 0xFE).1] ++
      ((p.feed 0xCA).2.feed 0xFE).2.feedResults (frame.drop 2) := by
    conv_lhs => rw [hframe.eq_cons]
    rfl
  have hne : ((p.feed 0xCA).2.feed 0xFE).2.feedResults (frame.drop 2) ≠ [] := by
    rw [List.drop_eq_getElem_cons (by omega)]
    simp [feedResults]
  rw [hsplit, List.getLast?_append_of_ne_nil _ hne]
  refine not_report_of_rest hsecond ?_ hframe.le_max
  rw [List.length_drop]
  omega

/-- **Synchronisation after noise.** Feed a parser that was just reset some noise and a message
whose sync word is the first one of the stream. The message is reported at its last byte exactly
when the noise ends in an even number of bytes `0xCA`. -/
theorem reports_after_noise_iff (p : Parser) {noise frame payload : List UInt8}
    {envelope : Envelope} (hrange : envelope.InRange) {bufferLength : ℕ}
    (hframe : serialize bufferLength envelope payload = some frame)
    (hfirst : FirstSyncWordAt (noise ++ frame) noise.length) :
    p.reset.ReportsAtEnd (noise ++ frame) envelope.withDefaults payload ↔
      Even (trailingSyncBytes noise) := by
  have hwell := wellFormedFrame_of_serialize hframe
  have hlen := hwell.length_eq
  have hfree : ∀ i, ¬ SyncWordAt noise i := by
    rintro i ⟨h0, h1⟩
    have hi : i + 1 < noise.length := (List.getElem?_eq_some_iff.mp h1).1
    refine hfirst.2 i (by omega) ⟨?_, ?_⟩
    · rw [List.getElem?_append_left (by omega), h0]
    · rw [List.getElem?_append_left hi, h1]
  have hstate := state_feedAll_noise (p := p.reset) rfl noise hfree
  have hne : (p.reset.feedAll noise).feedResults frame ≠ [] := by
    rw [hwell.eq_cons]
    simp [feedResults]
  have hlast : (p.reset.feedResults (noise ++ frame)).getLast? =
      ((p.reset.feedAll noise).feedResults frame).getLast? := by
    rw [feedResults_append, List.getLast?_append_of_ne_nil _ hne]
  constructor
  · intro hreports
    by_contra hodd
    rw [if_neg hodd] at hstate
    exact not_report_of_waitingSyncByte2 hstate hwell (hlast ▸ hreports.result)
  · intro heven
    rw [if_pos heven] at hstate
    obtain ⟨hresults, -, hreport⟩ := feed_frame hstate hwell
    obtain ⟨henvelope, hpayload⟩ := report_serialize hrange hframe hreport
    rw [← feedAll_append] at henvelope hpayload
    refine ⟨?_, henvelope, hpayload⟩
    rw [hlast, hresults]
    simp

/-- A heartbeat without payload is lost after a single byte `0xCA`. -/
theorem heartbeat_lost_after_syncByte :
    serialize 71 ⟨1, FrameType.heartbeat, 2, 1⟩ [] =
        some [0xCA, 0xFE, 0x01, 0x01, 0x21, 0x00, 0xEF, 0xAC] ∧
      FirstSyncWordAt ([0xCA] ++ [0xCA, 0xFE, 0x01, 0x01, 0x21, 0x00, 0xEF, 0xAC]) 1 ∧
      ¬ fresh.reset.ReportsAtEnd ([0xCA] ++ [0xCA, 0xFE, 0x01, 0x01, 0x21, 0x00, 0xEF, 0xAC])
        ⟨1, FrameType.heartbeat, 2, 1⟩ [] :=
  ⟨by decide, by decide, fun h => absurd h.result (by decide)⟩

/-- After two bytes `0xCA` the heartbeat is reported exactly as the parity says. -/
theorem reports_after_noise_iff_heartbeat :
    fresh.reset.ReportsAtEnd
        ([0xCA, 0xCA] ++ [0xCA, 0xFE, 0x01, 0x01, 0x21, 0x00, 0xEF, 0xAC])
        ⟨1, FrameType.heartbeat, 2, 1⟩ [] ↔
      Even (trailingSyncBytes [0xCA, 0xCA]) :=
  have hrange : Envelope.InRange ⟨1, FrameType.heartbeat, 2, 1⟩ := ⟨by decide, by decide⟩
  have hframe : serialize 71 ⟨1, FrameType.heartbeat, 2, 1⟩ [] =
      some [0xCA, 0xFE, 0x01, 0x01, 0x21, 0x00, 0xEF, 0xAC] := by decide
  reports_after_noise_iff fresh hrange hframe (by decide)

end Parser

end TellerOBC
