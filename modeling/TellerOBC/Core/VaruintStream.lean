import TellerOBC.Core.VaruintRoundTrip

/-!
# Variable-length integers in a stream

The incremental decoder of `core/utils/varuint.c` reads a stream one byte at a time, and starts
again with every byte that has its most significant bit clear. Its state is compared with the end of
the stream: either the decoder expects no continuation byte, or the stream ends with the start of a
number, whose bits the decoder has put together.

## Main definitions

* `TellerOBC.VaruintDecoder.feedAll`: the decoder after a stream.
* `TellerOBC.VaruintDecoder.Tracks`: the state belongs to the end of the stream.
* `TellerOBC.VaruintDecoder.Completes`: the stream ends with the number that the decoder has read.

## Main results

* `TellerOBC.Varuint.isVaruint`: the incremental decoder on the bytes of a number.
* `TellerOBC.isVaruint_encodeOverlong`: the incremental decoder gets back what was encoded.
* `TellerOBC.VaruintDecoder.Tracks.feed`: the incremental decoder on a byte of a stream.
* `TellerOBC.feed_iff_decodeOverlong`: the two decoders agree.
-/

namespace TellerOBC

open CheckedMemory

/-! ### Incremental decoding -/

namespace VaruintDecoder

variable {d : VaruintDecoder}

/-- The decoder after bytes. -/
def feedAll (d : VaruintDecoder) (bytes : List UInt8) : VaruintDecoder :=
  bytes.foldl (fun d ch => (d.feed ch).2) d

/-- A byte with its most significant bit clear starts a number, whatever came before. -/
theorem feed_of_clear {ch : UInt8} (hch : ch &&& 0x80 = 0) :
    d.feed ch = (decide (markerIndex ch = 0),
      ⟨UInt32.ofNat (payload ch), UInt8.ofNat (markerIndex ch), 1⟩) := by
  rw [feed, if_pos hch, ← toUInt32_payload]
  exact if_neg (first_spec ch hch).2.1

/-- A continuation byte that is not expected is dropped. -/
theorem feed_of_bytesLeft_eq_zero {ch : UInt8} (hch : ch &&& 0x80 ≠ 0) (hleft : d.bytesLeft = 0) :
    d.feed ch = (false, d) := by
  rw [feed, if_neg hch, hleft]
  exact if_neg (by decide)

/-- A continuation byte that is expected. -/
theorem feed_of_set {ch : UInt8} (hch : ch &&& 0x80 ≠ 0) (x i : ℕ) (read : UInt8) (hi : i < 255) :
    feed ⟨UInt32.ofNat x, UInt8.ofNat (i + 1), read⟩ ch =
      (decide (i = 0), ⟨UInt32.ofNat (x * 128 + ch.toNat % 128), UInt8.ofNat i, read + 1⟩) := by
  have hpos : UInt8.ofNat (i + 1) > 0 := by
    rw [gt_iff_lt, UInt8.lt_iff_toNat_lt, UInt8.toNat_ofNat']
    change 0 < (i + 1) % 256
    omega
  have hpred : UInt8.ofNat (i + 1) - 1 = UInt8.ofNat i := by
    rw [UInt8.ofNat_add]
    exact UInt8.add_sub_cancel _ _
  have hzero : (UInt8.ofNat i = 0) = (i = 0) := by
    rw [← UInt8.toNat_inj, UInt8.toNat_ofNat', eq_iff_iff]
    change i % 256 = 0 ↔ i = 0
    omega
  rw [feed, if_neg hch]
  dsimp only
  rw [if_pos hpos, hpred, toUInt32_continuation,
    shift_or_ofNat x (Nat.mod_lt ch.toNat (show 128 > 0 by decide))]
  simp only [hzero]

/-- Continuation bytes before the last one. -/
theorem feeds_continuation {bytes : List UInt8} (hset : ∀ ch ∈ bytes, ch &&& 0x80 ≠ 0) (x i : ℕ)
    (read : UInt8) (hlength : bytes.length + i < 255) :
    Feeds ⟨UInt32.ofNat x, UInt8.ofNat (bytes.length + i + 1), read⟩ bytes
      ⟨UInt32.ofNat (appendDigits x bytes), UInt8.ofNat (i + 1),
        read + UInt8.ofNat bytes.length⟩ := by
  induction bytes generalizing x read with
  | nil =>
    rw [List.length_nil, Nat.zero_add, show read + UInt8.ofNat 0 = read from UInt8.add_zero read]
    exact .nil _
  | cons ch bytes ih =>
    obtain ⟨hch, hrest⟩ := List.forall_mem_cons.mp hset
    rw [List.length_cons] at hlength ⊢
    have hread : read + 1 + UInt8.ofNat bytes.length = read + UInt8.ofNat (bytes.length + 1) := by
      rw [UInt8.ofNat_add]
      grind
    have htail := ih hrest (x * 128 + ch.toNat % 128) (read + 1) (by omega)
    rw [hread] at htail
    refine .cons ?_ htail
    rw [Nat.add_right_comm bytes.length 1 i, feed_of_set hch _ _ _ (by omega)]
    rfl

end VaruintDecoder

/-- From every state, the incremental decoder completes a number with its last byte and not
before. -/
theorem Varuint.isVaruint (n : Varuint) : IsVaruint n.bytes n.value n.overlong := by
  have hindex := n.length_eq
  have hlt := (first_spec n.first n.first_clear).1
  obtain hnil | ⟨bytes, last, hcontinuation⟩ := n.continuation.eq_nil_or_concat'
  · rw [hnil] at hindex
    refine ⟨[], n.first, by rw [Varuint.bytes, hnil]; rfl, fun d => ⟨d, ⟨n.value, 0, 1⟩, .nil d, ?_,
      rfl, ?_⟩⟩
    · rw [VaruintDecoder.feed_of_clear n.first_clear, ← hindex, Varuint.value, Varuint.number, hnil]
      rfl
    · rw [Varuint.overlong, ← hindex]
      rfl
  · have hset := n.continuation_set
    rw [hcontinuation] at hset hindex
    rw [List.length_append, List.length_singleton] at hindex
    have hlast := hset last (List.mem_append_right _ (List.mem_singleton_self _))
    refine ⟨n.first :: bytes, last, by rw [Varuint.bytes, hcontinuation]; rfl, fun d =>
      ⟨⟨UInt32.ofNat (appendDigits (payload n.first) bytes), 1, 1 + UInt8.ofNat bytes.length⟩,
        ⟨n.value, 0, 1 + UInt8.ofNat bytes.length + 1⟩, ?_, ?_, rfl, ?_⟩⟩
    · refine .cons ?_ (VaruintDecoder.feeds_continuation
        (fun ch hch => hset ch (List.mem_append_left _ hch)) _ 0 1 (by omega))
      rw [VaruintDecoder.feed_of_clear n.first_clear, ← hindex]
      rfl
    · rw [Varuint.value, Varuint.number, hcontinuation, appendDigits_append]
      exact VaruintDecoder.feed_of_set hlast _ 0 _ (by decide)
    · have hread : 1 + UInt8.ofNat bytes.length + 1 = UInt8.ofNat (markerIndex n.first + 1) := by
        rw [← hindex, UInt8.ofNat_add, UInt8.ofNat_add]
        grind
      rw [VaruintDecoder.getOverlong, hread, Varuint.overlong]

/-- **Round trip.** Where the overlong form of a value has at most eight bytes, the incremental
decoder gets back the value and the overlong count from it. -/
theorem isVaruint_encodeOverlong (value : UInt32) (overlong : UInt8)
    (hsize : thresholdIndex value + overlong.toNat + 1 ≤ 8) :
    IsVaruint (varuintEncodeOverlong value overlong) value overlong := by
  obtain ⟨n, hbytes, hvalue, hoverlong⟩ := exists_varuint_of_encode value overlong hsize
  have hn := n.isVaruint
  rwa [hbytes, hvalue, hoverlong] at hn

namespace VaruintDecoder

/-- The decoder expects no more bytes, or the stream ends with the start of the number whose bytes
it is collecting. -/
def Tracks (d : VaruintDecoder) (stream : List UInt8) : Prop :=
  d.bytesLeft = 0 ∨ ∃ (before : List UInt8) (first : UInt8) (bytes : List UInt8) (i : ℕ),
    stream = before ++ first :: bytes ∧ first &&& 0x80 = 0 ∧ (∀ ch ∈ bytes, ch &&& 0x80 ≠ 0) ∧
    bytes.length + (i + 1) = markerIndex first ∧
    d = ⟨UInt32.ofNat (appendDigits (payload first) bytes), UInt8.ofNat (i + 1),
      UInt8.ofNat (bytes.length + 1)⟩

/-- The stream ends with a number, and the decoder has read it. -/
def Completes (d : VaruintDecoder) (stream : List UInt8) : Prop :=
  ∃ (before : List UInt8) (n : Varuint), stream = before ++ n.bytes ∧
    d.bytesRead.toNat = n.bytes.length ∧ d.getValue = n.value ∧ d.getOverlong = n.overlong

theorem completes_append (n : Varuint) (left : UInt8) (before : List UInt8) :
    Completes ⟨n.value, left, UInt8.ofNat (markerIndex n.first + 1)⟩ (before ++ n.bytes) := by
  have hlt := (first_spec n.first n.first_clear).1
  refine ⟨before, n, rfl, ?_, rfl, rfl⟩
  rw [n.length_bytes, UInt8.toNat_ofNat']
  exact Nat.mod_eq_of_lt (by omega)

/-- The first byte of a number. -/
theorem tracks_feed_of_clear {ch : UInt8} (hch : ch &&& 0x80 = 0) (d : VaruintDecoder)
    (stream : List UInt8) :
    (d.feed ch).2.Tracks (stream ++ [ch]) ∧
      ((d.feed ch).1 = true → (d.feed ch).2.Completes (stream ++ [ch])) := by
  rw [feed_of_clear hch]
  rcases hindex : markerIndex ch with _ | i
  · let n : Varuint := ⟨ch, [], hch, List.forall_mem_nil _, hindex.symm⟩
    have hcompletes := completes_append n (UInt8.ofNat 0) stream
    rw [show markerIndex n.first = 0 from hindex] at hcompletes
    exact ⟨.inl rfl, fun _ => hcompletes⟩
  · refine ⟨.inr ⟨stream, ch, [], i, rfl, hch, List.forall_mem_nil _, ?_, rfl⟩, fun hdone => ?_⟩
    · rw [List.length_nil, Nat.zero_add, hindex]
    · exact absurd (of_decide_eq_true hdone) (Nat.succ_ne_zero i)

/-- A byte more. -/
theorem Tracks.feed {d : VaruintDecoder} {stream : List UInt8} (h : d.Tracks stream) (ch : UInt8) :
    (d.feed ch).2.Tracks (stream ++ [ch]) ∧
      ((d.feed ch).1 = true → (d.feed ch).2.Completes (stream ++ [ch])) := by
  by_cases hch : ch &&& 0x80 = 0
  · exact tracks_feed_of_clear hch d stream
  obtain hleft | ⟨before, first, bytes, i, rfl, hfirst, hset, hlength, rfl⟩ := h
  · rw [feed_of_bytesLeft_eq_zero hch hleft]
    exact ⟨.inl hleft, fun hdone => absurd hdone Bool.false_ne_true⟩
  have hlt := (first_spec first hfirst).1
  have hstream : before ++ first :: bytes ++ [ch] = before ++ first :: (bytes ++ [ch]) :=
    List.append_assoc ..
  have hsets : ∀ c ∈ bytes ++ [ch], c &&& 0x80 ≠ 0 :=
    List.forall_mem_append.mpr ⟨hset, List.forall_mem_singleton.mpr hch⟩
  have hread : UInt8.ofNat (bytes.length + 1) + 1 = UInt8.ofNat (bytes.length + 2) := by
    rw [UInt8.ofNat_add, UInt8.ofNat_add, UInt8.add_assoc]
    rfl
  rw [feed_of_set hch _ _ _ (by omega), ← appendDigits_append, hread, hstream]
  rcases i with _ | i
  · let n : Varuint := ⟨first, bytes ++ [ch], hfirst, hsets, by
      rw [List.length_append, List.length_singleton, ← hlength]⟩
    have hcompletes := completes_append n (UInt8.ofNat 0) before
    rw [show markerIndex n.first = bytes.length + 1 from hlength.symm] at hcompletes
    exact ⟨.inl rfl, fun _ => hcompletes⟩
  · refine ⟨.inr ⟨before, first, bytes ++ [ch], i, rfl, hfirst, hsets, ?_, ?_⟩, fun hdone => ?_⟩
    · rw [List.length_append, List.length_singleton]
      omega
    · rw [List.length_append, List.length_singleton]
    · exact absurd (of_decide_eq_true hdone) (Nat.succ_ne_zero i)

theorem Tracks.feedAll {d : VaruintDecoder} {stream : List UInt8} (h : d.Tracks stream)
    (bytes : List UInt8) : (d.feedAll bytes).Tracks (stream ++ bytes) := by
  induction bytes generalizing d stream with
  | nil => rwa [List.append_nil]
  | cons ch bytes ih =>
    have hrest := ih (h.feed ch).1
    rwa [List.append_assoc] at hrest

end VaruintDecoder

/-- **The two decoders agree.** From every state, the incremental decoder completes a number that
`varuint_decode_overlong` accepts with its last byte and not before. Whenever it completes a number
in a stream, `varuint_decode_overlong` accepts the bytes that it has read, whatever comes behind
them. Both give the same value and overlong count. -/
theorem feed_iff_decodeOverlong :
    (∀ (buf : List UInt8) (value : UInt32) (overlong : UInt8) (d : VaruintDecoded),
      varuintDecodeOverlong buf value overlong = .ok d → 1 ≤ d.consumed →
        IsVaruint (buf.take d.consumed) d.value d.overlong) ∧
    ∀ (stream : List UInt8) (ch : UInt8) (d : VaruintDecoder),
      (VaruintDecoder.reset.feedAll stream).feed ch = (true, d) →
        ∃ before bytes, stream ++ [ch] = before ++ bytes ∧ bytes.length = d.bytesRead.toNat ∧
          ∀ (tail : List UInt8) (value : UInt32) (overlong : UInt8),
            varuintDecodeOverlong (bytes ++ tail) value overlong =
              .ok ⟨bytes.length, d.getValue, d.getOverlong⟩ := by
  refine ⟨fun buf value overlong d hdecode hpos => ?_, fun stream ch d hfeed => ?_⟩
  · obtain ⟨n, tail, rfl, rfl⟩ | ⟨-, rfl⟩ := varuintDecodeOverlong_eq_ok hdecode
    · rw [Varuint.decoded, List.take_left]
      exact n.isVaruint
    · exact absurd hpos (Nat.not_succ_le_zero 0)
  · have htracks : VaruintDecoder.reset.Tracks [] := .inl rfl
    obtain ⟨-, hcompletes⟩ := (htracks.feedAll stream).feed ch
    rw [hfeed] at hcompletes
    obtain ⟨before, n, hstream, hread, hvalue, hoverlong⟩ := hcompletes rfl
    refine ⟨before, n.bytes, hstream, hread.symm, fun tail value overlong => ?_⟩
    rw [varuintDecodeOverlong_append, Varuint.decoded, hvalue, hoverlong]

/-- The first overlong form of 4, and the stream of its bytes behind an incomplete number. -/
theorem feed_iff_decodeOverlong_apply :
    IsVaruint [0x40, 0x84] 4 1 ∧
    ∃ before bytes, [0x60, 0x40] ++ [0x84] = before ++ bytes ∧ bytes.length = (2 : UInt8).toNat ∧
      ∀ (tail : List UInt8) (value : UInt32) (overlong : UInt8),
        varuintDecodeOverlong (bytes ++ tail) value overlong = .ok ⟨bytes.length, 4, 1⟩ :=
  ⟨feed_iff_decodeOverlong.1 [0x40, 0x84, 0xFF] 0 0 ⟨2, 4, 1⟩ (by decide +kernel) (by decide),
    feed_iff_decodeOverlong.2 [0x60, 0x40] 0x84 ⟨4, 0, 2⟩ (by decide +kernel)⟩

end TellerOBC
