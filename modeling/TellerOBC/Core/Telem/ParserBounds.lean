import TellerOBC.Core.Telem.Parser
import TellerOBC.Foundations.CheckedMemory

/-!
# The pointers of the telemetry parser

The parser of `core/telem/parser.cpp` writes every byte of a message at its write pointer, without
comparing the pointer with the end of the message buffer. In `TellerOBC.Parser` a write outside of
the buffer would be lost; here it is a fault, and so is reading outside of the buffer for the
checksum.

The parser does not fault because of where its pointers stand in each state (`Parser.Pointers`). The
end of a section is known from the length byte, which is at most 63. Only in the first state nothing
better is known than that the pointers are in the buffer: a wrong second sync byte leaves them where
they are.

## Main definitions

* `TellerOBC.Parser.Checked.feed`, `TellerOBC.Parser.Checked.feedAll`: the parser with faults.
* `TellerOBC.Parser.InBounds`: the pointers are in the message buffer and in order.
* `TellerOBC.Parser.computedLength`: the length of a complete message, before it is cut to a byte.

## Main results

* `TellerOBC.Parser.feedAll_inBounds`: what holds after any bytes.
-/

namespace TellerOBC.Parser

open CheckedMemory

/-! ### The parser with faults -/

namespace Checked

/-- Write a byte at the write pointer, which has to be in the buffer, and advance it. -/
def store (p : Parser) (ch : UInt8) : Except Fault Parser := do
  let message ← writeRange p.message p.messageWritePtr [ch]
  return { p with message := message, messageWritePtr := p.messageWritePtr + 1 }

/-- `_feed`. -/
def feedInternal (p : Parser) (ch : UInt8) : Except Fault (ParserState × Parser) :=
  match p.state with
  | .waitingSyncByte2 =>
    if ch = 0xFE then do
      let p ← store p ch
      return (.readingHeader, { p with endPtr := p.messageWritePtr + 4 })
    else return (.waitingSyncByte1, p)
  | .readingHeader => do
    let p ← store p ch
    if p.messageWritePtr = p.endPtr then
      if ch.toNat ≤ maxPayloadLength then
        if ch = 0 then return (.readingChecksum, { p with endPtr := p.endPtr + 2 })
        else return (.readingPayload, { p with endPtr := p.endPtr + ch.toNat })
      else return (.waitingSyncByte1, p.reset)
    else return (.readingHeader, p)
  | .readingPayload => do
    let p ← store p ch
    if p.messageWritePtr = p.endPtr then
      return (.readingChecksum, { p with endPtr := p.endPtr + 2 })
    else return (.readingPayload, p)
  | .readingChecksum => do
    let p ← store p ch
    if p.messageWritePtr = p.endPtr then
      let received ← readRange p.message.toList 0 p.endPtr
      if crcCcitt 0 received = 0 then return (.done, p)
      else return (.waitingSyncByte1, p.reset)
    else return (.readingChecksum, p)
  | _ =>
    if ch = 0xCA then do
      let p ← store p.reset ch
      return (.waitingSyncByte2, p)
    else return (.waitingSyncByte1, p)

/-- `feed`. -/
def feed (p : Parser) (ch : UInt8) : Except Fault (UInt8 × Parser) := do
  let r ← feedInternal p ch
  let p : Parser := { r.2 with state := r.1 }
  if p.state = .done then
    return (UInt8.ofInt ((p.endPtr : ℤ) - headerLength - 1), p.reset.updateEnvelope)
  else return (0, p)

/-- Feed the bytes of a list in order, discarding the results. -/
def feedAll (p : Parser) : List UInt8 → Except Fault Parser
  | [] => return p
  | ch :: bytes => do
    let r ← feed p ch
    feedAll r.2 bytes

end Checked

/-! ### The pointers -/

/-- The pointers are in the message buffer, and while a header, a payload or a checksum is read the
write pointer is before the end. -/
structure InBounds (p : Parser) : Prop where
  messageWritePtr_le : p.messageWritePtr ≤ 71
  endPtr_le : p.endPtr ≤ 71
  lt_endPtr : p.state = .readingHeader ∨ p.state = .readingPayload ∨ p.state = .readingChecksum →
    p.messageWritePtr < p.endPtr

/-- The length of a complete message as `feed` computes it, before it is cut to a byte. -/
def computedLength (p : Parser) : ℤ := (p.endPtr : ℤ) - headerLength - 1

/-- Where the pointers stand in each state. -/
def Pointers (p : Parser) : Prop :=
  match p.state with
  | .waitingSyncByte1 => p.messageWritePtr ≤ 71 ∧ p.endPtr ≤ 71
  | .waitingSyncByte2 => p.messageWritePtr = 1 ∧ p.endPtr = 0
  | .readingHeader => 2 ≤ p.messageWritePtr ∧ p.messageWritePtr < p.endPtr ∧ p.endPtr = 6
  | .readingPayload => 6 ≤ p.messageWritePtr ∧ p.messageWritePtr < p.endPtr ∧ p.endPtr ≤ 69
  | .readingChecksum => p.messageWritePtr < p.endPtr ∧ 8 ≤ p.endPtr ∧ p.endPtr ≤ 71
  | .done => p.messageWritePtr = p.endPtr ∧ 8 ≤ p.endPtr ∧ p.endPtr ≤ 71

section

variable {p : Parser}

theorem Pointers.inBounds (h : Pointers p) : InBounds p := by
  rw [Pointers] at h
  cases hstate : p.state with
  | readingHeader | readingPayload | readingChecksum =>
    rw [hstate] at h
    dsimp only at h
    exact ⟨by omega, by omega, fun _ => by omega⟩
  | waitingSyncByte1 | waitingSyncByte2 | done =>
    rw [hstate] at h
    dsimp only at h
    refine ⟨by omega, by omega, fun hreading => ?_⟩
    simp only [hstate, reduceCtorEq, or_self] at hreading

theorem pointers_reset (p : Parser) : Pointers p.reset := ⟨Nat.zero_le 71, Nat.zero_le 71⟩

theorem store_eq (ch : UInt8) (h : p.messageWritePtr < maxMessageLength + 1) :
    Checked.store p ch = .ok (p.store ch) := by
  have hset : p.message.set p.messageWritePtr ch h =
      p.message.setIfInBounds p.messageWritePtr ch :=
    Vector.toList_inj.mp (by rw [Vector.toList_set, Vector.toList_setIfInBounds])
  rw [Checked.store, writeRange_singleton _ h, hset]
  rfl

theorem Pointers.lt (h : Pointers p) (hs : p.state ≠ .waitingSyncByte1) (hs' : p.state ≠ .done) :
    p.messageWritePtr < 71 := by
  have hle := h.inBounds
  rw [Pointers] at h
  cases hstate : p.state with
  | waitingSyncByte1 => exact absurd hstate hs
  | done => exact absurd hstate hs'
  | waitingSyncByte2 | readingHeader | readingPayload | readingChecksum =>
    rw [hstate] at h
    dsimp only at h
    omega

/-- Where the pointers stand as they should, a byte is handled without a fault. -/
theorem Pointers.feedInternal_eq (h : Pointers p) (ch : UInt8) :
    Checked.feedInternal p ch = .ok (p.feedInternal ch) := by
  have hstore (hs : p.state ≠ .waitingSyncByte1) (hs' : p.state ≠ .done) :
      Checked.store p ch = .ok (p.store ch) := store_eq ch ((h.lt hs hs').trans (by decide))
  have hstart : Checked.store p.reset ch = .ok (p.reset.store ch) := store_eq ch (Nat.succ_pos 71)
  cases hs : p.state with
  | waitingSyncByte1 | done =>
    simp only [Checked.feedInternal, feedInternal, hs, hstart]
    split_ifs <;> rfl
  | waitingSyncByte2 | readingHeader | readingPayload =>
    simp only [Checked.feedInternal, feedInternal, hs, hstore (by simp [hs]) (by simp [hs]),
      bind, Except.bind]
    split_ifs <;> rfl
  | readingChecksum =>
    have hread : readRange (p.store ch).message.toList 0 (p.store ch).endPtr =
        .ok ((p.store ch).message.toList.take (p.store ch).endPtr) := by
      refine readRange_of_le ?_
      rw [length_message, Nat.zero_add]
      exact h.inBounds.endPtr_le.trans (by decide)
    simp only [Checked.feedInternal, feedInternal, hs, hstore (by simp [hs]) (by simp [hs]),
      hread, bind, Except.bind]
    split_ifs <;> rfl

/-- **One byte.** The pointers stand as they should in the next state. -/
theorem Pointers.feedInternal (h : Pointers p) (ch : UInt8) :
    Pointers { (p.feedInternal ch).2 with state := (p.feedInternal ch).1 } := by
  have hle := h.inBounds
  have hmove : (p.store ch).messageWritePtr = p.messageWritePtr + 1 := rfl
  have hend : (p.store ch).endPtr = p.endPtr := rfl
  rw [Pointers] at h
  cases hs : p.state with
  | waitingSyncByte1 | done =>
    simp only [Parser.feedInternal, hs]
    split_ifs
    · exact ⟨rfl, rfl⟩
    · exact ⟨hle.messageWritePtr_le, hle.endPtr_le⟩
  | waitingSyncByte2 =>
    rw [hs] at h
    simp only [Parser.feedInternal, hs]
    split_ifs
    · change 2 ≤ p.messageWritePtr + 1 ∧ p.messageWritePtr + 1 < p.messageWritePtr + 1 + 4 ∧
        p.messageWritePtr + 1 + 4 = 6
      omega
    · exact ⟨hle.messageWritePtr_le, hle.endPtr_le⟩
  | readingHeader =>
    rw [hs] at h
    dsimp only at h
    simp only [Parser.feedInternal, hs]
    split_ifs with hfull hlength hzero
    · change p.messageWritePtr + 1 < p.endPtr + 2 ∧ 8 ≤ p.endPtr + 2 ∧ p.endPtr + 2 ≤ 71
      omega
    · have hpos : 0 < ch.toNat := Nat.pos_of_ne_zero fun h0 => hzero (UInt8.toNat_inj.mp h0)
      have hle : ch.toNat ≤ 63 := hlength
      change 6 ≤ p.messageWritePtr + 1 ∧ p.messageWritePtr + 1 < p.endPtr + ch.toNat ∧
        p.endPtr + ch.toNat ≤ 69
      omega
    · exact pointers_reset _
    · change 2 ≤ p.messageWritePtr + 1 ∧ p.messageWritePtr + 1 < p.endPtr ∧ p.endPtr = 6
      omega
  | readingPayload =>
    rw [hs] at h
    dsimp only at h
    simp only [Parser.feedInternal, hs]
    split_ifs with hfull
    · change p.messageWritePtr + 1 < p.endPtr + 2 ∧ 8 ≤ p.endPtr + 2 ∧ p.endPtr + 2 ≤ 71
      omega
    · change 6 ≤ p.messageWritePtr + 1 ∧ p.messageWritePtr + 1 < p.endPtr ∧ p.endPtr ≤ 69
      omega
  | readingChecksum =>
    rw [hs] at h
    dsimp only at h
    simp only [Parser.feedInternal, hs]
    split_ifs with hfull
    · exact ⟨hfull, h.2⟩
    · exact pointers_reset _
    · change p.messageWritePtr + 1 < p.endPtr ∧ 8 ≤ p.endPtr ∧ p.endPtr ≤ 71
      omega

/-- The length of a complete message does not wrap in its byte. -/
theorem Pointers.computedLength_bounds (h : Pointers p) (hs : p.state = .done) :
    1 ≤ p.computedLength ∧ p.computedLength ≤ 64 ∧
      ((UInt8.ofInt p.computedLength).toNat : ℤ) = p.computedLength := by
  rw [Pointers, hs] at h
  obtain ⟨-, hlow, hhigh⟩ := h
  obtain ⟨n, hn⟩ : ∃ n, p.endPtr = n + 7 := ⟨p.endPtr - 7, by omega⟩
  have hlength : p.computedLength = (n : ℤ) := by
    rw [computedLength, hn, headerLength]
    omega
  rw [hlength, UInt8.ofInt]
  simp only [Int.reducePow, UInt8.toNat_ofNat', Nat.reducePow]
  omega

/-! ### Whole streams -/

theorem Pointers.feed (h : Pointers p) (ch : UInt8) :
    Checked.feed p ch = .ok (p.feed ch) ∧ Pointers (p.feed ch).2 := by
  have hnext := h.feedInternal ch
  rw [Checked.feed, h.feedInternal_eq, Parser.feed]
  dsimp only [bind, Except.bind]
  split_ifs
  · exact ⟨rfl, pointers_reset (p.feedInternal ch).2⟩
  · exact ⟨rfl, hnext⟩

theorem Pointers.feedAll (h : Pointers p) (bytes : List UInt8) :
    Checked.feedAll p bytes = .ok (p.feedAll bytes) ∧ Pointers (p.feedAll bytes) := by
  induction bytes generalizing p with
  | nil => exact ⟨rfl, h⟩
  | cons ch bytes ih =>
    obtain ⟨hfeed, hnext⟩ := h.feed ch
    rw [Checked.feedAll, hfeed]
    exact ih hnext

end

/-- **The pointers stay in the buffer.** Feed any bytes to a parser that was reset, whatever its
buffer holds. It does not access memory outside of its message buffer, and then its pointers are in
the buffer and in order. This is also so when the next byte is handled, and if this byte completes a
message then the length is from 1 to 64 and does not wrap in its byte. -/
theorem feedAll_inBounds (p : Parser) (bytes : List UInt8) :
    Checked.feedAll p.reset bytes = .ok (p.reset.feedAll bytes) ∧
      InBounds (p.reset.feedAll bytes) ∧
      ∀ ch, let r := (p.reset.feedAll bytes).feedInternal ch
        InBounds { r.2 with state := r.1 } ∧ (r.1 = .done →
          1 ≤ r.2.computedLength ∧ r.2.computedLength ≤ 64 ∧
            (((p.reset.feedAll bytes).feed ch).1.toNat : ℤ) = r.2.computedLength) := by
  obtain ⟨hfeeds, hpointers⟩ := (pointers_reset p).feedAll bytes
  refine ⟨hfeeds, hpointers.inBounds, fun ch => ?_⟩
  have hnext := hpointers.feedInternal ch
  refine ⟨hnext.inBounds, fun hdone => ?_⟩
  have hfeed : ((p.reset.feedAll bytes).feed ch).1 =
      UInt8.ofInt ((p.reset.feedAll bytes).feedInternal ch).2.computedLength := by
    rw [Parser.feed]
    dsimp only
    rw [if_pos hdone]
    rfl
  rw [hfeed]
  exact hnext.computedLength_bounds hdone

end TellerOBC.Parser
