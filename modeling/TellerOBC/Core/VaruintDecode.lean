import TellerOBC.Core.Histogram
import TellerOBC.Foundations.CheckedMemory

/-!
# Decoding variable-length integers from memory

`varuint_decode_overlong` of `core/utils/varuint.c`, which decodes a number at a pointer. It is told
neither where the buffer of the number ends nor where it goes on: it reads as many bytes as the
first byte announces, unless one of them is not a continuation byte. Memory is the list of the
bytes that can be read from the pointer on, and reading behind them is a fault.

What the decoder accepts is a `Varuint`: a first byte followed by exactly as many continuation bytes
as it announces. The bits of these bytes are a natural number, which need not fit into the 32 bits
of the decoded value.

## Main definitions

* `TellerOBC.varuintDecodeOverlong`.
* `TellerOBC.Varuint`, with `bytes`, `number`, `value` and `overlong`.
* `TellerOBC.IsMalformed`, `TellerOBC.IsTruncated`: what is not a number.

## Main results

* `TellerOBC.varuint_cases`: a buffer starts with a number, or is malformed, or ends too early.
* `TellerOBC.varuintDecodeOverlong_append`, `TellerOBC.varuintDecodeOverlong_of_isMalformed`,
  `TellerOBC.varuintDecodeOverlong_of_isTruncated`: the decoder in each of these cases.
-/

namespace TellerOBC

open CheckedMemory

/-! ### The decoder -/

/-- The index of the first marker that a byte matches. -/
def markerIndex (ch : UInt8) : ℕ := markers.findIdx fun m => ch &&& m.mask = m.pattern

/-- What `varuint_decode_overlong` leaves behind: how far the returned pointer is ahead of the given
one, and the variables that its last two arguments point to. -/
structure VaruintDecoded where
  consumed : ℕ
  value : UInt32
  overlong : UInt8
  deriving DecidableEq, Repr

/-- The loop of `varuint_decode_overlong` over the continuation bytes, or nothing if one of them has
its most significant bit clear. -/
def decodeContinuation : ℕ → UInt32 → List UInt8 → Except Fault (Option UInt32)
  | 0, result, _ => pure (some result)
  | i + 1, result, buf => do
    let byte ← readAt buf 0
    if byte &&& 0x80 ≠ 0x80 then pure none
    else decodeContinuation i ((result <<< 7) ||| (byte &&& 0x7F).toUInt32) (buf.drop 1)

/-- `varuint_decode_overlong`, given the variables that `value` and `overlong` point to. A caller
that passes a null pointer does not look at the variable. -/
def varuintDecodeOverlong (buf : List UInt8) (value : UInt32) (overlong : UInt8) :
    Except Fault VaruintDecoded := do
  let ch ← readAt buf 0
  if ch &&& 0x80 ≠ 0 then pure ⟨0, value, overlong⟩
  else if ch &&& 0xC0 = 0 then pure ⟨1, ch.toUInt32, 0⟩
  else
    let i := markerIndex ch
    if (marker i).mask = 0 then pure ⟨0, value, overlong⟩
    else
      let size := i + 1
      match ← decodeContinuation i (ch &&& ~~~(marker i).mask).toUInt32 (buf.drop 1) with
      | none => pure ⟨0, value, overlong⟩
      | some result => pure ⟨size, result, UInt8.ofNat size - varuintSize result⟩

/-! ### Bytes -/

/-- The bits of a first byte that belong to the number. -/
def payload (ch : UInt8) : ℕ := (ch &&& ~~~(marker (markerIndex ch)).mask).toNat

theorem forall_uint8 {P : UInt8 → Prop} (h : ∀ e < 256, P (UInt8.ofNat e)) (ch : UInt8) : P ch := by
  have hch := h ch.toNat ch.toNat_lt
  rwa [UInt8.ofNat_toNat] at hch

/-- A continuation byte is a digit to the base 128 with the most significant bit set. -/
theorem continuation_toNat (ch : UInt8) (hch : ch &&& 0x80 ≠ 0) :
    ch &&& 0x80 = 0x80 ∧ ch.toNat % 128 + 128 = ch.toNat :=
  forall_uint8 (P := fun ch => ch &&& 0x80 ≠ 0 → ch &&& 0x80 = 0x80 ∧
    ch.toNat % 128 + 128 = ch.toNat) (by decide +kernel) ch hch

/-- The first bytes of numbers of one byte. -/
theorem single_first (ch : UInt8) (hch : ch &&& 0x80 = 0) :
    ch &&& 0xC0 = 0 ↔ markerIndex ch = 0 :=
  forall_uint8 (P := fun ch => ch &&& 0x80 = 0 → (ch &&& 0xC0 = 0 ↔ markerIndex ch = 0))
    (by decide +kernel) ch hch

/-- The first bytes of numbers. -/
theorem first_spec (ch : UInt8) (hch : ch &&& 0x80 = 0) :
    markerIndex ch < 8 ∧ (marker (markerIndex ch)).mask ≠ 0 ∧
      payload ch < 2 ^ (6 - markerIndex ch) :=
  forall_uint8 (P := fun ch => ch &&& 0x80 = 0 → markerIndex ch < 8 ∧
    (marker (markerIndex ch)).mask ≠ 0 ∧ payload ch < 2 ^ (6 - markerIndex ch))
    (by decide +kernel) ch hch

/-- The first byte of a number of several bytes, put together from its bits. -/
theorem firstByte_payload (ch : UInt8) (hch : ch &&& 0x80 = 0) (hi : markerIndex ch ≠ 0) :
    firstByte (markerIndex ch + 1) (UInt8.ofNat (payload ch + 128)) = ch :=
  forall_uint8 (P := fun ch => ch &&& 0x80 = 0 → markerIndex ch ≠ 0 →
    firstByte (markerIndex ch + 1) (UInt8.ofNat (payload ch + 128)) = ch)
    (by decide +kernel) ch hch hi

theorem toUInt32_payload (ch : UInt8) :
    (ch &&& ~~~(marker (markerIndex ch)).mask).toUInt32 = UInt32.ofNat (payload ch) := by
  rw [payload, ← UInt8.toNat_toUInt32, UInt32.ofNat_toNat]

/-- The bits of a continuation byte. -/
theorem toUInt32_continuation (ch : UInt8) :
    (ch &&& 0x7F).toUInt32 = UInt32.ofNat (ch.toNat % 128) := by
  have hand : (ch &&& 0x7F).toNat = ch.toNat % 128 := by
    rw [UInt8.toNat_and]
    exact Nat.and_two_pow_sub_one_eq_mod _ 7
  rw [← hand, ← UInt8.toNat_toUInt32, UInt32.ofNat_toNat]

/-! ### Varuints -/

/-- The bytes of a variable-length integer: a first byte and the continuation bytes that it
announces. -/
structure Varuint where
  first : UInt8
  continuation : List UInt8
  first_clear : first &&& 0x80 = 0
  continuation_set : ∀ ch ∈ continuation, ch &&& 0x80 ≠ 0
  length_eq : continuation.length = markerIndex first

/-- The number of the digits to the base 128, after a number in front of them. -/
def appendDigits (x : ℕ) (bytes : List UInt8) : ℕ :=
  bytes.foldl (fun x ch => x * 128 + ch.toNat % 128) x

theorem appendDigits_cons (x : ℕ) (ch : UInt8) (bytes : List UInt8) :
    appendDigits x (ch :: bytes) = appendDigits (x * 128 + ch.toNat % 128) bytes := rfl

namespace Varuint

variable (n : Varuint)

/-- All bytes. -/
def bytes : List UInt8 := n.first :: n.continuation

/-- The natural number that the bits make up. -/
def number : ℕ := appendDigits (payload n.first) n.continuation

/-- The decoded value: the last 32 bits. -/
def value : UInt32 := UInt32.ofNat n.number

/-- The decoded overlong count. -/
def overlong : UInt8 := UInt8.ofNat (markerIndex n.first + 1) - varuintSize n.value

/-- What the decoder leaves behind. -/
def decoded : VaruintDecoded := ⟨n.bytes.length, n.value, n.overlong⟩

theorem length_bytes : n.bytes.length = markerIndex n.first + 1 := by
  rw [bytes, List.length_cons, n.length_eq]

theorem length_bytes_pos : 0 < n.bytes.length := Nat.succ_pos _

end Varuint

/-- The bytes are not those of a number: the first one is a continuation byte, or one of those that
it announces is not. -/
def IsMalformed (buf : List UInt8) : Prop :=
  ∃ ch rest, buf = ch :: rest ∧ (ch &&& 0x80 = 0 → ∃ bytes byte tail, rest = bytes ++ byte :: tail ∧
    bytes.length < markerIndex ch ∧ (∀ ch ∈ bytes, ch &&& 0x80 ≠ 0) ∧ byte &&& 0x80 = 0)

/-- The bytes end inside a number, or before it. -/
def IsTruncated (buf : List UInt8) : Prop :=
  ∃ (n : Varuint) (missing : List UInt8), missing ≠ [] ∧ n.bytes = buf ++ missing

/-! ### What the decoder accepts -/

section

variable {bytes : List UInt8} {i : ℕ} (hset : ∀ ch ∈ bytes, ch &&& 0x80 ≠ 0)

/-- A continuation byte in the loop. -/
theorem decodeContinuation_cons {ch : UInt8} (hch : ch &&& 0x80 ≠ 0) (i x : ℕ)
    (buf : List UInt8) :
    decodeContinuation (i + 1) (UInt32.ofNat x) (ch :: buf) =
      decodeContinuation i (UInt32.ofNat (x * 128 + ch.toNat % 128)) buf := by
  rw [← VaruintDecoder.shift_or_ofNat x (Nat.mod_lt ch.toNat (show 128 > 0 by decide)),
    ← toUInt32_continuation]
  exact if_neg (not_not.mpr (continuation_toNat ch hch).1)

include hset in
/-- Continuation bytes in the loop. -/
theorem decodeContinuation_append (i x : ℕ) (buf : List UInt8) :
    decodeContinuation (bytes.length + i) (UInt32.ofNat x) (bytes ++ buf) =
      decodeContinuation i (UInt32.ofNat (appendDigits x bytes)) buf := by
  induction bytes generalizing x with
  | nil => rw [List.length_nil, Nat.zero_add, List.nil_append]; rfl
  | cons ch bytes ih =>
    obtain ⟨hch, hrest⟩ := List.forall_mem_cons.mp hset
    rw [List.length_cons, Nat.add_right_comm, List.cons_append, decodeContinuation_cons hch,
      ih hrest, appendDigits_cons]

/-- The announced bytes are there, or one of them is not a continuation byte, or the buffer ends
before. -/
theorem continuation_cases (i : ℕ) (buf : List UInt8) :
    (∃ bytes tail, buf = bytes ++ tail ∧ bytes.length = i ∧ ∀ ch ∈ bytes, ch &&& 0x80 ≠ 0) ∨
    (∃ bytes byte tail, buf = bytes ++ byte :: tail ∧ bytes.length < i ∧
      (∀ ch ∈ bytes, ch &&& 0x80 ≠ 0) ∧ byte &&& 0x80 = 0) ∨
    (buf.length < i ∧ ∀ ch ∈ buf, ch &&& 0x80 ≠ 0) := by
  induction i generalizing buf with
  | zero => exact .inl ⟨[], buf, rfl, rfl, List.forall_mem_nil _⟩
  | succ i ih =>
    cases buf with
    | nil => exact .inr (.inr ⟨Nat.succ_pos i, List.forall_mem_nil _⟩)
    | cons ch buf =>
      by_cases hch : ch &&& 0x80 = 0
      · exact .inr (.inl ⟨[], ch, buf, rfl, Nat.succ_pos i, List.forall_mem_nil _, hch⟩)
      obtain ⟨bytes, tail, rfl, hlength, hset⟩ | ⟨bytes, byte, tail, rfl, hlength, hset, hbyte⟩ |
        ⟨hlength, hset⟩ := ih buf
      · exact .inl ⟨ch :: bytes, tail, rfl, congrArg (· + 1) hlength,
          List.forall_mem_cons.mpr ⟨hch, hset⟩⟩
      · exact .inr (.inl ⟨ch :: bytes, byte, tail, rfl, Nat.succ_lt_succ hlength,
          List.forall_mem_cons.mpr ⟨hch, hset⟩, hbyte⟩)
      · exact .inr (.inr ⟨Nat.succ_lt_succ hlength, List.forall_mem_cons.mpr ⟨hch, hset⟩⟩)

end

/-- A buffer starts with a number, or is malformed, or ends too early. -/
theorem varuint_cases (buf : List UInt8) :
    (∃ (n : Varuint) (tail : List UInt8), buf = n.bytes ++ tail) ∨ IsMalformed buf ∨
      IsTruncated buf := by
  cases buf with
  | nil => exact .inr (.inr ⟨⟨0, [], by decide, List.forall_mem_nil _, by decide⟩, [0],
      List.cons_ne_nil _ _, rfl⟩)
  | cons ch buf =>
    by_cases hch : ch &&& 0x80 = 0
    swap
    · exact .inr (.inl ⟨ch, buf, rfl, fun h => absurd h hch⟩)
    obtain ⟨bytes, tail, rfl, hlength, hset⟩ | ⟨bytes, byte, tail, rfl, hlength, hset, hbyte⟩ |
      ⟨hlength, hset⟩ := continuation_cases (markerIndex ch) buf
    · exact .inl ⟨⟨ch, bytes, hch, hset, hlength⟩, tail, rfl⟩
    · exact .inr (.inl ⟨ch, _, rfl, fun _ => ⟨bytes, byte, tail, rfl, hlength, hset, hbyte⟩⟩)
    · -- complete the number with bytes whose bits are all zero
      let missing := List.replicate (markerIndex ch - buf.length) (0x80 : UInt8)
      have hmissing : missing.length = markerIndex ch - buf.length := List.length_replicate
      refine .inr (.inr ⟨⟨ch, buf ++ missing, hch, fun c hc => ?_, ?_⟩, missing, ?_, rfl⟩)
      · rcases List.mem_append.mp hc with hc | hc
        · exact hset c hc
        · rw [List.eq_of_mem_replicate hc]
          decide
      · rw [List.length_append, hmissing]
        omega
      · intro hnil
        rw [hnil, List.length_nil] at hmissing
        omega

/-- Numbers of one byte are their byte. -/
theorem single_spec (ch : UInt8) (hch : ch &&& 0x80 = 0) (hi : markerIndex ch = 0) :
    payload ch = ch.toNat ∧ UInt8.ofNat 1 - varuintSize ch.toUInt32 = 0 :=
  forall_uint8 (P := fun ch => ch &&& 0x80 = 0 → markerIndex ch = 0 →
    payload ch = ch.toNat ∧ UInt8.ofNat 1 - varuintSize ch.toUInt32 = 0)
    (by decide +kernel) ch hch hi

/-- The decoder after the first byte of a number. -/
theorem varuintDecodeOverlong_first {ch : UInt8} (hch : ch &&& 0x80 = 0) (buf : List UInt8)
    (value : UInt32) (overlong : UInt8) :
    varuintDecodeOverlong (ch :: buf) value overlong =
      (decodeContinuation (markerIndex ch) (UInt32.ofNat (payload ch)) buf).map fun result =>
        result.elim ⟨0, value, overlong⟩ fun result =>
          ⟨markerIndex ch + 1, result, UInt8.ofNat (markerIndex ch + 1) - varuintSize result⟩ := by
  have hread : varuintDecodeOverlong (ch :: buf) value overlong =
      if ch &&& 0xC0 = 0 then .ok ⟨1, ch.toUInt32, 0⟩
      else
        (decodeContinuation (markerIndex ch)
          (ch &&& ~~~(marker (markerIndex ch)).mask).toUInt32 buf).map fun result =>
          result.elim ⟨0, value, overlong⟩ fun result =>
            ⟨markerIndex ch + 1, result,
              UInt8.ofNat (markerIndex ch + 1) - varuintSize result⟩ := by
    refine (if_neg (not_not.mpr hch)).trans (if_congr Iff.rfl rfl ?_)
    refine (if_neg (first_spec ch hch).2.1).trans ?_
    change (decodeContinuation _ _ buf >>= _) = _
    cases decodeContinuation (markerIndex ch)
      (ch &&& ~~~(marker (markerIndex ch)).mask).toUInt32 buf with
    | error fault => rfl
    | ok result => cases result <;> rfl
  rw [hread, toUInt32_payload]
  split_ifs with hsingle
  · rw [single_first ch hch] at hsingle
    obtain ⟨hpayload, hsize⟩ := single_spec ch hch hsingle
    rw [hsingle, hpayload, ← UInt8.toNat_toUInt32, UInt32.ofNat_toNat]
    change _ = Except.ok (⟨1, ch.toUInt32, _⟩ : VaruintDecoded)
    rw [hsize]
  · rfl

/-- The decoder on a number, whatever comes after it. -/
theorem varuintDecodeOverlong_append (n : Varuint) (tail : List UInt8) (value : UInt32)
    (overlong : UInt8) :
    varuintDecodeOverlong (n.bytes ++ tail) value overlong = .ok n.decoded := by
  have hloop := decodeContinuation_append n.continuation_set 0 (payload n.first) tail
  rw [Nat.add_zero, n.length_eq] at hloop
  rw [Varuint.bytes, List.cons_append, varuintDecodeOverlong_first n.first_clear, hloop,
    Varuint.decoded, n.length_bytes]
  rfl

/-- The decoder on a malformed number leaves everything as it was. -/
theorem varuintDecodeOverlong_of_isMalformed {buf : List UInt8} (h : IsMalformed buf)
    (value : UInt32) (overlong : UInt8) :
    varuintDecodeOverlong buf value overlong = .ok ⟨0, value, overlong⟩ := by
  obtain ⟨ch, rest, rfl, h⟩ := h
  by_cases hch : ch &&& 0x80 = 0
  · obtain ⟨bytes, byte, tail, rfl, hlength, hset, hbyte⟩ := h hch
    obtain ⟨i, hi⟩ : ∃ i, markerIndex ch = bytes.length + (i + 1) := Nat.exists_eq_add_of_lt hlength
    have hstop (x : UInt32) : decodeContinuation (i + 1) x (byte :: tail) = .ok none :=
      if_pos (by rw [hbyte]; decide)
    rw [varuintDecodeOverlong_first hch, hi, decodeContinuation_append hset, hstop]
    rfl
  · exact if_pos hch

/-- The decoder reads behind the buffer if it ends inside a number. -/
theorem varuintDecodeOverlong_of_isTruncated {buf : List UInt8} (h : IsTruncated buf)
    (value : UInt32) (overlong : UInt8) :
    varuintDecodeOverlong buf value overlong = .error .read := by
  obtain ⟨n, missing, hmissing, hbytes⟩ := h
  cases buf with
  | nil => rfl
  | cons ch buf =>
    obtain ⟨rfl, hcontinuation : n.continuation = buf ++ missing⟩ := List.cons.inj hbytes
    have hset : ∀ ch ∈ buf, ch &&& 0x80 ≠ 0 := fun ch hch =>
      n.continuation_set ch (hcontinuation ▸ List.mem_append_left missing hch)
    have hlength : buf.length + missing.length = markerIndex n.first := by
      rw [← n.length_eq, hcontinuation, List.length_append]
    obtain ⟨i, hi⟩ := Nat.exists_eq_succ_of_ne_zero
      (fun h => hmissing (List.eq_nil_of_length_eq_zero h))
    have hloop := decodeContinuation_append hset (i + 1) (payload n.first) []
    rw [List.append_nil] at hloop
    rw [varuintDecodeOverlong_first n.first_clear, ← hlength, hi, hloop]
    rfl

/-- What the decoder has accepted is a number. -/
theorem varuintDecodeOverlong_eq_ok {buf : List UInt8} {value : UInt32} {overlong : UInt8}
    {d : VaruintDecoded} (h : varuintDecodeOverlong buf value overlong = .ok d) :
    (∃ (n : Varuint) (tail : List UInt8), buf = n.bytes ++ tail ∧ d = n.decoded) ∨
      (IsMalformed buf ∧ d = ⟨0, value, overlong⟩) := by
  obtain ⟨n, tail, rfl⟩ | hmalformed | htruncated := varuint_cases buf
  · rw [varuintDecodeOverlong_append] at h
    exact .inl ⟨n, tail, rfl, (Except.ok.inj h).symm⟩
  · rw [varuintDecodeOverlong_of_isMalformed hmalformed] at h
    exact .inr ⟨hmalformed, (Except.ok.inj h).symm⟩
  · rw [varuintDecodeOverlong_of_isTruncated htruncated] at h
    cases h

end TellerOBC
