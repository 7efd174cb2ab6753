import Mathlib.Data.List.Induction
import Mathlib.Tactic.Ring
import TellerOBC.Core.VaruintDecode

/-!
# Encoding and decoding variable-length integers

The continuation bytes of a number are the last digits of it to the base 128. So what
`varuint_encode_overlong` writes is a varuint, and a varuint whose number fits into 32 bits is
written again when its value and its overlong count are encoded.

The overlong count of a decoded number is the difference of two lengths. It does not underflow, as
a number of `k` bytes has at most `6 * k` bits as long as `k` is less than eight, and every value
has a compact form of at most six bytes.

## Main definitions

* `TellerOBC.assembledBits`: the bits of a number, without the bound of 32 of them.

## Main results

* `TellerOBC.exists_varuint_of_encode`, `TellerOBC.decodeOverlong_encodeOverlong`: decoding after
  encoding.
* `TellerOBC.Varuint.encode_eq`, `TellerOBC.decodeOverlong_or_encode`: encoding after decoding.
-/

namespace TellerOBC

open CheckedMemory

/-! ### Numbers and their digits -/

theorem appendDigits_append (x : ℕ) (bytes : List UInt8) (ch : UInt8) :
    appendDigits x (bytes ++ [ch]) = appendDigits x bytes * 128 + ch.toNat % 128 :=
  List.foldl_append

/-- The bits of the continuation bytes of an encoded number. -/
theorem appendDigits_digits (i x v : ℕ) :
    appendDigits x (digits i v) = x * 128 ^ i + v % 128 ^ i := by
  induction i generalizing v with
  | zero => rw [pow_zero, Nat.mul_one, Nat.mod_one]; rfl
  | succ i ih =>
    have hdigit : (UInt8.ofNat (v % 128 + 128)).toNat % 128 = v % 128 := by
      rw [UInt8.toNat_ofNat']
      change (v % 128 + 128) % 256 % 128 = v % 128
      omega
    rw [digits, appendDigits_append, ih, hdigit, pow_succ', Nat.mod_mul]
    ring

theorem continuation_set_digits (i v : ℕ) : ∀ ch ∈ digits i v, ch &&& 0x80 ≠ 0 := by
  induction i generalizing v with
  | zero => exact List.forall_mem_nil _
  | succ i ih =>
    intro ch hch
    rcases List.mem_append.mp hch with hch | hch
    · exact ih _ ch hch
    · rw [List.mem_singleton.mp hch]
      exact VaruintDecoder.continuation_byte _ (Nat.mod_lt _ (by decide))

/-- Continuation bytes are the digits of their number. -/
theorem digits_appendDigits {bytes : List UInt8} (hset : ∀ ch ∈ bytes, ch &&& 0x80 ≠ 0) (x : ℕ) :
    digits bytes.length (appendDigits x bytes) = bytes := by
  induction bytes using List.reverseRecOn with
  | nil => rfl
  | append_singleton bytes ch ih =>
    have hch := (continuation_toNat ch (hset ch (List.mem_append_right _ (by simp)))).2
    have hdiv : (appendDigits x bytes * 128 + ch.toNat % 128) / 128 = appendDigits x bytes := by
      omega
    have hmod : (appendDigits x bytes * 128 + ch.toNat % 128) % 128 = ch.toNat % 128 := by omega
    rw [List.length_append, List.length_singleton, digits, appendDigits_append, hdiv, hmod,
      ih fun c hc => hset c (List.mem_append_left _ hc), hch, UInt8.ofNat_toNat]

/-- What comes before the continuation bytes. -/
theorem appendDigits_div (x : ℕ) (bytes : List UInt8) :
    appendDigits x bytes / 128 ^ bytes.length = x := by
  induction bytes using List.reverseRecOn with
  | nil => exact Nat.div_one x
  | append_singleton bytes ch ih =>
    have hdiv : (appendDigits x bytes * 128 + ch.toNat % 128) / 128 = appendDigits x bytes := by
      omega
    rw [List.length_append, List.length_singleton, appendDigits_append, pow_succ',
      ← Nat.div_div_eq_div_mul, hdiv, ih]

theorem toNat_thresholds (i : ℕ) (hi : i < thresholds.length) :
    thresholds[i].toNat = 2 ^ (6 * (i + 1)) :=
  have hall : ∀ i, (thresholds.get i).toNat = 2 ^ (6 * (i.val + 1)) := by decide
  hall ⟨i, hi⟩

/-- A value of few bits has a short compact form. -/
theorem thresholdIndex_le_of_lt {value : UInt32} {i : ℕ} (h : value.toNat < 2 ^ (6 * (i + 1))) :
    thresholdIndex value ≤ i := by
  by_contra hlt
  have hi : i < thresholds.length := (not_le.mp hlt).trans_le List.findIdx_le_length
  have hnot := List.not_of_lt_findIdx (not_le.mp hlt)
  rw [decide_eq_false_iff_not, UInt32.lt_iff_toNat_lt, toNat_thresholds i hi] at hnot
  exact hnot h

theorem toNat_varuintSize (value : UInt32) :
    (varuintSize value).toNat = thresholdIndex value + 1 := by
  have hle : thresholdIndex value + (0 : UInt8).toNat + 1 ≤ 8 :=
    Nat.succ_le_succ ((thresholdIndex_le value).trans (by decide))
  exact toNat_varuintSizeOverlong hle

namespace Varuint

variable (n : Varuint)

/-- The bits of a number of `k` bytes, at most seven, are at most `6 * k`. -/
theorem number_lt (h : markerIndex n.first ≤ 6) :
    n.number < 2 ^ (6 * (markerIndex n.first + 1)) := by
  have hdiv : n.number / 128 ^ markerIndex n.first = payload n.first := by
    rw [← n.length_eq]
    exact appendDigits_div _ _
  have hpow : 2 ^ (6 * (markerIndex n.first + 1)) =
      2 ^ (6 - markerIndex n.first) * 128 ^ markerIndex n.first := by
    rw [show 128 = 2 ^ 7 from rfl, ← pow_mul, ← pow_add]
    congr 1
    omega
  rw [hpow, ← Nat.div_lt_iff_lt_mul (Nat.pow_pos (by decide)), hdiv]
  exact (first_spec n.first n.first_clear).2.2

theorem toNat_value_le : n.value.toNat ≤ n.number := by
  rw [value, UInt32.toNat_ofNat']
  exact Nat.mod_le _ _

theorem thresholdIndex_value_le : thresholdIndex n.value ≤ markerIndex n.first := by
  by_cases h : markerIndex n.first ≤ 6
  · exact thresholdIndex_le_of_lt (n.toNat_value_le.trans_lt (n.number_lt h))
  · exact (thresholdIndex_le _).trans (by omega)

/-- The compact form of the value is not longer than the number. -/
theorem toNat_varuintSize_le : (varuintSize n.value).toNat ≤ n.bytes.length := by
  rw [toNat_varuintSize, n.length_bytes]
  exact Nat.succ_le_succ n.thresholdIndex_value_le

/-- The overlong count is the number of bytes beyond those of the compact form. -/
theorem toNat_overlong : n.overlong.toNat = n.bytes.length - (varuintSize n.value).toNat := by
  have hle := n.toNat_varuintSize_le
  have hlt := (first_spec n.first n.first_clear).1
  have hsize : (UInt8.ofNat (markerIndex n.first + 1)).toNat = n.bytes.length := by
    rw [n.length_bytes, UInt8.toNat_ofNat']
    exact Nat.mod_eq_of_lt (by omega)
  rw [overlong, UInt8.toNat_sub_of_le _ _ (by rwa [UInt8.le_iff_toNat_le, hsize]), hsize]

theorem thresholdIndex_add_overlong :
    thresholdIndex n.value + n.overlong.toNat = markerIndex n.first := by
  have hle := n.thresholdIndex_value_le
  rw [n.toNat_overlong, n.length_bytes, toNat_varuintSize]
  omega

/-- **Encoding after decoding.** A number that fits into 32 bits is what its value and its overlong
count are encoded as. -/
theorem encode_eq (h : n.number < 2 ^ 32) : varuintEncodeOverlong n.value n.overlong = n.bytes := by
  have hvalue : n.value.toNat = n.number := by
    rw [value, UInt32.toNat_ofNat']
    exact Nat.mod_eq_of_lt h
  have hlt := (first_spec n.first n.first_clear).1
  have hindex := n.thresholdIndex_add_overlong
  have hsize : (varuintSizeOverlong n.value n.overlong).toNat = markerIndex n.first + 1 := by
    rw [toNat_varuintSizeOverlong (by omega), hindex]
  rcases hzero : markerIndex n.first with _ | i
  · have hnil : n.continuation = [] :=
      List.eq_nil_of_length_eq_zero (n.length_eq.trans hzero)
    have hnumber : n.number = payload n.first := by rw [number, hnil]; rfl
    have hbound := (first_spec n.first n.first_clear).2.2
    rw [hzero] at hbound hsize
    rw [varuintEncodeOverlong_of_size_one hsize (by rw [hvalue, hnumber]; exact hbound), hvalue,
      hnumber, (single_spec n.first n.first_clear hzero).1, UInt8.ofNat_toNat, bytes, hnil]
  · have hlength : n.continuation.length = i + 1 := n.length_eq.trans hzero
    have hdiv : n.number / 128 ^ (i + 1) = payload n.first := by
      rw [← hlength]
      exact appendDigits_div _ _
    have hbound : payload n.first < 128 := (first_spec n.first n.first_clear).2.2.trans_le
      ((Nat.pow_le_pow_right (by decide) (Nat.sub_le 6 _)).trans (by decide))
    have hfirst := firstByte_payload n.first n.first_clear (by omega)
    have hdigits := digits_appendDigits n.continuation_set (payload n.first)
    rw [hzero] at hfirst hsize
    rw [hlength] at hdigits
    rw [varuintEncodeOverlong_of_size hsize, hvalue, hdiv, Nat.mod_eq_of_lt hbound, hfirst, bytes]
    exact congrArg (n.first :: ·) hdigits

end Varuint

/-! ### What is encoded -/

theorem single_byte : ∀ v < 64, UInt8.ofNat v &&& 0x80 = 0 ∧ markerIndex (UInt8.ofNat v) = 0 ∧
    payload (UInt8.ofNat v) = v := by
  decide +kernel

/-- The first byte of a number of several bytes. -/
theorem payload_firstByte {i b : ℕ} (hi : i < 7) (hb : b < 2 ^ (5 - i)) :
    let ch := firstByte (i + 2) (UInt8.ofNat (b + 128))
    ch &&& 0x80 = 0 ∧ markerIndex ch = i + 1 ∧ payload ch = b := by
  intro ch
  obtain ⟨hclear, hindex, hvalue⟩ := VaruintDecoder.first_byte i hi b hb
  have hindex : markerIndex ch = i + 1 := hindex
  refine ⟨hclear, hindex, ?_⟩
  have hb : b < 2 ^ 32 := hb.trans_le (Nat.pow_le_pow_right (by decide) (by omega))
  have hnat := congrArg UInt32.toNat hvalue
  rw [UInt32.toNat_ofNat', Nat.mod_eq_of_lt hb, UInt8.toNat_toUInt32] at hnat
  rw [payload, hindex]
  exact hnat

/-- **Decoding after encoding.** What a value is encoded as, in at most eight bytes, is a number
with this value and this overlong count. -/
theorem exists_varuint_of_encode (value : UInt32) (overlong : UInt8)
    (hsize : thresholdIndex value + overlong.toNat + 1 ≤ 8) :
    ∃ n : Varuint, n.bytes = varuintEncodeOverlong value overlong ∧ n.value = value ∧
      n.overlong = overlong := by
  have hnat := toNat_varuintSizeOverlong hsize
  -- the overlong count follows from the length and the value
  have hoverlong (n : Varuint) (hvalue : n.value = value)
      (hlength : markerIndex n.first = thresholdIndex value + overlong.toNat) :
      n.overlong = overlong := by
    have hadd := n.thresholdIndex_add_overlong
    rw [hvalue, hlength] at hadd
    exact UInt8.toNat.inj (Nat.add_left_cancel hadd)
  rcases hindex : thresholdIndex value + overlong.toNat with _ | i
  · rw [hindex] at hnat
    have hlt : value.toNat < 64 := by
      have hbound := toNat_lt_of_thresholdIndex value
      rwa [show thresholdIndex value = 0 by omega] at hbound
    obtain ⟨hclear, hsingle, hpayload⟩ := single_byte value.toNat hlt
    let n : Varuint := ⟨UInt8.ofNat value.toNat, [], hclear, List.forall_mem_nil _, hsingle.symm⟩
    have hvalue : n.value = value :=
      (congrArg UInt32.ofNat hpayload).trans UInt32.ofNat_toNat
    exact ⟨n, (varuintEncodeOverlong_of_size_one hnat hlt).symm, hvalue,
      hoverlong n hvalue (hsingle.trans hindex.symm)⟩
  · rw [hindex] at hnat
    have hi : i < 7 := by omega
    have hfirst :=
      firstDigit_lt (show thresholdIndex value + overlong.toNat + 1 = i + 2 by omega) hi
    have hdigit : value.toNat / 128 ^ (i + 1) % 128 = value.toNat / 128 ^ (i + 1) :=
      Nat.mod_eq_of_lt (hfirst.trans_le
        ((Nat.pow_le_pow_right (by decide) (Nat.sub_le 5 i)).trans (by decide)))
    obtain ⟨hclear, hmarker, hpayload⟩ := payload_firstByte hi hfirst
    let n : Varuint := ⟨_, digits (i + 1) value.toNat, hclear, continuation_set_digits _ _,
      (length_digits _ _).trans hmarker.symm⟩
    have hvalue : n.value = value := by
      have hnumber : n.number = value.toNat := by
        rw [Varuint.number, hpayload, appendDigits_digits, Nat.div_add_mod']
      rw [Varuint.value, hnumber, UInt32.ofNat_toNat]
    refine ⟨n, ?_, hvalue, hoverlong n hvalue (hmarker.trans hindex.symm)⟩
    rw [varuintEncodeOverlong_of_size hnat, hdigit]
    rfl

/-- The natural number that the bits of a number make up. -/
def assembledBits : List UInt8 → ℕ
  | [] => 0
  | ch :: bytes => appendDigits (payload ch) bytes

/-- **Round trip.** A value with an overlong count is encoded as the bytes that its size announces,
if these are at most eight, and is decoded from them again, whatever comes behind them. -/
theorem decodeOverlong_encodeOverlong (value : UInt32) (overlong : UInt8)
    (hsize : (varuintSize value).toNat + overlong.toNat ≤ 8) (tail : List UInt8) (value₀ : UInt32)
    (overlong₀ : UInt8) :
    (varuintEncodeOverlong value overlong).length = (varuintSizeOverlong value overlong).toNat ∧
      varuintDecodeOverlong (varuintEncodeOverlong value overlong ++ tail) value₀ overlong₀ =
        .ok ⟨(varuintEncodeOverlong value overlong).length, value, overlong⟩ := by
  rw [toNat_varuintSize] at hsize
  obtain ⟨n, hbytes, hvalue, hoverlong⟩ := exists_varuint_of_encode value overlong (by omega)
  refine ⟨length_varuintEncodeOverlong value overlong, ?_⟩
  rw [← hbytes, varuintDecodeOverlong_append, Varuint.decoded, hvalue, hoverlong]

/-- The second overlong form of a value, in front of a byte that does not belong to it. -/
theorem decodeOverlong_encodeOverlong_apply :
    (varuintEncodeOverlong 42 2).length = (varuintSizeOverlong 42 2).toNat ∧
      varuintDecodeOverlong (varuintEncodeOverlong 42 2 ++ [0xFF]) 0 0 =
        .ok ⟨(varuintEncodeOverlong 42 2).length, 42, 2⟩ :=
  decodeOverlong_encodeOverlong 42 2 (by decide) [0xFF] 0 0

/-- **What the decoder does.** On a buffer that holds as many bytes as its first byte announces, the
decoder leaves everything as it was, or it consumes a number. The overlong count is then the number
of bytes beyond those of the compact form, and a number that fits into 32 bits is encoded as the
same bytes again. -/
theorem decodeOverlong_or_encode (ch : UInt8) (rest : List UInt8)
    (hlong : ch &&& 0x80 = 0 → markerIndex ch ≤ rest.length) (value : UInt32) (overlong : UInt8) :
    ∃ d : VaruintDecoded, varuintDecodeOverlong (ch :: rest) value overlong = .ok d ∧
      (d = ⟨0, value, overlong⟩ ∨
        1 ≤ d.consumed ∧ (varuintSize d.value).toNat ≤ d.consumed ∧
          d.overlong.toNat = d.consumed - (varuintSize d.value).toNat ∧
          (assembledBits ((ch :: rest).take d.consumed) < 2 ^ 32 →
            varuintEncodeOverlong d.value d.overlong = (ch :: rest).take d.consumed)) := by
  obtain ⟨n, tail, hbuf⟩ | hmalformed | ⟨n, missing, hmissing, hbytes⟩ := varuint_cases (ch :: rest)
  · rw [hbuf]
    refine ⟨_, varuintDecodeOverlong_append n tail value overlong, .inr ⟨n.length_bytes_pos,
      n.toNat_varuintSize_le, n.toNat_overlong, fun hfits => ?_⟩⟩
    rw [Varuint.decoded, List.take_left] at hfits ⊢
    exact n.encode_eq hfits
  · exact ⟨_, varuintDecodeOverlong_of_isMalformed hmalformed value overlong, .inl rfl⟩
  · obtain ⟨rfl, hcontinuation : n.continuation = rest ++ missing⟩ := List.cons.inj hbytes
    have hindex := hlong n.first_clear
    rw [← n.length_eq, hcontinuation, List.length_append] at hindex
    exact absurd (List.eq_nil_of_length_eq_zero (by omega)) hmissing

/-- An overlong form in front of a byte that does not belong to it. -/
theorem decodeOverlong_or_encode_apply :
    ∃ d : VaruintDecoded, varuintDecodeOverlong [0x40, 0x84, 0xFF] 7 7 = .ok d ∧
      (d = ⟨0, 7, 7⟩ ∨
        1 ≤ d.consumed ∧ (varuintSize d.value).toNat ≤ d.consumed ∧
          d.overlong.toNat = d.consumed - (varuintSize d.value).toNat ∧
          (assembledBits (List.take d.consumed [0x40, 0x84, 0xFF]) < 2 ^ 32 →
            varuintEncodeOverlong d.value d.overlong = List.take d.consumed [0x40, 0x84, 0xFF])) :=
  decodeOverlong_or_encode 0x40 [0x84, 0xFF] (fun _ => by decide) 7 7

end TellerOBC
