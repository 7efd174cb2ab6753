import Mathlib.Algebra.Group.Nat.Defs
import Mathlib.Algebra.Order.Ring.Nat
import Mathlib.Data.List.Basic

/-!
# Variable-length integers

`core/utils/varuint.c`: the encoding of unsigned integers in one to eight bytes, with its overlong
forms, and the incremental decoder. The first byte of a number has its most significant bit clear
and tells the number of bytes; the bytes that follow have it set, and are the last digits of the
number to the base 128. The decoder starts again with every first byte, whatever came before.

## Main definitions

* `TellerOBC.varuintSizeOverlong`, `TellerOBC.varuintSize`.
* `TellerOBC.varuintEncodeOverlong`, `TellerOBC.varuintEncode`.
* `TellerOBC.VaruintDecoder`, with `feed`, `getValue`, `getOverlong`.
* `TellerOBC.IsVaruint`: the decoder completes a number with the last one of its bytes.

## Main results

* `TellerOBC.varuintEncodeOverlong_of_size_one`, `TellerOBC.varuintEncodeOverlong_of_size`: the
  bytes of a number.
-/

namespace TellerOBC

/-! ### Sizes -/

/-- `uint8_pattern_t`. -/
structure UInt8Pattern where
  mask : UInt8
  pattern : UInt8
  deriving DecidableEq, Repr

/-- `MARKERS`: the first bytes of numbers of one to eight bytes, and a sentinel. -/
def markers : List UInt8Pattern := [
  ⟨0b11000000, 0b00000000⟩,
  ⟨0b11100000, 0b01000000⟩,
  ⟨0b11110000, 0b01100000⟩,
  ⟨0b11111000, 0b01110000⟩,
  ⟨0b11111100, 0b01111000⟩,
  ⟨0b11111110, 0b01111100⟩,
  ⟨0b11111111, 0b01111110⟩,
  ⟨0b11111111, 0b01111111⟩,
  ⟨0, 0⟩]

/-- The marker of numbers with one byte more than the index. -/
def marker (i : ℕ) : UInt8Pattern := markers.getD i ⟨0, 0⟩

/-- `THRESHOLDS`. -/
def thresholds : List UInt32 := [0x40, 0x1000, 0x40000, 0x1000000, 0x40000000]

/-- The index of the first threshold above a value, or their number. -/
def thresholdIndex (value : UInt32) : ℕ := thresholds.findIdx fun threshold => value < threshold

/-- `varuint_size_overlong`. -/
def varuintSizeOverlong (value : UInt32) (overlong : UInt8) : UInt8 :=
  UInt8.ofNat (thresholdIndex value) + overlong + 1

/-- `varuint_size`. -/
def varuintSize (value : UInt32) : UInt8 := varuintSizeOverlong value 0

/-! ### Encoding -/

/-- The loop of `varuint_encode_overlong`, which fills a buffer from its end: the last digits of a
number to the base 128, as bytes with their most significant bit set. -/
def continuationBytes : ℕ → UInt32 → List UInt8
  | 0, _ => []
  | i + 1, value => continuationBytes i (value >>> 7) ++ [0x80 ||| (value &&& 0x7F).toUInt8]

/-- The first byte after the loop. -/
def firstByte (size : ℕ) (byte : UInt8) : UInt8 :=
  (byte &&& ~~~(marker (size - 1)).mask) ||| (marker (size - 1)).pattern

/-- `varuint_encode_overlong`: the bytes that are written. -/
def varuintEncodeOverlong (value : UInt32) (overlong : UInt8) : List UInt8 :=
  let size := (varuintSizeOverlong value overlong).toNat
  if size = 1 then [(value &&& 0x3F).toUInt8]
  else
    match continuationBytes size value with
    | [] => []
    | byte :: bytes => firstByte size byte :: bytes

/-- `varuint_encode`. -/
def varuintEncode (value : UInt32) : List UInt8 := varuintEncodeOverlong value 0

/-! ### Incremental decoding -/

/-- `varuint_decoder_t`. -/
structure VaruintDecoder where
  value : UInt32
  bytesLeft : UInt8
  bytesRead : UInt8
  deriving DecidableEq, Repr

namespace VaruintDecoder

/-- `varuint_decoder_reset`. -/
def reset : VaruintDecoder := ⟨0, 0, 0⟩

variable (decoder : VaruintDecoder)

/-- `varuint_decoder_feed`: whether a number is complete. -/
def feed (ch : UInt8) : Bool × VaruintDecoder :=
  if ch &&& 0x80 = 0 then
    let i := markers.findIdx fun m => ch &&& m.mask = m.pattern
    if (marker i).mask = 0 then (false, decoder)
    else (i = 0, ⟨(ch &&& ~~~(marker i).mask).toUInt32, UInt8.ofNat i, 1⟩)
  else if decoder.bytesLeft > 0 then
    let left := decoder.bytesLeft - 1
    (left = 0, ⟨(decoder.value <<< 7) ||| (ch &&& 0x7F).toUInt32, left, decoder.bytesRead + 1⟩)
  else (false, decoder)

/-- `varuint_decoder_get_value`. -/
def getValue : UInt32 := decoder.value

/-- `varuint_decoder_get_overlong`. -/
def getOverlong : UInt8 := decoder.bytesRead - varuintSize decoder.value

/-- The decoder after bytes of which none completes a number. -/
inductive Feeds : VaruintDecoder → List UInt8 → VaruintDecoder → Prop
  | nil (d : VaruintDecoder) : Feeds d [] d
  | cons {d d' d'' : VaruintDecoder} {ch : UInt8} {bytes : List UInt8}
    (h : d.feed ch = (false, d')) (hrest : Feeds d' bytes d'') : Feeds d (ch :: bytes) d''

end VaruintDecoder

/-- The bytes are those of a number with its overlong count: the decoder is in the same state after
them whatever came before, and completes the number with the last one of them and not before. -/
def IsVaruint (bytes : List UInt8) (value : UInt32) (overlong : UInt8) : Prop :=
  ∃ init last, bytes = init ++ [last] ∧ ∀ d : VaruintDecoder, ∃ d' d'' : VaruintDecoder,
    d.Feeds init d' ∧ d'.feed last = (true, d'') ∧ d''.getValue = value ∧
      d''.getOverlong = overlong

/-! ### Digits -/

/-- The last digits of a number to the base 128, as bytes with their most significant bit set. -/
def digits : ℕ → ℕ → List UInt8
  | 0, _ => []
  | n + 1, v => digits n (v / 128) ++ [UInt8.ofNat (v % 128 + 128)]

/-- The seven bits of a digit. -/
theorem or_byte : ∀ e < 128, 0x80 ||| UInt8.ofNat e = UInt8.ofNat (e + 128) := by decide +kernel

theorem continuationBytes_eq (n : ℕ) (value : UInt32) :
    continuationBytes n value = digits n value.toNat := by
  induction n generalizing value with
  | zero => rfl
  | succ n ih =>
    have hdigit : (value &&& 0x7F).toUInt8 = UInt8.ofNat (value.toNat % 128) := by
      have hand : (value &&& 0x7F).toNat = value.toNat % 128 := by
        rw [UInt32.toNat_and]
        exact Nat.and_two_pow_sub_one_eq_mod _ 7
      rw [← hand]
      rfl
    have hshift : (value >>> 7).toNat = value.toNat / 128 := by
      rw [UInt32.toNat_shiftRight, Nat.shiftRight_eq_div_pow]
      rfl
    rw [continuationBytes, digits, ih, hshift, hdigit, or_byte _ (Nat.mod_lt _ (by decide))]

/-- The first digit of a number. -/
theorem digits_succ (n v : ℕ) :
    digits (n + 1) v = UInt8.ofNat (v / 128 ^ n % 128 + 128) :: digits n v := by
  induction n generalizing v with
  | zero =>
    rw [pow_zero, Nat.div_one]
    rfl
  | succ n ih =>
    calc digits (n + 2) v
        = digits (n + 1) (v / 128) ++ [UInt8.ofNat (v % 128 + 128)] := rfl
      _ = UInt8.ofNat (v / 128 / 128 ^ n % 128 + 128) :: digits (n + 1) v := by rw [ih]; rfl
      _ = UInt8.ofNat (v / 128 ^ (n + 1) % 128 + 128) :: digits (n + 1) v := by
        rw [Nat.div_div_eq_div_mul, ← pow_succ']

namespace VaruintDecoder

theorem continuation_byte : ∀ e < 128, UInt8.ofNat (e + 128) &&& 0x80 ≠ 0 := by decide +kernel

theorem shift_or_ofNat (x : ℕ) {e : ℕ} (he : e < 128) :
    (UInt32.ofNat x <<< 7) ||| UInt32.ofNat e = UInt32.ofNat (x * 128 + e) := by
  have hshift : UInt32.ofNat x <<< 7 = UInt32.ofNat (x <<< 7) := by
    apply UInt32.toNat.inj
    simp only [UInt32.toNat_shiftLeft, UInt32.toNat_ofNat', Nat.shiftLeft_eq, UInt32.reduceToNat,
      Nat.reduceMod, Nat.reducePow]
    omega
  have hor : x * 128 + e = x <<< 7 ||| e := by
    rw [← Nat.shiftLeft_add_eq_or_of_lt (i := 7) he, Nat.shiftLeft_eq]
  rw [hshift, hor, UInt32.ofNat_or]

/-- The first byte of a number of two to eight bytes. -/
theorem first_byte : ∀ i < 7, ∀ b < 2 ^ (5 - i),
    let ch := firstByte (i + 2) (UInt8.ofNat (b + 128))
    ch &&& 0x80 = 0 ∧ markers.findIdx (fun m => ch &&& m.mask = m.pattern) = i + 1 ∧
      (ch &&& ~~~(marker (i + 1)).mask).toUInt32 = UInt32.ofNat b := by
  decide +kernel

end VaruintDecoder

/-! ### Encoded numbers -/

theorem thresholdIndex_le (value : UInt32) : thresholdIndex value ≤ 5 :=
  List.findIdx_le_length

/-- A value fits into the digits of its compact form. -/
theorem toNat_lt_of_thresholdIndex (value : UInt32) :
    value.toNat < 2 ^ (6 * (thresholdIndex value + 1)) := by
  have hlt := value.toNat_lt
  simp only [thresholdIndex, thresholds, List.findIdx_cons, List.findIdx_nil,
    UInt32.lt_iff_toNat_lt, UInt32.reduceToNat]
  by_cases h₁ : value.toNat < 64
  · simp [h₁]
  by_cases h₂ : value.toNat < 4096
  · simp [h₁, h₂]
  by_cases h₃ : value.toNat < 262144
  · simp [h₁, h₂, h₃]
  by_cases h₄ : value.toNat < 16777216
  · simp [h₁, h₂, h₃, h₄]
  by_cases h₅ : value.toNat < 1073741824
  · simp [h₁, h₂, h₃, h₄, h₅]
  · simp only [h₁, h₂, h₃, h₄, h₅, decide_false, cond_false]
    omega

theorem toNat_varuintSizeOverlong {value : UInt32} {overlong : UInt8}
    (hsize : thresholdIndex value + overlong.toNat + 1 ≤ 8) :
    (varuintSizeOverlong value overlong).toNat = thresholdIndex value + overlong.toNat + 1 := by
  rw [varuintSizeOverlong, UInt8.toNat_add, UInt8.toNat_add, UInt8.toNat_ofNat']
  change ((thresholdIndex value % 256 + overlong.toNat) % 256 + 1) % 256 = _
  omega

theorem varuintEncodeOverlong_of_size_one {value : UInt32} {overlong : UInt8}
    (hsize : (varuintSizeOverlong value overlong).toNat = 1) (hvalue : value.toNat < 64) :
    varuintEncodeOverlong value overlong = [UInt8.ofNat value.toNat] := by
  have hand : (value &&& 0x3F).toNat = value.toNat := by
    rw [UInt32.toNat_and]
    exact (Nat.and_two_pow_sub_one_eq_mod _ 6).trans (Nat.mod_eq_of_lt hvalue)
  rw [varuintEncodeOverlong, if_pos hsize, ← hand]
  rfl

theorem varuintEncodeOverlong_of_size {value : UInt32} {overlong : UInt8} {i : ℕ}
    (hsize : (varuintSizeOverlong value overlong).toNat = i + 2) :
    varuintEncodeOverlong value overlong =
      firstByte (i + 2) (UInt8.ofNat (value.toNat / 128 ^ (i + 1) % 128 + 128)) ::
        digits (i + 1) value.toNat := by
  rw [varuintEncodeOverlong, hsize, if_neg (by omega), continuationBytes_eq, digits_succ]

/-- The bits that the first byte has room for suffice for the first digit. -/
theorem firstDigit_lt {value : UInt32} {overlong : UInt8} {i : ℕ}
    (hsize : thresholdIndex value + overlong.toNat + 1 = i + 2) (hi : i < 7) :
    value.toNat / 128 ^ (i + 1) < 2 ^ (5 - i) := by
  have hle := thresholdIndex_le value
  have hpow : 2 ^ (6 * (thresholdIndex value + 1)) ≤ 128 ^ (i + 1) * 2 ^ (5 - i) := by
    rw [show 128 = 2 ^ 7 from rfl, ← pow_mul, ← pow_add]
    exact Nat.pow_le_pow_right (by decide) (by omega)
  exact Nat.div_lt_of_lt_mul ((toNat_lt_of_thresholdIndex value).trans_le hpow)

end TellerOBC
