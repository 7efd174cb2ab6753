import TellerOBC.Foundations.ShiftRegister
import TellerOBC.Core.Crc

/-!
# The polynomials of the checksums

The checksums of `core/utils/crc.c` take a byte at a time from a table. Here they are the shift
registers of their polynomials, which take a bit at a time. CRC-CCITT is reflected: it takes the
least significant bit of each byte first, and the low byte of the register selects the entry of
the table. The checksums of the SD card take the most significant bit first. The register of CRC7
is shorter than a byte, so that all of it enters the index of the table.

## Main definitions

* `TellerOBC.bitsLsbFirst`, `TellerOBC.bitsMsbFirst`: the bits of a buffer in their order.

## Main results

* `TellerOBC.checksums_are_bitwise`: the three checksums, bit by bit.
-/

namespace TellerOBC

open ShiftRegister

/-- The bits of a buffer, the least significant bit of each byte first. -/
def bitsLsbFirst (buf : List UInt8) : List Bool :=
  buf.flatMap fun byte => lsbFirst byte.toBitVec

/-- The bits of a buffer, the most significant bit of each byte first. -/
def bitsMsbFirst (buf : List UInt8) : List Bool :=
  buf.flatMap fun byte => msbFirst byte.toBitVec

/-- The register of CRC-CCITT. -/
def ccitt : ShiftRegister 16 := reflected 0x8408#16

/-- The register of CRC-XMODEM. -/
def xmodem : ShiftRegister 16 := direct 0x1021#16

/-- The register of CRC7. -/
def crc7 : ShiftRegister 7 := direct 0x09#7

/-! ### The tables -/

theorem crcCcittTab_eq : ∀ i : BitVec 8,
    (crcCcittTab.getD i.toNat 0).toBitVec = ccitt.feed 0#16 (lsbFirst i) := by
  decide +kernel

theorem crcXmodemTab_eq : ∀ i : BitVec 8,
    (crcXmodemTab.getD i.toNat 0).toBitVec = xmodem.feed 0#16 (msbFirst i) := by
  decide +kernel

theorem crc7SdTab_eq : ∀ i : BitVec 8,
    (crc7SdTab.getD i.toNat 0).toBitVec = (crc7.feed 0#7 (msbFirst i)).setWidth 8 := by
  decide +kernel

/-! ### One byte -/

/-- The bits that leave the register of CRC-CCITT are its low byte. -/
theorem outBits_ccitt (x : BitVec 16) : ccitt.outBits 8 x = lsbFirst (x.setWidth 8) := by
  rw [ccitt, outBits_reflected, lsbFirst]
  refine List.map_congr_left fun i hi => ?_
  rw [List.mem_range] at hi
  simp [hi]

/-- The bits that leave the register of CRC-XMODEM are its high byte. -/
theorem outBits_xmodem (x : BitVec 16) :
    xmodem.outBits 8 x = msbFirst ((x >>> 8).setWidth 8) := by
  rw [xmodem, outBits_direct, msbFirst]
  refine List.map_congr_left fun i hi => ?_
  rw [List.mem_range] at hi
  have h7 : 7 - i < 8 := by omega
  simp [BitVec.getMsbD_eq_getLsbD, hi, h7, show i < 16 by omega, show 15 - i = 8 + (7 - i) by omega]

/-- The bits that leave the register of CRC7 are its seven bits and a zero. -/
theorem outBits_crc7 (x : BitVec 7) : crc7.outBits 8 x = msbFirst (x.setWidth 8 <<< 1) := by
  rw [crc7, outBits_direct, msbFirst]
  refine List.map_congr_left fun i hi => ?_
  rw [List.mem_range] at hi
  by_cases hlast : i = 7
  · simp [hlast, BitVec.getMsbD_eq_getLsbD]
  · have h7 : 7 - i < 8 := by omega
    simp [BitVec.getMsbD_eq_getLsbD, hi, h7, show i < 7 by omega, show 7 - i ≠ 0 by omega,
      show 7 - i - 1 = 6 - i by omega]

theorem toBitVec_crcCcittStep (crc : UInt16) (byte : UInt8) :
    (crcCcittStep crc byte).toBitVec = ccitt.feed crc.toBitVec (lsbFirst byte.toBitVec) := by
  have hindex : ((crc ^^^ byte.toUInt16) &&& 0xff).toNat =
      (crc.toBitVec.setWidth 8 ^^^ byte.toBitVec).toNat := by
    rw [toNat_and_ff, UInt16.toNat_xor, UInt8.toNat_toUInt16, Nat.xor_mod_two_pow,
      Nat.mod_eq_of_lt byte.toNat_lt, BitVec.toNat_xor, BitVec.toNat_setWidth]
    rfl
  rw [feed_eq, length_lsbFirst, outBits_ccitt, zipWith_xor_lsbFirst, ← crcCcittTab_eq,
    crcCcittStep, hindex, ccitt, iterate_shift_reflected]
  rfl

theorem toBitVec_crcXmodemStep (crc : UInt16) (byte : UInt8) :
    (crcXmodemStep crc byte).toBitVec = xmodem.feed crc.toBitVec (msbFirst byte.toBitVec) := by
  have hindex : (((crc >>> 8) ^^^ byte.toUInt16) &&& 0xff).toNat =
      ((crc.toBitVec >>> 8).setWidth 8 ^^^ byte.toBitVec).toNat := by
    rw [toNat_and_ff, UInt16.toNat_xor, UInt8.toNat_toUInt16, Nat.xor_mod_two_pow,
      Nat.mod_eq_of_lt byte.toNat_lt, BitVec.toNat_xor, BitVec.toNat_setWidth]
    rfl
  rw [feed_eq, length_msbFirst, outBits_xmodem, zipWith_xor_msbFirst, ← crcXmodemTab_eq,
    crcXmodemStep, hindex, xmodem, iterate_shift_direct]
  rfl

/-- The shift register of CRC7 keeps nothing of its contents over a byte but the index. -/
theorem toBitVec_crc7SdStep (crc : BitVec 7) (byte : UInt8) :
    (crc7SdStep ⟨crc.setWidth 8⟩ byte).toBitVec =
      (crc7.feed crc (msbFirst byte.toBitVec)).setWidth 8 := by
  have hindex : (byte ^^^ ((⟨crc.setWidth 8⟩ : UInt8) <<< 1)).toNat =
      (crc.setWidth 8 <<< 1 ^^^ byte.toBitVec).toNat := by
    rw [BitVec.xor_comm]
    rfl
  have hshift : crc <<< 8 = 0#7 := BitVec.shiftLeft_eq_zero (by omega)
  rw [feed_eq, length_msbFirst, outBits_crc7, zipWith_xor_msbFirst, crc7SdStep, hindex,
    crc7SdTab_eq, crc7, iterate_shift_direct, hshift, BitVec.zero_xor]

/-! ### Whole buffers -/

theorem toBitVec_crcCcitt (crc : UInt16) (buf : List UInt8) :
    (crcCcitt crc buf).toBitVec = ccitt.feed crc.toBitVec (bitsLsbFirst buf) := by
  induction buf generalizing crc with
  | nil => rfl
  | cons byte buf ih =>
    rw [bitsLsbFirst, List.flatMap_cons, feed_append, ← toBitVec_crcCcittStep]
    exact ih (crcCcittStep crc byte)

theorem toBitVec_crcXmodem (crc : UInt16) (buf : List UInt8) :
    (crcXmodem crc buf).toBitVec = xmodem.feed crc.toBitVec (bitsMsbFirst buf) := by
  induction buf generalizing crc with
  | nil => rfl
  | cons byte buf ih =>
    rw [bitsMsbFirst, List.flatMap_cons, feed_append, ← toBitVec_crcXmodemStep]
    exact ih (crcXmodemStep crc byte)

theorem toBitVec_crc7Sd (crc : BitVec 7) (buf : List UInt8) :
    (crc7Sd ⟨crc.setWidth 8⟩ buf).toBitVec = (crc7.feed crc (bitsMsbFirst buf)).setWidth 8 := by
  induction buf generalizing crc with
  | nil => rfl
  | cons byte buf ih =>
    have hstep : crc7SdStep ⟨crc.setWidth 8⟩ byte =
        ⟨(crc7.feed crc (msbFirst byte.toBitVec)).setWidth 8⟩ :=
      UInt8.toBitVec_inj.mp (toBitVec_crc7SdStep crc byte)
    rw [bitsMsbFirst, List.flatMap_cons, feed_append, ← bitsMsbFirst, ← ih, ← hstep]
    rfl

/-- The two bytes that take CRC-CCITT to zero are the checksum, low byte first. -/
theorem checksum_unique {crc : UInt16} {low high : UInt8} (h : crcCcitt crc [low, high] = 0) :
    low = (crc &&& 0xff).toUInt8 ∧ high = (crc >>> 8).toUInt8 := by
  have hlen : (bitsLsbFirst [low, high]).length ≤ 16 := by simp [bitsLsbFirst]
  have hbits := getLsbD_of_feed_eq_zero (show (0x8408#16).msb = true from rfl) hlen
    ((toBitVec_crcCcitt crc [low, high]).symm.trans (congrArg UInt16.toBitVec h))
  have hmask : ∀ i < 8, (0xff#8).getLsbD i = true := by decide
  constructor
  · refine UInt8.toBitVec_inj.mp (BitVec.eq_of_getLsbD_eq fun i hi => ?_)
    have hbit : low.toBitVec.getLsbD i = crc.toBitVec.getLsbD i := by
      rw [hbits i]
      simp [bitsLsbFirst, lsbFirst, List.getElem?_append_left, hi]
    rw [hbit]
    simpa [hi] using fun _ => hmask i hi
  · refine UInt8.toBitVec_inj.mp (BitVec.eq_of_getLsbD_eq fun i hi => ?_)
    have hbit : high.toBitVec.getLsbD i = crc.toBitVec.getLsbD (8 + i) := by
      rw [hbits (8 + i)]
      simp [bitsLsbFirst, lsbFirst, List.getElem?_append_right, hi]
    rw [hbit]
    simp [hi]

/-- **The checksums, bit by bit.** From any value of the register and for any buffer, `crcCcitt` is
the reflected CRC of the polynomial 0x8408, `crcXmodem` the CRC of the polynomial 0x1021 and
`crc7Sd` the seven bit CRC of the polynomial 0x09. -/
theorem checksums_are_bitwise (buf : List UInt8) :
    (∀ crc : UInt16, (crcCcitt crc buf).toBitVec =
      (reflected 0x8408#16).feed crc.toBitVec (bitsLsbFirst buf)) ∧
    (∀ crc : UInt16, (crcXmodem crc buf).toBitVec =
      (direct 0x1021#16).feed crc.toBitVec (bitsMsbFirst buf)) ∧
    ∀ crc : BitVec 7, (crc7Sd ⟨crc.setWidth 8⟩ buf).toBitVec =
      ((direct 0x09#7).feed crc (bitsMsbFirst buf)).setWidth 8 :=
  ⟨fun crc => toBitVec_crcCcitt crc buf, fun crc => toBitVec_crcXmodem crc buf,
    fun crc => toBitVec_crc7Sd crc buf⟩

end TellerOBC
