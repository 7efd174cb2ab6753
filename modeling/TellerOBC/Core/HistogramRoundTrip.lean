import TellerOBC.Core.HistogramUnpack

/-!
# Packing and unpacking histograms

A packed histogram is a concatenation of varuints, one for each of its tokens. A varuint stands for
the bins of its token: counts are packed in their compact form, runs of zeros in the first overlong
form of their length. So unpacking gives back the histogram, and the sizes that buffers are
allocated with are right.

## Main results

* `TellerOBC.exists_varuints_of_pack`: a packed histogram is a concatenation of varuints.
* `TellerOBC.ends_unpack_pack`: unpacking after packing.
* `TellerOBC.packedSize_and_unpackedSize`: the sizes.
-/

namespace TellerOBC

open CheckedMemory FallibleLoop HistogramToken

/-- A count has two bytes, hence a compact form of at most three bytes. -/
theorem thresholdIndex_toUInt32_le (value : UInt16) : thresholdIndex value.toUInt32 ≤ 2 := by
  refine thresholdIndex_le_of_lt ?_
  rw [UInt16.toNat_toUInt32]
  exact value.toNat_lt.trans (by decide)

/-- The varuint of a token stands for the bins of the token. -/
theorem exists_varuint_of_token {t : HistogramToken} :
    ∃ n : Varuint, n.bytes = t.encode ∧ n.cells = t.expand := by
  cases t with
  | count value =>
    have hle := thresholdIndex_toUInt32_le value
    obtain ⟨n, hbytes, hvalue, hoverlong⟩ := exists_varuint_of_encode value.toUInt32 0
      (by rw [UInt8.toNat_zero]; omega)
    refine ⟨n, hbytes, ?_⟩
    have hfits : value.toUInt32 ≤ 0xFFFF := by
      rw [UInt32.le_iff_toNat_le, UInt16.toNat_toUInt32]
      exact Nat.le_of_lt_succ value.toNat_lt
    rw [Varuint.cells, hvalue, hoverlong, histogramCells, if_neg (not_not.mpr rfl), if_pos hfits,
      UInt16.toUInt16_toUInt32, expand]
  | zeros runLength =>
    have hle := thresholdIndex_le runLength
    obtain ⟨n, hbytes, hvalue, hoverlong⟩ := exists_varuint_of_encode runLength 1
      (by rw [UInt8.toNat_one]; omega)
    refine ⟨n, hbytes, ?_⟩
    rw [Varuint.cells, hvalue, hoverlong, histogramCells, if_pos (by decide), expand]

theorem exists_varuints_of_tokens (ts : List HistogramToken) :
    ∃ ns, concatenation ns = ts.flatMap encode ∧ ns.flatMap Varuint.cells = ts.flatMap expand := by
  induction ts with
  | nil => exact ⟨[], rfl, rfl⟩
  | cons t ts ih =>
    obtain ⟨n, hbytes, hcells⟩ := exists_varuint_of_token (t := t)
    obtain ⟨ns, hrest, hrestCells⟩ := ih
    refine ⟨n :: ns, ?_, ?_⟩
    · rw [concatenation_cons, hbytes, hrest, List.flatMap_cons]
    · rw [List.flatMap_cons, hcells, hrestCells, List.flatMap_cons]

/-- A packed histogram is a concatenation of varuints that stand for its bins. -/
theorem exists_varuints_of_pack (h : List UInt16) :
    ∃ ns, concatenation ns = histogramPack h ∧ ns.flatMap Varuint.cells = h := by
  obtain ⟨ns, hbytes, hcells⟩ := exists_varuints_of_tokens (histogramTokens h)
  exact ⟨ns, hbytes.trans (histogramPack_eq h).symm, hcells.trans (expand_histogramTokens h)⟩

variable (x : UInt32) (overlong : UInt8)

/-- **Round trip.** Unpacking a packed histogram writes the histogram, whatever is behind the buffer
in memory. -/
theorem ends_unpack_pack (h : List UInt16) (beyond : List UInt8) :
    Ends (histogramUnpack (histogramPack h ++ beyond) (histogramPack h).length x overlong)
      (.ok h) := by
  obtain ⟨ns, hbytes, hcells⟩ := exists_varuints_of_pack h
  rw [← hbytes, ends_unpack_concatenation, hcells]

theorem ends_unpackedSize_pack {sizeBits : ℕ} {h : List UInt16} (hlength : h.length < 2 ^ sizeBits)
    (beyond : List UInt8) :
    Ends (histogramGetUnpackedSize sizeBits (histogramPack h ++ beyond) (histogramPack h).length x
      overlong) (.ok h.length) := by
  obtain ⟨ns, hbytes, hcells⟩ := exists_varuints_of_pack h
  rw [← hbytes, ends_unpackedSize_concatenation, hcells, Nat.mod_eq_of_lt hlength]

/-- **The sizes are right.** Where a `size_t` has at least 32 bits, the packed size of a histogram
of less than `2 ^ 32` bins is the number of bytes that are written, and the unpacked size of these
bytes is the number of bins. For any varuints that stand for less than `2 ^ 32` bins, the unpacked
size is the number of bins that are written. -/
theorem packedSize_and_unpackedSize {sizeBits : ℕ} (hbits : 32 ≤ sizeBits) (beyond : List UInt8) :
    (∀ h : List UInt16, h.length < 2 ^ 32 →
      histogramGetPackedSize h = (histogramPack h).length ∧
        Ends (histogramGetUnpackedSize sizeBits (histogramPack h ++ beyond)
          (histogramPack h).length x overlong) (.ok h.length)) ∧
    ∀ ns : List Varuint, (ns.flatMap Varuint.cells).length < 2 ^ 32 →
      ∃ written,
        Ends (histogramUnpack (concatenation ns ++ beyond) (concatenation ns).length x overlong)
          (.ok written) ∧
        Ends (histogramGetUnpackedSize sizeBits (concatenation ns ++ beyond)
          (concatenation ns).length x overlong) (.ok written.length) := by
  have hpow : 2 ^ 32 ≤ 2 ^ sizeBits := Nat.pow_le_pow_right (by decide) hbits
  refine ⟨fun h hlength => ⟨histogramGetPackedSize_eq h, ?_⟩, fun ns hlength =>
    ⟨ns.flatMap Varuint.cells, ?_, ?_⟩⟩
  · exact ends_unpackedSize_pack x overlong (hlength.trans_le hpow) beyond
  · exact (ends_unpack_concatenation ns beyond x overlong).mpr rfl
  · rw [ends_unpackedSize_concatenation, Nat.mod_eq_of_lt (hlength.trans_le hpow)]

/-- A run of four zeros in two bytes. -/
def fourZeros : Varuint := ⟨0x40, [0x84], by decide, by decide +kernel, by decide⟩

/-- A histogram, and a run of four zeros, with a `size_t` of 32 bits. -/
theorem packedSize_and_unpackedSize_apply :
    (histogramGetPackedSize [1337, 0, 42, 0, 0] = (histogramPack [1337, 0, 42, 0, 0]).length ∧
      Ends (histogramGetUnpackedSize 32 (histogramPack [1337, 0, 42, 0, 0] ++ [0x40])
        (histogramPack [1337, 0, 42, 0, 0]).length 0 0) (.ok 5)) ∧
    ∃ written,
      Ends (histogramUnpack (concatenation [fourZeros] ++ [0x40])
        (concatenation [fourZeros]).length 0 0) (.ok written) ∧
      Ends (histogramGetUnpackedSize 32 (concatenation [fourZeros] ++ [0x40])
        (concatenation [fourZeros]).length 0 0) (.ok written.length) :=
  ⟨(packedSize_and_unpackedSize 0 0 le_rfl [0x40]).1 _ (by decide),
    (packedSize_and_unpackedSize 0 0 le_rfl [0x40]).2 _ (by decide +kernel)⟩

end TellerOBC
