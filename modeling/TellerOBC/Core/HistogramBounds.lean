import TellerOBC.Core.Histogram
import TellerOBC.Foundations.CheckedMemory

/-!
# Packing into a buffer

`histogram_pack` of `core/utils/histogram.c` and `varuint_encode_overlong` of
`core/utils/varuint.c` write to a buffer whose size they do not know. Here the buffer is an array,
and a write outside of it is a fault. A number is written from its last byte to its first one, and
the first byte is then modified.

Where the packed histogram fits into the rest of the buffer there is no fault, and the bytes are
those of `TellerOBC.histogramPack`. The caller knows that they fit from
`TellerOBC.histogramGetPackedSize`.

## Main definitions

* `TellerOBC.varuintEncodeOverlongAt`, `TellerOBC.histogramPackAt`: the functions with their writes.

## Main results

* `TellerOBC.writesBehind_histogramPackAt`: what is written.
-/

namespace TellerOBC

open CheckedMemory

variable {n : ℕ}

/-! ### Numbers -/

/-- The loop of `varuint_encode_overlong` from the byte before the index `i` down to the first one
of the number. -/
def writeContinuationBytes (buf : Vector UInt8 n) (first : ℕ) :
    ℕ → UInt32 → Except Fault (Vector UInt8 n)
  | 0, _ => return buf
  | i + 1, value => do
    let buf ← writeRange buf (first + i) [0x80 ||| (value &&& 0x7F).toUInt8]
    writeContinuationBytes buf first i (value >>> 7)

/-- `varuint_encode_overlong`: the buffer and the pointer behind the number. -/
def varuintEncodeOverlongAt (buf : Vector UInt8 n) (first : ℕ) (value : UInt32) (overlong : UInt8) :
    Except Fault (Vector UInt8 n × ℕ) :=
  let size := (varuintSizeOverlong value overlong).toNat
  if size = 1 then do
    let buf ← writeRange buf first [(value &&& 0x3F).toUInt8]
    return (buf, first + size)
  else do
    let buf ← writeContinuationBytes buf first size value
    let byte ← readAt buf.toList first
    let buf ← writeRange buf first [firstByte size byte]
    return (buf, first + size)

section

variable {buf : Vector UInt8 n} {l m : List UInt8}

theorem exists_writeContinuationBytes (hbuf : buf.toList = l ++ m) {i : ℕ} (hi : i ≤ m.length)
    (value : UInt32) :
    ∃ buf', writeContinuationBytes buf l.length i value = .ok buf' ∧
      buf'.toList = l ++ continuationBytes i value ++ m.drop i := by
  induction i generalizing buf m value with
  | zero => exact ⟨buf, rfl, by rw [continuationBytes, List.append_nil, List.drop_zero, hbuf]⟩
  | succ i ih =>
    -- the byte at the index `i` splits the rest of the buffer
    have htake : (m.take i).length = i := List.length_take_of_le (Nat.le_of_succ_le hi)
    have hsplit : buf.toList = (l ++ m.take i) ++ m.drop i := by
      rw [List.append_assoc, List.take_append_drop, hbuf]
    obtain ⟨buf', hwrite, hbuf'⟩ := exists_writeRange hsplit
      [0x80 ||| (value &&& 0x7F).toUInt8] (by rw [List.length_drop, List.length_singleton]; omega)
    rw [List.length_append, htake] at hwrite
    rw [List.length_singleton, List.drop_drop, List.append_assoc, List.append_assoc] at hbuf'
    obtain ⟨buf'', hrest, hbuf''⟩ := ih hbuf'
      (by rw [List.length_append, htake]; exact Nat.le_add_right ..) (value >>> 7)
    refine ⟨buf'', ?_, ?_⟩
    · rw [writeContinuationBytes, hwrite]
      exact hrest
    · rw [hbuf'', continuationBytes, List.drop_left' htake]
      simp only [List.append_assoc]

/-- A number that fits into the rest of the buffer. -/
theorem writesBehind_varuintEncodeOverlongAt (hbuf : buf.toList = l ++ m) (value : UInt32)
    {overlong : UInt8} (hoverlong : overlong.toNat ≤ 1)
    (hfits : (varuintEncodeOverlong value overlong).length ≤ m.length) :
    WritesBehind l m (varuintEncodeOverlong value overlong)
      (varuintEncodeOverlongAt buf l.length value overlong) := by
  have hlength := length_varuintEncodeOverlong value overlong
  have hthreshold := thresholdIndex_le value
  have hsize : (varuintSizeOverlong value overlong).toNat =
      thresholdIndex value + overlong.toNat + 1 := toNat_varuintSizeOverlong (by omega)
  by_cases hone : (varuintSizeOverlong value overlong).toNat = 1
  · obtain ⟨buf', hwrite, hbuf'⟩ := exists_writeRange hbuf [(value &&& 0x3F).toUInt8]
      (by rw [List.length_singleton]; omega)
    rw [varuintEncodeOverlongAt, varuintEncodeOverlong, if_pos hone, if_pos hone, hwrite, hone]
    exact ⟨buf', rfl, hbuf'⟩
  · obtain ⟨buf', hdigits, hbuf'⟩ := exists_writeContinuationBytes hbuf (hlength ▸ hfits) value
    obtain ⟨byte, bytes, hbytes⟩ : ∃ byte bytes,
        continuationBytes (varuintSizeOverlong value overlong).toNat value = byte :: bytes := by
      refine List.exists_cons_of_length_pos ?_
      rw [continuationBytes_eq, length_digits, hsize]
      exact Nat.succ_pos _
    have hencode : varuintEncodeOverlong value overlong =
        firstByte (varuintSizeOverlong value overlong).toNat byte :: bytes := by
      rw [varuintEncodeOverlong, if_neg hone, hbytes]
    -- the first byte is read and modified
    rw [hbytes, List.append_assoc] at hbuf'
    have hread : readAt buf'.toList l.length = .ok byte := by
      rw [readAt, hbuf', List.getElem?_append_right (Nat.le_refl _), Nat.sub_self]
      rfl
    obtain ⟨buf'', hwrite, hbuf''⟩ := exists_writeRange hbuf'
      [firstByte (varuintSizeOverlong value overlong).toNat byte] (Nat.le_add_left 1 _)
    refine ⟨buf'', ?_, ?_⟩
    · rw [varuintEncodeOverlongAt, if_neg hone, hdigits]
      dsimp only [bind, Except.bind]
      rw [hread, hlength]
      dsimp only
      rw [hwrite]
      rfl
    · rw [hbuf'', hlength, hencode, List.append_assoc, List.append_assoc]
      rfl

end

/-! ### Histograms -/

/-- `histogram_pack` from a place in the buffer on: the buffer and the pointer behind what is
written. -/
def histogramPackAt (buf : Vector UInt8 n) (writePtr : ℕ) :
    List UInt16 → Except Fault (Vector UInt8 n × ℕ)
  | [] => return (buf, writePtr)
  | x :: xs =>
    if x ≠ 0 then do
      let written ← varuintEncodeOverlongAt buf writePtr x.toUInt32 0
      histogramPackAt written.1 written.2 xs
    else
      let run := zeroRun xs 1
      (if run.1 > 1 then varuintEncodeOverlongAt buf writePtr run.1 1
        else varuintEncodeOverlongAt buf writePtr 0 0) >>= fun written =>
          histogramPackAt written.1 written.2 run.2
termination_by xs => xs.length
decreasing_by
  · exact Nat.lt_succ_self _
  · exact Nat.lt_succ_of_le (length_zeroRun_le xs 1)

/-- **A histogram that fits into the rest of the buffer** is packed without a fault. -/
theorem writesBehind_histogramPackAt (h : List UInt16) {buf : Vector UInt8 n} {l m : List UInt8}
    (hbuf : buf.toList = l ++ m) (hfits : (histogramPack h).length ≤ m.length) :
    WritesBehind l m (histogramPack h) (histogramPackAt buf l.length h) := by
  fun_induction histogramPack h generalizing buf l m with
  | case1 =>
    rw [histogramPackAt]
    exact writesBehind_nil hbuf
  | case2 x xs hx ih =>
    rw [List.length_append] at hfits
    rw [histogramPackAt, if_pos hx]
    refine (writesBehind_varuintEncodeOverlongAt hbuf _ (by decide)
      (Nat.le_of_add_right_le hfits)).bind fun buf' hbuf' => ih hbuf' ?_
    rw [List.length_drop]
    exact Nat.le_sub_of_add_le' hfits
  | case3 x xs hx run =>
    rename_i ih
    rw [List.length_append] at hfits
    have hnumber : WritesBehind l m
        (if run.1 > 1 then varuintEncodeOverlong run.1 1 else varuintEncode 0)
        (if run.1 > 1 then varuintEncodeOverlongAt buf l.length run.1 1
          else varuintEncodeOverlongAt buf l.length 0 0) := by
      have hfirst := Nat.le_of_add_right_le hfits
      split_ifs at hfirst ⊢
      · exact writesBehind_varuintEncodeOverlongAt hbuf _ (by decide) hfirst
      · exact writesBehind_varuintEncodeOverlongAt hbuf _ (by decide) hfirst
    rw [histogramPackAt, if_neg hx]
    refine hnumber.bind fun buf' hbuf' => ih hbuf' ?_
    rw [List.length_drop]
    exact Nat.le_sub_of_add_le' hfits

end TellerOBC
