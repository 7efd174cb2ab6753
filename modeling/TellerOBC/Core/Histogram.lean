import TellerOBC.Core.Varuint

/-!
# Packed histograms

`histogram_pack` and `histogram_get_packed_size` of `core/utils/histogram.c`. A bin is packed as
its count, and a run of empty bins as the first overlong form of its length, except for a run of
one bin. Sizes are not bounded here.

What is packed is the sequence of the tokens of the histogram, counts and runs of zeros.

## Main definitions

* `TellerOBC.histogramPack`, `TellerOBC.histogramGetPackedSize`.
* `TellerOBC.HistogramToken`, `TellerOBC.histogramTokens`: the tokens of a histogram.

## Main results

* `TellerOBC.histogramPack_eq`, `TellerOBC.expand_histogramTokens`: a packed histogram consists of
  its tokens, and these expand to the histogram.
* `TellerOBC.histogramGetPackedSize_eq`: the size is that of the packed histogram.
-/

namespace TellerOBC

/-- The inner loop: the length of a run of zeros, and what comes after it. The length counts what
came before. -/
def zeroRun : List UInt16 → UInt32 → UInt32 × List UInt16
  | [], runLength => (runLength, [])
  | x :: xs, runLength =>
    if x = 0 ∧ runLength < 0xFFFFFFFF then zeroRun xs (runLength + 1) else (runLength, x :: xs)

/-- The run is at the start of the list. -/
theorem zeroRun_spec (xs : List UInt16) (runLength : UInt32) :
    ∃ k, (zeroRun xs runLength).1.toNat = runLength.toNat + k ∧
      xs = List.replicate k 0 ++ (zeroRun xs runLength).2 := by
  induction xs generalizing runLength with
  | nil => exact ⟨0, rfl, rfl⟩
  | cons x xs ih =>
    rw [zeroRun]
    split_ifs with h
    · obtain ⟨rfl, hlt⟩ := h
      obtain ⟨k, hlength, hxs⟩ := ih (runLength + 1)
      have hsucc : (runLength + 1).toNat = runLength.toNat + 1 := by
        rw [UInt32.lt_iff_toNat_lt] at hlt
        rw [UInt32.toNat_add]
        exact Nat.mod_eq_of_lt (Nat.add_lt_of_lt_sub hlt)
      refine ⟨k + 1, by omega, ?_⟩
      rw [List.replicate_succ, List.cons_append, ← hxs]
    · exact ⟨0, rfl, rfl⟩

theorem length_zeroRun_le (xs : List UInt16) (runLength : UInt32) :
    (zeroRun xs runLength).2.length ≤ xs.length := by
  obtain ⟨k, -, hxs⟩ := zeroRun_spec xs runLength
  have hlength := congrArg List.length hxs
  rw [List.length_append] at hlength
  omega

/-- `histogram_pack`: the bytes that are written. -/
def histogramPack : List UInt16 → List UInt8
  | [] => []
  | x :: xs =>
    if x ≠ 0 then varuintEncode x.toUInt32 ++ histogramPack xs
    else
      let run := zeroRun xs 1
      (if run.1 > 1 then varuintEncodeOverlong run.1 1 else varuintEncode 0) ++
        histogramPack run.2
termination_by xs => xs.length
decreasing_by
  · exact Nat.lt_succ_self _
  · exact Nat.lt_succ_of_le (length_zeroRun_le xs 1)

/-- `histogram_get_packed_size`. -/
def histogramGetPackedSize : List UInt16 → ℕ
  | [] => 0
  | x :: xs =>
    if x ≠ 0 then (varuintSize x.toUInt32).toNat + histogramGetPackedSize xs
    else
      let run := zeroRun xs 1
      (if run.1 > 1 then varuintSizeOverlong run.1 1 else varuintSize 0).toNat +
        histogramGetPackedSize run.2
termination_by xs => xs.length
decreasing_by
  · exact Nat.lt_succ_self _
  · exact Nat.lt_succ_of_le (length_zeroRun_le xs 1)

/-! ### Tokens -/

/-- What a number in a packed histogram stands for. -/
inductive HistogramToken where
  | count (value : UInt16)
  | zeros (runLength : UInt32)
  deriving DecidableEq, Repr

namespace HistogramToken

/-- The bins of a token. -/
def expand : HistogramToken → List UInt16
  | count value => [value]
  | zeros runLength => List.replicate runLength.toNat 0

/-- The bytes of a token. -/
def encode : HistogramToken → List UInt8
  | count value => varuintEncode value.toUInt32
  | zeros runLength => varuintEncodeOverlong runLength 1

/-- A run has at least two bins. -/
def IsLong : HistogramToken → Prop
  | count _ => True
  | zeros runLength => 1 < runLength

end HistogramToken

open HistogramToken

/-- The tokens of a histogram. -/
def histogramTokens : List UInt16 → List HistogramToken
  | [] => []
  | x :: xs =>
    if x ≠ 0 then count x :: histogramTokens xs
    else
      let run := zeroRun xs 1
      (if run.1 > 1 then zeros run.1 else count 0) :: histogramTokens run.2
termination_by xs => xs.length
decreasing_by
  · exact Nat.lt_succ_self _
  · exact Nat.lt_succ_of_le (length_zeroRun_le xs 1)

/-- A packed histogram consists of its tokens. -/
theorem histogramPack_eq (h : List UInt16) :
    histogramPack h = (histogramTokens h).flatMap encode := by
  fun_induction histogramTokens h with
  | case1 => rw [histogramPack, List.flatMap_nil]
  | case2 x xs hx ih => rw [histogramPack, if_pos hx, ih, List.flatMap_cons, encode]
  | case3 x xs hx run ih =>
    rw [histogramPack, if_neg hx, List.flatMap_cons, ← ih]
    dsimp only
    congr 1
    split_ifs <;> rfl

/-- The tokens expand to the histogram. -/
theorem expand_histogramTokens (h : List UInt16) : (histogramTokens h).flatMap expand = h := by
  fun_induction histogramTokens h with
  | case1 => rfl
  | case2 x xs hx ih => rw [List.flatMap_cons, ih, expand, List.singleton_append]
  | case3 x xs hx run ih =>
    obtain rfl : x = 0 := not_not.mp hx
    obtain ⟨k, hlength, hxs⟩ := zeroRun_spec xs 1
    change run.1.toNat = 1 + k at hlength
    rw [List.flatMap_cons, ih]
    split_ifs with hlong
    · rw [expand, hlength, Nat.add_comm, List.replicate_succ, List.cons_append]
      exact congrArg (List.cons 0) hxs.symm
    · have hzero : k = 0 := by
        rw [gt_iff_lt, UInt32.lt_iff_toNat_lt, hlength] at hlong
        change ¬ 1 < 1 + k at hlong
        omega
      rw [hzero] at hxs
      exact congrArg (List.cons 0) hxs.symm

theorem isLong_of_mem_histogramTokens {h : List UInt16} {t : HistogramToken}
    (ht : t ∈ histogramTokens h) : t.IsLong := by
  fun_induction histogramTokens h with
  | case1 => exact absurd ht List.not_mem_nil
  | case2 x xs hx ih =>
    rcases List.mem_cons.mp ht with rfl | ht
    · trivial
    · exact ih ht
  | case3 x xs hx run ih =>
    rcases List.mem_cons.mp ht with rfl | ht
    · split_ifs with hlong
      · exact hlong
      · trivial
    · exact ih ht

/-! ### Sizes -/

theorem length_digits (n v : ℕ) : (digits n v).length = n := by
  induction n generalizing v with
  | zero => rfl
  | succ n ih => rw [digits, List.length_append, ih, List.length_singleton]

theorem length_varuintEncodeOverlong (value : UInt32) (overlong : UInt8) :
    (varuintEncodeOverlong value overlong).length = (varuintSizeOverlong value overlong).toNat := by
  rw [varuintEncodeOverlong]
  split_ifs with hone
  · rw [hone, List.length_singleton]
  · rw [continuationBytes_eq]
    have hlength := length_digits (varuintSizeOverlong value overlong).toNat value.toNat
    split
    · rename_i hnil
      rwa [hnil] at hlength
    · rename_i hcons
      rwa [hcons] at hlength

/-- The size is that of the packed histogram. -/
theorem histogramGetPackedSize_eq (h : List UInt16) :
    histogramGetPackedSize h = (histogramPack h).length := by
  fun_induction histogramPack h with
  | case1 => rw [histogramGetPackedSize, List.length_nil]
  | case2 x xs hx ih =>
    rw [histogramGetPackedSize, if_pos hx, List.length_append, ih, varuintEncode,
      length_varuintEncodeOverlong, varuintSize]
  | case3 x xs hx run ih =>
    rw [histogramGetPackedSize, if_neg hx, List.length_append]
    dsimp only
    rw [ih]
    congr 1
    split_ifs
    · rw [length_varuintEncodeOverlong]
    · rw [varuintEncode, length_varuintEncodeOverlong, varuintSize]

end TellerOBC
