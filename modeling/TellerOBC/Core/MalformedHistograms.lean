import TellerOBC.Core.HistogramUnpack

/-!
# Buffers that are not packed histograms

`histogram_get_unpacked_size` and `histogram_unpack` on any buffer. The first one ends if and only
if memory starts with varuints that reach the end of the buffer: a number that is malformed keeps it
in its loop. Where the last varuint ends behind the buffer, it returns zero.

Both read behind the buffer if and only if the buffer ends inside a number, after varuints and the
start of one more.

## Main definitions

* `TellerOBC.IsConcatenation`, `TellerOBC.EndsInsideNumber`.

## Main results

* `TellerOBC.unpackedSize_ends_iff`: when `histogram_get_unpacked_size` ends.
* `TellerOBC.reads_within_iff`: when the functions read within the buffer.
-/

namespace TellerOBC

open CheckedMemory FallibleLoop

/-! ### Ends -/

/-- The buffer consists of varuints. -/
def IsConcatenation (buffer : List UInt8) : Prop := ∃ ns, buffer = concatenation ns

section

variable {memory rest : List UInt8} {size sizeBits : ℕ}

/-- `histogram_get_unpacked_size` behind the last number that starts in the buffer. -/
theorem exists_ends_unpackedSize_of_le {s : UnpackedSizeState} (hle : size ≤ s.readPtr) :
    ∃ result, Ends (run (unpackedSizePass sizeBits memory size) s) (.ok result) ∧
      (result ≠ 0 → s.readPtr ≤ size ∧
        IsConcatenation ((memory.drop s.readPtr).take (size - s.readPtr))) := by
  refine ⟨_, (ends_of_exit (unpackedSizePass_of_le hle)).mpr rfl, fun hresult => ?_⟩
  have heq : s.readPtr = size := by
    by_contra hne
    exact hresult (if_neg hne)
  exact ⟨heq.le, [], by rw [heq, Nat.sub_self, List.take_zero]; rfl⟩

/-- Where varuints reach the end of the buffer, `histogram_get_unpacked_size` ends, and returns zero
unless the end of one of them is the end of the buffer. -/
theorem exists_ends_unpackedSize_of_reaches (ns : List Varuint) {s : UnpackedSizeState}
    (hdrop : memory.drop s.readPtr = concatenation ns ++ rest)
    (hsize : size ≤ s.readPtr + (concatenation ns).length) :
    ∃ result, Ends (run (unpackedSizePass sizeBits memory size) s) (.ok result) ∧
      (result ≠ 0 → s.readPtr ≤ size ∧
        IsConcatenation ((memory.drop s.readPtr).take (size - s.readPtr))) := by
  induction ns generalizing s with
  | nil => exact exists_ends_unpackedSize_of_le hsize
  | cons n ns ih =>
    rcases le_or_gt size s.readPtr with hle | hlt
    · exact exists_ends_unpackedSize_of_le hle
    rw [concatenation_cons, List.append_assoc] at hdrop
    rw [concatenation_cons, List.length_append] at hsize
    have hnext : memory.drop (s.advance sizeBits n).readPtr = concatenation ns ++ rest := by
      change memory.drop (s.readPtr + n.bytes.length) = _
      rw [← List.drop_drop, hdrop, List.drop_left]
    obtain ⟨result, hends, hresult⟩ := ih (s := s.advance sizeBits n) hnext
      (by change size ≤ s.readPtr + n.bytes.length + _; omega)
    refine ⟨result, (ends_of_next (unpackedSizePass_of_append hlt hdrop)).mpr hends,
      fun hne => ⟨hlt.le, ?_⟩⟩
    obtain ⟨hle, ms, hms⟩ := hresult hne
    have hle : s.readPtr + n.bytes.length ≤ size := hle
    have hlength : size - s.readPtr =
        n.bytes.length + (size - (s.advance sizeBits n).readPtr) := by
      change size - s.readPtr = n.bytes.length + (size - (s.readPtr + n.bytes.length))
      omega
    refine ⟨n :: ms, ?_⟩
    rw [concatenation_cons, ← hms, hnext, hdrop, hlength, List.take_length_add_append]

end

/-- **When `histogram_get_unpacked_size` ends.** On a buffer in memory, it ends and returns zero
unless the buffer consists of varuints, if and only if memory starts with varuints that reach the
end of the buffer. -/
theorem unpackedSize_ends_iff (sizeBits : ℕ) (buffer beyond : List UInt8) (x : UInt32)
    (overlong : UInt8) :
    (∃ result,
      Ends (histogramGetUnpackedSize sizeBits (buffer ++ beyond) buffer.length x overlong)
        (.ok result) ∧ (¬ IsConcatenation buffer → result = 0)) ↔
    ∃ ns, concatenation ns <+: buffer ++ beyond ∧ buffer.length ≤ (concatenation ns).length := by
  constructor
  · rintro ⟨result, hends, -⟩
    obtain ⟨ns, rest, hmemory, hrest⟩ := exists_concatenation_append (buffer ++ beyond)
    refine ⟨ns, ⟨rest, hmemory.symm⟩, not_lt.mp fun hlt => ?_⟩
    rw [hmemory] at hends
    rcases hrest with hmalformed | htruncated
    · exact not_ends_unpackedSize_of_isMalformed ns rest x overlong hmalformed hlt hends
    · rw [ends_unpackedSize_of_isTruncated ns rest x overlong htruncated hlt] at hends
      cases hends
  · rintro ⟨ns, ⟨rest, hmemory⟩, hsize⟩
    let s : UnpackedSizeState := ⟨0, 0, x, overlong⟩
    have hdrop : (buffer ++ beyond).drop s.readPtr = concatenation ns ++ rest := hmemory.symm
    have hreaches : buffer.length ≤ s.readPtr + (concatenation ns).length :=
      hsize.trans (Nat.zero_add _).ge
    obtain ⟨result, hends, hresult⟩ := exists_ends_unpackedSize_of_reaches ns hdrop hreaches
    refine ⟨result, hends, fun hnot => ?_⟩
    by_contra hne
    obtain ⟨-, hconcatenation⟩ := hresult hne
    rw [List.drop_zero, Nat.sub_zero, List.take_left] at hconcatenation
    exact hnot hconcatenation

/-- A buffer of one byte that does not start a number. -/
theorem unpackedSize_not_ends :
    ¬ ∀ (buffer beyond : List UInt8) (x : UInt32) (overlong : UInt8), ∃ result,
      Ends (histogramGetUnpackedSize 32 (buffer ++ beyond) buffer.length x overlong)
        (.ok result) ∧ (¬ IsConcatenation buffer → result = 0) := by
  intro h
  obtain ⟨result, hends, -⟩ := h [0xFF] [] 0 0
  have hmalformed : IsMalformed [0xFF] := ⟨0xFF, [], rfl, fun h => absurd h (by decide)⟩
  exact not_ends_unpackedSize_of_isMalformed [] [0xFF] 0 0 hmalformed (by decide) hends

/-! ### Reads -/

/-- The buffer ends inside a number, after varuints and at least one byte more. -/
def EndsInsideNumber (buffer : List UInt8) : Prop :=
  ∃ ns rest, buffer = concatenation ns ++ rest ∧ rest ≠ [] ∧ IsTruncated rest

theorem length_concatenation_lt {ns : List Varuint} {rest : List UInt8} (hrest : rest ≠ []) :
    (concatenation ns).length < (concatenation ns ++ rest).length := by
  have hpos := List.length_pos_of_ne_nil hrest
  rw [List.length_append]
  omega

/-- **When the functions read within the buffer.** With the buffer as all of memory, neither of them
has a fault if and only if the buffer does not end inside a number. -/
theorem reads_within_iff (sizeBits : ℕ) (buffer : List UInt8) (x : UInt32) (overlong : UInt8) :
    (∀ fault, ¬ Ends (histogramUnpack buffer buffer.length x overlong) (.error fault) ∧
      ¬ Ends (histogramGetUnpackedSize sizeBits buffer buffer.length x overlong) (.error fault)) ↔
    ¬ EndsInsideNumber buffer := by
  constructor
  · rintro hsafe ⟨ns, rest, rfl, hne, htruncated⟩
    exact (hsafe .read).1 ((ends_unpack_of_isTruncated ns rest x overlong htruncated
      (length_concatenation_lt hne)).mpr rfl)
  · intro hnot fault
    obtain ⟨ns, rest, rfl, hrest⟩ := exists_concatenation_append buffer
    rcases rest.eq_nil_or_concat' with rfl | ⟨_, _, hconcat⟩
    · have hlength : (concatenation ns ++ []).length = (concatenation ns).length := by
        rw [List.append_nil]
      rw [hlength, ends_unpack_concatenation, ends_unpackedSize_concatenation]
      exact ⟨by simp, by simp⟩
    · have hne : rest ≠ [] := by rw [hconcat]; simp
      have hlt : (concatenation ns).length < (concatenation ns ++ rest).length :=
        length_concatenation_lt hne
      rcases hrest with hmalformed | htruncated
      · rw [ends_unpack_of_isMalformed ns rest x overlong hmalformed hlt]
        exact ⟨by simp, not_ends_unpackedSize_of_isMalformed ns rest x overlong hmalformed hlt⟩
      · exact absurd ⟨ns, rest, rfl, hne, htruncated⟩ hnot

/-- The first byte of a number of two bytes. -/
theorem not_reads_within :
    ¬ ∀ (buffer : List UInt8) (x : UInt32) (overlong : UInt8) (fault : Fault),
      ¬ Ends (histogramUnpack buffer buffer.length x overlong) (.error fault) ∧
        ¬ Ends (histogramGetUnpackedSize 32 buffer buffer.length x overlong) (.error fault) :=
  fun h => (h [0x40] 0 0 .read).1 ⟨1, by decide +kernel⟩

end TellerOBC
