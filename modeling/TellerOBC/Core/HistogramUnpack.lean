import TellerOBC.Core.VaruintRoundTrip
import TellerOBC.Foundations.FallibleLoop

/-!
# Unpacking histograms

`histogram_unpack` and `histogram_get_unpacked_size` of `core/utils/histogram.c`. Both decode the
numbers of a buffer one after the other, a run of zeros for a number in an overlong form and a bin
for any other number. The decoder is not told where the buffer ends. So memory is a list of bytes of
which the buffer is the first part, and a number at the end of the buffer may go on behind it.

On a number that cannot be decoded, `histogram_unpack` stops. `histogram_get_unpacked_size` stays
where it is, and does not end.

The result of `histogram_get_unpacked_size` does not count bytes in memory and can exceed what a
`size_t` holds; the number of bits of a `size_t` is a parameter. The variables that the decoder
leaves alone when it fails are not initialized, and start with any values.

## Main definitions

* `TellerOBC.histogramUnpack`, `TellerOBC.histogramGetUnpackedSize`.
* `TellerOBC.concatenation`: the bytes of varuints one after the other.

## Main results

* `TellerOBC.exists_varuints_of_pack`: a packed histogram is a concatenation of varuints.
* `TellerOBC.ends_unpack_concatenation`, `TellerOBC.ends_unpackedSize_concatenation`: the loops
  over varuints.
* `TellerOBC.exists_concatenation_append`: every buffer is a concatenation of varuints up to where
  it is malformed or ends.
-/

namespace TellerOBC

open CheckedMemory FallibleLoop

/-! ### The loops -/

/-- The bins that a number stands for. -/
def histogramCells (x : UInt32) (overlong : UInt8) : List UInt16 :=
  if overlong ≠ 0 then List.replicate x.toNat 0
  else if x ≤ 0xFFFF then [x.toUInt16]
  else [0]

/-- The variables of `histogram_unpack`, with what it has written. -/
structure UnpackState where
  readPtr : ℕ
  written : List UInt16
  x : UInt32
  overlong : UInt8
  deriving DecidableEq, Repr

/-- A pass of the loop of `histogram_unpack`, given memory from the start of the buffer on. -/
def unpackPass (memory : List UInt8) (size : ℕ) (s : UnpackState) :
    Except Fault (UnpackState ⊕ List UInt16) :=
  if s.readPtr < size then do
    let decoded ← varuintDecodeOverlong (memory.drop s.readPtr) s.x s.overlong
    if decoded.consumed = 0 then pure (.inr s.written)
    else pure (.inl {
      readPtr := s.readPtr + decoded.consumed
      written := s.written ++ histogramCells decoded.value decoded.overlong
      x := if decoded.overlong ≠ 0 then 0 else decoded.value
      overlong := decoded.overlong })
  else pure (.inr s.written)

/-- `histogram_unpack`: the bins that are written. -/
def histogramUnpack (memory : List UInt8) (size : ℕ) (x : UInt32) (overlong : UInt8) :
    ℕ → Option (Except Fault (List UInt16)) :=
  run (unpackPass memory size) ⟨0, [], x, overlong⟩

/-- The variables of `histogram_get_unpacked_size`. -/
structure UnpackedSizeState where
  readPtr : ℕ
  result : ℕ
  x : UInt32
  overlong : UInt8
  deriving DecidableEq, Repr

/-- A pass of the loop of `histogram_get_unpacked_size`. -/
def unpackedSizePass (sizeBits : ℕ) (memory : List UInt8) (size : ℕ) (s : UnpackedSizeState) :
    Except Fault (UnpackedSizeState ⊕ ℕ) :=
  if s.readPtr < size then do
    let decoded ← varuintDecodeOverlong (memory.drop s.readPtr) s.x s.overlong
    let cells := if decoded.overlong ≠ 0 then decoded.value.toNat else 1
    pure (.inl {
      readPtr := s.readPtr + decoded.consumed
      result := (s.result + cells) % 2 ^ sizeBits
      x := decoded.value
      overlong := decoded.overlong })
  else pure (.inr (if s.readPtr = size then s.result else 0))

/-- `histogram_get_unpacked_size`. -/
def histogramGetUnpackedSize (sizeBits : ℕ) (memory : List UInt8) (size : ℕ) (x : UInt32)
    (overlong : UInt8) : ℕ → Option (Except Fault ℕ) :=
  run (unpackedSizePass sizeBits memory size) ⟨0, 0, x, overlong⟩

/-! ### Concatenations of varuints -/

/-- The bytes of varuints one after the other. -/
def concatenation (ns : List Varuint) : List UInt8 := ns.flatMap Varuint.bytes

theorem concatenation_cons (n : Varuint) (ns : List Varuint) :
    concatenation (n :: ns) = n.bytes ++ concatenation ns := List.flatMap_cons

/-- The bins that a varuint stands for. -/
def Varuint.cells (n : Varuint) : List UInt16 := histogramCells n.value n.overlong

theorem length_histogramCells (x : UInt32) (overlong : UInt8) :
    (histogramCells x overlong).length = if overlong ≠ 0 then x.toNat else 1 := by
  rw [histogramCells]
  split_ifs
  · exact List.length_replicate
  · rfl
  · rfl

/-- Every buffer is a concatenation of varuints up to where it is malformed or ends. -/
theorem exists_concatenation_append (buffer : List UInt8) :
    ∃ ns rest, buffer = concatenation ns ++ rest ∧ (IsMalformed rest ∨ IsTruncated rest) := by
  induction hlength : buffer.length using Nat.strong_induction_on generalizing buffer with
  | _ m ih =>
    obtain ⟨n, tail, rfl⟩ | hrest := varuint_cases buffer
    · have hlt : tail.length < m := by
        have hpos := n.length_bytes_pos
        rw [List.length_append] at hlength
        omega
      obtain ⟨ns, rest, rfl, hrest⟩ := ih _ hlt tail rfl
      exact ⟨n :: ns, rest, by rw [concatenation_cons, List.append_assoc], hrest⟩
    · exact ⟨[], buffer, rfl, hrest⟩

/-! ### Passes -/

section

variable {memory : List UInt8} {size sizeBits : ℕ}

section Unpack

variable {s : UnpackState} (hlt : s.readPtr < size)

/-- The variables of `histogram_unpack` after a number. -/
def UnpackState.advance (s : UnpackState) (n : Varuint) : UnpackState where
  readPtr := s.readPtr + n.bytes.length
  written := s.written ++ n.cells
  x := if n.overlong ≠ 0 then 0 else n.value
  overlong := n.overlong

theorem unpackPass_of_le (hle : size ≤ s.readPtr) :
    unpackPass memory size s = .ok (.inr s.written) := if_neg hle.not_gt

include hlt

theorem unpackPass_of_append {n : Varuint} {rest : List UInt8}
    (hdrop : memory.drop s.readPtr = n.bytes ++ rest) :
    unpackPass memory size s = .ok (.inl (s.advance n)) := by
  have hpos : n.decoded.consumed ≠ 0 := n.length_bytes_pos.ne'
  rw [unpackPass, if_pos hlt, hdrop, varuintDecodeOverlong_append]
  change (if n.decoded.consumed = 0 then pure (.inr s.written) else _) = _
  rw [if_neg hpos]
  rfl

theorem unpackPass_of_isMalformed (hrest : IsMalformed (memory.drop s.readPtr)) :
    unpackPass memory size s = .ok (.inr s.written) := by
  rw [unpackPass, if_pos hlt, varuintDecodeOverlong_of_isMalformed hrest]
  rfl

theorem unpackPass_of_isTruncated (hrest : IsTruncated (memory.drop s.readPtr)) :
    unpackPass memory size s = .error .read := by
  rw [unpackPass, if_pos hlt, varuintDecodeOverlong_of_isTruncated hrest]
  rfl

end Unpack

section UnpackedSize

variable {s : UnpackedSizeState} (hlt : s.readPtr < size)

/-- The variables of `histogram_get_unpacked_size` after a number. -/
def UnpackedSizeState.advance (sizeBits : ℕ) (s : UnpackedSizeState) (n : Varuint) :
    UnpackedSizeState where
  readPtr := s.readPtr + n.bytes.length
  result := (s.result + n.cells.length) % 2 ^ sizeBits
  x := n.value
  overlong := n.overlong

theorem unpackedSizePass_of_le (hle : size ≤ s.readPtr) :
    unpackedSizePass sizeBits memory size s =
      .ok (.inr (if s.readPtr = size then s.result else 0)) := if_neg hle.not_gt

include hlt

theorem unpackedSizePass_of_append {n : Varuint} {rest : List UInt8}
    (hdrop : memory.drop s.readPtr = n.bytes ++ rest) :
    unpackedSizePass sizeBits memory size s = .ok (.inl (s.advance sizeBits n)) := by
  rw [unpackedSizePass, if_pos hlt, hdrop, varuintDecodeOverlong_append, UnpackedSizeState.advance,
    Varuint.cells, length_histogramCells]
  rfl

/-- On a malformed number, the read pointer stays where it is. -/
theorem unpackedSizePass_of_isMalformed (sizeBits : ℕ)
    (hrest : IsMalformed (memory.drop s.readPtr)) :
    ∃ result, unpackedSizePass sizeBits memory size s = .ok (.inl { s with result := result }) := by
  rw [unpackedSizePass, if_pos hlt, varuintDecodeOverlong_of_isMalformed hrest]
  exact ⟨_, rfl⟩

theorem unpackedSizePass_of_isTruncated (hrest : IsTruncated (memory.drop s.readPtr)) :
    unpackedSizePass sizeBits memory size s = .error .read := by
  rw [unpackedSizePass, if_pos hlt, varuintDecodeOverlong_of_isTruncated hrest]
  rfl

end UnpackedSize

/-! ### Loops over varuints -/

/-- What is left in memory is varuints within the buffer and a rest. -/
def Ahead (memory : List UInt8) (size : ℕ) (rest : List UInt8) (readPtr : ℕ)
    (ns : List Varuint) : Prop :=
  memory.drop readPtr = concatenation ns ++ rest ∧ readPtr + (concatenation ns).length ≤ size

theorem Ahead.cons {rest : List UInt8} {readPtr : ℕ} {n : Varuint} {ns : List Varuint}
    (h : Ahead memory size rest readPtr (n :: ns)) :
    readPtr < size ∧ memory.drop readPtr = n.bytes ++ (concatenation ns ++ rest) ∧
      Ahead memory size rest (readPtr + n.bytes.length) ns := by
  obtain ⟨hdrop, hsize⟩ := h
  have hpos := n.length_bytes_pos
  rw [concatenation_cons, List.append_assoc] at hdrop
  rw [concatenation_cons, List.length_append] at hsize
  refine ⟨by omega, hdrop, ?_, by omega⟩
  rw [← List.drop_drop, hdrop, List.drop_left]

theorem foldl_advance_unpack (ns : List Varuint) (s : UnpackState) :
    (ns.foldl UnpackState.advance s).readPtr = s.readPtr + (concatenation ns).length ∧
      (ns.foldl UnpackState.advance s).written = s.written ++ ns.flatMap Varuint.cells := by
  induction ns generalizing s with
  | nil => exact ⟨rfl, (List.append_nil _).symm⟩
  | cons n ns ih =>
    obtain ⟨hptr, hwritten⟩ := ih (s.advance n)
    rw [List.foldl_cons, hptr, hwritten, concatenation_cons, List.length_append,
      List.flatMap_cons, ← List.append_assoc, ← Nat.add_assoc]
    exact ⟨rfl, rfl⟩

theorem foldl_advance_unpackedSize (ns : List Varuint) {s : UnpackedSizeState}
    (hresult : s.result < 2 ^ sizeBits) :
    (ns.foldl (·.advance sizeBits) s).readPtr = s.readPtr + (concatenation ns).length ∧
      (ns.foldl (·.advance sizeBits) s).result =
        (s.result + (ns.flatMap Varuint.cells).length) % 2 ^ sizeBits := by
  induction ns generalizing s with
  | nil => exact ⟨rfl, (Nat.mod_eq_of_lt hresult).symm⟩
  | cons n ns ih =>
    obtain ⟨hptr, hcount⟩ := ih (s := s.advance sizeBits n) (Nat.mod_lt _ (Nat.two_pow_pos _))
    rw [List.foldl_cons, hptr, hcount, concatenation_cons, List.length_append,
      List.flatMap_cons, List.length_append, UnpackedSizeState.advance, Nat.mod_add_mod]
    exact ⟨Nat.add_assoc .., by rw [Nat.add_assoc]⟩

end

section

variable (ns : List Varuint) (rest : List UInt8) (x : UInt32) (overlong : UInt8) {size sizeBits : ℕ}

theorem ahead_concatenation (hsize : (concatenation ns).length ≤ size) :
    Ahead (concatenation ns ++ rest) size rest 0 ns :=
  ⟨rfl, by rwa [Nat.zero_add]⟩

/-- `histogram_unpack` reaches the end of varuints. -/
theorem exists_ends_unpack (hsize : (concatenation ns).length ≤ size) :
    ∃ s : UnpackState, s.readPtr = (concatenation ns).length ∧
      s.written = ns.flatMap Varuint.cells ∧ ∀ outcome,
        Ends (histogramUnpack (concatenation ns ++ rest) size x overlong) outcome ↔
          Ends (run (unpackPass (concatenation ns ++ rest) size) s) outcome := by
  obtain ⟨hptr, hwritten⟩ := foldl_advance_unpack ns ⟨0, [], x, overlong⟩
  refine ⟨_, hptr.trans (Nat.zero_add _), hwritten, fun outcome => ?_⟩
  refine (ends_foldl (P := fun s ns => Ahead _ size rest s.readPtr ns) (fun s n ns h => ?_)
    (ahead_concatenation ns rest hsize)).2
  obtain ⟨hlt, hdrop, hrest⟩ := h.cons
  exact ⟨unpackPass_of_append hlt hdrop, hrest⟩

/-- `histogram_get_unpacked_size` reaches the end of varuints. -/
theorem exists_ends_unpackedSize (hsize : (concatenation ns).length ≤ size) :
    ∃ s : UnpackedSizeState, s.readPtr = (concatenation ns).length ∧
      s.result = (ns.flatMap Varuint.cells).length % 2 ^ sizeBits ∧ ∀ outcome,
        Ends (histogramGetUnpackedSize sizeBits (concatenation ns ++ rest) size x overlong)
          outcome ↔
          Ends (run (unpackedSizePass sizeBits (concatenation ns ++ rest) size) s) outcome := by
  obtain ⟨hptr, hresult⟩ := foldl_advance_unpackedSize ns
    (show (⟨0, 0, x, overlong⟩ : UnpackedSizeState).result < 2 ^ sizeBits from Nat.two_pow_pos _)
  refine ⟨_, hptr.trans (Nat.zero_add _), hresult.trans (by rw [Nat.zero_add]), fun outcome => ?_⟩
  refine (ends_foldl (P := fun s ns => Ahead _ size rest s.readPtr ns) (fun s n ns h => ?_)
    (ahead_concatenation ns rest hsize)).2
  obtain ⟨hlt, hdrop, hrest⟩ := h.cons
  exact ⟨unpackedSizePass_of_append hlt hdrop, hrest⟩

/-- A buffer of varuints is unpacked to their bins. -/
theorem ends_unpack_concatenation {outcome : Except Fault (List UInt16)} :
    Ends (histogramUnpack (concatenation ns ++ rest) (concatenation ns).length x overlong) outcome ↔
      outcome = .ok (ns.flatMap Varuint.cells) := by
  obtain ⟨s, hptr, hwritten, hends⟩ := exists_ends_unpack ns rest x overlong le_rfl
  rw [hends, ends_of_exit (unpackPass_of_le hptr.ge), hwritten]

theorem ends_unpackedSize_concatenation {outcome : Except Fault ℕ} :
    Ends (histogramGetUnpackedSize sizeBits (concatenation ns ++ rest) (concatenation ns).length x
      overlong) outcome ↔ outcome = .ok ((ns.flatMap Varuint.cells).length % 2 ^ sizeBits) := by
  obtain ⟨s, hptr, hresult, hends⟩ := exists_ends_unpackedSize ns rest x overlong le_rfl
  rw [hends, ends_of_exit (unpackedSizePass_of_le hptr.ge), if_pos hptr, hresult]

/-- A malformed number ends `histogram_unpack`. -/
theorem ends_unpack_of_isMalformed (hrest : IsMalformed rest)
    (hsize : (concatenation ns).length < size) {outcome : Except Fault (List UInt16)} :
    Ends (histogramUnpack (concatenation ns ++ rest) size x overlong) outcome ↔
      outcome = .ok (ns.flatMap Varuint.cells) := by
  obtain ⟨s, hptr, hwritten, hends⟩ := exists_ends_unpack ns rest x overlong hsize.le
  rw [hends, ends_of_exit (unpackPass_of_isMalformed (by omega) ?_), hwritten]
  rwa [hptr, List.drop_left]

/-- Inside a number, `histogram_unpack` reads behind memory. -/
theorem ends_unpack_of_isTruncated (hrest : IsTruncated rest)
    (hsize : (concatenation ns).length < size) {outcome : Except Fault (List UInt16)} :
    Ends (histogramUnpack (concatenation ns ++ rest) size x overlong) outcome ↔
      outcome = .error .read := by
  obtain ⟨s, hptr, -, hends⟩ := exists_ends_unpack ns rest x overlong hsize.le
  rw [hends, ends_of_error (unpackPass_of_isTruncated (by omega) ?_)]
  rwa [hptr, List.drop_left]

/-- On a malformed number, `histogram_get_unpacked_size` does not end. -/
theorem not_ends_unpackedSize_of_isMalformed (hrest : IsMalformed rest)
    (hsize : (concatenation ns).length < size) {outcome : Except Fault ℕ} :
    ¬ Ends (histogramGetUnpackedSize sizeBits (concatenation ns ++ rest) size x overlong)
      outcome := by
  obtain ⟨s, hptr, -, hends⟩ := exists_ends_unpackedSize ns rest x overlong hsize.le
  rw [hends]
  refine not_ends (I := fun s => s.readPtr = (concatenation ns).length) (fun s hptr => ?_) hptr
  have hdrop : (concatenation ns ++ rest).drop s.readPtr = rest := by rw [hptr, List.drop_left]
  obtain ⟨result, hpass⟩ := unpackedSizePass_of_isMalformed (by omega : s.readPtr < size) sizeBits
    (hdrop ▸ hrest)
  exact ⟨_, hpass, hptr⟩

theorem ends_unpackedSize_of_isTruncated (hrest : IsTruncated rest)
    (hsize : (concatenation ns).length < size) {outcome : Except Fault ℕ} :
    Ends (histogramGetUnpackedSize sizeBits (concatenation ns ++ rest) size x overlong) outcome ↔
      outcome = .error .read := by
  obtain ⟨s, hptr, -, hends⟩ := exists_ends_unpackedSize ns rest x overlong hsize.le
  rw [hends, ends_of_error (unpackedSizePass_of_isTruncated (by omega) ?_)]
  rwa [hptr, List.drop_left]

end

end TellerOBC
