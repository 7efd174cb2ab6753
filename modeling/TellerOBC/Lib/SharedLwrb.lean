import TellerOBC.Foundations.StepSystem
import TellerOBC.Lib.Lwrb

/-!
# A ring buffer between a task and an interrupt

`lwrb_write_ex` and `lwrb_read_ex` may interrupt each other: a UART has a task on one end of each of
its ring buffers and its interrupt handler on the other end. A step here is one load of a position,
the copy of one byte, or the store of a position, of either function, so that a run is any
interleaving of the two.

Each function computes how much it may copy from positions that are out of date when it copies.
Nothing is lost or doubled all the same: only the reader moves the position to read from, only the
writer moves the position to write to, and what one of them sees of the other is never too much.

## Main definitions

* `TellerOBC.SharedLwrb`: a ring buffer with a writer and a reader.
* `TellerOBC.SharedLwrb.step`: the steps of both.
* `TellerOBC.SharedLwrb.accepted`, `TellerOBC.SharedLwrb.delivered`: the bytes that went in and
  came out.

## Main results

* `TellerOBC.SharedLwrb.Inv.step`: what every step preserves.
* `TellerOBC.SharedLwrb.interleaved_calls`: no byte is lost, doubled or reordered.
-/

namespace TellerOBC

open CircularBuffer

/-- A call of `lwrb_write_ex`, with the free memory when it began. -/
structure WriteCall where
  data : List UInt8
  writeAll : Bool
  freeAtCall : ℕ
  deriving DecidableEq, Repr

/-- A call of `lwrb_read_ex`, with the number of bytes in the buffer when it began. -/
structure ReadCall where
  btr : ℕ
  readAll : Bool
  fullAtCall : ℕ
  deriving DecidableEq, Repr

/-- Where the writer is in `lwrb_write_ex`. -/
inductive Writer (size : ℕ) where
  | idle
  | called (c : WriteCall)
  /-- `lwrb_get_free` has loaded the position to write to. -/
  | loaded (c : WriteCall) (wPtr : Fin size)
  /-- The number of bytes to write is known. -/
  | sized (c : WriteCall) (btw : ℕ)
  /-- The first bytes are copied, the next one goes to `ptr`. -/
  | copying (c : WriteCall) (ptr : Fin size) (copied todo : List UInt8)
  deriving DecidableEq, Repr

/-- The call that the writer is in. -/
def Writer.call {size : ℕ} : Writer size → Option WriteCall
  | .idle => none
  | .called c | .loaded c _ | .sized c _ | .copying c _ _ _ => some c

/-- Where the reader is in `lwrb_read_ex`. -/
inductive Reader (size : ℕ) where
  | idle
  | called (c : ReadCall)
  /-- `lwrb_get_full` has loaded the position to write to. -/
  | loaded (c : ReadCall) (wPtr : Fin size)
  /-- The number of bytes to read is known. -/
  | sized (c : ReadCall) (btr : ℕ)
  /-- The first bytes are copied, the next one is at `ptr`. -/
  | copying (c : ReadCall) (ptr : Fin size) (copied : List UInt8) (todo : ℕ)
  deriving DecidableEq, Repr

/-- A ring buffer with its writer and its reader, and the calls that have returned. -/
structure SharedLwrb (size : ℕ) where
  ring : Lwrb size
  writer : Writer size
  reader : Reader size
  /-- The finished calls of the writer with the number of bytes written, if not refused. -/
  writes : List (WriteCall × Option ℕ)
  /-- The finished calls of the reader with the bytes read, if not refused. -/
  reads : List (ReadCall × Option (List UInt8))

/-- A call of one of the functions, or a step of it. -/
inductive SharedAction where
  | callWrite (data : List UInt8) (writeAll : Bool)
  | writerStep
  | callRead (btr : ℕ) (readAll : Bool)
  | readerStep
  deriving DecidableEq, Repr

namespace SharedLwrb

variable {size : ℕ}

/-- The next position for a copy of several bytes. -/
def nextPtr (ptr : Fin size) : Fin size := ⟨next size ptr 1, next_lt ptr.2 ptr.pos⟩

/-- A buffer that nobody accesses. -/
def start (ring : Lwrb size) : SharedLwrb size where
  ring := ring
  writer := .idle
  reader := .idle
  writes := []
  reads := []

variable (s : SharedLwrb size)

/-- `lwrb_write_ex` returns. -/
def finishWrite (c : WriteCall) (written : Option ℕ) : SharedLwrb size :=
  { s with writer := .idle, writes := s.writes ++ [(c, written)] }

/-- `lwrb_read_ex` returns. -/
def finishRead (c : ReadCall) (data : Option (List UInt8)) : SharedLwrb size :=
  { s with reader := .idle, reads := s.reads ++ [(c, data)] }

/-- The next step of `lwrb_write_ex`. -/
def writerStep : Option (SharedLwrb size) :=
  match s.writer with
  | .idle => none
  | .called c =>
    if c.data.length = 0 then some (s.finishWrite c none)
    else some { s with writer := .loaded c ⟨s.ring.wPtr, s.ring.wPtr_lt⟩ }
  | .loaded c wPtr =>
    let free := Lwrb.freeBetween size wPtr s.ring.rPtr
    if free = 0 ∨ free < c.data.length ∧ c.writeAll = true then some (s.finishWrite c none)
    else some { s with writer := .sized c (min free c.data.length) }
  | .sized c btw =>
    some { s with writer := .copying c ⟨s.ring.wPtr, s.ring.wPtr_lt⟩ [] (c.data.take btw) }
  | .copying c ptr copied (b :: todo) =>
    some { s with
      ring := { s.ring with buff := s.ring.buff.set ptr b ptr.2 }
      writer := .copying c (nextPtr ptr) (copied ++ [b]) todo }
  | .copying c ptr copied [] =>
    some (finishWrite { s with ring := { s.ring with wPtr := ptr, wPtr_lt := ptr.2 } } c
      (some copied.length))

/-- The next step of `lwrb_read_ex`. -/
def readerStep : Option (SharedLwrb size) :=
  match s.reader with
  | .idle => none
  | .called c =>
    if c.btr = 0 then some (s.finishRead c none)
    else some { s with reader := .loaded c ⟨s.ring.wPtr, s.ring.wPtr_lt⟩ }
  | .loaded c wPtr =>
    let full := Lwrb.fullBetween size wPtr s.ring.rPtr
    if full = 0 ∨ full < c.btr ∧ c.readAll = true then some (s.finishRead c none)
    else some { s with reader := .sized c (min full c.btr) }
  | .sized c btr =>
    some { s with reader := .copying c ⟨s.ring.rPtr, s.ring.rPtr_lt⟩ [] btr }
  | .copying c ptr copied (todo + 1) =>
    some { s with reader := .copying c (nextPtr ptr) (copied ++ [s.ring.buff.get ptr]) todo }
  | .copying c ptr copied 0 =>
    some (finishRead { s with ring := { s.ring with rPtr := ptr, rPtr_lt := ptr.2 } } c
      (some copied))

/-- The steps of the system: each end of the buffer has one user, who makes one call after the
other. -/
def step (s : SharedLwrb size) : SharedAction → Option (SharedLwrb size)
  | .callWrite data writeAll =>
    match s.writer with
    | .idle => some { s with writer := .called ⟨data, writeAll, s.ring.getFree⟩ }
    | _ => none
  | .writerStep => s.writerStep
  | .callRead btr readAll =>
    match s.reader with
    | .idle => some { s with reader := .called ⟨btr, readAll, s.ring.getFull⟩ }
    | _ => none
  | .readerStep => s.readerStep

/-! ### What the calls return -/

/-- The bytes that the finished calls have written. -/
def accepted : List UInt8 := s.writes.flatMap fun w => w.1.data.take (w.2.getD 0)

/-- The bytes that the finished calls have read. -/
def delivered : List UInt8 := s.reads.flatMap fun r => r.2.getD []

end SharedLwrb

/-- The numbers of bytes that a call may write: at least what fitted when it began, and all bytes if
the caller wants all or nothing. -/
def WriteCall.Allows (c : WriteCall) (count : ℕ) : Prop :=
  0 < count ∧ count ≤ c.data.length ∧ min c.freeAtCall c.data.length ≤ count ∧
    (c.writeAll = true → count = c.data.length)

/-- What a call of `lwrb_write_ex` may return. It is only refused if it would have been refused
when it began. -/
def WriteCall.MayReturn (c : WriteCall) : Option ℕ → Prop
  | some count => c.Allows count
  | none => c.data = [] ∨ c.freeAtCall = 0 ∨ c.freeAtCall < c.data.length ∧ c.writeAll = true

/-- The numbers of bytes that a call may read: at least what was there when it began, and as many as
it asks for if the caller wants all or nothing. -/
def ReadCall.Allows (c : ReadCall) (count : ℕ) : Prop :=
  0 < count ∧ count ≤ c.btr ∧ min c.fullAtCall c.btr ≤ count ∧ (c.readAll = true → count = c.btr)

/-- What a call of `lwrb_read_ex` may return. -/
def ReadCall.MayReturn (c : ReadCall) : Option (List UInt8) → Prop
  | some data => c.Allows data.length
  | none => c.btr = 0 ∨ c.fullAtCall = 0 ∨ c.fullAtCall < c.btr ∧ c.readAll = true

namespace SharedLwrb

variable {size : ℕ}

/-! ### The invariant -/

/-- What the writer knows of the ring buffer. -/
def WriterInv (ring : Lwrb size) : Writer size → Prop
  | .idle => True
  | .called c => c.freeAtCall ≤ ring.getFree
  | .loaded c wPtr => wPtr = ring.wPtr ∧ c.freeAtCall ≤ ring.getFree ∧ c.data.length ≠ 0
  | .sized c btw => btw ≤ ring.getFree ∧ c.Allows btw
  | .copying c ptr copied todo =>
    (ptr : ℕ) = next size ring.wPtr copied.length ∧ (copied ++ todo).length ≤ ring.getFree ∧
      c.Allows (copied ++ todo).length ∧ copied ++ todo <+: c.data ∧
      copied <+: viewFrom ring.buff ring.wPtr

/-- What the reader knows of the ring buffer. The position to write to that it has loaded may be an
earlier one. -/
def ReaderInv (ring : Lwrb size) : Reader size → Prop
  | .idle => True
  | .called c => c.fullAtCall ≤ ring.getFull
  | .loaded c wPtr =>
    ∃ full ≤ ring.getFull, wPtr = next size ring.rPtr full ∧ c.fullAtCall ≤ full ∧ c.btr ≠ 0
  | .sized c btr => btr ≤ ring.getFull ∧ c.Allows btr
  | .copying c ptr copied todo =>
    (ptr : ℕ) = next size ring.rPtr copied.length ∧ copied.length + todo ≤ ring.getFull ∧
      c.Allows (copied.length + todo) ∧ copied <+: ring.bytes

/-- The invariant of all runs. -/
structure Inv (s : SharedLwrb size) : Prop where
  conserved : s.delivered ++ s.ring.bytes = s.accepted
  writer : WriterInv s.ring s.writer
  reader : ReaderInv s.ring s.reader
  writes : ∀ w ∈ s.writes, w.1.MayReturn w.2
  reads : ∀ r ∈ s.reads, r.1.MayReturn r.2

variable {s t : SharedLwrb size} {ring ring' : Lwrb size}

/-- The reader makes room for the writer. -/
theorem WriterInv.mono {w : Writer size} (h : WriterInv ring w) (hbuff : ring'.buff = ring.buff)
    (hwPtr : ring'.wPtr = ring.wPtr) (hfree : ring.getFree ≤ ring'.getFree) :
    WriterInv ring' w := by
  cases w with
  | idle => trivial
  | called c => exact Nat.le_trans h hfree
  | loaded c wPtr => exact ⟨h.1.trans hwPtr.symm, h.2.1.trans hfree, h.2.2⟩
  | sized c btw => exact ⟨h.1.trans hfree, h.2⟩
  | copying c ptr copied todo =>
    rw [WriterInv, hbuff, hwPtr]
    exact ⟨h.1, h.2.1.trans hfree, h.2.2⟩

/-- The writer adds bytes for the reader. -/
theorem ReaderInv.mono {r : Reader size} (h : ReaderInv ring r) (hrPtr : ring'.rPtr = ring.rPtr)
    (hbytes : ring.bytes <+: ring'.bytes) : ReaderInv ring' r := by
  have hfull : ring.getFull ≤ ring'.getFull := by
    rw [← ring.length_bytes, ← ring'.length_bytes]
    exact hbytes.length_le
  cases r with
  | idle => trivial
  | called c => exact Nat.le_trans h hfull
  | loaded c wPtr =>
    obtain ⟨full, hle, hwPtr, hcall⟩ := h
    exact ⟨full, hle.trans hfull, by rwa [hrPtr], hcall⟩
  | sized c btr => exact ⟨h.1.trans hfull, h.2⟩
  | copying c ptr copied todo =>
    rw [ReaderInv, hrPtr]
    exact ⟨h.1, h.2.1.trans hfull, h.2.2.1, h.2.2.2.trans hbytes⟩

@[simp] theorem delivered_finishRead (s : SharedLwrb size) (c : ReadCall)
    (data : Option (List UInt8)) :
    (s.finishRead c data).delivered = s.delivered ++ data.getD [] := by
  simp only [delivered, finishRead, List.flatMap_append, List.flatMap_singleton]

@[simp] theorem accepted_finishWrite (s : SharedLwrb size) (c : WriteCall) (written : Option ℕ) :
    (s.finishWrite c written).accepted = s.accepted ++ c.data.take (written.getD 0) := by
  simp only [accepted, finishWrite, List.flatMap_append, List.flatMap_singleton]

/-! ### The writer -/

/-- A call of the writer returns. -/
theorem Inv.finishWrite (h : s.Inv) {c : WriteCall} {written : Option ℕ}
    (hmay : c.MayReturn written) (hrPtr : ring'.rPtr = s.ring.rPtr)
    (hbytes : ring'.bytes = s.ring.bytes ++ c.data.take (written.getD 0)) :
    (SharedLwrb.finishWrite { s with ring := ring' } c written).Inv where
  conserved := by
    rw [accepted_finishWrite]
    change s.delivered ++ ring'.bytes = s.accepted ++ _
    rw [hbytes, ← List.append_assoc, h.conserved]
  writer := trivial
  reader := h.reader.mono hrPtr (hbytes ▸ List.prefix_append ..)
  writes := List.forall_mem_append.mpr ⟨h.writes, List.forall_mem_singleton.mpr hmay⟩
  reads := h.reads

/-- A call of the writer that is refused. -/
theorem Inv.refuseWrite (h : s.Inv) {c : WriteCall} (hmay : c.MayReturn none) :
    (s.finishWrite c none).Inv :=
  h.finishWrite hmay rfl (by rw [Option.getD_none, List.take_zero, List.append_nil])

/-- What a byte copied behind a position does to the view from there. -/
theorem viewFrom_set_ptr (ring : Lwrb size) {i k : ℕ} {ptr : Fin size} (hi : i < size)
    (hk : k < size) (hptr : (ptr : ℕ) = next size i k) (b : UInt8) :
    viewFrom (ring.buff.set ptr b ptr.2) i = (viewFrom ring.buff i).set k b := by
  rw [← viewFrom_set _ hi hk]
  simp only [hptr]

/-- A byte copied behind the position to write to is not seen by the reader. -/
theorem bytes_set {ptr : Fin size} {k : ℕ} (hptr : (ptr : ℕ) = next size ring.wPtr k)
    (hk : k < ring.getFree) (b : UInt8) :
    Lwrb.bytes { ring with buff := ring.buff.set ptr b ptr.2 } = ring.bytes := by
  have hfree := ring.getFree_eq
  rw [← ring.next_getFull, next_next ring.rPtr_lt (by omega)] at hptr
  have hview := viewFrom_set_ptr ring ring.rPtr_lt (by omega) hptr b
  refine (congrArg (List.take ring.getFull) hview).trans ?_
  exact List.take_set_of_le (Nat.le_add_right ..)

/-- One byte more is copied behind those before it. -/
theorem prefix_set {l m : List UInt8} {b : UInt8} (h : l <+: m) (hlt : l.length < m.length) :
    l ++ [b] <+: m.set l.length b := by
  obtain ⟨rest, rfl⟩ := h
  cases rest with
  | nil => exact absurd hlt (by rw [List.append_nil]; exact Nat.lt_irrefl _)
  | cons a rest =>
    rw [List.set_append_right _ _ le_rfl, Nat.sub_self, List.set_cons_zero]
    exact ⟨rest, (List.append_cons ..).symm⟩

/-- One byte is copied. -/
theorem Inv.copyIn (h : s.Inv) {c : WriteCall} {ptr : Fin size} {copied todo : List UInt8}
    {b : UInt8} (hwriter : s.writer = .copying c ptr copied (b :: todo)) :
    Inv { s with
      ring := { s.ring with buff := s.ring.buff.set ptr b ptr.2 }
      writer := .copying c (nextPtr ptr) (copied ++ [b]) todo } := by
  have hfree := s.ring.getFree_eq
  have hinv := h.writer
  rw [hwriter, WriterInv, List.append_cons] at hinv
  obtain ⟨hptr, hle, hallows, hdata, hpre⟩ := hinv
  have hlength : copied.length < s.ring.getFree := by
    rw [List.length_append, List.length_append, List.length_singleton] at hle
    omega
  have hbytes := bytes_set hptr hlength b
  refine ⟨?_, ⟨?_, hle, hallows, hdata, ?_⟩, h.reader.mono rfl (hbytes ▸ List.prefix_rfl),
    h.writes, h.reads⟩
  · exact (congrArg (s.delivered ++ ·) hbytes).trans h.conserved
  · rw [List.length_append, List.length_singleton, ← next_next s.ring.wPtr_lt (by omega), ← hptr]
    rfl
  · have hview := viewFrom_set_ptr s.ring s.ring.wPtr_lt (by omega) hptr b
    refine (prefix_set hpre ?_).trans (hview ▸ List.prefix_rfl)
    rw [length_viewFrom]
    omega

/-- The position to write to is stored: the bytes are in the buffer. -/
theorem Inv.storeWPtr (h : s.Inv) {c : WriteCall} {ptr : Fin size} {copied : List UInt8}
    (hwriter : s.writer = .copying c ptr copied []) :
    Inv (SharedLwrb.finishWrite { s with ring := { s.ring with wPtr := ptr, wPtr_lt := ptr.2 } } c
      (some copied.length)) := by
  have hinv := h.writer
  rw [hwriter, WriterInv, List.append_nil] at hinv
  obtain ⟨hptr, hle, hallows, hdata, hpre⟩ := hinv
  refine h.finishWrite hallows rfl ?_
  have hcopied : c.data.take copied.length = copied := (List.prefix_iff_eq_take.mp hdata).symm
  rw [Option.getD_some, hcopied]
  refine s.ring.bytes_of_written hle rfl hptr ?_
  obtain ⟨rest, hrest⟩ := hpre
  exact hrest ▸ (by rw [List.drop_left])

/-- Every step of the writer preserves the invariant. -/
theorem Inv.writerStep (h : s.Inv) (hstep : s.writerStep = some t) : t.Inv := by
  have hinv := h.writer
  rw [SharedLwrb.writerStep] at hstep
  cases hwriter : s.writer with
  | idle => rw [hwriter] at hstep; cases hstep
  | called c =>
    simp only [hwriter] at hstep hinv
    split_ifs at hstep with hdata
    · rw [← Option.some.inj hstep]
      exact h.refuseWrite (Or.inl (List.length_eq_zero_iff.mp hdata))
    · rw [← Option.some.inj hstep]
      exact { h with writer := ⟨rfl, hinv, hdata⟩ }
  | loaded c wPtr =>
    simp only [hwriter] at hstep hinv
    obtain ⟨hwPtr, hcall, hdata⟩ := hinv
    have hfree : Lwrb.freeBetween size wPtr s.ring.rPtr = s.ring.getFree := by
      rw [hwPtr]
      rfl
    simp only [hfree] at hstep
    split_ifs at hstep with hrefused
    · rw [← Option.some.inj hstep]
      refine h.refuseWrite (Or.inr (hrefused.imp (fun hzero => ?_) fun hall => ⟨?_, hall.2⟩))
      · exact Nat.eq_zero_of_le_zero (hzero ▸ hcall)
      · exact hcall.trans_lt hall.1
    · rw [← Option.some.inj hstep]
      rw [not_or, not_and] at hrefused
      refine { h with writer := ⟨min_le_left .., ?_, min_le_right .., ?_, fun hall => ?_⟩ }
      · omega
      · omega
      · exact min_eq_right (not_lt.mp fun hlt => hrefused.2 hlt hall)
  | sized c btw =>
    simp only [hwriter] at hstep hinv
    rw [← Option.some.inj hstep]
    obtain ⟨hbtw, hallows⟩ := hinv
    have hlength : (c.data.take btw).length = btw := by
      rw [List.length_take, min_eq_left hallows.2.1]
    refine { h with writer := ⟨(next_zero s.ring.wPtr_lt).symm, ?_, ?_, ?_, List.nil_prefix⟩ }
    · rwa [List.nil_append, hlength]
    · rwa [List.nil_append, hlength]
    · rw [List.nil_append]
      exact List.take_prefix ..
  | copying c ptr copied todo =>
    cases todo with
    | nil =>
      simp only [hwriter] at hstep
      rw [← Option.some.inj hstep]
      exact h.storeWPtr hwriter
    | cons b todo =>
      simp only [hwriter] at hstep
      rw [← Option.some.inj hstep]
      exact h.copyIn hwriter

/-! ### The reader -/

/-- A call of the reader returns. -/
theorem Inv.finishRead (h : s.Inv) {c : ReadCall} {data : Option (List UInt8)}
    (hmay : c.MayReturn data) (hbuff : ring'.buff = s.ring.buff) (hwPtr : ring'.wPtr = s.ring.wPtr)
    (hbytes : data.getD [] ++ ring'.bytes = s.ring.bytes) :
    (SharedLwrb.finishRead { s with ring := ring' } c data).Inv where
  conserved := by
    rw [delivered_finishRead]
    change s.delivered ++ _ ++ ring'.bytes = s.accepted
    rw [List.append_assoc, hbytes, h.conserved]
  writer := by
    refine h.writer.mono hbuff hwPtr ?_
    have hlength := congrArg List.length hbytes
    rw [List.length_append, Lwrb.length_bytes, Lwrb.length_bytes] at hlength
    change s.ring.getFree ≤ ring'.getFree
    rw [s.ring.getFree_eq, ring'.getFree_eq]
    omega
  reader := trivial
  writes := h.writes
  reads := List.forall_mem_append.mpr ⟨h.reads, List.forall_mem_singleton.mpr hmay⟩

/-- A call of the reader that is refused. -/
theorem Inv.refuseRead (h : s.Inv) {c : ReadCall} (hmay : c.MayReturn none) :
    (s.finishRead c none).Inv := h.finishRead hmay rfl rfl rfl

/-- The number of bytes that the reader computes from a position to write to. -/
theorem fullBetween_next {rPtr full : ℕ} (hr : rPtr < size) (hfull : full < size) :
    Lwrb.fullBetween size (next size rPtr full) rPtr = full := by
  rw [Lwrb.fullBetween, next]
  split_ifs <;> omega

/-- One byte more is read behind those before it. -/
theorem prefix_snoc {l m : List UInt8} {b : UInt8} (h : l <+: m) (hget : m[l.length]? = some b) :
    l ++ [b] <+: m := by
  obtain ⟨rest, rfl⟩ := h
  rw [List.getElem?_append_right le_rfl, Nat.sub_self] at hget
  cases rest with
  | nil => cases hget
  | cons a rest =>
    obtain rfl := Option.some.inj hget
    exact ⟨rest, (List.append_cons ..).symm⟩

/-- One byte is copied. -/
theorem Inv.copyOut (h : s.Inv) {c : ReadCall} {ptr : Fin size} {copied : List UInt8} {todo : ℕ}
    (hreader : s.reader = .copying c ptr copied (todo + 1)) :
    Inv { s with reader := .copying c (nextPtr ptr) (copied ++ [s.ring.buff.get ptr]) todo } := by
  have hfull := s.ring.getFull_lt
  have hinv := h.reader
  rw [hreader] at hinv
  obtain ⟨hptr, hle, hallows, hpre⟩ := hinv
  refine { h with reader := ⟨?_, ?_, ?_, ?_⟩ }
  · rw [List.length_append, List.length_singleton, ← next_next s.ring.rPtr_lt (by omega), ← hptr]
    rfl
  · change _ ≤ s.ring.getFull
    rw [List.length_append, List.length_singleton]
    omega
  · rwa [List.length_append, List.length_singleton, Nat.add_assoc, Nat.add_comm 1]
  · have hbyte : s.ring.bytes[copied.length]? = some (s.ring.buff.get ptr) := by
      rw [Lwrb.bytes, List.getElem?_take_of_lt (by omega)]
      exact getElem?_viewFrom _ s.ring.rPtr_lt (by omega) hptr
    exact prefix_snoc hpre hbyte

/-- The position to read from is stored: the bytes have left the buffer. -/
theorem Inv.storeRPtr (h : s.Inv) {c : ReadCall} {ptr : Fin size} {copied : List UInt8}
    (hreader : s.reader = .copying c ptr copied 0) :
    Inv (SharedLwrb.finishRead { s with ring := { s.ring with rPtr := ptr, rPtr_lt := ptr.2 } } c
      (some copied)) := by
  have hinv := h.reader
  rw [hreader] at hinv
  obtain ⟨hptr, hle, hallows, hpre⟩ := hinv
  refine h.finishRead hallows rfl rfl ?_
  have hbytes : Lwrb.bytes { s.ring with rPtr := ptr, rPtr_lt := ptr.2 } =
      s.ring.bytes.drop copied.length := s.ring.bytes_of_read hle rfl rfl hptr
  rw [hbytes, Option.getD_some]
  nth_rewrite 1 [List.prefix_iff_eq_take.mp hpre]
  exact List.take_append_drop ..

/-- Every step of the reader preserves the invariant. -/
theorem Inv.readerStep (h : s.Inv) (hstep : s.readerStep = some t) : t.Inv := by
  have hinv := h.reader
  rw [SharedLwrb.readerStep] at hstep
  cases hreader : s.reader with
  | idle => rw [hreader] at hstep; cases hstep
  | called c =>
    simp only [hreader] at hstep hinv
    split_ifs at hstep with hbtr
    · rw [← Option.some.inj hstep]
      exact h.refuseRead (Or.inl hbtr)
    · rw [← Option.some.inj hstep]
      exact { h with reader := ⟨_, le_rfl, s.ring.next_getFull.symm, hinv, hbtr⟩ }
  | loaded c wPtr =>
    simp only [hreader] at hstep hinv
    obtain ⟨full, hle, hwPtr, hcall, hbtr⟩ := hinv
    have hfull : Lwrb.fullBetween size wPtr s.ring.rPtr = full := by
      rw [hwPtr, fullBetween_next s.ring.rPtr_lt (hle.trans_lt s.ring.getFull_lt)]
    simp only [hfull] at hstep
    split_ifs at hstep with hrefused
    · rw [← Option.some.inj hstep]
      refine h.refuseRead (Or.inr (hrefused.imp (fun hzero => ?_)
        fun hall => ⟨hcall.trans_lt hall.1, hall.2⟩))
      exact Nat.eq_zero_of_le_zero (hzero ▸ hcall)
    · rw [← Option.some.inj hstep]
      rw [not_or, not_and] at hrefused
      refine { h with
        reader := ⟨(min_le_left ..).trans hle, ?_, min_le_right .., ?_, fun hall => ?_⟩ }
      · omega
      · omega
      · exact min_eq_right (not_lt.mp fun hlt => hrefused.2 hlt hall)
  | sized c btr =>
    simp only [hreader] at hstep hinv
    rw [← Option.some.inj hstep]
    obtain ⟨hbtr, hallows⟩ := hinv
    refine { h with reader := ⟨(next_zero s.ring.rPtr_lt).symm, ?_, ?_, List.nil_prefix⟩ }
    · rwa [List.length_nil, Nat.zero_add]
    · rwa [List.length_nil, Nat.zero_add]
  | copying c ptr copied todo =>
    cases todo with
    | zero =>
      simp only [hreader] at hstep
      rw [← Option.some.inj hstep]
      exact h.storeRPtr hreader
    | succ todo =>
      simp only [hreader] at hstep
      rw [← Option.some.inj hstep]
      exact h.copyOut hreader

/-! ### Runs -/

/-- The invariant holds of a buffer that nobody accesses yet. -/
theorem inv_start {ring : Lwrb size} (hempty : ring.bytes = []) : (start ring).Inv where
  conserved := hempty
  writer := trivial
  reader := trivial
  writes := fun _ => List.not_mem_nil.elim
  reads := fun _ => List.not_mem_nil.elim

/-- Every step preserves the invariant. -/
theorem Inv.step {a : SharedAction} (h : s.Inv) (hstep : s.step a = some t) : t.Inv := by
  cases a with
  | callWrite data writeAll =>
    simp only [SharedLwrb.step] at hstep
    split at hstep
    · rw [← Option.some.inj hstep]
      exact { h with writer := le_rfl }
    · cases hstep
  | writerStep => exact h.writerStep hstep
  | callRead btr readAll =>
    simp only [SharedLwrb.step] at hstep
    split at hstep
    · rw [← Option.some.inj hstep]
      exact { h with reader := le_rfl }
    · cases hstep
  | readerStep => exact h.readerStep hstep

/-! ### What a step of the writer changes -/

/-- A step of the writer continues its call or finishes it. The reader is left alone. -/
theorem writerStep_cases (hstep : s.writerStep = some t) :
    ∃ c, s.writer.call = some c ∧ t.reader = s.reader ∧ t.reads = s.reads ∧
      (t.writer.call = some c ∧ t.writes = s.writes ∨
        ∃ written, t.writer = .idle ∧ t.writes = s.writes ++ [(c, written)]) := by
  rw [SharedLwrb.writerStep] at hstep
  cases hwriter : s.writer with
  | idle => rw [hwriter] at hstep; cases hstep
  | called c =>
    simp only [hwriter] at hstep
    split_ifs at hstep <;> rw [← Option.some.inj hstep]
    · exact ⟨c, rfl, rfl, rfl, Or.inr ⟨none, rfl, rfl⟩⟩
    · exact ⟨c, rfl, rfl, rfl, Or.inl ⟨rfl, rfl⟩⟩
  | loaded c wPtr =>
    simp only [hwriter] at hstep
    split_ifs at hstep <;> rw [← Option.some.inj hstep]
    · exact ⟨c, rfl, rfl, rfl, Or.inr ⟨none, rfl, rfl⟩⟩
    · exact ⟨c, rfl, rfl, rfl, Or.inl ⟨rfl, rfl⟩⟩
  | sized c btw =>
    simp only [hwriter] at hstep
    rw [← Option.some.inj hstep]
    exact ⟨c, rfl, rfl, rfl, Or.inl ⟨rfl, rfl⟩⟩
  | copying c ptr copied todo =>
    cases todo with
    | nil =>
      simp only [hwriter] at hstep
      rw [← Option.some.inj hstep]
      exact ⟨c, rfl, rfl, rfl, Or.inr ⟨some copied.length, rfl, rfl⟩⟩
    | cons b todo =>
      simp only [hwriter] at hstep
      rw [← Option.some.inj hstep]
      exact ⟨c, rfl, rfl, rfl, Or.inl ⟨rfl, rfl⟩⟩

/-! ### A reader that is not interrupted -/

/-- Steps of the reader until its call returns. -/
def readToEnd : ℕ → SharedLwrb size → SharedLwrb size
  | 0, s => s
  | fuel + 1, s =>
    match s.readerStep with
    | some t => readToEnd fuel t
    | none => s

/-- `lwrb_read` of one byte in an interrupt handler, from its call to its return. -/
def readByte (s : SharedLwrb size) : SharedLwrb size :=
  readToEnd 5 { s with reader := .called ⟨1, false, s.ring.getFull⟩ }

theorem Inv.readToEnd {fuel : ℕ} (h : s.Inv) : (s.readToEnd fuel).Inv := by
  induction fuel generalizing s with
  | zero => exact h
  | succ fuel ih =>
    rw [SharedLwrb.readToEnd]
    split
    · rename_i t hstep
      exact ih (h.readerStep hstep)
    · exact h

theorem Inv.readByte (h : s.Inv) : s.readByte.Inv :=
  Inv.readToEnd { h with reader := le_rfl }

theorem readByte_of_full (s : SharedLwrb size) (hfull : s.ring.getFull = 0) :
    s.readByte = { s with
      reader := .idle
      reads := s.reads ++ [(⟨1, false, s.ring.getFull⟩, none)] } := by
  have hbetween : Lwrb.fullBetween size s.ring.wPtr s.ring.rPtr = 0 := hfull
  simp only [readByte, readToEnd, readerStep, finishRead, hbetween, Nat.one_ne_zero, if_false,
    true_or, if_true]

/-- If there is a byte then it is returned. -/
theorem exists_readByte (s : SharedLwrb size) (hfull : s.ring.getFull ≠ 0) :
    ∃ b, s.readByte.reads = s.reads ++ [(⟨1, false, s.ring.getFull⟩, some [b])] ∧
      s.readByte.writer = s.writer ∧ s.readByte.writes = s.writes ∧ s.readByte.reader = .idle := by
  have hbetween : Lwrb.fullBetween size s.ring.wPtr s.ring.rPtr ≠ 0 := hfull
  have hone : min (Lwrb.fullBetween size s.ring.wPtr s.ring.rPtr) 1 = 0 + 1 := by omega
  simp only [readByte, readToEnd, readerStep, finishRead, hbetween, hone, Nat.one_ne_zero, if_false,
    Bool.false_eq_true, and_false, or_self, and_self, and_true]
  exact ⟨_, rfl⟩

/-! ### All interleavings -/

/-- **No byte is lost, doubled or reordered.** However a writer and a reader of a ring buffer
interrupt each other between loads, copies of bytes and stores, at any time the bytes that the
finished reads have returned, followed by the bytes in the buffer, are the bytes that the finished
writes have accepted. A write accepts at least what fitted when it began, a read returns at least
what was there when it began, and neither is refused unless it would have been then. -/
theorem interleaved_calls {ring : Lwrb size} (hempty : ring.bytes = [])
    {actions : List SharedAction} (hvisit : StepSystem.Visits step (start ring) actions s) :
    s.delivered ++ s.ring.bytes = s.accepted ∧ s.ring.bytes.length < size ∧
      (∀ w ∈ s.writes, w.1.MayReturn w.2) ∧ ∀ r ∈ s.reads, r.1.MayReturn r.2 := by
  have h : s.Inv :=
    StepSystem.invariant_visits_of_step (fun _ _ _ hs hstep => Inv.step hs hstep)
      (inv_start hempty) hvisit
  refine ⟨h.conserved, ?_, h.writes, h.reads⟩
  rw [s.ring.length_bytes]
  exact s.ring.getFull_lt

/-- An empty buffer over three bytes. -/
def three : Lwrb 3 := .init ⟨#[0, 0, 0], rfl⟩ (by decide)

/-- Two bytes are written and one of them read. The next read has loaded the position to write to
when a third byte arrives, at the end of the array, and returns the second byte only. -/
def overlappingCalls : List SharedAction :=
  [.callWrite [1, 2] false, .writerStep, .writerStep, .writerStep, .writerStep, .writerStep,
    .writerStep, .callRead 1 true, .readerStep, .readerStep, .readerStep, .readerStep, .readerStep,
    .callRead 5 false, .readerStep, .callWrite [3] true, .writerStep, .writerStep, .writerStep,
    .writerStep, .writerStep, .readerStep, .readerStep, .readerStep, .readerStep]

theorem interleaved_calls_three :
    ∃ s, StepSystem.run step (start three) overlappingCalls = some s ∧
      s.delivered = [1, 2] ∧ s.ring.bytes = [3] ∧
      s.delivered ++ s.ring.bytes = s.accepted ∧ s.ring.bytes.length < 3 := by
  have hconserved : ∀ s, StepSystem.run step (start three) overlappingCalls = some s →
      s.delivered ++ s.ring.bytes = s.accepted ∧ s.ring.bytes.length < 3 := fun s hrun => by
    obtain ⟨hconserved, hlt, -⟩ := interleaved_calls rfl (StepSystem.visits_of_run hrun)
    exact ⟨hconserved, hlt⟩
  exact ⟨_, rfl, rfl, rfl, hconserved _ rfl⟩

end SharedLwrb

end TellerOBC
