import TellerOBC.Hal.Uart
import TellerOBC.Lib.SharedLwrb

/-!
# Writing to a UART

`write` of `hal/stm32/uart.cpp` for a physical UART, with the transmitting half of
`uart_irq_handler`. The task pushes as many bytes as fit into the ring buffer, enables the interrupt
for an empty transmit register, and waits for the event flag `EVT_WRITTEN`, but not for longer than
100 ms, until all bytes are in the buffer. The interrupt handler moves a byte from the buffer to the
transmit register; if there is none, it disables the interrupt and sets the event flag.

The handler looks at the flag for an empty transmit register only, not at whether its interrupt is
enabled. A received byte therefore makes it transmit, or set `EVT_WRITTEN`, at any time, also while
the task is within `lwrb_write`.

## Main definitions

* `TellerOBC.UartTransmit`, `TellerOBC.UartTransmit.step`: the task and the interrupt handler.

## Main results

* `TellerOBC.UartTransmit.Inv.step`: what every step preserves.
* `TellerOBC.UartTransmit.bytes_in_order`: what is on the wire, and no lost interrupt.
* `TellerOBC.UartTransmit.Inv.exists_drained`: the interrupts end every wait.
* `TellerOBC.Lwrb.exists_write_singleton`, `TellerOBC.Lwrb.exists_read`: the queue with which
  receiving is modelled is a ring buffer.
-/

namespace TellerOBC

/-- `DMA_BUFFER_SIZE`. -/
def dmaBufferSize : ℕ := 256

/-- Where the task is in `write`: outside of it, within `lwrb_write`, about to enable the interrupt
for an empty transmit register, or waiting for the event flag. Bytes that are not in the ring buffer
yet are still to be written. -/
inductive WritePhase where
  | idle
  | pushing (todo : List UInt8)
  | enabling (todo : List UInt8)
  | waiting (todo : List UInt8)
  deriving DecidableEq, Repr

/-- The bytes that are still to be pushed into the ring buffer. -/
def WritePhase.todo : WritePhase → List UInt8
  | .idle => []
  | .pushing todo | .enabling todo | .waiting todo => todo

/-- The bytes of the current call of `lwrb_write`. -/
def WritePhase.pushing? : WritePhase → Option (List UInt8)
  | .pushing todo => some todo
  | _ => none

/-- The transmitting side of a UART with the task that writes to it. -/
structure UartTransmit where
  txBuffer : SharedLwrb dmaBufferSize
  /-- Whether the interrupt for an empty transmit register is enabled. -/
  txeie : Bool
  /-- The event flag `EVT_WRITTEN`. -/
  evtWritten : Bool
  phase : WritePhase
  /-- The bytes written to the transmit register. -/
  wire : List UInt8
  /-- The bytes passed to `write`. -/
  requested : List UInt8

/-- A call of `write`, a step of `lwrb_write` in it, the write to the control register, the end of
the wait by the event flag or by the timeout, and an interrupt with an empty transmit register. -/
inductive UartTransmitAction where
  | call (data : List UInt8)
  | push
  | enable
  | wake
  | timeOut
  | interrupt
  deriving DecidableEq, Repr

namespace UartTransmit

/-- The UART after `lwrb_init` of its buffer. -/
def start : UartTransmit where
  txBuffer := .start (.init (Vector.replicate _ 0) (by decide))
  txeie := false
  evtWritten := false
  phase := .idle
  wire := []
  requested := []

variable (s : UartTransmit)

/-- The head of the loop in `write`. -/
def writeLoop (todo : List UInt8) : UartTransmit :=
  if todo.length = 0 then { s with phase := .idle }
  else { s with
    txBuffer := { s.txBuffer with writer := .called ⟨todo, false, s.txBuffer.ring.getFree⟩ }
    phase := .pushing todo }

/-- After a step of `lwrb_write`: if it has returned, its result is used. -/
def afterPush (todo : List UInt8) (txBuffer : SharedLwrb dmaBufferSize) : UartTransmit :=
  match txBuffer.writer, txBuffer.writes.getLast? with
  | .idle, some (_, written) =>
    { s with txBuffer := txBuffer, phase := .enabling (todo.drop (written.getD 0)) }
  | _, _ => { s with txBuffer := txBuffer }

/-- The transmitting half of `uart_irq_handler`. -/
def interrupt : UartTransmit :=
  let txBuffer := s.txBuffer.readByte
  match txBuffer.reads.getLast? with
  | some (_, some (ch :: _)) => { s with txBuffer := txBuffer, wire := s.wire ++ [ch] }
  | _ => { s with txBuffer := txBuffer, txeie := false, evtWritten := true }

/-- The steps of the system. -/
def step (s : UartTransmit) : UartTransmitAction → Option UartTransmit
  | .call data =>
    match s.phase with
    | .idle => some (writeLoop { s with requested := s.requested ++ data } data)
    | _ => none
  | .push =>
    match s.phase with
    | .pushing todo => s.txBuffer.writerStep.map (s.afterPush todo)
    | _ => none
  | .enable =>
    match s.phase with
    | .enabling todo => some { s with txeie := true, phase := .waiting todo }
    | _ => none
  | .wake =>
    match s.phase with
    | .waiting todo =>
      if s.evtWritten then some (writeLoop { s with evtWritten := false } todo) else none
    | _ => none
  | .timeOut =>
    match s.phase with
    | .waiting todo => some (s.writeLoop todo)
    | _ => none
  | .interrupt => some s.interrupt

/-! ### The invariant -/

/-- The invariant of all runs. The interrupt is enabled while there are bytes to transmit, except
for the moment between their push and the write to the control register. -/
structure Inv (s : UartTransmit) : Prop where
  txBuffer : s.txBuffer.Inv
  reader : s.txBuffer.reader = .idle
  writer : s.txBuffer.writer.call.map WriteCall.data = s.phase.pushing?
  wire : s.wire = s.txBuffer.delivered
  requested : s.txBuffer.accepted ++ s.phase.todo = s.requested
  enabled : s.txBuffer.ring.bytes ≠ [] → s.txeie = true ∨ ∃ todo, s.phase = .enabling todo
  waiting : ∀ todo, s.phase = .waiting todo → s.txeie = true ∨ s.evtWritten = true

variable {s} {t : UartTransmit}

/-- The head of the loop preserves the invariant. -/
theorem Inv.writeLoop {todo : List UInt8} (h : s.txBuffer.Inv) (hreader : s.txBuffer.reader = .idle)
    (hwriter : s.txBuffer.writer.call = none) (hwire : s.wire = s.txBuffer.delivered)
    (hrequested : s.txBuffer.accepted ++ todo = s.requested)
    (henabled : s.txBuffer.ring.bytes ≠ [] → s.txeie = true) : (s.writeLoop todo).Inv := by
  rw [UartTransmit.writeLoop]
  split_ifs with hzero
  · obtain rfl := List.length_eq_zero_iff.mp hzero
    exact ⟨h, hreader, by rw [hwriter]; rfl, hwire, hrequested, fun hne => Or.inl (henabled hne),
      fun _ hphase => by cases hphase⟩
  · exact ⟨{ h with writer := le_rfl }, hreader, rfl, hwire, hrequested,
      fun hne => Or.inl (henabled hne), fun _ hphase => by cases hphase⟩

/-- A step of `lwrb_write` preserves the invariant. -/
theorem Inv.push (h : s.Inv) {todo : List UInt8} (hphase : s.phase = .pushing todo)
    {txBuffer : SharedLwrb dmaBufferSize} (hstep : s.txBuffer.writerStep = some txBuffer) :
    (s.afterPush todo txBuffer).Inv := by
  have hbuffer := h.txBuffer.writerStep hstep
  obtain ⟨c, hc, hreader, hreads, hcases⟩ := SharedLwrb.writerStep_cases hstep
  have hdelivered : txBuffer.delivered = s.txBuffer.delivered := by
    rw [SharedLwrb.delivered, hreads, SharedLwrb.delivered]
  have hdata : c.data = todo := by
    have hwriter := h.writer
    rw [hc, hphase] at hwriter
    exact Option.some.inj hwriter
  rw [afterPush]
  rcases hcases with ⟨hwriter, hwrites⟩ | ⟨written, hwriter, hwrites⟩
  · -- the call goes on, and neither end of the buffer has moved
    have haccepted : txBuffer.accepted = s.txBuffer.accepted := by
      rw [SharedLwrb.accepted, hwrites, SharedLwrb.accepted]
    have hbytes : txBuffer.ring.bytes = s.txBuffer.ring.bytes := by
      have hconserved := hbuffer.conserved
      rw [hdelivered, haccepted, ← h.txBuffer.conserved] at hconserved
      exact List.append_cancel_left hconserved
    split
    · rename_i hidle _
      rw [hidle] at hwriter
      cases hwriter
    · refine ⟨hbuffer, hreader.trans h.reader, ?_, h.wire.trans hdelivered.symm, ?_, ?_, h.waiting⟩
      · rw [hwriter, hphase]
        exact congrArg some hdata
      · exact (congrArg (· ++ s.phase.todo) haccepted).trans h.requested
      · rw [hbytes]
        exact h.enabled
  · rw [hwriter, hwrites, List.getLast?_concat]
    have haccepted : txBuffer.accepted = s.txBuffer.accepted ++ todo.take (written.getD 0) := by
      rw [SharedLwrb.accepted, hwrites, List.flatMap_append, List.flatMap_singleton, hdata]
      rfl
    refine ⟨hbuffer, hreader.trans h.reader, ?_, h.wire.trans hdelivered.symm, ?_,
      fun _ => Or.inr ⟨_, rfl⟩, fun _ hwaiting => by cases hwaiting⟩
    · rw [hwriter]
      rfl
    · have hrequested := h.requested
      rw [hphase] at hrequested
      change txBuffer.accepted ++ todo.drop (written.getD 0) = s.requested
      rw [haccepted, List.append_assoc, List.take_append_drop]
      exact hrequested

/-- Without a byte to transmit the handler disables its interrupt and sets the event flag. -/
theorem interrupt_of_empty (hempty : s.txBuffer.ring.bytes = []) :
    s.interrupt = { s with
      txBuffer := { s.txBuffer with
        reader := .idle
        reads := s.txBuffer.reads ++ [(⟨1, false, s.txBuffer.ring.getFull⟩, none)] }
      txeie := false
      evtWritten := true } := by
  have hfull : s.txBuffer.ring.getFull = 0 := by
    rw [← Lwrb.length_bytes, hempty]
    rfl
  rw [interrupt, s.txBuffer.readByte_of_full hfull]
  simp only [List.getLast?_concat]

/-- Otherwise it transmits the first byte of the buffer. -/
theorem Inv.interrupt_of_ne_nil (h : s.Inv) (hne : s.txBuffer.ring.bytes ≠ []) :
    ∃ ch, s.txBuffer.ring.bytes = ch :: s.txBuffer.readByte.ring.bytes ∧
      s.txBuffer.readByte.delivered = s.txBuffer.delivered ++ [ch] ∧
      s.interrupt = { s with txBuffer := s.txBuffer.readByte, wire := s.wire ++ [ch] } := by
  have hfull : s.txBuffer.ring.getFull ≠ 0 := by
    rw [← Lwrb.length_bytes]
    exact List.length_eq_zero_iff.not.mpr hne
  obtain ⟨ch, hreads, hwriter, hwrites, hreader⟩ := s.txBuffer.exists_readByte hfull
  have hdelivered : s.txBuffer.readByte.delivered = s.txBuffer.delivered ++ [ch] := by
    rw [SharedLwrb.delivered, hreads, List.flatMap_append, List.flatMap_singleton]
    rfl
  refine ⟨ch, ?_, hdelivered, ?_⟩
  · -- the same bytes have been accepted
    have hconserved := h.txBuffer.readByte.conserved
    rw [SharedLwrb.accepted, hwrites, ← SharedLwrb.accepted, ← h.txBuffer.conserved, hdelivered,
      List.append_assoc] at hconserved
    exact (List.append_cancel_left hconserved).symm
  · rw [interrupt]
    simp only [hreads, List.getLast?_concat]

/-- An interrupt preserves the invariant. -/
theorem Inv.interrupt (h : s.Inv) : s.interrupt.Inv := by
  by_cases hempty : s.txBuffer.ring.bytes = []
  · rw [interrupt_of_empty hempty]
    refine ⟨?_, rfl, h.writer, ?_, h.requested, fun hne => absurd hempty hne,
      fun _ _ => Or.inr rfl⟩
    · have hread := h.txBuffer.readByte
      rwa [s.txBuffer.readByte_of_full (by rw [← Lwrb.length_bytes, hempty]; rfl)] at hread
    · rw [h.wire, SharedLwrb.delivered, SharedLwrb.delivered, List.flatMap_append]
      exact (List.append_nil _).symm
  · obtain ⟨ch, hbytes, hdelivered, hinterrupt⟩ := h.interrupt_of_ne_nil hempty
    obtain ⟨-, -, hwriter, hwrites, hreader⟩ := s.txBuffer.exists_readByte (by
      rw [← Lwrb.length_bytes]
      exact List.length_eq_zero_iff.not.mpr hempty)
    rw [hinterrupt]
    refine ⟨h.txBuffer.readByte, hreader, by rw [hwriter]; exact h.writer, ?_, ?_,
      fun _ => h.enabled hempty, h.waiting⟩
    · rw [hdelivered, ← h.wire]
    · rw [← h.requested, SharedLwrb.accepted, hwrites]
      rfl

/-- Every step preserves the invariant. -/
theorem Inv.step {a : UartTransmitAction} (h : s.Inv) (hstep : s.step a = some t) : t.Inv := by
  have hwriter := h.writer
  have hrequested := h.requested
  have henabled := h.enabled
  cases a with
  | call data =>
    simp only [UartTransmit.step] at hstep
    split at hstep
    · rename_i hphase
      rw [← Option.some.inj hstep]
      rw [hphase] at hwriter hrequested henabled
      refine Inv.writeLoop h.txBuffer h.reader (Option.map_eq_none_iff.mp hwriter) h.wire ?_ ?_
      · rw [← hrequested, WritePhase.todo, List.append_nil]
      · exact fun hne => (henabled hne).resolve_right fun ⟨_, hcontra⟩ => by cases hcontra
    · cases hstep
  | push =>
    simp only [UartTransmit.step] at hstep
    split at hstep
    · rename_i todo hphase
      obtain ⟨txBuffer, hpush, rfl⟩ := Option.map_eq_some_iff.mp hstep
      exact h.push hphase hpush
    · cases hstep
  | enable =>
    simp only [UartTransmit.step] at hstep
    split at hstep
    · rename_i todo hphase
      rw [← Option.some.inj hstep]
      rw [hphase] at hwriter hrequested
      exact ⟨h.txBuffer, h.reader, hwriter, h.wire, hrequested, fun _ => Or.inl rfl,
        fun _ _ => Or.inl rfl⟩
    · cases hstep
  | wake =>
    simp only [UartTransmit.step] at hstep
    split at hstep
    · rename_i todo hphase
      split_ifs at hstep
      rw [← Option.some.inj hstep]
      rw [hphase] at hwriter hrequested henabled
      exact Inv.writeLoop h.txBuffer h.reader (Option.map_eq_none_iff.mp hwriter) h.wire hrequested
        fun hne => (henabled hne).resolve_right fun ⟨_, hcontra⟩ => by cases hcontra
    · cases hstep
  | timeOut =>
    simp only [UartTransmit.step] at hstep
    split at hstep
    · rename_i todo hphase
      rw [← Option.some.inj hstep]
      rw [hphase] at hwriter hrequested henabled
      exact Inv.writeLoop h.txBuffer h.reader (Option.map_eq_none_iff.mp hwriter) h.wire hrequested
        fun hne => (henabled hne).resolve_right fun ⟨_, hcontra⟩ => by cases hcontra
    · cases hstep
  | interrupt =>
    rw [← Option.some.inj hstep]
    exact h.interrupt

/-! ### Runs -/

theorem inv_start : start.Inv where
  txBuffer := SharedLwrb.inv_start rfl
  reader := rfl
  writer := rfl
  wire := rfl
  requested := rfl
  enabled := fun hne => absurd rfl hne
  waiting := fun _ hphase => by cases hphase

/-- The interrupts transmit all bytes of the buffer, one each, and one more sets the event flag. -/
theorem Inv.exists_drained (h : s.Inv) :
    ∃ t, StepSystem.run UartTransmit.step s
        (List.replicate (s.txBuffer.ring.bytes.length + 1) .interrupt) = some t ∧
      t.wire = s.wire ++ s.txBuffer.ring.bytes ∧ t.txBuffer.ring.bytes = [] ∧
      t.evtWritten = true ∧ t.phase = s.phase := by
  generalize hlength : s.txBuffer.ring.bytes.length = n
  induction n generalizing s with
  | zero =>
    have hempty := List.length_eq_zero_iff.mp hlength
    refine ⟨s.interrupt, rfl, ?_⟩
    rw [interrupt_of_empty hempty]
    exact ⟨by rw [hempty, List.append_nil], hempty, rfl, rfl⟩
  | succ n ih =>
    obtain ⟨ch, hbytes, -, hinterrupt⟩ := h.interrupt_of_ne_nil (by
      rw [← List.length_pos_iff, hlength]
      exact n.succ_pos)
    have hrest : s.interrupt.txBuffer.ring.bytes = s.txBuffer.readByte.ring.bytes := by
      rw [hinterrupt]
    rw [hbytes, List.length_cons, Nat.succ.injEq, ← hrest] at hlength
    obtain ⟨t, hrun, hwire, hempty, hflag, hphase⟩ := ih h.interrupt hlength
    refine ⟨t, ?_, ?_, hempty, hflag, ?_⟩
    · rw [List.replicate_succ, StepSystem.run_cons]
      exact hrun
    · rw [hwire, hrest, hbytes, hinterrupt, List.append_assoc, List.singleton_append]
    · rw [hphase, hinterrupt]

/-- **Bytes leave in order, and no wait is forever.** However the interrupt handler, received bytes
and timeouts get in the way of a task that writes to a UART, what was transmitted, what is in the
ring buffer and what is still to be pushed are together the bytes passed to `write` in order. The
interrupt is enabled while there are bytes to transmit, unless the task is about to enable it, and
while the task waits, unless the event flag is set. And as many interrupts as there are bytes in the
buffer, with one more, transmit them all and set the flag. -/
theorem bytes_in_order {actions : List UartTransmitAction}
    (hvisit : StepSystem.Visits step start actions s) :
    s.wire ++ s.txBuffer.ring.bytes ++ s.phase.todo = s.requested ∧
      (s.txBuffer.ring.bytes ≠ [] → s.txeie = true ∨ ∃ todo, s.phase = .enabling todo) ∧
      (∀ todo, s.phase = .waiting todo → s.txeie = true ∨ s.evtWritten = true) ∧
      ∃ t, StepSystem.run step s (List.replicate (s.txBuffer.ring.bytes.length + 1) .interrupt) =
          some t ∧ t.wire = s.wire ++ s.txBuffer.ring.bytes ∧ t.evtWritten = true := by
  have h : s.Inv :=
    StepSystem.invariant_visits_of_step (fun _ _ _ hs hstep => Inv.step hs hstep) inv_start hvisit
  obtain ⟨t, hrun, hwire, -, hflag, -⟩ := h.exists_drained
  refine ⟨?_, h.enabled, h.waiting, t, hrun, hwire, hflag⟩
  rw [h.wire, h.txBuffer.conserved, h.requested]

/-- A byte is received while the task is within `lwrb_write`, which sets `EVT_WRITTEN` too early, so
that `write` returns before the interrupts have transmitted its bytes. -/
def earlyReturn : List UartTransmitAction :=
  [.call [0x24, 0x47], .push, .push, .interrupt, .push, .push, .push, .push, .enable, .wake,
    .interrupt, .interrupt]

theorem bytes_in_order_earlyReturn :
    ∃ s, StepSystem.run step start earlyReturn = some s ∧ s.phase = .idle ∧
      s.wire = [0x24, 0x47] ∧ s.wire ++ s.txBuffer.ring.bytes ++ s.phase.todo = s.requested := by
  have horder : ∀ s, StepSystem.run step start earlyReturn = some s →
      s.wire ++ s.txBuffer.ring.bytes ++ s.phase.todo = s.requested := fun s hrun =>
    (bytes_in_order (StepSystem.visits_of_run hrun)).1
  exact ⟨_, rfl, rfl, rfl, horder _ rfl⟩

end UartTransmit

/-! ### The queues of the receiving side -/

namespace Lwrb

variable {size : ℕ}

/-- The queue that a ring buffer is. -/
def toRingBuffer (b : Lwrb size) : RingBuffer (size - 1) :=
  ⟨b.bytes, by rw [b.length_bytes]; exact Nat.le_sub_one_of_lt b.getFull_lt⟩

/-- `lwrb_write` of the interrupt handler. -/
theorem exists_write_singleton (b : Lwrb size) (ch : UInt8) :
    ∃ written b', b.write [ch] = .ok (written, b') ∧
      b'.toRingBuffer.bytes = (b.toRingBuffer.write ch).bytes := by
  have hfree := b.getFree_eq
  have hlength := b.length_bytes
  by_cases hfull : b.getFree = 0
  · refine ⟨0, b, ?_, ?_⟩
    · rw [write, b.writeEx_of_refused (Or.inr (Or.inl hfull))]
      rfl
    · rw [RingBuffer.write, dif_neg]
      change ¬b.bytes.length < size - 1
      omega
  · have hfits : ¬(b.getFree = 0 ∨ b.getFree < [ch].length ∧ false = true) :=
      not_or.mpr ⟨hfull, fun hall => by cases hall.2⟩
    obtain ⟨b', hwrite, hbytes⟩ := b.writeEx_spec (show [ch].length ≠ 0 from Nat.one_ne_zero) hfits
    refine ⟨min b.getFree 1, b', ?_, ?_⟩
    · rw [write, hwrite]
      rfl
    · have hlt : b.toRingBuffer.bytes.length < size - 1 := by
        change b.bytes.length < size - 1
        omega
      rw [RingBuffer.write, dif_pos hlt]
      refine hbytes.trans (congrArg (b.bytes ++ ·) (List.take_of_length_le ?_))
      exact Nat.one_le_iff_ne_zero.mpr hfull

/-- `lwrb_read` of the task. -/
theorem exists_read (b : Lwrb size) (btr : ℕ) :
    ∃ b', b.read btr = .ok ((b.toRingBuffer.read btr).1, b') ∧
      b'.toRingBuffer.bytes = (b.toRingBuffer.read btr).2.bytes := by
  have hlength := b.length_bytes
  rcases Nat.eq_zero_or_pos btr with rfl | hbtr
  · exact ⟨b, rfl, rfl⟩
  by_cases hfull : b.getFull = 0
  · rw [hfull] at hlength
    have hnil : b.toRingBuffer.bytes = [] := List.length_eq_zero_iff.mp hlength
    refine ⟨b, ?_, ?_⟩
    · rw [read, b.readEx_of_refused (Or.inr (Or.inl hfull)), RingBuffer.read_fst, hnil,
        List.take_nil]
      rfl
    · rw [RingBuffer.bytes_read, hnil, List.drop_nil]
  · have hthere : ¬(b.getFull = 0 ∨ b.getFull < btr ∧ false = true) :=
      not_or.mpr ⟨hfull, fun hall => by cases hall.2⟩
    obtain ⟨b', hread, hbytes⟩ := b.readEx_spec hbtr.ne' hthere
    exact ⟨b', by rw [read, hread]; rfl, hbytes⟩

end Lwrb

end TellerOBC
