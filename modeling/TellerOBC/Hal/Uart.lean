import TellerOBC.Foundations.StepSystem

/-!
# Receiving from a UART

`read` and `uart_irq_handler` of `hal/stm32/uart.cpp` for a physical UART. The interrupt handler
writes a received byte into the ring buffer and sets the event flag `EVT_READ`; `read` waits for
the flag, which clears it, and takes at most the requested number of bytes from the buffer. The
buffer of `lwrb` is a first-in first-out queue that keeps one byte of its memory free.

A step of the system is an interrupt, which preempts the reading task, or a step of `read`: its
call, the return of the wait, and the read of the buffer.

The flag stands for any number of bytes but is cleared by every `read`. A `read` that leaves
bytes behind while the flag is clear puts the next `read` to sleep in front of a buffer that is
not empty.

## Main definitions

* `TellerOBC.RingBuffer`: the bounded queue of `lwrb`.
* `TellerOBC.Uart`, `TellerOBC.Uart.step`: the state and its steps.
* `TellerOBC.Uart.Blocked`: the reader sleeps.

## Main results

* `TellerOBC.Uart.FlagCovers.step`: while the flag is clear and the buffer not being read, the
  buffer is empty, if no `read` leaves bytes behind.
* `TellerOBC.Uart.empty_of_blocked`: then the reader only sleeps in front of an empty buffer.
-/

namespace TellerOBC

/-- A ring buffer of `lwrb` with room for the given number of bytes. -/
structure RingBuffer (capacity : ℕ) where
  bytes : List UInt8
  length_le : bytes.length ≤ capacity

namespace RingBuffer

variable {capacity : ℕ} (buff : RingBuffer capacity)

/-- The buffer as `lwrb_init` leaves it. -/
def init : RingBuffer capacity := ⟨[], Nat.zero_le _⟩

/-- `lwrb_write` of one byte: a full buffer drops it. -/
def write (ch : UInt8) : RingBuffer capacity :=
  if h : buff.bytes.length < capacity then
    ⟨buff.bytes ++ [ch], by rw [List.length_append]; exact h⟩
  else buff

/-- `lwrb_read`: take the first bytes, at most the given number. -/
def read (btr : ℕ) : List UInt8 × RingBuffer capacity :=
  (buff.bytes.take btr,
    ⟨buff.bytes.drop btr, by
      rw [List.length_drop]
      exact (Nat.sub_le _ _).trans buff.length_le⟩)

@[simp] theorem read_fst (btr : ℕ) : (buff.read btr).1 = buff.bytes.take btr := rfl

@[simp] theorem bytes_read (btr : ℕ) : (buff.read btr).2.bytes = buff.bytes.drop btr := rfl

end RingBuffer

/-- `DMA_BUFFER_SIZE` less the byte that `lwrb` keeps free. -/
def uartBufferCapacity : ℕ := 256 - 1

/-- Where the reading task is: outside of `read`, waiting for `EVT_READ`, or about to read the
buffer after the wait has returned. -/
inductive ReadPhase where
  | idle
  | waiting (size : ℕ)
  | woken (size : ℕ)
  deriving DecidableEq, Repr

/-- A UART with its reading task. -/
structure Uart where
  rxBuffer : RingBuffer uartBufferCapacity
  txBuffer : RingBuffer uartBufferCapacity
  /-- The event flag `EVT_READ`. -/
  evtRead : Bool
  /-- The event flag `EVT_WRITTEN`. -/
  evtWritten : Bool
  /-- Whether the interrupt for an empty transmit register is enabled. -/
  txeie : Bool
  /-- The byte last written to the transmit register. -/
  tdr : Option UInt8
  phase : ReadPhase
  /-- The bytes that the last finished `read` returned. -/
  data : List UInt8

/-- What the interrupt handler finds in the registers of the UART. -/
structure UartRegisters where
  txe : Bool
  rxne : Bool
  rdr : UInt8
  deriving DecidableEq, Repr

/-- An interrupt, the call of `read`, the return of its wait, and its read of the buffer. -/
inductive UartAction where
  | interrupt (registers : UartRegisters)
  | call (size : ℕ)
  | wake
  | readBuffer
  deriving DecidableEq, Repr

namespace Uart

/-- The UART before its first interrupt. -/
def start : Uart where
  rxBuffer := .init
  txBuffer := .init
  evtRead := false
  evtWritten := false
  txeie := false
  tdr := none
  phase := .idle
  data := []

variable (s : Uart)

/-- The transmitting half of `uart_irq_handler`: send the next byte or report that there is
none. -/
def transmitNext : Uart :=
  match s.txBuffer.bytes with
  | [] => { s with txeie := false, evtWritten := true }
  | ch :: _ => { s with txBuffer := (s.txBuffer.read 1).2, tdr := some ch }

/-- The receiving half of `uart_irq_handler`: a byte that does not fit is dropped. -/
def receiveNext (ch : UInt8) : Uart :=
  { s with rxBuffer := s.rxBuffer.write ch, evtRead := true }

/-- `uart_irq_handler`. The overrun flag, which it only clears, is left out. -/
def uartIrqHandler (registers : UartRegisters) : Uart :=
  let s := if registers.txe then s.transmitNext else s
  if registers.rxne then s.receiveNext registers.rdr else s

/-- The call of `read`: nothing to do for no bytes, else wait for the event flag. -/
def call (size : ℕ) : Uart :=
  if size = 0 then { s with data := [] } else { s with phase := .waiting size }

/-- The read of the buffer. The loop goes back to the wait if there was nothing to read. -/
def readBuffer (size : ℕ) : Uart :=
  let r := s.rxBuffer.read size
  if r.1.length = 0 then { s with rxBuffer := r.2, phase := .waiting size }
  else { s with rxBuffer := r.2, data := r.1, phase := .idle }

/-- The steps of the system. -/
def step (s : Uart) : UartAction → Option Uart
  | .interrupt registers => some (s.uartIrqHandler registers)
  | .call size => if s.phase = .idle then some (s.call size) else none
  | .wake =>
    match s.phase with
    | .waiting size => if s.evtRead then some { s with evtRead := false, phase := .woken size }
      else none
    | _ => none
  | .readBuffer =>
    match s.phase with
    | .woken size => some (s.readBuffer size)
    | _ => none

/-! ### Sleeping readers -/

/-- The reader sleeps: it waits for the event flag, and the flag is clear. -/
def Blocked : Prop := (∃ size, s.phase = .waiting size) ∧ s.evtRead = false

/-- A read of the buffer takes all the bytes, unless the event flag was set again since the wait
returned. -/
def TakesAll : UartAction → Prop
  | .readBuffer =>
    ∀ size, s.phase = .woken size → s.rxBuffer.bytes.length ≤ size ∨ s.evtRead = true
  | _ => True

/-- Bytes in the buffer are covered by the event flag or by a reader about to read them. -/
def FlagCovers : Prop :=
  s.evtRead = true ∨ (∃ size, s.phase = .woken size) ∨ s.rxBuffer.bytes = []

variable {s} {t : Uart} {a : UartAction}

theorem transmitNext_eq (s : Uart) : s.transmitNext.rxBuffer = s.rxBuffer ∧
    s.transmitNext.evtRead = s.evtRead ∧ s.transmitNext.phase = s.phase := by
  rw [transmitNext]
  split <;> exact ⟨rfl, rfl, rfl⟩

/-- An interrupt without a received byte leaves the receiving side alone; one with a byte sets
the event flag. -/
theorem FlagCovers.uartIrqHandler (h : s.FlagCovers) (registers : UartRegisters) :
    (s.uartIrqHandler registers).FlagCovers := by
  obtain ⟨hbuffer, hflag, hphase⟩ := s.transmitNext_eq
  have htransmit : (if registers.txe then s.transmitNext else s).FlagCovers := by
    split
    · rwa [FlagCovers, hbuffer, hflag, hphase]
    · exact h
  simp only [Uart.uartIrqHandler]
  by_cases hrx : registers.rxne = true
  · rw [if_pos hrx]
    exact Or.inl rfl
  · rwa [if_neg hrx]

/-- A read of the buffer leaves it empty, unless the flag was set again. -/
theorem FlagCovers.readBuffer {size : ℕ} (hphase : s.phase = .woken size)
    (hok : s.TakesAll .readBuffer) : (s.readBuffer size).FlagCovers := by
  have hcovered : s.evtRead = true ∨ s.rxBuffer.bytes.drop size = [] :=
    (hok size hphase).symm.imp_right List.drop_eq_nil_of_le
  simp only [Uart.readBuffer]
  split
  · exact hcovered.imp_right Or.inr
  · exact hcovered.imp_right Or.inr

/-- One step keeps the bytes covered if no read of the buffer leaves bytes behind. -/
theorem FlagCovers.step (h : s.FlagCovers) (hok : s.TakesAll a) (hstep : s.step a = some t) :
    t.FlagCovers := by
  cases a with
  | interrupt registers =>
    rw [← Option.some.inj hstep]
    exact h.uartIrqHandler registers
  | call size =>
    simp only [Uart.step] at hstep
    split_ifs at hstep with hidle
    rw [← Option.some.inj hstep, Uart.call]
    -- the task was not reading the buffer, so the flag is set or the buffer is empty
    have hcovered : s.evtRead = true ∨ s.rxBuffer.bytes = [] := by
      rcases h with hflag | ⟨n, hwoken⟩ | hempty
      · exact Or.inl hflag
      · rw [hidle] at hwoken
        cases hwoken
      · exact Or.inr hempty
    split
    · exact h
    · exact hcovered.imp_right Or.inr
  | wake =>
    simp only [Uart.step] at hstep
    split at hstep
    · split_ifs at hstep
      rw [← Option.some.inj hstep]
      exact Or.inr (Or.inl ⟨_, rfl⟩)
    · cases hstep
  | readBuffer =>
    simp only [Uart.step] at hstep
    split at hstep
    · rename_i size hphase
      rw [← Option.some.inj hstep]
      exact FlagCovers.readBuffer hphase hok
    · cases hstep

theorem FlagCovers.empty (h : s.FlagCovers) (hblocked : s.Blocked) :
    s.rxBuffer.bytes = [] := by
  obtain ⟨⟨size, hphase⟩, hclear⟩ := hblocked
  rcases h with hflag | ⟨n, hwoken⟩ | hempty
  · rw [hclear] at hflag
    cases hflag
  · rw [hphase] at hwoken
    cases hwoken
  · exact hempty

/-! ### Runs -/

/-- A `read` waits only for a positive number of bytes. -/
def WaitsForSome (s : Uart) : Prop :=
  ∀ size, s.phase = .waiting size ∨ s.phase = .woken size → 0 < size

theorem uartIrqHandler_phase (s : Uart) (registers : UartRegisters) :
    (s.uartIrqHandler registers).phase = s.phase := by
  obtain ⟨-, -, hphase⟩ := s.transmitNext_eq
  simp only [Uart.uartIrqHandler]
  split <;> split <;> first | exact hphase | rfl

theorem WaitsForSome.step (h : s.WaitsForSome) (hstep : s.step a = some t) : t.WaitsForSome := by
  cases a with
  | interrupt registers =>
    rw [← Option.some.inj hstep]
    intro size hsize
    rw [uartIrqHandler_phase] at hsize
    exact h size hsize
  | call n =>
    simp only [Uart.step] at hstep
    split_ifs at hstep
    rw [← Option.some.inj hstep, Uart.call]
    split_ifs with hzero
    · exact h
    · rintro size (hsize | hsize) <;> cases hsize
      exact Nat.pos_of_ne_zero hzero
  | wake =>
    simp only [Uart.step] at hstep
    split at hstep
    · rename_i n hphase
      split_ifs at hstep
      rw [← Option.some.inj hstep]
      rintro size (hsize | hsize) <;> cases hsize
      exact h n (Or.inl hphase)
    · cases hstep
  | readBuffer =>
    simp only [Uart.step] at hstep
    split at hstep
    · rename_i n hphase
      rw [← Option.some.inj hstep, Uart.readBuffer]
      split
      · rintro size (hsize | hsize) <;> cases hsize
        exact h n (Or.inr hphase)
      · rintro size (hsize | hsize) <;> cases hsize
    · cases hstep

/-- A `read` that leaves bytes behind with the flag clear puts the next one to sleep in front of
them. -/
theorem blocked_of_not_takesAll {n size : ℕ} (hwoken : s.phase = .woken n) (hn : 0 < n)
    (hlong : n < s.rxBuffer.bytes.length) (hclear : s.evtRead = false) (hsize : 0 < size) :
    ∃ t, StepSystem.run step s [.readBuffer, .call size] = some t ∧ t.Blocked ∧
      t.rxBuffer.bytes ≠ [] := by
  have hread : s.step .readBuffer = some (s.readBuffer n) := by
    simp only [Uart.step, hwoken]
  have htake : (s.rxBuffer.bytes.take n).length ≠ 0 := by
    rw [List.length_take]
    omega
  have hsize' : size ≠ 0 := by omega
  rw [StepSystem.run_cons, hread, Option.bind_some, StepSystem.run_cons]
  simp only [Uart.readBuffer, RingBuffer.read_fst, htake, ↓reduceIte, Uart.step, Uart.call, hsize',
    Option.bind_some, StepSystem.run_nil]
  refine ⟨_, rfl, ⟨⟨size, rfl⟩, hclear⟩, ?_⟩
  rw [RingBuffer.bytes_read]
  intro hnil
  have hlen := congrArg List.length hnil
  rw [List.length_drop, List.length_nil] at hlen
  omega

/-- **No byte waits while the reader sleeps, if every read of the buffer takes all of it.** In a
run of interrupts and calls of `read` in which every read of the buffer takes all its bytes or
finds the event flag set again, the reader sleeps in front of an empty buffer only. The condition
is sharp: after any run, a read of the buffer that does not meet it puts the next call of `read`
to sleep in front of the bytes that were left. -/
theorem empty_of_blocked {as : List UartAction} {t : Uart}
    (hvisit : StepSystem.Visits step start as t) :
    (StepSystem.Meets step TakesAll start as → t.Blocked → t.rxBuffer.bytes = []) ∧
      (¬ t.TakesAll .readBuffer → ∀ size, 0 < size →
        ∃ u, StepSystem.run step t [.readBuffer, .call size] = some u ∧ u.Blocked ∧
          u.rxBuffer.bytes ≠ []) := by
  constructor
  · intro hmeets
    have hcovers : t.FlagCovers :=
      StepSystem.invariant_visits (fun _ _ _ hs hok hstep => FlagCovers.step hs hok hstep)
        (Or.inr (Or.inr rfl)) hmeets hvisit
    exact hcovers.empty
  · intro hnot size hsize
    have hpos : t.WaitsForSome :=
      StepSystem.invariant_visits_of_step (fun _ _ _ hs hstep => WaitsForSome.step hs hstep)
        (by rintro size (h | h) <;> cases h) hvisit
    simp only [TakesAll, not_forall, not_or, Bool.not_eq_true, Nat.not_le] at hnot
    obtain ⟨n, hwoken, hlong, hclear⟩ := hnot
    exact blocked_of_not_takesAll hwoken (hpos n (Or.inr hwoken)) hlong hclear hsize

/-- Two bytes arrive, the first is read by a call of `read` for one byte, as the modules that
parse a stream make it, and the next call sleeps in front of the second one. -/
theorem sleeps_before_byte :
    ∃ t, StepSystem.run step start
        [.interrupt ⟨false, true, 0x24⟩, .interrupt ⟨false, true, 0x47⟩, .call 1, .wake,
          .readBuffer, .call 1] = some t ∧
      t.Blocked ∧ t.rxBuffer.bytes = [0x47] :=
  ⟨_, rfl, ⟨⟨1, rfl⟩, rfl⟩, rfl⟩

/-- Two bytes are read by a call for two, and the next call sleeps in front of an empty buffer. -/
theorem empty_of_blocked_two :
    ∃ t, StepSystem.run step start
        [.interrupt ⟨false, true, 0x24⟩, .interrupt ⟨false, true, 0x47⟩, .call 2, .wake,
          .readBuffer, .call 1] = some t ∧ t.Blocked ∧ t.rxBuffer.bytes = [] := by
  have hmeets : StepSystem.Meets step TakesAll start
      [.interrupt ⟨false, true, 0x24⟩, .interrupt ⟨false, true, 0x47⟩, .call 2, .wake,
        .readBuffer, .call 1] := by
    refine .cons trivial rfl (.cons trivial rfl (.cons trivial rfl (.cons trivial rfl
      (.cons ?_ rfl (.cons trivial rfl trivial)))))
    rintro size ⟨⟩
    exact Or.inl (by decide)
  exact ⟨_, rfl, ⟨⟨1, rfl⟩, rfl⟩,
    (empty_of_blocked (StepSystem.visits_of_run rfl)).1 hmeets ⟨⟨1, rfl⟩, rfl⟩⟩

end Uart

end TellerOBC
