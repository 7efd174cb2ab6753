import TellerOBC.Core.Telem.Parser
import TellerOBC.Foundations.SharedBuffer
import TellerOBC.Foundations.StepSystem

/-!
# The tasks that receive from the UARTs

`modules/uart_rx.cpp`: two tasks run the same function `read`, one for the telemetry UART and one
for the debug UART. Each waits in `uart::read` for bytes, which arrive in a buffer, and then feeds
them one by one to the parser of its UART. There is one parser for each UART, but one buffer for
both tasks.

A step is the completion of a `uart::read`, or the feeding of a byte. A task that feeds its bytes
may be preempted by the other one, whose read then overwrites the buffer.

## Main definitions

* `TellerOBC.UartRx`, `TellerOBC.UartRx.step`.
* `TellerOBC.UartRx.Faithful`: the parsers are fed what was received.
* `TellerOBC.UartRx.Spares`: a read leaves the bytes of the other task as they are.

## Main results

* `TellerOBC.UartRx.Sound.step`: the invariant.
* `TellerOBC.UartRx.faithful_iff`: when the parsers are fed what was received.
* `TellerOBC.UartRx.parser_run`: the state of a parser depends on what it was fed.
-/

namespace TellerOBC

/-- The UARTs with a receiving task: `RXSM` and `DEBUG`. -/
inductive RxUart where
  | rxsm
  | debug
  deriving DecidableEq, Repr

/-- The size of `rx_buf`. -/
def rxBufSize : ℕ := 256

/-- A receiving task: it has fed the first `i` of `bytesRead` bytes in the buffer to its parser, and
waits in `uart::read` if these are all. -/
structure RxTask where
  i : ℕ
  bytesRead : ℕ
  parser : Parser
  /-- The bytes that its reads returned. -/
  received : List UInt8
  /-- The bytes that were fed to its parser. -/
  fed : List UInt8

namespace RxTask

variable (task : RxTask)

/-- A `uart::read` returns. -/
def complete (bytes : List UInt8) : RxTask :=
  { task with i := 0, bytesRead := bytes.length, received := task.received ++ bytes }

/-- A byte is fed to the parser. -/
def feed (ch : UInt8) : RxTask :=
  { task with i := task.i + 1, parser := (task.parser.feed ch).2, fed := task.fed ++ [ch] }

end RxTask

/-- The module with its tasks. -/
structure UartRx where
  rxBuf : Vector UInt8 rxBufSize
  tasks : RxUart → RxTask

/-- The steps of the tasks. -/
inductive UartRxAction where
  /-- A `uart::read` returns true. -/
  | read (index : RxUart) (bytes : List UInt8)
  /-- A `uart::read` returns false. -/
  | readFails (index : RxUart)
  | feed (index : RxUart)
  deriving DecidableEq, Repr

namespace UartRx

open SharedBuffer StepSystem

/-- After `init`, with any parsers and any bytes in the buffer. -/
def start (rxBuf : Vector UInt8 rxBufSize) (parsers : RxUart → Parser) : UartRx :=
  ⟨rxBuf, fun index => ⟨0, 0, (parsers index).reset, [], []⟩⟩

/-- Change the task of a UART. -/
def update (s : UartRx) (index : RxUart) (task : RxTask) : UartRx :=
  { s with tasks := Function.update s.tasks index task }

/-- A `uart::read` into the buffer returns. -/
def complete (s : UartRx) (index : RxUart) (bytes : List UInt8) : UartRx :=
  update ⟨writeFront s.rxBuf bytes, s.tasks⟩ index ((s.tasks index).complete bytes)

/-- The steps. -/
def step (s : UartRx) : UartRxAction → Option UartRx
  | .read index bytes =>
    if (s.tasks index).i = (s.tasks index).bytesRead ∧ bytes.length ≤ rxBufSize then
      some (s.complete index bytes)
    else none
  | .readFails index => if (s.tasks index).i = (s.tasks index).bytesRead then some s else none
  | .feed index =>
    let task := s.tasks index
    if h : task.i < task.bytesRead ∧ task.i < rxBufSize then
      some (s.update index (task.feed s.rxBuf[task.i]))
    else none

/-- The parsers are fed what was received: at any time a first part of it, and all of it when the
task waits for more. -/
def Faithful (s : UartRx) : Prop :=
  ∀ index, (s.tasks index).fed <+: (s.tasks index).received ∧
    ((s.tasks index).i = (s.tasks index).bytesRead →
      (s.tasks index).fed = (s.tasks index).received)

/-- The parsers are fed what was received, however the tasks go on with the bytes that they have
read. -/
def FaithfulAfter (s : UartRx) : Prop :=
  ∀ (indices : List RxUart) (t : UartRx),
    run step s (indices.map UartRxAction.feed) = some t → Faithful t

/-- The bytes that a task has read and not fed yet. -/
def pending (s : UartRx) (index : RxUart) : List UInt8 :=
  window s.rxBuf (s.tasks index).i (s.tasks index).bytesRead

/-- A read that returns leaves the bytes that the other task has read and not fed yet as they
are. -/
def Spares (s : UartRx) : UartRxAction → Prop
  | .read index bytes => ∀ other ≠ index,
    window (writeFront s.rxBuf bytes) (s.tasks other).i (s.tasks other).bytesRead = s.pending other
  | _ => True

/-! ### The invariant -/

variable {s t : UartRx} {index : RxUart}

@[simp] theorem tasks_update_self (s : UartRx) (index : RxUart) (task : RxTask) :
    (s.update index task).tasks index = task := Function.update_self ..

@[simp] theorem tasks_update_of_ne (s : UartRx) {index other : RxUart} (task : RxTask)
    (h : other ≠ index) : (s.update index task).tasks other = s.tasks other :=
  Function.update_of_ne h ..

/-- The loop counters are in the buffer. -/
structure Bounded (task : RxTask) : Prop where
  le : task.i ≤ task.bytesRead
  bytesRead_le : task.bytesRead ≤ rxBufSize

/-- What was received is what was fed, followed by what is pending. -/
structure Sound (s : UartRx) : Prop where
  bounded : ∀ index, Bounded (s.tasks index)
  received_eq : ∀ index, (s.tasks index).fed ++ s.pending index = (s.tasks index).received

theorem sound_start (rxBuf : Vector UInt8 rxBufSize) (parsers : RxUart → Parser) :
    Sound (start rxBuf parsers) :=
  ⟨fun _ => ⟨le_rfl, Nat.zero_le _⟩, fun _ => window_self rxBuf 0⟩

/-- A task with nothing pending has fed what was received. -/
theorem Sound.fed_eq (h : Sound s) (hi : (s.tasks index).i = (s.tasks index).bytesRead) :
    (s.tasks index).fed = (s.tasks index).received := by
  have hreceived := h.received_eq index
  rwa [pending, hi, window_self, List.append_nil] at hreceived

theorem Sound.faithful (h : Sound s) : Faithful s :=
  fun index => ⟨⟨s.pending index, h.received_eq index⟩, h.fed_eq⟩

theorem Sound.read (h : Sound s) {bytes : List UInt8} (hspares : s.Spares (.read index bytes))
    (hstep : s.step (.read index bytes) = some t) : Sound t := by
  rw [step, Option.ite_none_right_eq_some, Option.some.injEq] at hstep
  obtain ⟨⟨hi, hlength⟩, rfl⟩ := hstep
  refine ⟨fun other => ?_, fun other => ?_⟩
  · by_cases hother : other = index
    · subst hother
      rw [complete, tasks_update_self]
      exact ⟨Nat.zero_le _, hlength⟩
    · rw [complete, tasks_update_of_ne _ _ hother]
      exact h.bounded other
  · by_cases hother : other = index
    · subst hother
      have hwindow := window_writeFront s.rxBuf hlength
      rw [pending, complete, tasks_update_self]
      exact congrArg₂ (· ++ ·) (h.fed_eq hi) hwindow
    · have hwindow := hspares other hother
      rw [pending, complete, tasks_update_of_ne _ _ hother]
      exact (congrArg _ hwindow).trans (h.received_eq other)

/-- A step of a task that feeds its parser. -/
theorem step_feed (h : Bounded (s.tasks index))
    (hi : (s.tasks index).i < (s.tasks index).bytesRead) :
    ∃ ch, s.pending index = ch :: window s.rxBuf ((s.tasks index).i + 1) (s.tasks index).bytesRead ∧
      s.step (.feed index) = some (s.update index ((s.tasks index).feed ch)) :=
  have hlt : (s.tasks index).i < rxBufSize := hi.trans_le h.bytesRead_le
  ⟨s.rxBuf[(s.tasks index).i], window_eq_cons s.rxBuf hi hlt, dif_pos ⟨hi, hlt⟩⟩

/-- A feeding step feeds some byte. -/
theorem eq_of_step_feed (hstep : s.step (.feed index) = some t) :
    ∃ ch, s.update index ((s.tasks index).feed ch) = t := by
  rw [step] at hstep
  split_ifs at hstep
  exact ⟨_, Option.some.inj hstep⟩

theorem Sound.feed (h : Sound s) (hstep : s.step (.feed index) = some t) : Sound t := by
  have hi : (s.tasks index).i < (s.tasks index).bytesRead := by
    by_contra hnot
    rw [step, dif_neg fun hlt => hnot hlt.1] at hstep
    exact nomatch hstep
  obtain ⟨ch, hpending, hfeed⟩ := step_feed (h.bounded index) hi
  obtain rfl := Option.some.inj (hfeed.symm.trans hstep)
  refine ⟨fun other => ?_, fun other => ?_⟩
  · by_cases hother : other = index
    · subst hother
      rw [tasks_update_self]
      exact ⟨hi, (h.bounded other).bytesRead_le⟩
    · rw [tasks_update_of_ne _ _ hother]
      exact h.bounded other
  · by_cases hother : other = index
    · subst hother
      have hreceived := h.received_eq other
      rw [hpending] at hreceived
      rw [pending, tasks_update_self]
      exact (List.append_cons _ _ _).symm.trans hreceived
    · rw [pending, tasks_update_of_ne _ _ hother]
      exact h.received_eq other

/-- **The invariant** is kept by all steps that spare the bytes of the other task. -/
theorem Sound.step (h : Sound s) (a : UartRxAction) (hspares : s.Spares a)
    (hstep : s.step a = some t) : Sound t := by
  cases a with
  | read index bytes => exact h.read hspares hstep
  | readFails index =>
    rw [UartRx.step, Option.ite_none_right_eq_some, Option.some.injEq] at hstep
    exact hstep.2 ▸ h
  | feed index => exact h.feed hstep

theorem Sound.faithfulAfter (h : Sound s) : FaithfulAfter s := by
  intro indices t hrun
  induction indices generalizing s with
  | nil => exact Option.some.inj hrun ▸ h.faithful
  | cons index indices ih =>
    obtain ⟨u, hfeed, hrest⟩ := run_cons_eq_some.mp hrun
    exact ih (h.feed hfeed) hrest

/-! ### Reads that do not spare the other task -/

/-- A task can feed all that it has pending. -/
theorem exists_feed_all (h : Bounded (s.tasks index)) :
    ∃ (n : ℕ) (t : UartRx), run step s ((List.replicate n index).map .feed) = some t ∧
      (t.tasks index).i = (t.tasks index).bytesRead ∧
      (t.tasks index).received = (s.tasks index).received ∧
      (t.tasks index).fed = (s.tasks index).fed ++ s.pending index := by
  obtain ⟨n, hn⟩ := Nat.exists_eq_add_of_le h.le
  induction n generalizing s with
  | zero =>
    refine ⟨0, s, rfl, hn.symm, rfl, ?_⟩
    rw [pending, hn, Nat.add_zero, window_self, List.append_nil]
  | succ n ih =>
    have hi : (s.tasks index).i < (s.tasks index).bytesRead := by omega
    obtain ⟨ch, hpending, hfeed⟩ := step_feed h hi
    have htask := tasks_update_self s index ((s.tasks index).feed ch)
    obtain ⟨m, t, hrun, hend, hreceived, hfed⟩ := ih
      (s := s.update index ((s.tasks index).feed ch)) (by
        rw [htask]
        exact ⟨hi, h.bytesRead_le⟩) (by
        rw [htask]
        change (s.tasks index).bytesRead = (s.tasks index).i + 1 + n
        omega)
    refine ⟨m + 1, t, run_cons_eq_some.mpr ⟨_, hfeed, hrun⟩, hend, ?_, ?_⟩
    · rw [hreceived, htask, RxTask.feed]
    · rw [hfed, hpending, pending, htask, List.append_cons]
      rfl

/-- A read that changes bytes which the other task has read and not fed yet, has them fed to the
wrong parser. -/
theorem not_faithfulAfter (h : Sound s) {a : UartRxAction} (hspares : ¬s.Spares a)
    (hstep : s.step a = some t) : ¬FaithfulAfter t := by
  cases a with
  | readFails | feed => exact absurd trivial hspares
  | read index bytes =>
    intro hafter
    simp only [Spares, not_forall] at hspares
    obtain ⟨other, hother, hchanged⟩ := hspares
    rw [step, Option.ite_none_right_eq_some, Option.some.injEq] at hstep
    obtain ⟨-, rfl⟩ := hstep
    have htask : (s.complete index bytes).tasks other = s.tasks other :=
      tasks_update_of_ne _ _ hother
    have hbounded : Bounded ((s.complete index bytes).tasks other) := htask ▸ h.bounded other
    obtain ⟨n, t, hrun, hend, hreceived, hfed⟩ := exists_feed_all hbounded
    have hall := (hafter _ t hrun other).2 hend
    rw [hfed, hreceived, htask, ← h.received_eq other, pending, htask] at hall
    exact hchanged (List.append_cancel_left hall)

/-! ### Runs -/

/-- **When the parsers are fed what was received.** In every state of a run, the parsers are fed
what was received however the tasks go on, exactly if every read of the run spares the bytes that
the other task has read and not fed yet. -/
theorem faithful_iff (rxBuf : Vector UInt8 rxBufSize) (parsers : RxUart → Parser)
    (actions : List UartRxAction) :
    (∀ t, Visits step (start rxBuf parsers) actions t → FaithfulAfter t) ↔
      Meets step (fun s a => (s.step a).isSome → s.Spares a) (start rxBuf parsers) actions :=
  forall_visits_iff_meets (fun _ h => h.faithfulAfter) (fun _ a _ h hspares => h.step a hspares)
    (fun _ _ _ h hspares hstep => not_faithfulAfter h hspares hstep) (sound_start rxBuf parsers)

/-- A byte that arrives on the debug UART is fed to the parser of the telemetry UART. -/
theorem not_faithful_of_two_reads :
    ¬∀ actions t, Visits step (start (.replicate rxBufSize 0) fun _ => Parser.fresh) actions t →
      Faithful t := by
  intro h
  have hrun : (run step (start (.replicate rxBufSize 0) fun _ => Parser.fresh)
      [.read .rxsm [0xCA, 0xFE], .read .debug [0x00], .feed .rxsm]).map
        (fun t => ((t.tasks .rxsm).fed, (t.tasks .rxsm).received)) =
      some ([0x00], [0xCA, 0xFE]) := by
    decide +kernel
  obtain ⟨t, ht, heq⟩ := Option.map_eq_some_iff.mp hrun
  have hfaithful := (h _ t (visits_of_run ht) .rxsm).1
  rw [Prod.mk.injEq] at heq
  rw [heq.1, heq.2] at hfaithful
  exact absurd hfaithful (by decide)

/-- The state of a parser is that of a parser fed with the bytes counted as fed. -/
theorem parser_run {rxBuf : Vector UInt8 rxBufSize} {parsers : RxUart → Parser}
    {actions : List UartRxAction} {s : UartRx}
    (hrun : run step (start rxBuf parsers) actions = some s) (index : RxUart) :
    (s.tasks index).parser = (parsers index).reset.feedAll (s.tasks index).fed := by
  refine invariant_visits_of_step
    (I := fun s => ∀ index, (s.tasks index).parser =
      (parsers index).reset.feedAll (s.tasks index).fed)
    (fun s a t h hstep other => ?_) (fun _ => rfl) (visits_of_run hrun) index
  have hupdate : ∀ buf index task, task.parser = (parsers index).reset.feedAll task.fed →
      ((update ⟨buf, s.tasks⟩ index task).tasks other).parser =
        (parsers other).reset.feedAll ((update ⟨buf, s.tasks⟩ index task).tasks other).fed := by
    intro buf index task htask
    by_cases hother : other = index
    · subst hother
      rwa [tasks_update_self]
    · rw [tasks_update_of_ne _ _ hother]
      exact h other
  cases a with
  | read index bytes =>
    rw [step, Option.ite_none_right_eq_some, Option.some.injEq] at hstep
    obtain ⟨-, rfl⟩ := hstep
    exact hupdate _ index ((s.tasks index).complete bytes) (h index)
  | readFails index =>
    rw [step, Option.ite_none_right_eq_some, Option.some.injEq] at hstep
    exact hstep.2 ▸ h other
  | feed index =>
    obtain ⟨ch, rfl⟩ := eq_of_step_feed hstep
    refine hupdate s.rxBuf index ((s.tasks index).feed ch) ?_
    rw [RxTask.feed, Parser.feedAll_concat, h index]

end UartRx

end TellerOBC
