import Mathlib.Data.UInt
import TellerOBC.Foundations.ConditionLoop
import TellerOBC.Hal.BlockingQueue

/-!
# Timed waits on POSIX

`send_with_timeout` of `hal/posix/queue.hpp`, and `waitAll` and `waitAny` of
`hal/posix/event_flags.hpp`. They wait in a loop around `std::condition_variable::wait_for`, whose
result says whether the timeout has expired. The loops do not look at it: `send_with_timeout` asks
whether its lock is owned, which is always so after a wait, and the event flags ask nothing. A loop
ends when its condition holds at the end of a wait, and never if it does not.

Other threads change the object while the mutex is released in a wait.

## Main definitions

* `TellerOBC.Waits`: the object of a call and how its waits end.
* `TellerOBC.BlockingQueue.callSendWithTimeout`, `TellerOBC.EventFlags.waitAll`,
  `TellerOBC.EventFlags.waitAny`: the calls.
* `TellerOBC.Waits.Expires`: nothing happens until the timeout has expired.

## Main results

* `TellerOBC.BlockingQueue.callSendWithTimeout_ends_iff`, `TellerOBC.EventFlags.waitFlags_ends_iff`:
  how the calls end.
* `TellerOBC.timedWaits_return_iff`: when they return though nothing happens.
-/

namespace TellerOBC

open FallibleLoop

/-- The result of `wait_for`. -/
inductive CvStatus where
  | noTimeout
  | timeout
  deriving DecidableEq, Repr

/-- The object of a call whenever the call holds the mutex, at its beginning and after each wait,
and how each wait ends. -/
structure Waits (σ : Type) where
  states : ℕ → σ
  status : ℕ → CvStatus

/-- `owns_lock` after `wait_for`: the lock is taken again, whatever the status. -/
def CvStatus.ownsLock (_ : CvStatus) : Bool := true

/-! ### Message queues -/

namespace BlockingQueue

variable {T : Type} (w : Waits (BlockingQueue T)) (message : T)

/-- One pass of the loop of `send_with_timeout`, `while (items.size() >= item_limit)`, and what
follows it. -/
def sendPass (k : ℕ) : Except Empty (ℕ ⊕ (Bool × BlockingQueue T)) :=
  if (w.states k).full then
    if !(w.status k).ownsLock then .ok (.inr (false, w.states (k + 1)))
    else .ok (.inl (k + 1))
  else .ok (.inr (true, (w.states k).push message))

/-- `send_with_timeout`: its result and the queue after it. -/
def callSendWithTimeout (timeout : UInt32) : ℕ → Option (Except Empty (Bool × BlockingQueue T)) :=
  match (w.states 0).sendWithTimeout message timeout.toNat with
  | .refused => fun _ => some (.ok (false, w.states 0))
  | .done queue => fun _ => some (.ok (true, queue))
  | .wait => run (sendPass w message) 0

theorem sendPass_eq : sendPass w message =
    ConditionLoop.pass (fun q => !q.full) (fun q => (true, q.push message)) w.states := by
  funext k
  rw [sendPass, ConditionLoop.pass]
  cases (w.states k).full with
  | true => rfl
  | false => rfl

variable {w message} {outcome : Except Empty (Bool × BlockingQueue T)} {timeout : UInt32}

theorem callSendWithTimeout_of_closed (hclosed : (w.states 0).closed = true) :
    Ends (callSendWithTimeout w message timeout) outcome ↔ outcome = .ok (false, w.states 0) := by
  rw [callSendWithTimeout, sendWithTimeout_of_closed hclosed]
  exact ends_const

/-- **How `send_with_timeout` ends** on an open queue: it adds the message as soon as it finds room,
and not otherwise. -/
theorem callSendWithTimeout_ends_iff (hopen : (w.states 0).closed = false) (h : timeout ≠ 0) :
    Ends (callSendWithTimeout w message timeout) outcome ↔
      ∃ n, (w.states n).full = false ∧ (∀ m < n, (w.states m).full = true) ∧
        outcome = .ok (true, (w.states n).push message) := by
  have hne : timeout.toNat ≠ 0 := fun hzero => h (UInt32.toNat_inj.mp hzero)
  have hrun : Ends (callSendWithTimeout w message timeout) outcome ↔
      Ends (run (sendPass w message) 0) outcome := by
    rw [callSendWithTimeout, sendWithTimeout, if_neg hne]
    cases hfull : (w.states 0).full with
    | true => rw [send_of_full hopen hfull]
    | false =>
      rw [send_of_room hopen hfull]
      exact ends_const.trans (ends_of_exit (by simp [sendPass, hfull])).symm
  rw [hrun, sendPass_eq, ConditionLoop.ends_iff]
  simp only [Bool.not_eq_true', Bool.not_eq_false']

end BlockingQueue

/-! ### Event flags -/

/-- `osFlagsErrorParameter`. -/
def osFlagsErrorParameter : UInt32 := 0xFFFFFFFC

/-- `osWaitForever`. -/
def osWaitForever : UInt32 := 0xFFFFFFFF

namespace EventFlags

/-- `checkValidFlags`. -/
def checkValidFlags (flags : UInt32) : Bool := flags &&& 0x80000000 = 0

variable (met : UInt32 → Bool) (w : Waits UInt32) (flags timeout : UInt32)

/-- One pass of the loop of `waitAll` and `waitAny` and what follows it; the state is `current`. -/
def waitPass (k : ℕ) : Except Empty (ℕ ⊕ (UInt32 × UInt32)) :=
  if met (w.states k) then .ok (.inr (w.states k, w.states k &&& ~~~flags))
  else
    -- `wait` has no result, and the one of `wait_for` is not used
    let _status := if timeout = osWaitForever then none else some (w.status k)
    .ok (.inl (k + 1))

/-- `waitAll` and `waitAny`, which have different conditions: their result and `current` after
them. -/
def waitFlags : ℕ → Option (Except Empty (UInt32 × UInt32)) :=
  if !checkValidFlags flags then fun _ => some (.ok (osFlagsErrorParameter, w.states 0))
  else run (waitPass met w flags timeout) 0

/-- `waitAll`. -/
def waitAll : ℕ → Option (Except Empty (UInt32 × UInt32)) :=
  waitFlags (fun current => current &&& flags = flags) w flags timeout

/-- `waitAny`. -/
def waitAny : ℕ → Option (Except Empty (UInt32 × UInt32)) :=
  waitFlags (fun current => current &&& flags ≠ 0) w flags timeout

theorem waitPass_eq : waitPass met w flags timeout =
    ConditionLoop.pass met (fun current => (current, current &&& ~~~flags)) w.states := rfl

variable {met w flags timeout} {outcome : Except Empty (UInt32 × UInt32)}

theorem waitFlags_of_invalid (hinvalid : checkValidFlags flags = false) :
    Ends (waitFlags met w flags timeout) outcome ↔
      outcome = .ok (osFlagsErrorParameter, w.states 0) := by
  rw [waitFlags, if_pos (by simp [hinvalid])]
  exact ends_const

/-- **How `waitAll` and `waitAny` end** for valid flags: they return and clear the flags as soon as
their condition holds, and not otherwise. -/
theorem waitFlags_ends_iff (hvalid : checkValidFlags flags = true) :
    Ends (waitFlags met w flags timeout) outcome ↔
      ∃ n, met (w.states n) = true ∧ (∀ m < n, met (w.states m) = false) ∧
        outcome = .ok (w.states n, w.states n &&& ~~~flags) := by
  rw [waitFlags, if_neg (by simp [hvalid]), waitPass_eq]
  exact ConditionLoop.ends_iff

end EventFlags

/-! ### Timeouts -/

/-- The call is blocked, and stays so whatever other threads do to the object; and after some waits
that may end for no reason, every wait ends because the timeout has expired. -/
structure Waits.Expires {σ : Type} (w : Waits σ) (blocked : σ → Prop) : Prop where
  blocked : ∀ k, blocked (w.states k)
  timesOut : ∃ n, ∀ k, n ≤ k → w.status k = .timeout

/-- The call returns a good result, and leaves the object as it was at its beginning or as other
threads left it during a wait. -/
def ReturnsUnchanged {R σ : Type} (w : Waits σ) (call : ℕ → Option (Except Empty (R × σ)))
    (good : R → Prop) : Prop :=
  ∃ r k, Ends call (.ok (r, w.states k)) ∧ good r

theorem EventFlags.returnsUnchanged_waitFlags_iff {met : UInt32 → Bool} {w : Waits UInt32}
    {flags timeout : UInt32} (hmet : ∀ k, met (w.states k) = false) :
    ReturnsUnchanged w (waitFlags met w flags timeout) (fun _ => True) ↔
      checkValidFlags flags = false := by
  cases hvalid : checkValidFlags flags with
  | true =>
    refine iff_of_false ?_ Bool.noConfusion
    rintro ⟨r, k, hends, -⟩
    obtain ⟨n, hn, -⟩ := (waitFlags_ends_iff hvalid).mp hends
    exact absurd hn (by simp [hmet n])
  | false => exact iff_of_true ⟨_, 0, (waitFlags_of_invalid hvalid).mpr rfl, trivial⟩ rfl

theorem BlockingQueue.returnsUnchanged_callSendWithTimeout_iff {T : Type}
    {w : Waits (BlockingQueue T)} {message : T} {timeout : UInt32} (h : timeout ≠ 0)
    (hfull : ∀ k, (w.states k).full = true) :
    ReturnsUnchanged w (callSendWithTimeout w message timeout) (· = false) ↔
      (w.states 0).closed = true := by
  cases hclosed : (w.states 0).closed with
  | true => exact iff_of_true ⟨_, 0, (callSendWithTimeout_of_closed hclosed).mpr rfl, rfl⟩ rfl
  | false =>
    refine iff_of_false ?_ Bool.noConfusion
    rintro ⟨r, k, hends, -⟩
    obtain ⟨n, hn, -⟩ := (callSendWithTimeout_ends_iff hclosed h).mp hends
    exact absurd hn (by simp [hfull n])

/-- **When timed waits return.** On a queue that stays full, `send_with_timeout` returns false if
and only if the queue is closed when it is called; and for flags that are never set, `waitAll` and
`waitAny` return if and only if the flags are not valid. -/
theorem timedWaits_return_iff (T : Type) {timeout : UInt32} (h : timeout ≠ 0) :
    (∀ (w : Waits (BlockingQueue T)) (message : T), w.Expires (fun q => q.full = true) →
      (ReturnsUnchanged w (BlockingQueue.callSendWithTimeout w message timeout) (· = false) ↔
        (w.states 0).closed = true)) ∧
    (∀ (w : Waits UInt32) (flags : UInt32),
      w.Expires (fun current => current &&& flags ≠ flags) →
      (ReturnsUnchanged w (EventFlags.waitAll w flags timeout) (fun _ => True) ↔
        EventFlags.checkValidFlags flags = false)) ∧
    (∀ (w : Waits UInt32) (flags : UInt32),
      w.Expires (fun current => current &&& flags = 0) →
      (ReturnsUnchanged w (EventFlags.waitAny w flags timeout) (fun _ => True) ↔
        EventFlags.checkValidFlags flags = false)) := by
  refine ⟨fun w message hw => ?_, fun w flags hw => ?_, fun w flags hw => ?_⟩
  · exact BlockingQueue.returnsUnchanged_callSendWithTimeout_iff h hw.blocked
  · exact EventFlags.returnsUnchanged_waitFlags_iff fun k => decide_eq_false (hw.blocked k)
  · exact EventFlags.returnsUnchanged_waitFlags_iff fun k =>
      decide_eq_false (not_not.mpr (hw.blocked k))

/-- Nothing changes the object, and the first wait already times out. -/
def Waits.unchanged {σ : Type} (s : σ) : Waits σ := ⟨fun _ => s, fun _ => .timeout⟩

theorem Waits.expires_unchanged {σ : Type} {blocked : σ → Prop} {s : σ} (h : blocked s) :
    (Waits.unchanged s).Expires blocked :=
  ⟨fun _ => h, 0, fun _ _ => rfl⟩

/-- A queue with one message and room for one. -/
def BlockingQueue.oneOfOne (closed : Bool) : BlockingQueue Unit := ⟨[()], closed, 1⟩

theorem timedWaits_return_closed :
    ReturnsUnchanged (Waits.unchanged (BlockingQueue.oneOfOne true))
      (BlockingQueue.callSendWithTimeout (Waits.unchanged (BlockingQueue.oneOfOne true)) () 100)
      (· = false) ∧
    ReturnsUnchanged (Waits.unchanged 0)
      (EventFlags.waitAll (Waits.unchanged 0) 0x80000000 100) (fun _ => True) ∧
    ¬ ReturnsUnchanged (Waits.unchanged 2) (EventFlags.waitAny (Waits.unchanged 2) 1 100)
      (fun _ => True) := by
  obtain ⟨hsend, hall, hany⟩ := @timedWaits_return_iff Unit 100 (by decide)
  refine ⟨(hsend _ _ (Waits.expires_unchanged rfl)).mpr rfl,
    (hall _ _ (Waits.expires_unchanged (by decide))).mpr (by decide), fun hreturns => ?_⟩
  exact absurd ((hany _ _ (Waits.expires_unchanged (by decide))).mp hreturns) (by decide)

/-- With a timeout of 100 ms and no other thread, a call on a full open queue, and calls for a flag
that is not set, do not return. -/
theorem not_timedWaits_return :
    ¬ ReturnsUnchanged (Waits.unchanged (BlockingQueue.oneOfOne false))
      (BlockingQueue.callSendWithTimeout (Waits.unchanged (BlockingQueue.oneOfOne false)) () 100)
      (· = false) ∧
    ¬ ReturnsUnchanged (Waits.unchanged 0) (EventFlags.waitAll (Waits.unchanged 0) 1 100)
      (fun _ => True) ∧
    ¬ ReturnsUnchanged (Waits.unchanged 0) (EventFlags.waitAny (Waits.unchanged 0) 1 100)
      (fun _ => True) := by
  have hall : decide ((0 : UInt32) &&& 1 = 1) = false := by decide
  have hany : decide ((0 : UInt32) &&& 1 ≠ 0) = false := by decide
  refine ⟨fun hreturns => ?_, fun hreturns => ?_, fun hreturns => ?_⟩
  · exact absurd ((BlockingQueue.returnsUnchanged_callSendWithTimeout_iff (by decide)
      fun _ => rfl).mp hreturns) (by decide)
  · exact absurd ((EventFlags.returnsUnchanged_waitFlags_iff fun _ => hall).mp hreturns)
      (by decide)
  · exact absurd ((EventFlags.returnsUnchanged_waitFlags_iff fun _ => hany).mp hreturns)
      (by decide)

end TellerOBC
