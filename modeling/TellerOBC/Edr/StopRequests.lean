import TellerOBC.Edr.PendingRequests

/-!
# Requests to stop a recorder

`requestStopAndUnmount` of `modules/edr.cpp` asks whether the recorder of an area is running, passes
a sentinel to its `record`, and returns true, whatever `record` does. But `record` treats the
sentinel like a log request. It ignores it if the recorder is detached by then, and drops it if the
queue is closed, or has no room until the timeout ends; then the run goes on, though the caller was
told that the request was posted.

The call is split where the recorder and the other tasks can come in between. On POSIX the wait for
room never times out; the step in which it does is that of `hal/stm32/queue.hpp`.

## Main definitions

* `TellerOBC.StopCalls`, `TellerOBC.StopCalls.step`: a recorder and the calls of
  `requestStopAndUnmount` for it.
* `TellerOBC.RecorderTask.StopsAt`: a sentinel in the queue ends the run.
* `TellerOBC.StopCalls.Posted`: a call that returned true has added the sentinel.

## Main results

* `TellerOBC.RecorderTask.StopsAt.step`: no step takes the run beyond the sentinel.
* `TellerOBC.StopCalls.posted_iff`: when all calls do what they return.
-/

namespace TellerOBC

variable {F : Type}

/-- `stopRecorderRequest`. -/
def stopRecorderRequest : LogRequest F := { format := none, message := [0], length := 0 }

/-! ### Sentinels in the queue -/

namespace RecorderTask

/-- The main loop of the run was left. -/
def LeftLoop : RunPhase F → Prop
  | .leaving _ | .ended _ => True
  | _ => False

/-- The request at the given place among those that the queue took is a sentinel. The run receives
requests up to it and no others, does not have to wait for any, and has left its loop when it has
received it. -/
structure StopsAt (s : RecorderTask F) (i : ℕ) : Prop where
  sentinel : s.accepted[i]? = some stopRecorderRequest
  received_le : s.received.length ≤ i + 1
  pending : s.received.length ≤ i → s.queue.items ≠ []
  left : s.received.length = i + 1 → LeftLoop s.phase

variable {s t : RecorderTask F} {i : ℕ}

theorem stopsAt_of_queued (hqueued : Queued s)
    (hsentinel : s.accepted[i]? = some stopRecorderRequest)
    (hle : s.received.length ≤ i + 1) (hleft : s.received.length = i + 1 → LeftLoop s.phase) :
    StopsAt s i := by
  refine ⟨hsentinel, hle, fun hlen hempty => ?_, hleft⟩
  have hlt := (List.getElem?_eq_some_iff.mp hsentinel).1
  rw [hqueued, hempty, List.append_nil] at hlt
  omega

theorem queued_take (h : Queued s) (request : LogRequest F) : Queued (s.take request) := by
  rw [Queued, take, BlockingQueue.push, h, List.append_assoc]

/-- A sentinel that the queue takes ends the run. -/
theorem stopsAt_take (h : Queued s) : StopsAt (s.take stopRecorderRequest) s.accepted.length := by
  have hle : s.received.length ≤ s.accepted.length := by
    rw [h, List.length_append]
    exact Nat.le_add_right ..
  refine stopsAt_of_queued (queued_take h _) List.getElem?_concat_length ?_ fun hlen => ?_
  · exact Nat.le_succ_of_le hle
  · exact absurd (hlen ▸ hle) (Nat.not_succ_le_self _)

/-- A run that has left its main loop does not come back to it. -/
theorem leftLoop_of_step {a : RecorderAction F} (hstep : s.step a = some t) (ha : Advances a)
    (hleft : LeftLoop s.phase) : LeftLoop t.phase := by
  cases a with
  | notOpened =>
    obtain ⟨-, rfl⟩ := step_notOpened hstep
    trivial
  | opened =>
    obtain ⟨hphase, -⟩ := step_opened hstep
    exact absurd hleft (hphase ▸ id)
  | calledBack =>
    obtain ⟨hphase, -⟩ := step_calledBack hstep
    exact absurd hleft (hphase ▸ id)
  | write error =>
    obtain ⟨request, hphase, -⟩ := step_write hstep
    exact absurd hleft (hphase ▸ id)
  | finish =>
    obtain ⟨reason, -, rfl⟩ := step_finish hstep
    trivial
  | record | recordNonblocking | simulateIOError | stop | run | receive => exact ha.elim

namespace StopsAt

/-- What receives nothing keeps the sentinel where it is. -/
theorem of_received_eq (h : StopsAt s i) (hqueued : Queued t)
    (haccepted : ∃ new, t.accepted = s.accepted ++ new) (hreceived : t.received = s.received)
    (hphase : LeftLoop s.phase → LeftLoop t.phase) : StopsAt t i := by
  obtain ⟨new, hnew⟩ := haccepted
  refine stopsAt_of_queued hqueued ?_ (hreceived ▸ h.received_le) fun hlen => ?_
  · rw [hnew, List.getElem?_append_left (List.getElem?_eq_some_iff.mp h.sentinel).1]
    exact h.sentinel
  · exact hphase (h.left (hreceived ▸ hlen))

theorem of_offers (h : StopsAt s i) (hqueued : Queued s) (hoffers : Offers s t) : StopsAt t i := by
  obtain ⟨new, -, haccepted⟩ := hoffers.exists_accepted
  exact h.of_received_eq (hqueued.of_offers hoffers) ⟨new, haccepted⟩ hoffers.received_eq
    (hoffers.phase_eq ▸ id)

theorem of_keeps (h : StopsAt s i) (hqueued : Queued s) (hkeeps : Keeps s t)
    (hphase : LeftLoop s.phase → LeftLoop t.phase) : StopsAt t i :=
  h.of_received_eq (hqueued.of_keeps hkeeps)
    ⟨[], by rw [hkeeps.accepted_eq, List.append_nil]⟩ hkeeps.received_eq hphase

/-- The loop is left when the sentinel is received. -/
theorem receive (h : StopsAt s i) (hqueued : Queued s) (hstep : s.step .receive = some t) :
    StopsAt t i := by
  have hqueued' := hqueued.step hstep
  obtain ⟨hphase, ⟨request, queue, hitems, -, rfl⟩ | ⟨-, rfl⟩⟩ := step_receive hstep
  · have hkeeps :=
      keeps_handle { s with queue := queue, received := s.received ++ [request] } request
    have hlen : s.received.length ≤ i := by
      refine Nat.le_of_lt_succ (lt_of_le_of_ne h.received_le fun hlen => ?_)
      have hleft := h.left hlen
      rwa [hphase] at hleft
    refine stopsAt_of_queued hqueued' ?_ ?_ fun hnext => ?_
    · rw [hkeeps.accepted_eq]
      exact h.sentinel
    · rw [hkeeps.received_eq, List.length_append]
      exact Nat.succ_le_succ hlen
    · rw [hkeeps.received_eq, List.length_append] at hnext
      have hi : i = s.received.length := (Nat.succ.inj hnext).symm
      have hrequest : request = stopRecorderRequest := by
        have hsentinel := h.sentinel
        rw [hqueued, hitems, hi, List.getElem?_append_right le_rfl, Nat.sub_self] at hsentinel
        exact Option.some.inj hsentinel
      rw [hrequest, handle]
      split <;> trivial
  · exact stopsAt_of_queued hqueued' h.sentinel h.received_le fun _ => trivial

/-- **The step lemma.** No step of a run takes it beyond the sentinel. -/
theorem step (h : StopsAt s i) (hqueued : Queued s) {a : RecorderAction F} (ha : a ≠ .run)
    (hstep : s.step a = some t) : StopsAt t i := by
  cases a with
  | record | recordNonblocking | simulateIOError | stop =>
    exact h.of_offers hqueued (offers_of_step hstep trivial)
  | run => exact absurd rfl ha
  | receive => exact h.receive hqueued hstep
  | notOpened | opened | calledBack | write | finish =>
    exact h.of_keeps hqueued (keeps_of_step hstep trivial) (leftLoop_of_step hstep trivial)

end StopsAt

end RecorderTask

/-! ### The calls -/

/-- Where a call of `requestStopAndUnmount` is. -/
inductive StopCall where
  | idle
  /-- The recorder was running. -/
  | found
  /-- `record` has found the recorder starting or running. -/
  | sending
  /-- The queue is full. -/
  | waiting
  /-- The call has returned; and the number of the requests that the queue took before the sentinel,
  if it took the sentinel. -/
  | returned (result : Bool) (sentinelAt : Option ℕ)

/-- What a call returned says nothing about the queue of the next run. -/
def StopCall.forget : StopCall → StopCall
  | .returned _ _ => .idle
  | call => call

/-- A recorder and the current or last call of `requestStopAndUnmount` for it. -/
structure StopCalls (F : Type) where
  task : RecorderTask F
  call : StopCall := .idle

/-- The steps of the recorder and of other tasks, and those of the call. -/
inductive StopCallAction (F : Type) where
  | task (a : RecorderAction F)
  /-- `recorders[area].running()`. -/
  | request
  /-- `running() || starting()` in `record`. -/
  | record
  /-- `send_with_timeout` until it waits. -/
  | send
  /-- The wait ends, and there is room. -/
  | resume
  /-- The timeout ends, and there is no room. -/
  | timeOut

namespace StopCalls

open StepSystem RecorderTask

/-- A new recorder. -/
def start : StopCalls F := { task := .start }

variable (s : StopCalls F)

/-- The queue takes the sentinel. -/
def add : StopCalls F where
  task := s.task.take stopRecorderRequest
  call := .returned true (some s.task.accepted.length)

/-- `record` counts the sentinel as dropped. -/
def drop : StopCalls F where
  task :=
    { s.task with
      dropped := s.task.dropped + 1
      offered := s.task.offered ++ [stopRecorderRequest]
      refused := s.task.refused ++ [stopRecorderRequest] }
  call := .returned true none

/-- The steps. -/
def step (s : StopCalls F) : StopCallAction F → Option (StopCalls F)
  | .task .run => (s.task.step .run).map fun t => { task := t, call := s.call.forget }
  | .task a => (s.task.step a).map fun t => { s with task := t }
  | .request =>
    match s.call with
    | .idle | .returned _ _ =>
      some { s with call := if s.task.state = .running then .found else .returned false none }
    | _ => none
  | .record =>
    match s.call with
    | .found =>
      some { s with call := if s.task.state = .disabled then .returned true none else .sending }
    | _ => none
  | .send =>
    match s.call with
    | .sending =>
      match s.task.queue.sendWithTimeout (stopRecorderRequest : LogRequest F) 100 with
      | .refused => some s.drop
      | .wait => some { s with call := .waiting }
      | .done _ => some s.add
    | _ => none
  | .resume =>
    match s.call with
    | .waiting => if s.task.queue.full then none else some s.add
    | _ => none
  | .timeOut =>
    match s.call with
    | .waiting => if s.task.queue.full then some s.drop else none
    | _ => none

/-- A call that returned true has added the sentinel, and the run ends there. -/
def Posted : Prop :=
  ∀ sentinelAt, s.call = .returned true sentinelAt → ∃ i, sentinelAt = some i ∧ s.task.StopsAt i

/-- The recorder is still attached when `record` asks for its state, the queue is not closed when
the sentinel is sent, and a full queue gets room before the timeout. -/
def Admits : StopCallAction F → Prop
  | .record => s.task.state ≠ .disabled
  | .send => s.task.queue.closed = false
  | .timeOut => False
  | _ => True

/-- The queue is in order, and the call has done what it returned. -/
structure Promised : Prop where
  queued : Queued s.task
  posted : s.Posted

variable {s} {t : StopCalls F}

theorem promised_start : Promised (start : StopCalls F) := ⟨queued_start, nofun⟩

theorem promised_add (h : Queued s.task) : Promised s.add where
  queued := queued_take h _
  posted := by
    rintro sentinelAt hcall
    obtain ⟨-, rfl⟩ := StopCall.returned.inj hcall
    exact ⟨_, rfl, stopsAt_take h⟩

theorem not_posted_of_none (h : s.call = .returned true none) : ¬ s.Posted := by
  intro hposted
  obtain ⟨i, hi, -⟩ := hposted none h
  cases hi

/-! ### What the steps of the call do -/

theorem step_request (hstep : s.step .request = some t) :
    t = { s with call := if s.task.state = .running then .found else .returned false none } := by
  rw [step] at hstep
  split at hstep
  · exact (Option.some.inj hstep).symm
  · exact (Option.some.inj hstep).symm
  · cases hstep

theorem step_record (hstep : s.step .record = some t) :
    t = { s with call := if s.task.state = .disabled then .returned true none else .sending } := by
  rw [step] at hstep
  split at hstep
  · exact (Option.some.inj hstep).symm
  · cases hstep

/-- A closed queue refuses the sentinel, a full one lets the call wait, and any other takes it. -/
theorem step_send (hstep : s.step .send = some t) :
    s.task.queue.closed = true ∧ t = s.drop ∨
      s.task.queue.closed = false ∧ (t = { s with call := .waiting } ∨ t = s.add) := by
  rw [step] at hstep
  split at hstep
  · cases hclosed : s.task.queue.closed with
    | true =>
      rw [BlockingQueue.sendWithTimeout_of_closed hclosed] at hstep
      exact Or.inl ⟨rfl, (Option.some.inj hstep).symm⟩
    | false =>
      rw [BlockingQueue.sendWithTimeout, if_neg (by decide)] at hstep
      cases hfull : s.task.queue.full with
      | true =>
        rw [BlockingQueue.send_of_full hclosed hfull] at hstep
        exact Or.inr ⟨rfl, Or.inl (Option.some.inj hstep).symm⟩
      | false =>
        rw [BlockingQueue.send_of_room hclosed hfull] at hstep
        exact Or.inr ⟨rfl, Or.inr (Option.some.inj hstep).symm⟩
  · cases hstep

theorem step_resume (hstep : s.step .resume = some t) : t = s.add := by
  rw [step] at hstep
  split at hstep
  · split_ifs at hstep
    exact (Option.some.inj hstep).symm
  · cases hstep

theorem step_timeOut (hstep : s.step .timeOut = some t) : t = s.drop := by
  rw [step] at hstep
  split at hstep
  · split_ifs at hstep
    exact (Option.some.inj hstep).symm
  · cases hstep

/-- A step of the recorder or of another task forgets the answer of the call if it begins a run, and
leaves the call as it is otherwise. -/
theorem step_task {a : RecorderAction F} (hstep : s.step (.task a) = some t) :
    ∃ task, s.task.step a = some task ∧
      (a = .run ∧ t = { task := task, call := s.call.forget } ∨
        a ≠ .run ∧ t = { s with task := task }) := by
  cases a with
  | run =>
    obtain ⟨task, htask, rfl⟩ := Option.map_eq_some_iff.mp hstep
    exact ⟨task, htask, Or.inl ⟨rfl, rfl⟩⟩
  | stop => exact ⟨_, rfl, Or.inr ⟨by simp, (Option.some.inj hstep).symm⟩⟩
  | record | recordNonblocking | simulateIOError | notOpened | opened | calledBack | receive | write
  | finish =>
    obtain ⟨task, htask, rfl⟩ := Option.map_eq_some_iff.mp hstep
    exact ⟨task, htask, Or.inr ⟨by simp, rfl⟩⟩

/-! ### Runs -/

/-- **The step lemma.** The steps that are admitted keep the promise. -/
theorem Promised.step (h : s.Promised) {a : StopCallAction F} (hok : s.Admits a)
    (hstep : s.step a = some t) : t.Promised := by
  cases a with
  | task a =>
    obtain ⟨task, htask, ⟨rfl, rfl⟩ | ⟨ha, rfl⟩⟩ := step_task hstep
    · refine ⟨h.queued.step htask, fun sentinelAt hcall => ?_⟩
      dsimp only [StopCall.forget] at hcall
      split at hcall
      · cases hcall
      · next hnot => exact absurd hcall (hnot _ _)
    · refine ⟨h.queued.step htask, fun sentinelAt hcall => ?_⟩
      obtain ⟨i, hi, hstops⟩ := h.posted sentinelAt hcall
      exact ⟨i, hi, hstops.step h.queued ha htask⟩
  | request =>
    obtain rfl := step_request hstep
    refine ⟨h.queued, fun sentinelAt hcall => ?_⟩
    dsimp only at hcall
    split_ifs at hcall
    cases hcall
  | record =>
    obtain rfl := step_record hstep
    refine ⟨h.queued, fun sentinelAt hcall => ?_⟩
    rw [if_neg hok] at hcall
    cases hcall
  | send =>
    obtain ⟨hclosed, -⟩ | ⟨-, rfl | rfl⟩ := step_send hstep
    · exact absurd (hok.symm.trans hclosed) (by simp)
    · exact ⟨h.queued, nofun⟩
    · exact promised_add h.queued
  | resume =>
    obtain rfl := step_resume hstep
    exact promised_add h.queued
  | timeOut => exact hok.elim

/-- A step that is not admitted lets the call return true without the sentinel. -/
theorem not_posted_of_step {a : StopCallAction F} (hok : ¬ s.Admits a)
    (hstep : s.step a = some t) : ¬ t.Posted := by
  cases a with
  | record =>
    obtain rfl := step_record hstep
    exact not_posted_of_none (if_pos (not_not.mp hok))
  | send =>
    obtain ⟨-, rfl⟩ | ⟨hopen, -⟩ := step_send hstep
    · exact not_posted_of_none rfl
    · exact absurd hopen hok
  | timeOut =>
    obtain rfl := step_timeOut hstep
    exact not_posted_of_none rfl
  | task a => exact absurd trivial hok
  | request | resume => exact absurd trivial hok

/-- **When requests to stop are posted.** In a run of steps, every call that has returned true has
added the sentinel to the queue, where the run ends, exactly if no call finds in `record` that the
recorder was detached, or sends the sentinel to a closed queue, or waits for room until the
timeout. -/
theorem posted_iff {actions : List (StopCallAction F)} :
    (∀ t, Visits step start actions t → t.Posted) ↔
      Meets step (fun s a => (s.step a).isSome → s.Admits a) start actions :=
  forall_visits_iff_meets (fun _ h => h.posted) (fun _ _ _ h => h.step)
    (fun _ _ _ _ => not_posted_of_step) promised_start

/-- The queue stays full until the timeout; or the run fails between the two checks of the state. -/
theorem not_posted_timeOut :
    let request : LogRequest Unit := ⟨some (), [1], 1⟩
    let fill : StopCallAction Unit := .task (.record request true)
    let running : List (StopCallAction Unit) := [.task .run, .task .opened, .task .calledBack]
    (∃ t, run step start (running ++ List.replicate 16 fill ++
        [.request, .record, .send, .timeOut]) = some t ∧
      t.call = .returned true none ∧ ¬ t.Posted) ∧
    ∃ t, run step start (running ++ [.request, .task (.simulateIOError true), .task .receive,
        .task .finish, .record]) = some t ∧
      t.call = .returned true none ∧ ¬ t.Posted :=
  ⟨⟨_, rfl, rfl, not_posted_of_none rfl⟩, ⟨_, rfl, rfl, not_posted_of_none rfl⟩⟩

end StopCalls

end TellerOBC
