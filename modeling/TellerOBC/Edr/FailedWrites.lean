import TellerOBC.Edr.Requests

/-!
# Failed writes of a recorder

A run of the recorder is meant to end when a request cannot be written to the log file. The main
loop is `while (_queue.receive(request) && !maybeError)`, which receives before it looks at the
error: after a failed write the run takes one more request, and waits for it if there is none. Only
a queue that is closed and empty ends the loop at once. The error itself is not lost.

The steps of `TellerOBC.RecorderTask` are extended by the step in which the run begins to wait for a
request, and a failed write is remembered until the next run.

## Main definitions

* `TellerOBC.WatchedRecorder`, `TellerOBC.WatchedRecorder.step`: the recorder and its failed write.
* `TellerOBC.WatchedRecorder.EndsAtOnce`: how a run ends after a failed write.

## Main results

* `TellerOBC.WatchedRecorder.AfterFailure.step`: the invariant.
* `TellerOBC.WatchedRecorder.endsAtOnce_iff`: when all runs end like this.
-/

namespace TellerOBC

/-- A failed write: its error, and the requests that were received until then. -/
structure FailedWrite (F : Type) where
  error : LfsError
  received : List (LogRequest F)

/-- A recorder, the failed write of its run, and whether the run has waited for a request since. -/
structure WatchedRecorder (F : Type) where
  task : RecorderTask F
  failed : Option (FailedWrite F) := none
  waited : Bool := false

/-- The steps of the tasks, and the one in which the run begins to wait for a request. -/
inductive WatchedAction (F : Type) where
  | task (a : RecorderAction F)
  | wait

namespace WatchedRecorder

open StepSystem

variable {F : Type}

/-- A new recorder. -/
def start : WatchedRecorder F := { task := .start }

/-- What is remembered of a step of the recorder. -/
def watch (s : WatchedRecorder F) (a : RecorderAction F) (t : RecorderTask F) :
    WatchedRecorder F :=
  match a with
  | .run => { task := t }
  | .write (some error) => { task := t, failed := some ⟨error, t.received⟩ }
  | _ => { s with task := t }

/-- The steps. -/
def step (s : WatchedRecorder F) : WatchedAction F → Option (WatchedRecorder F)
  | .task a => (s.task.step a).map (s.watch a)
  | .wait =>
    match s.task.phase, s.task.queue.receive with
    | .receiving, .wait => some { s with waited := true }
    | _, _ => none

/-- After a failed write, the run has taken no further request, it will return the error, and it has
not waited for a request. -/
def EndsAtOnce (s : WatchedRecorder F) : Prop :=
  ∀ w, s.failed = some w →
    s.task.received = w.received ∧ s.task.maybeError = some w.error ∧ s.waited = false

/-- When the condition of the loop is evaluated after a failed write, the queue is closed and
empty. -/
def OnlyOnEndedQueue (s : WatchedRecorder F) : WatchedAction F → Prop
  | .task .receive | .wait =>
    s.failed.isSome → s.task.queue.closed = true ∧ s.task.queue.items = []
  | _ => True

/-! ### The invariant -/

/-- The run is at the head of its loop or has left it. -/
def Returning : RunPhase F → Prop
  | .receiving | .leaving _ | .ended _ => True
  | _ => False

/-- A run with a failed write has ended as it should, or is about to. -/
structure AfterFailure (s : WatchedRecorder F) : Prop where
  endsAtOnce : s.EndsAtOnce
  returning : s.failed.isSome → Returning s.task.phase

variable {s t : WatchedRecorder F}

theorem afterFailure_of_none (h : s.failed = none) : s.AfterFailure where
  endsAtOnce w hw := by rw [h] at hw; cases hw
  returning hsome := by rw [h] at hsome; cases hsome

namespace AfterFailure

/-- What leaves the run as it is keeps the invariant. -/
theorem of_eq (h : s.AfterFailure) {task : RecorderTask F}
    (hreceived : task.received = s.task.received) (herror : task.maybeError = s.task.maybeError)
    (hphase : Returning s.task.phase → Returning task.phase) :
    AfterFailure { s with task := task } where
  endsAtOnce := by
    intro w hw
    rw [hreceived, herror]
    exact h.endsAtOnce w hw
  returning hsome := hphase (h.returning hsome)

theorem of_offers (h : s.AfterFailure) {task : RecorderTask F}
    (hoffers : RecorderTask.Offers s.task task) : AfterFailure { s with task := task } :=
  h.of_eq hoffers.received_eq hoffers.maybeError_eq fun hphase => by rwa [hoffers.phase_eq]

/-- A receipt finds the queue closed and empty, or no write has failed. -/
theorem receive (h : s.AfterFailure) (hok : s.OnlyOnEndedQueue (.task .receive))
    {task : RecorderTask F} (hstep : s.task.step .receive = some task) :
    AfterFailure { s with task := task } := by
  by_cases hfailed : s.failed.isSome
  · obtain ⟨-, ⟨request, queue, hitems, -⟩ | ⟨-, rfl⟩⟩ := RecorderTask.step_receive hstep
    · rw [(hok hfailed).2] at hitems
      cases hitems
    · exact h.of_eq rfl rfl fun _ => trivial
  · exact afterFailure_of_none (Option.not_isSome_iff_eq_none.mp hfailed)

/-- A write that fails ends the run, unless something follows. -/
theorem write {error : Option LfsError} {task : RecorderTask F} (h : s.AfterFailure)
    (hstep : s.task.step (.write error) = some task) :
    AfterFailure (s.watch (.write error) task) := by
  obtain ⟨request, hphase, rfl⟩ := RecorderTask.step_write hstep
  cases error with
  | none =>
    refine afterFailure_of_none (Option.not_isSome_iff_eq_none.mp fun hsome => ?_)
    have hreturning := h.returning hsome
    rw [hphase] at hreturning
    exact hreturning
  | some error =>
    refine ⟨fun w hw => ?_, fun _ => trivial⟩
    obtain rfl := Option.some.inj hw
    exact ⟨rfl, rfl, rfl⟩

/-- **The step lemma.** A step that does not evaluate the condition of the loop after a failed
write, except on a closed and empty queue, keeps the invariant. -/
theorem step (h : s.AfterFailure) {a : WatchedAction F} (hok : s.OnlyOnEndedQueue a)
    (hstep : s.step a = some t) : t.AfterFailure := by
  cases a with
  | wait =>
    rw [WatchedRecorder.step] at hstep
    split at hstep
    · rename_i hphase hwait
      obtain rfl := Option.some.inj hstep
      refine afterFailure_of_none (Option.not_isSome_iff_eq_none.mp fun hsome => ?_)
      obtain ⟨hclosed, hempty⟩ := hok hsome
      simp [BlockingQueue.receive, hclosed, hempty] at hwait
    · cases hstep
  | task a =>
    obtain ⟨task, htask, rfl⟩ := Option.map_eq_some_iff.mp hstep
    cases a with
    | record | recordNonblocking | simulateIOError | stop =>
      exact h.of_offers (RecorderTask.offers_of_step htask trivial)
    | run => exact afterFailure_of_none rfl
    | notOpened =>
      obtain ⟨-, rfl⟩ := RecorderTask.step_notOpened htask
      exact h.of_eq rfl rfl fun _ => trivial
    | opened =>
      obtain ⟨hphase, rfl⟩ := RecorderTask.step_opened htask
      exact h.of_eq rfl rfl fun hreturning => by rwa [hphase] at hreturning
    | calledBack =>
      obtain ⟨-, rfl⟩ := RecorderTask.step_calledBack htask
      exact h.of_eq rfl rfl fun _ => trivial
    | receive => exact h.receive hok htask
    | write error => exact h.write htask
    | finish =>
      obtain ⟨reason, -, rfl⟩ := RecorderTask.step_finish htask
      exact h.of_eq rfl rfl fun _ => trivial

/-- A step that evaluates the condition of the loop after a failed write on another queue takes a
request or waits. -/
theorem not_endsAtOnce (h : s.AfterFailure) {a : WatchedAction F} (hok : ¬ s.OnlyOnEndedQueue a)
    (hstep : s.step a = some t) : ¬ t.EndsAtOnce := by
  intro hends
  cases a with
  | wait =>
    obtain ⟨hsome, -⟩ := Classical.not_imp.mp hok
    obtain ⟨w, hw⟩ := Option.isSome_iff_exists.mp hsome
    rw [WatchedRecorder.step] at hstep
    split at hstep
    · obtain rfl := Option.some.inj hstep
      exact absurd (hends w hw).2.2 (by simp)
    · cases hstep
  | task a =>
    obtain ⟨task, htask, rfl⟩ := Option.map_eq_some_iff.mp hstep
    cases a with
    | receive =>
      obtain ⟨hsome, hqueue⟩ := Classical.not_imp.mp hok
      obtain ⟨w, hw⟩ := Option.isSome_iff_exists.mp hsome
      obtain ⟨-, ⟨request, queue, -, -, rfl⟩ | ⟨hended, -⟩⟩ := RecorderTask.step_receive htask
      · have hreceived := (hends w hw).1
        simp only [watch] at hreceived
        rw [(RecorderTask.keeps_handle _ request).received_eq, ← (h.endsAtOnce w hw).1]
          at hreceived
        simp at hreceived
      · exact hqueue hended
    | record | recordNonblocking | simulateIOError | stop | run | notOpened | opened | calledBack
    | write | finish => exact hok trivial

/-- On a closed and empty queue, a run with a failed write has nothing left to do but to return. -/
theorem exists_ended (h : s.AfterFailure) (hfailed : s.failed.isSome)
    (hclosed : s.task.queue.closed = true) (hempty : s.task.queue.items = []) :
    ∃ actions t reason, run WatchedRecorder.step s actions = some t ∧
      t.task.phase = .ended reason ∧ t.EndsAtOnce := by
  have hreceive : s.task.queue.receive = .refused :=
    BlockingQueue.receive_eq_refused_iff.mpr ⟨hclosed, hempty⟩
  have hreturning := h.returning hfailed
  cases hphase : s.task.phase with
  | receiving =>
    refine ⟨[.task .receive, .task .finish],
      { s with task := { s.task with state := .disabled, phase := .ended .closed } }, .closed,
      ?_, rfl, h.endsAtOnce⟩
    simp only [run_cons, run_nil, WatchedRecorder.step, RecorderTask.step, hphase, hreceive,
      Option.map_some, Option.bind_some, watch]
  | leaving reason =>
    refine ⟨[.task .finish],
      { s with task := { s.task with state := .disabled, phase := .ended reason } }, reason,
      ?_, rfl, h.endsAtOnce⟩
    simp only [run_cons, run_nil, WatchedRecorder.step, RecorderTask.step, hphase,
      Option.map_some, Option.bind_some, watch]
  | ended reason => exact ⟨[], s, reason, rfl, hphase, h.endsAtOnce⟩
  | idle | opening | starting | writing => simp [hphase, Returning] at hreturning

end AfterFailure

/-! ### Runs -/

/-- **When runs end at a failed write.** In a run of steps over the POSIX queue, whose `receive`
still takes the requests that are left in a closed queue, every failed write ends its run at once
exactly if the condition of the loop is evaluated after a failed write only while the queue is
closed and empty. The `receive` of the flight computer refuses as soon as the queue is closed. -/
theorem endsAtOnce_iff {actions : List (WatchedAction F)} :
    (∀ t, Visits step start actions t → t.EndsAtOnce) ↔
      Meets step (fun s a => (s.step a).isSome → s.OnlyOnEndedQueue a) start actions :=
  forall_visits_iff_meets (fun _ h => h.endsAtOnce) (fun _ _ _ h => h.step)
    (fun _ _ _ h => h.not_endsAtOnce) (afterFailure_of_none rfl)

/-- The first of two requests cannot be written, and the run takes the second one; or the only
request cannot be written, and the run waits for another one. -/
theorem not_endsAtOnce_oneMore :
    let request : LogRequest Unit := ⟨some (), [1], 1⟩
    let opened : List (WatchedAction Unit) :=
      [.task .run, .task .opened, .task (.record request true)]
    let fails : List (WatchedAction Unit) :=
      [.task .calledBack, .task .receive, .task (.write (some .io))]
    (∃ t, run step start (opened ++ [.task (.record request true)] ++ fails ++ [.task .receive]) =
        some t ∧ ¬ t.EndsAtOnce ∧ t.task.received = [request, request] ∧ t.task.written = []) ∧
      ∃ t, run step start (opened ++ fails ++ [.wait]) = some t ∧ ¬ t.EndsAtOnce ∧
        t.waited = true := by
  intro request opened fails
  refine ⟨⟨_, rfl, fun h => ?_, rfl, rfl⟩, ⟨_, rfl, fun h => ?_, rfl⟩⟩
  · exact absurd (congrArg List.length (h _ rfl).1) (by decide)
  · exact absurd (h _ rfl).2.2 (by decide)

end WatchedRecorder

end TellerOBC
