import TellerOBC.Edr.Requests

/-!
# The log that a recorder task writes

The task of `TellerOBC.Edr.Requests` receives requests one by one while other tasks offer more. Here
its steps change the log file as the functions of `TellerOBC.Edr.Recorder` do: opening the file
constructs the log writer, and each write has the result of `LogWriter.write`. However the tasks
interleave, a run does to the log what the main loop `processRequests` does with the requests that
the queue has delivered.

## Main definitions

* `TellerOBC.LoggingTask`, `TellerOBC.LoggingTask.step`.
* `TellerOBC.LoggingTask.Follows`: how far the main loop is.

## Main results

* `TellerOBC.LoggingTask.Follows.step`: the invariant.
* `TellerOBC.LoggingTask.exists_recordLog`: the result of a run of the recorder.
-/

namespace TellerOBC

open RecorderTask StepSystem

/-- The task that runs a recorder, with the writer of its log file and the filesystem. -/
structure LoggingTask (F σ W : Type) where
  task : RecorderTask F
  log : LogWriter σ × W

namespace LoggingTask

variable {F σ W : Type} (lfs : LittleFS W) (sdlog : Sdlog F σ) (file : SmartFileHandle)

/-- The steps at given times. The result of a write is that of the log writer. -/
def step (s : LoggingTask F σ W) : RecorderAction F × UInt32 → Option (LoggingTask F σ W)
  | (.opened, now) =>
    (s.task.step .opened).map fun task => ⟨task, LogWriter.make lfs sdlog file now s.log.2⟩
  | (.write _, now) =>
    match s.task.phase with
    | .writing request =>
      request.format.bind fun format =>
        let r := s.log.1.write lfs sdlog format request now s.log.2
        (s.task.step (.write r.1)).map fun task => ⟨task, r.2⟩
    | _ => none
  | (action, _) => (s.task.step action).map fun task => ⟨task, s.log⟩

/-- After these requests the main loop goes on with this error. -/
def GoesOn (s : LoggingTask F σ W) (requests : List (LogRequest F))
    (maybeError : Option LfsError) : Prop :=
  ∃ (openedAt : UInt32) (w : W) (times : List UInt32), requests.length = times.length ∧ ∀ later,
    processRequests lfs sdlog (requests.zip times ++ later) none
        (LogWriter.make lfs sdlog file openedAt w) =
      processRequests lfs sdlog later maybeError s.log

/-- The main loop has ended with the requests that were received. -/
def Ends (s : LoggingTask F σ W) : Prop :=
  ∃ (openedAt : UInt32) (w : W) (times : List UInt32), s.task.received.length = times.length ∧
    processRequests lfs sdlog (s.task.received.zip times) none
        (LogWriter.make lfs sdlog file openedAt w) =
      (s.task.maybeError, s.log)

/-- How far the main loop is in each phase. -/
def Follows (s : LoggingTask F σ W) : RunPhase F → Prop
  | .idle | .opening => s.task.received = [] ∧ s.task.maybeError = none
  | .starting | .receiving => s.GoesOn lfs sdlog file s.task.received s.task.maybeError
  | .writing request => ∃ earlier, s.task.received = earlier ++ [request] ∧
      s.GoesOn lfs sdlog file earlier none
  | .leaving reason | .ended reason => reason = .notOpened ∨ s.Ends lfs sdlog file

variable {lfs sdlog file} {s t : LoggingTask F σ W}

/-- A step writes a request, or opens the log file, or leaves the log as it is. -/
theorem step_cases {a : RecorderAction F} {now : UInt32}
    (h : s.step lfs sdlog file (a, now) = some t) :
    (∃ request format, s.task.phase = .writing request ∧ request.format = some format ∧
      s.task.step (.write (s.log.1.write lfs sdlog format request now s.log.2).1) = some t.task ∧
      t.log = (s.log.1.write lfs sdlog format request now s.log.2).2) ∨
    (s.task.step .opened = some t.task ∧ t.log = LogWriter.make lfs sdlog file now s.log.2) ∨
    (s.task.step a = some t.task ∧ t.log = s.log ∧ a ≠ .opened ∧ ∀ error, a ≠ .write error) := by
  cases a with
  | write error =>
    simp only [step] at h
    split at h
    · rename_i request hphase
      obtain ⟨format, hformat, h⟩ := Option.bind_eq_some_iff.mp h
      obtain ⟨task, htask, rfl⟩ := Option.map_eq_some_iff.mp h
      exact Or.inl ⟨request, format, hphase, hformat, htask, rfl⟩
    · cases h
  | opened =>
    obtain ⟨task, htask, rfl⟩ := Option.map_eq_some_iff.mp h
    exact Or.inr (Or.inl ⟨htask, rfl⟩)
  | record | recordNonblocking | simulateIOError | stop | run | notOpened | calledBack | receive
    | finish =>
    simp only [step, Option.map_eq_some_iff] at h
    obtain ⟨task, htask, rfl⟩ := h
    exact Or.inr (Or.inr ⟨htask, rfl, nofun, nofun⟩)

/-- The steps of the task. -/
theorem exists_step {action : RecorderAction F × UInt32}
    (h : s.step lfs sdlog file action = some t) : ∃ a, s.task.step a = some t.task := by
  rcases step_cases h with ⟨request, format, -, -, htask, -⟩ | ⟨htask, -⟩ | ⟨htask, -⟩
  · exact ⟨_, htask⟩
  · exact ⟨_, htask⟩
  · exact ⟨_, htask⟩

/-! ### The main loop -/

section Loop

variable {request : LogRequest F} {now : UInt32} {later : List (LogRequest F × UInt32)}
  {log : LogWriter σ × W}

/-- After an error the main loop ends. -/
theorem processRequests_of_error {maybeError : Option LfsError} (h : maybeError.isSome = true) :
    processRequests lfs sdlog ((request, now) :: later) maybeError log = (maybeError, log) := by
  rw [processRequests, if_pos h]

/-- A request without a format ends the main loop. -/
theorem processRequests_of_sentinel (h : request.format = none) :
    processRequests lfs sdlog ((request, now) :: later) none log =
      (if request.message.headD 0 = 42 then some .io else none, log) := by
  rw [processRequests, if_neg (show ¬Option.isSome none = true from Bool.false_ne_true), h]

/-- A request with a format is written. -/
theorem processRequests_of_format {format : F} (h : request.format = some format) :
    processRequests lfs sdlog ((request, now) :: later) none log =
      processRequests lfs sdlog later (log.1.write lfs sdlog format request now log.2).1
        (log.1.write lfs sdlog format request now log.2).2 := by
  rw [processRequests, if_neg (show ¬Option.isSome none = true from Bool.false_ne_true), h]

/-- One more request. -/
theorem processRequests_concat {requests : List (LogRequest F)} {times : List UInt32}
    (hlength : requests.length = times.length) :
    processRequests lfs sdlog ((requests ++ [request]).zip (times ++ [now]) ++ later) none log =
      processRequests lfs sdlog (requests.zip times ++ (request, now) :: later) none log := by
  rw [List.zip_append hlength, List.append_assoc]
  rfl

end Loop

namespace GoesOn

variable {requests : List (LogRequest F)} {maybeError : Option LfsError}

/-- The main loop ends when the queue is closed. -/
theorem ends (h : s.GoesOn lfs sdlog file s.task.received maybeError)
    (herror : t.task.maybeError = maybeError) (hreceived : t.task.received = s.task.received)
    (hlog : t.log = s.log) : t.Ends lfs sdlog file := by
  obtain ⟨openedAt, w, times, hlength, hloop⟩ := h
  refine ⟨openedAt, w, times, hreceived ▸ hlength, ?_⟩
  have hend := hloop []
  rw [List.append_nil] at hend
  rw [hreceived, hend, hlog, herror]
  rfl

/-- The main loop ends with a request. -/
theorem ends_concat (h : s.GoesOn lfs sdlog file requests maybeError) {request : LogRequest F}
    (hreceived : t.task.received = requests ++ [request]) (hlog : t.log = s.log)
    (hend : processRequests lfs sdlog [(request, 0)] maybeError s.log =
      (t.task.maybeError, s.log)) : t.Ends lfs sdlog file := by
  obtain ⟨openedAt, w, times, hlength, hloop⟩ := h
  refine ⟨openedAt, w, times ++ [0], ?_, ?_⟩
  · rw [hreceived, List.length_append, List.length_append, hlength]
    rfl
  · rw [hreceived, hlog, ← hend, ← hloop, ← processRequests_concat hlength, List.append_nil]

/-- The main loop goes on after a write. -/
theorem write (h : s.GoesOn lfs sdlog file requests none) {request : LogRequest F} {format : F}
    (hformat : request.format = some format) {now : UInt32}
    (hlog : t.log = (s.log.1.write lfs sdlog format request now s.log.2).2) :
    t.GoesOn lfs sdlog file (requests ++ [request])
      (s.log.1.write lfs sdlog format request now s.log.2).1 := by
  obtain ⟨openedAt, w, times, hlength, hloop⟩ := h
  refine ⟨openedAt, w, times ++ [now], ?_, fun later => ?_⟩
  · rw [List.length_append, List.length_append, hlength]
    rfl
  · rw [processRequests_concat hlength, hloop, processRequests_of_format hformat, hlog]

end GoesOn

/-! ### The invariant -/

/-- Other tasks leave the main loop where it is. -/
theorem Follows.of_offers (h : s.Follows lfs sdlog file s.task.phase) {task : RecorderTask F}
    (hoffers : Offers s.task task) : Follows lfs sdlog file ⟨task, s.log⟩ task.phase := by
  have heq : Follows lfs sdlog file ⟨task, s.log⟩ = s.Follows lfs sdlog file := by
    funext phase
    simp only [Follows.eq_def, GoesOn, Ends, hoffers.received_eq, hoffers.maybeError_eq]
  rw [heq, hoffers.phase_eq]
  exact h

/-- The task receives a request. -/
theorem Follows.receive (h : s.Follows lfs sdlog file s.task.phase) {task : RecorderTask F}
    (hstep : s.task.step .receive = some task) :
    Follows lfs sdlog file ⟨task, s.log⟩ task.phase := by
  obtain ⟨hphase, ⟨request, queue, -, -, rfl⟩ | ⟨-, rfl⟩⟩ := step_receive hstep
  · rw [hphase] at h
    have hgoesOn : s.GoesOn lfs sdlog file s.task.received s.task.maybeError := h
    rw [handle]
    split
    · rename_i herror
      exact Or.inr (hgoesOn.ends_concat rfl rfl (processRequests_of_error herror))
    · rename_i herror
      have hnone : s.task.maybeError = none := Option.not_isSome_iff_eq_none.mp herror
      rw [hnone] at hgoesOn
      split
      · rename_i hformat
        exact Or.inr (hgoesOn.ends_concat rfl rfl (processRequests_of_sentinel hformat))
      · exact ⟨s.task.received, rfl, hgoesOn⟩
  · rw [hphase] at h
    exact Or.inr (GoesOn.ends h rfl rfl rfl)

/-- **Every step follows the main loop.** -/
theorem Follows.step (h : s.Follows lfs sdlog file s.task.phase)
    {action : RecorderAction F × UInt32} (hstep : s.step lfs sdlog file action = some t) :
    t.Follows lfs sdlog file t.task.phase := by
  obtain ⟨a, now⟩ := action
  obtain ⟨task, log⟩ := t
  rcases step_cases hstep with ⟨request, format, hphase, hformat, htask, hlog⟩ | ⟨htask, hlog⟩ |
    ⟨htask, hlog, hopened, hwrite⟩
  · obtain ⟨request', hphase', rfl⟩ := step_write htask
    rw [hphase] at h
    obtain ⟨earlier, hreceived, hgoesOn⟩ := h
    change GoesOn lfs sdlog file _ s.task.received _
    rw [hreceived]
    exact hgoesOn.write hformat hlog
  · obtain ⟨hphase, rfl⟩ := step_opened htask
    rw [hphase] at h
    obtain ⟨hreceived, herror⟩ := h
    refine ⟨now, s.log.2, [], congrArg List.length hreceived, fun later => ?_⟩
    rw [← hlog]
    simp only [hreceived, herror, List.zip_nil_right, List.nil_append]
  · obtain rfl : log = s.log := hlog
    cases a with
    | record | recordNonblocking | simulateIOError | stop =>
      exact h.of_offers (offers_of_step htask trivial)
    | run =>
      obtain ⟨-, rfl⟩ := step_run htask
      exact ⟨rfl, rfl⟩
    | notOpened =>
      obtain ⟨-, rfl⟩ := step_notOpened htask
      exact Or.inl rfl
    | opened => exact absurd rfl hopened
    | calledBack =>
      obtain ⟨hphase, rfl⟩ := step_calledBack htask
      rw [hphase] at h
      exact h
    | receive => exact h.receive htask
    | write error => exact absurd rfl (hwrite error)
    | finish =>
      obtain ⟨reason, hphase, rfl⟩ := step_finish htask
      rw [hphase] at h
      exact h

/-! ### Runs -/

/-- The task with its log before the first run of the recorder. -/
def start (log : LogWriter σ × W) : LoggingTask F σ W := ⟨RecorderTask.start, log⟩

/-- The runs of the task. -/
theorem exists_run {log : LogWriter σ × W} {actions : List (RecorderAction F × UInt32)}
    (hrun : run (step lfs sdlog file) (start log) actions = some s) :
    ∃ actions', run RecorderTask.step RecorderTask.start actions' = some s.task := by
  have h : ∀ (actions : List (RecorderAction F × UInt32)) (u : LoggingTask F σ W),
      run (step lfs sdlog file) u actions = some s →
        ∃ actions', run RecorderTask.step u.task actions' = some s.task := by
    intro actions
    induction actions with
    | nil =>
      intro u hu
      exact ⟨[], congrArg (Option.map LoggingTask.task) hu⟩
    | cons action actions ih =>
      intro u hu
      obtain ⟨v, hstep, hrest⟩ := run_cons_eq_some.mp hu
      obtain ⟨a, ha⟩ := exists_step hstep
      obtain ⟨actions', hactions'⟩ := ih v hrest
      exact ⟨a :: actions', run_cons_eq_some.mpr ⟨v.task, ha, hactions'⟩⟩
  exact h actions _ hrun

/-- **The log of a run of the recorder.** When the recorder has left its main loop, its result and
its log file are those of `recordLog` for the requests that the queue has delivered, which are the
first ones of those that it took. -/
theorem exists_recordLog {log : LogWriter σ × W} {actions : List (RecorderAction F × UInt32)}
    (hrun : run (step lfs sdlog file) (start log) actions = some s) {reason : RunEnd}
    (hphase : s.task.phase = .leaving reason) (hreason : reason ≠ .notOpened) :
    s.task.received <+: s.task.accepted ∧ ∃ (openedAt : UInt32) (w : W) (times : List UInt32),
      s.task.received.length = times.length ∧
      ∀ closedAt, recordLog lfs sdlog file (s.task.received.zip times) openedAt closedAt w =
        (s.task.maybeError, file.destroy lfs (s.log.1.destroy lfs sdlog closedAt s.log.2)) := by
  obtain ⟨actions', hactions'⟩ := exists_run hrun
  have hqueued : Queued s.task :=
    invariant_visits_of_step (fun _ _ _ h => h.step) queued_start (visits_of_run hactions')
  have hfollows : s.Follows lfs sdlog file s.task.phase :=
    invariant_visits_of_step (I := fun s => s.Follows lfs sdlog file s.task.phase)
      (fun _ _ _ h => h.step) ⟨rfl, rfl⟩ (visits_of_run hrun)
  rw [hphase] at hfollows
  obtain ⟨openedAt, w, times, hlength, hloop⟩ := hfollows.resolve_left hreason
  refine ⟨⟨_, hqueued.symm⟩, openedAt, w, times, hlength, fun closedAt => ?_⟩
  rw [recordLog]
  simp only [hloop]

end LoggingTask

end TellerOBC
