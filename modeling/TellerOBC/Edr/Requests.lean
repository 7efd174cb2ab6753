import Mathlib.Data.UInt
import TellerOBC.Edr.Recorder
import TellerOBC.Foundations.StepSystem
import TellerOBC.Hal.BlockingQueue

/-!
# The request queue of a recorder

`record`, `recordNonblocking`, `simulateIOError`, `run` and `_run` of the experiment data recorder
in `modules/edr.cpp` and `modules/edr.hpp`, as steps of the tasks that offer requests and of the
task that runs the recorder. A request is put into a queue while the recorder is starting or
running. The recorder clears the queue when it is run, opens its log file, lets the callbacks offer
their requests, and then receives and writes requests until it finds one without a format, which
ends the queue.

Each call that offers a request is one step, in which the queue takes the request or does not. The
callbacks offer their requests in the same way. The receipt of a request and its writing are two
steps, so that other requests may come in between. The functions that open and write the log file
are in `TellerOBC.Edr.Recorder`; here they succeed or fail.

## Main definitions

* `TellerOBC.RecorderTask`, `TellerOBC.RecorderTask.step`.
* `TellerOBC.RecorderTask.Recorded`: what is written to the log file.
* `TellerOBC.RecorderTask.Accounted`: what happens to the requests that are offered.

## Main results

* `TellerOBC.RecorderTask.Queued.step`, `TellerOBC.RecorderTask.Sound.step`,
  `TellerOBC.RecorderTask.Accounted.step`: the invariants.
* `TellerOBC.RecorderTask.recorded_run`: every run records the requests.
-/

namespace TellerOBC

/-- `QUEUE_SIZE` of a recorder. -/
def recorderQueueSize : ℕ := 16

/-- `State` of a recorder. -/
inductive RecorderState where
  | disabled
  | starting
  | running
  deriving DecidableEq, Repr

/-- Why a run ends. -/
inductive RunEnd where
  | notOpened
  | closed
  | failed
  | sentinel
  deriving DecidableEq, Repr

/-- Where the task is that runs the recorder. -/
inductive RunPhase (F : Type) where
  | idle
  /-- The queue was cleared, and the log file is opened. -/
  | opening
  /-- The callbacks are called. -/
  | starting
  /-- At the head of the main loop. -/
  | receiving
  | writing (request : LogRequest F)
  /-- After the main loop. -/
  | leaving (reason : RunEnd)
  | ended (reason : RunEnd)

/-- A recorder, with what happened since the queue was cleared. -/
structure RecorderTask (F : Type) where
  state : RecorderState
  queue : BlockingQueue (LogRequest F)
  dropped : UInt32
  maybeError : Option LfsError
  phase : RunPhase F
  /-- The requests that were offered while the recorder was starting or running, and those that
  `simulateIOError` has sent. -/
  offered : List (LogRequest F)
  /-- The requests that the queue took. -/
  accepted : List (LogRequest F)
  /-- The requests that the queue did not take. -/
  refused : List (LogRequest F)
  received : List (LogRequest F)
  written : List (LogRequest F)
  /-- The counter of the dropped requests when the queue was cleared. -/
  droppedBefore : UInt32

/-- The steps of the tasks. The calls that offer a request say whether the queue takes it. -/
inductive RecorderAction (F : Type) where
  | record (request : LogRequest F) (sends : Bool)
  | recordNonblocking (request : LogRequest F) (sends : Bool)
  | simulateIOError (sends : Bool)
  | stop
  /-- `run` clears the queue. -/
  | run
  /-- `_run` returns because it cannot open the log file. -/
  | notOpened
  /-- `_run` has opened the log file. -/
  | opened
  /-- `_run` has called the callbacks. -/
  | calledBack
  | receive
  | write (error : Option LfsError)
  | finish

namespace RecorderTask

open StepSystem (invariant_visits invariant_visits_of_step visits_of_run meets_iff_forall_mem)

variable {F : Type}

/-- A new recorder. -/
def start : RecorderTask F where
  state := .disabled
  queue := { limit := recorderQueueSize }
  dropped := 0
  maybeError := none
  phase := .idle
  offered := []
  accepted := []
  refused := []
  received := []
  written := []
  droppedBefore := 0

variable (s : RecorderTask F)

/-- The queue takes a request. It can if it is open and has room. -/
def enqueue (request : LogRequest F) : Option (RecorderTask F) :=
  if s.queue.closed || s.queue.full then none
  else some { s with
    queue := s.queue.push request
    offered := s.offered ++ [request]
    accepted := s.accepted ++ [request] }

/-- `record` and `recordNonblocking`. A recorder that is not starting or running ignores the
request. -/
def offer (request : LogRequest F) (sends : Bool) : Option (RecorderTask F) :=
  if s.state = .disabled then some s
  else if sends then s.enqueue request
  else some { s with
    dropped := s.dropped + 1
    offered := s.offered ++ [request]
    refused := s.refused ++ [request] }

/-- `simulateIOError`. It sends a request without a format in every state of the recorder, and does
not count it if the queue refuses. -/
def simulateIOError (sends : Bool) : Option (RecorderTask F) :=
  if sends then s.enqueue { format := none, message := [42], length := 0 } else some s

/-- The beginning of `run`. It asserts that the queue is not closed. -/
def clear : Option (RecorderTask F) :=
  if s.queue.closed then none
  else some { s with
    queue := s.queue.clear
    maybeError := none
    phase := .opening
    offered := []
    accepted := []
    refused := []
    received := []
    written := []
    droppedBefore := s.dropped }

/-- The main loop after a request was received. -/
def handle (request : LogRequest F) : RecorderTask F :=
  if s.maybeError.isSome then { s with phase := .leaving .failed }
  else match request.format with
    | none => { s with
        maybeError := if request.message.headD 0 = 42 then some .io else none
        phase := .leaving .sentinel }
    | some _ => { s with phase := .writing request }

/-- The steps. -/
def step (s : RecorderTask F) : RecorderAction F → Option (RecorderTask F)
  | .record request sends | .recordNonblocking request sends => s.offer request sends
  | .simulateIOError sends => s.simulateIOError sends
  | .stop => some { s with queue := s.queue.close }
  | .run =>
    match s.phase with
    | .idle | .ended _ => s.clear
    | _ => none
  | .notOpened =>
    match s.phase with
    | .opening => some { s with phase := .ended .notOpened }
    | _ => none
  | .opened =>
    match s.phase with
    | .opening => some { s with state := .starting, phase := .starting }
    | _ => none
  | .calledBack =>
    match s.phase with
    | .starting => some { s with state := .running, phase := .receiving }
    | _ => none
  | .receive =>
    match s.phase, s.queue.receive with
    | .receiving, .done (request, queue) =>
      some (handle { s with queue := queue, received := s.received ++ [request] } request)
    | .receiving, .refused => some { s with phase := .leaving .closed }
    | _, _ => none
  | .write error =>
    match s.phase with
    | .writing request => some { s with
        maybeError := error
        phase := .receiving
        written := if error.isNone then s.written ++ [request] else s.written }
    | _ => none
  | .finish =>
    match s.phase with
    | .leaving reason => some { s with state := .disabled, phase := .ended reason }
    | _ => none

/-! ### What the steps do -/

section Steps

variable {s} {t : RecorderTask F}

/-- A run begins with an open queue, which it clears. -/
theorem step_run (hstep : s.step .run = some t) : s.queue.closed = false ∧ t = { s with
    queue := s.queue.clear
    maybeError := none
    phase := .opening
    offered := []
    accepted := []
    refused := []
    received := []
    written := []
    droppedBefore := s.dropped } := by
  have hclear : s.clear = some t := by
    rw [step] at hstep
    split at hstep
    · exact hstep
    · exact hstep
    · cases hstep
  rw [clear, Option.ite_none_left_eq_some, Bool.not_eq_true] at hclear
  exact ⟨hclear.1, (Option.some.inj hclear.2).symm⟩

theorem step_notOpened (hstep : s.step .notOpened = some t) :
    s.phase = .opening ∧ t = { s with phase := .ended .notOpened } := by
  rw [step] at hstep
  split at hstep
  · rename_i hphase
    exact ⟨hphase, (Option.some.inj hstep).symm⟩
  · cases hstep

theorem step_opened (hstep : s.step .opened = some t) :
    s.phase = .opening ∧ t = { s with state := .starting, phase := .starting } := by
  rw [step] at hstep
  split at hstep
  · rename_i hphase
    exact ⟨hphase, (Option.some.inj hstep).symm⟩
  · cases hstep

theorem step_calledBack (hstep : s.step .calledBack = some t) :
    s.phase = .starting ∧ t = { s with state := .running, phase := .receiving } := by
  rw [step] at hstep
  split at hstep
  · rename_i hphase
    exact ⟨hphase, (Option.some.inj hstep).symm⟩
  · cases hstep

/-- The recorder receives the first request, or finds that the queue is closed and empty. -/
theorem step_receive (hstep : s.step .receive = some t) : s.phase = .receiving ∧
    ((∃ request queue, s.queue.items = request :: queue.items ∧ queue.limit = s.queue.limit ∧
      t = handle { s with queue := queue, received := s.received ++ [request] } request) ∨
      (s.queue.closed = true ∧ s.queue.items = []) ∧ t = { s with phase := .leaving .closed }) := by
  rw [step] at hstep
  split at hstep
  · rename_i request queue hphase hreceive
    exact ⟨hphase, Or.inl ⟨request, queue, BlockingQueue.items_of_receive hreceive,
      (BlockingQueue.limit_of_receive hreceive).1, (Option.some.inj hstep).symm⟩⟩
  · rename_i hphase hreceive
    exact ⟨hphase, Or.inr ⟨BlockingQueue.receive_eq_refused_iff.mp hreceive,
      (Option.some.inj hstep).symm⟩⟩
  · cases hstep

theorem step_write {error : Option LfsError} (hstep : s.step (.write error) = some t) :
    ∃ request, s.phase = .writing request ∧ t = { s with
      maybeError := error
      phase := .receiving
      written := if error.isNone then s.written ++ [request] else s.written } := by
  rw [step] at hstep
  split at hstep
  · rename_i request hphase
    exact ⟨request, hphase, (Option.some.inj hstep).symm⟩
  · cases hstep

theorem step_finish (hstep : s.step .finish = some t) :
    ∃ reason, s.phase = .leaving reason ∧
      t = { s with state := .disabled, phase := .ended reason } := by
  rw [step] at hstep
  split at hstep
  · rename_i reason hphase
    exact ⟨reason, hphase, (Option.some.inj hstep).symm⟩
  · cases hstep

/-- A step of another task leaves the run of the recorder as it is, and may add requests at the end
of the queue. -/
structure Offers (s t : RecorderTask F) : Prop where
  phase_eq : t.phase = s.phase
  maybeError_eq : t.maybeError = s.maybeError
  received_eq : t.received = s.received
  written_eq : t.written = s.written
  exists_accepted : ∃ new, t.queue.items = s.queue.items ++ new ∧ t.accepted = s.accepted ++ new

theorem offers_self (s : RecorderTask F) : Offers s s :=
  ⟨rfl, rfl, rfl, rfl, [], (List.append_nil _).symm, (List.append_nil _).symm⟩

theorem offers_enqueue {request : LogRequest F} (h : s.enqueue request = some t) : Offers s t := by
  rw [enqueue, Option.ite_none_left_eq_some] at h
  obtain ⟨-, h⟩ := h
  obtain rfl := Option.some.inj h
  exact ⟨rfl, rfl, rfl, rfl, [request], rfl, rfl⟩

theorem offers_offer {request : LogRequest F} {sends : Bool} (h : s.offer request sends = some t) :
    Offers s t := by
  rw [offer] at h
  split_ifs at h
  · exact Option.some.inj h ▸ offers_self s
  · exact offers_enqueue h
  · obtain rfl := Option.some.inj h
    exact ⟨rfl, rfl, rfl, rfl, [], (List.append_nil _).symm, (List.append_nil _).symm⟩

theorem offers_simulateIOError {sends : Bool} (h : s.simulateIOError sends = some t) :
    Offers s t := by
  rw [simulateIOError] at h
  split_ifs at h
  · exact offers_enqueue h
  · exact Option.some.inj h ▸ offers_self s

theorem offers_stop (s : RecorderTask F) : Offers s { s with queue := s.queue.close } :=
  ⟨rfl, rfl, rfl, rfl, [], (List.append_nil _).symm, (List.append_nil _).symm⟩

/-- The steps of other tasks. -/
def OfOthers : RecorderAction F → Prop
  | .record _ _ | .recordNonblocking _ _ | .simulateIOError _ | .stop => True
  | _ => False

/-- These steps only offer requests and close the queue. -/
theorem offers_of_step {a : RecorderAction F} (hstep : s.step a = some t) (ha : OfOthers a) :
    Offers s t := by
  cases a with
  | record request sends | recordNonblocking request sends => exact offers_offer hstep
  | simulateIOError sends => exact offers_simulateIOError hstep
  | stop =>
    obtain rfl := Option.some.inj hstep
    exact offers_stop s
  | run | notOpened | opened | calledBack | receive | write | finish => exact ha.elim

/-- The queue, what was offered and received, and the counts are as they were. -/
structure Keeps (s t : RecorderTask F) : Prop where
  queue_eq : t.queue = s.queue
  offered_eq : t.offered = s.offered
  accepted_eq : t.accepted = s.accepted
  refused_eq : t.refused = s.refused
  received_eq : t.received = s.received
  dropped_eq : t.dropped = s.dropped
  droppedBefore_eq : t.droppedBefore = s.droppedBefore

theorem keeps_handle (s : RecorderTask F) (request : LogRequest F) :
    Keeps s (s.handle request) := by
  rw [handle]
  split
  · exact ⟨rfl, rfl, rfl, rfl, rfl, rfl, rfl⟩
  · split <;> exact ⟨rfl, rfl, rfl, rfl, rfl, rfl, rfl⟩

/-- The steps of a run after its beginning that do not receive. -/
def Advances : RecorderAction F → Prop
  | .notOpened | .opened | .calledBack | .write _ | .finish => True
  | _ => False

/-- These steps leave the queue and what is known of its requests as they are. -/
theorem keeps_of_step {a : RecorderAction F} (hstep : s.step a = some t) (ha : Advances a) :
    Keeps s t := by
  cases a with
  | notOpened =>
    obtain ⟨-, rfl⟩ := step_notOpened hstep
    exact ⟨rfl, rfl, rfl, rfl, rfl, rfl, rfl⟩
  | opened =>
    obtain ⟨-, rfl⟩ := step_opened hstep
    exact ⟨rfl, rfl, rfl, rfl, rfl, rfl, rfl⟩
  | calledBack =>
    obtain ⟨-, rfl⟩ := step_calledBack hstep
    exact ⟨rfl, rfl, rfl, rfl, rfl, rfl, rfl⟩
  | write error =>
    obtain ⟨request, -, rfl⟩ := step_write hstep
    exact ⟨rfl, rfl, rfl, rfl, rfl, rfl, rfl⟩
  | finish =>
    obtain ⟨reason, -, rfl⟩ := step_finish hstep
    exact ⟨rfl, rfl, rfl, rfl, rfl, rfl, rfl⟩
  | record | recordNonblocking | simulateIOError | stop | run | receive => exact ha.elim

/-- A receipt moves the first request out of the queue, if there is one. -/
theorem keeps_of_receive (hstep : s.step .receive = some t) :
    (∃ request queue, s.queue.items = request :: queue.items ∧ queue.limit = s.queue.limit ∧
      Keeps { s with queue := queue, received := s.received ++ [request] } t) ∨ Keeps s t := by
  obtain ⟨-, ⟨request, queue, hitems, hlimit, rfl⟩ | ⟨-, rfl⟩⟩ := step_receive hstep
  · exact Or.inl ⟨request, queue, hitems, hlimit, keeps_handle _ request⟩
  · exact Or.inr ⟨rfl, rfl, rfl, rfl, rfl, rfl, rfl⟩

end Steps

/-! ### What is recorded -/

/-- The run has ended because of a request without a format. -/
def EndedBySentinel : Prop := s.phase = .leaving .sentinel ∨ s.phase = .ended .sentinel

/-- The requests in the log file are the first ones of those that the queue took, up to the end of
the queue; and all of these, when this ended the run. -/
structure Recorded (s : RecorderTask F) : Prop where
  written_isPrefix : s.written <+: s.accepted
  before_sentinel : ∀ request ∈ s.written, request.format.isSome = true
  of_endedBySentinel : s.EndedBySentinel → ∃ sentinel later,
    s.accepted = s.written ++ sentinel :: later ∧ sentinel.format = none

/-- The requests that were offered were taken by the queue or counted. -/
structure Accounted (s : RecorderTask F) : Prop where
  offered_perm : s.offered.Perm (s.accepted ++ s.refused)
  dropped_eq : s.dropped = s.droppedBefore + UInt32.ofNat s.refused.length

/-! ### The invariants -/

/-- How far the writing is behind the receiving, in each phase of a run without failed writes. -/
def Progress (s : RecorderTask F) : RunPhase F → Prop
  | .idle | .opening | .starting | .receiving =>
    s.received = s.written ∧ s.maybeError = none
  | .writing request => s.received = s.written ++ [request] ∧ request.format.isSome = true
  | .leaving .sentinel | .ended .sentinel =>
    ∃ sentinel, s.received = s.written ++ [sentinel] ∧ sentinel.format = none
  | .leaving _ | .ended _ => s.written <+: s.received

/-- The queue holds what was accepted and not received yet, in order. -/
def Queued (s : RecorderTask F) : Prop := s.accepted = s.received ++ s.queue.items

/-- What was written is what was received, as far as the phase says. -/
structure Sound (s : RecorderTask F) : Prop where
  format_isSome : ∀ request ∈ s.written, request.format.isSome = true
  progress : Progress s s.phase

theorem queued_start : Queued (start : RecorderTask F) := rfl

theorem sound_start : Sound (start : RecorderTask F) := ⟨nofun, rfl, rfl⟩

theorem accounted_start : Accounted (start : RecorderTask F) := ⟨List.Perm.refl _, rfl⟩

variable {s} {t : RecorderTask F}

/-- Only part of what was received was written. -/
theorem Progress.written_isPrefix {phase : RunPhase F} (h : Progress s phase) :
    s.written <+: s.received := by
  cases phase with
  | idle | opening | starting | receiving => exact h.1 ▸ List.prefix_rfl
  | writing request => exact ⟨_, h.1.symm⟩
  | leaving reason | ended reason =>
    cases reason with
    | sentinel =>
      obtain ⟨sentinel, hreceived, -⟩ := h
      exact ⟨_, hreceived.symm⟩
    | notOpened | closed | failed => exact h

theorem Sound.recorded (h : Sound s) (hqueued : Queued s) : Recorded s where
  written_isPrefix := by
    rw [hqueued]
    exact h.progress.written_isPrefix.trans (List.prefix_append _ _)
  before_sentinel := h.format_isSome
  of_endedBySentinel hended := by
    have hprogress := h.progress
    have hsentinel : ∃ sentinel, s.received = s.written ++ [sentinel] ∧ sentinel.format = none := by
      rcases hended with hphase | hphase
      · rwa [hphase] at hprogress
      · rwa [hphase] at hprogress
    obtain ⟨sentinel, hreceived, hformat⟩ := hsentinel
    refine ⟨sentinel, s.queue.items, ?_, hformat⟩
    rw [hqueued, hreceived, List.append_assoc, List.singleton_append]

namespace Queued

theorem of_offers (h : Queued s) (hoffers : Offers s t) : Queued t := by
  obtain ⟨new, hitems, haccepted⟩ := hoffers.exists_accepted
  rw [Queued, haccepted, hoffers.received_eq, hitems, h, List.append_assoc]

theorem of_keeps (h : Queued s) (hkeeps : Keeps s t) : Queued t := by
  rw [Queued, hkeeps.accepted_eq, hkeeps.received_eq, hkeeps.queue_eq]
  exact h

/-- **Every step keeps the queue in order.** -/
theorem step (h : Queued s) {a : RecorderAction F} (hstep : s.step a = some t) : Queued t := by
  cases a with
  | record | recordNonblocking | simulateIOError | stop =>
    exact h.of_offers (offers_of_step hstep trivial)
  | run =>
    obtain ⟨-, rfl⟩ := step_run hstep
    rfl
  | receive =>
    rcases keeps_of_receive hstep with ⟨request, queue, hitems, -, hkeeps⟩ | hkeeps
    · have hreceived : Queued { s with queue := queue, received := s.received ++ [request] } := by
        rw [Queued, h, hitems, List.append_cons]
      exact hreceived.of_keeps hkeeps
    · exact h.of_keeps hkeeps
  | notOpened | opened | calledBack | write error | finish =>
    exact h.of_keeps (keeps_of_step hstep trivial)

end Queued

namespace Sound

theorem of_offers (h : Sound s) (hoffers : Offers s t) : Sound t := by
  have hprogress : Progress t = Progress s := by
    funext phase
    rw [Progress.eq_def, Progress.eq_def, hoffers.received_eq, hoffers.written_eq,
      hoffers.maybeError_eq]
  exact ⟨hoffers.written_eq ▸ h.format_isSome, hprogress ▸ hoffers.phase_eq ▸ h.progress⟩

theorem receive (h : Sound s) (hstep : s.step .receive = some t) : Sound t := by
  have hprogress := h.progress
  obtain ⟨hphase, ⟨request, queue, -, -, rfl⟩ | ⟨-, rfl⟩⟩ := step_receive hstep
  · rw [hphase] at hprogress
    obtain ⟨hreceived, herror⟩ := hprogress
    rw [handle, if_neg (by rw [herror]; exact Bool.false_ne_true)]
    split
    · rename_i hformat
      exact ⟨h.format_isSome, request, congrArg (· ++ [request]) hreceived, hformat⟩
    · rename_i format hformat
      refine ⟨h.format_isSome, congrArg (· ++ [request]) hreceived, ?_⟩
      rw [hformat]
      rfl
  · rw [hphase] at hprogress
    exact ⟨h.format_isSome, hprogress.1 ▸ List.prefix_rfl⟩

theorem write (h : Sound s) (hstep : s.step (.write none) = some t) : Sound t := by
  have hprogress := h.progress
  obtain ⟨request, hphase, rfl⟩ := step_write hstep
  rw [hphase] at hprogress
  refine ⟨fun request' hmem => ?_, hprogress.1, rfl⟩
  rcases List.mem_append.mp hmem with hmem | hmem
  · exact h.format_isSome request' hmem
  · rw [List.mem_singleton.mp hmem]
    exact hprogress.2

/-- **Every step keeps the written requests in order**, if no write fails. -/
theorem step (h : Sound s) {a : RecorderAction F} (hwrite : ∀ error, a ≠ .write (some error))
    (hstep : s.step a = some t) : Sound t := by
  have hprogress := h.progress
  cases a with
  | record | recordNonblocking | simulateIOError | stop =>
    exact h.of_offers (offers_of_step hstep trivial)
  | run =>
    obtain ⟨-, rfl⟩ := step_run hstep
    exact ⟨nofun, rfl, rfl⟩
  | notOpened =>
    obtain ⟨hphase, rfl⟩ := step_notOpened hstep
    rw [hphase] at hprogress
    exact ⟨h.format_isSome, hprogress.1 ▸ List.prefix_rfl⟩
  | opened =>
    obtain ⟨hphase, rfl⟩ := step_opened hstep
    rw [hphase] at hprogress
    exact ⟨h.format_isSome, hprogress⟩
  | calledBack =>
    obtain ⟨hphase, rfl⟩ := step_calledBack hstep
    rw [hphase] at hprogress
    exact ⟨h.format_isSome, hprogress⟩
  | receive => exact h.receive hstep
  | write error =>
    cases error with
    | none => exact h.write hstep
    | some error => exact absurd rfl (hwrite error)
  | finish =>
    obtain ⟨reason, hphase, rfl⟩ := step_finish hstep
    rw [hphase] at hprogress
    refine ⟨h.format_isSome, ?_⟩
    cases reason with
    | notOpened | closed | failed | sentinel => exact hprogress

end Sound

namespace Accounted

theorem enqueue (h : Accounted s) {request : LogRequest F} (hstep : s.enqueue request = some t) :
    Accounted t := by
  rw [RecorderTask.enqueue, Option.ite_none_left_eq_some] at hstep
  obtain ⟨-, hstep⟩ := hstep
  obtain rfl := Option.some.inj hstep
  refine ⟨?_, h.dropped_eq⟩
  rw [List.append_assoc]
  exact (h.offered_perm.append_right _).trans
    ((List.append_assoc ..).symm ▸ List.perm_append_comm.append_left _)

theorem offer (h : Accounted s) {request : LogRequest F} {sends : Bool}
    (hstep : s.offer request sends = some t) : Accounted t := by
  rw [RecorderTask.offer] at hstep
  split_ifs at hstep
  · exact Option.some.inj hstep ▸ h
  · exact h.enqueue hstep
  · obtain rfl := Option.some.inj hstep
    refine ⟨?_, ?_⟩
    · rw [← List.append_assoc]
      exact h.offered_perm.append_right _
    · rw [h.dropped_eq, List.length_append, List.length_singleton, UInt32.ofNat_add,
        UInt32.add_assoc]
      rfl

theorem simulateIOError (h : Accounted s) {sends : Bool}
    (hstep : s.simulateIOError sends = some t) : Accounted t := by
  rw [RecorderTask.simulateIOError] at hstep
  split_ifs at hstep
  · exact h.enqueue hstep
  · exact Option.some.inj hstep ▸ h

theorem of_keeps (h : Accounted s) (hkeeps : Keeps s t) : Accounted t := by
  refine ⟨?_, ?_⟩
  · rw [hkeeps.offered_eq, hkeeps.accepted_eq, hkeeps.refused_eq]
    exact h.offered_perm
  · rw [hkeeps.dropped_eq, hkeeps.droppedBefore_eq, hkeeps.refused_eq]
    exact h.dropped_eq

/-- **Every step accounts for the requests that are offered.** -/
theorem step (h : Accounted s) {a : RecorderAction F} (hstep : s.step a = some t) :
    Accounted t := by
  cases a with
  | record request sends | recordNonblocking request sends => exact h.offer hstep
  | simulateIOError sends => exact h.simulateIOError hstep
  | stop =>
    obtain rfl := Option.some.inj hstep
    exact ⟨h.offered_perm, h.dropped_eq⟩
  | run =>
    obtain ⟨-, rfl⟩ := step_run hstep
    exact ⟨List.Perm.refl _, (UInt32.add_zero _).symm⟩
  | receive =>
    rcases keeps_of_receive hstep with ⟨request, queue, -, -, hkeeps⟩ | hkeeps
    · have hreceived : Accounted { s with queue := queue, received := s.received ++ [request] } :=
        ⟨h.offered_perm, h.dropped_eq⟩
      exact hreceived.of_keeps hkeeps
    · exact h.of_keeps hkeeps
  | notOpened | opened | calledBack | write error | finish =>
    exact h.of_keeps (keeps_of_step hstep trivial)

end Accounted

/-! ### Runs -/

/-- **Requests are recorded.** After every run of steps, the requests that were offered are
accounted for; and if no write failed, the requests in the log file are the first ones of those that
the queue took, up to the end of the queue. -/
theorem recorded_run {actions : List (RecorderAction F)} {s : RecorderTask F}
    (hrun : StepSystem.run step start actions = some s) :
    Accounted s ∧ ((∀ error, .write (some error) ∉ actions) → Recorded s) := by
  refine ⟨invariant_visits_of_step (fun _ _ _ h => h.step) accounted_start (visits_of_run hrun),
    fun hwrites => ?_⟩
  have hmeets : StepSystem.Meets step (fun s a => (step s a).isSome = true →
      ∀ error, a ≠ .write (some error)) start actions :=
    (meets_iff_forall_mem hrun).mpr fun a ha error heq => hwrites error (heq ▸ ha)
  have hsound : Sound s := invariant_visits
    (fun s a t h hok hstep => h.step (hok (by rw [hstep]; rfl)) hstep) sound_start hmeets
    (visits_of_run hrun)
  have hqueued : Queued s :=
    invariant_visits_of_step (fun _ _ _ h => h.step) queued_start (visits_of_run hrun)
  exact hsound.recorded hqueued

/-- A callback and a task offer requests, and the queue is ended. -/
theorem recorded_of_sentinel :
    let request : LogRequest Unit := ⟨some (), [1], 1⟩
    let sentinel : LogRequest Unit := ⟨none, [0], 0⟩
    ∃ s, StepSystem.run step start [.record request true, .run, .opened, .record request true,
        .recordNonblocking sentinel true, .record request false, .calledBack, .receive,
        .record request true, .write none, .receive, .finish] = some s ∧
      Accounted s ∧ Recorded s ∧ s.written = [request] ∧ s.dropped = 1 := by
  intro request sentinel
  have hrun : StepSystem.run step start [.record request true, .run, .opened, .record request true,
      .recordNonblocking sentinel true, .record request false, .calledBack, .receive,
      .record request true, .write none, .receive, .finish] = some _ := rfl
  obtain ⟨haccounted, hrecorded⟩ := recorded_run hrun
  refine ⟨_, rfl, haccounted, hrecorded fun error hmem => ?_, rfl, rfl⟩
  simp at hmem

end RecorderTask

end TellerOBC
