import TellerOBC.Edr.Requests

/-!
# Pending requests of a recorder

How full the request queue of a recorder is, and what the steps of the recorder do to that. The
queue holds the requests that it has taken since the last run cleared it and that were not received
yet. Only requests make it fuller, and only the main loop of a run and the beginning of the next run
make room.

## Main definitions

* `TellerOBC.RecorderTask.draining`, `TellerOBC.RecorderTask.Detached`: a run is in its main loop;
  there is no run.
* `TellerOBC.RecorderTask.pending`: how many requests are pending.
* `TellerOBC.RecorderTask.Sized`: the queue is within its limit.

## Main results

* `TellerOBC.RecorderTask.queue_of_step`: what a step does to the queue.
* `TellerOBC.RecorderTask.Sized.step`: the invariant.
* `TellerOBC.RecorderTask.Detached.step`: a full queue stays full until the next run.
-/

namespace TellerOBC

variable {F : Type}

namespace RecorderTask

variable (s : RecorderTask F)

/-- A run of the recorder is in its main loop. -/
def draining : Bool :=
  match s.phase with
  | .receiving | .writing _ => true
  | _ => false

/-- The recorder is detached: no run of it is in progress. -/
structure Detached : Prop where
  state_eq : s.state = .disabled
  phase_eq : s.phase = .idle ∨ ∃ reason, s.phase = .ended reason

/-- How many of the requests that the queue took since the last run has cleared it were not received
yet. -/
def pending : ℕ := s.accepted.length - s.received.length

/-- The step puts a request of a task into the queue. -/
def Takes : RecorderAction F → Prop
  | .record _ true | .recordNonblocking _ true => s.state ≠ .disabled
  | _ => False

/-- The request of `simulateIOError`. -/
def simulatedError : LogRequest F := { format := none, message := [42], length := 0 }

/-- The queue takes a request, whether it is closed or not. -/
def take (request : LogRequest F) : RecorderTask F :=
  { s with
    queue := s.queue.push request
    offered := s.offered ++ [request]
    accepted := s.accepted ++ [request] }

/-- The queue holds what is pending, within its limit. -/
structure Sized : Prop where
  queued : Queued s
  limit_eq : s.queue.limit = recorderQueueSize
  length_le : s.queue.items.length ≤ recorderQueueSize

theorem sized_start : Sized (start : RecorderTask F) := ⟨queued_start, rfl, Nat.zero_le _⟩

variable {s} {t : RecorderTask F}

theorem take_of_enqueue {request : LogRequest F} (h : s.enqueue request = some t) :
    s.queue.full = false ∧ t = s.take request := by
  rw [enqueue, Option.ite_none_left_eq_some, Bool.or_eq_true, not_or, Bool.not_eq_true,
    Bool.not_eq_true] at h
  exact ⟨h.1.2, (Option.some.inj h.2).symm⟩

namespace Sized

theorem of_keeps (h : Sized s) (hkeeps : Keeps s t) : Sized t :=
  ⟨h.queued.of_keeps hkeeps, hkeeps.queue_eq ▸ h.limit_eq, hkeeps.queue_eq ▸ h.length_le⟩

theorem pending_eq (h : Sized s) : s.pending = s.queue.items.length := by
  rw [pending, h.queued, List.length_append, Nat.add_sub_cancel_left]

theorem full_iff (h : Sized s) : s.queue.full = true ↔ recorderQueueSize ≤ s.pending := by
  rw [BlockingQueue.full, decide_eq_true_eq, h.limit_eq, h.pending_eq]

theorem take (h : Sized s) (request : LogRequest F) (hroom : s.queue.full = false) :
    Sized (s.take request) where
  queued := by
    rw [Queued, RecorderTask.take, BlockingQueue.push, h.queued, List.append_assoc]
  limit_eq := h.limit_eq
  length_le := by
    rw [BlockingQueue.full, decide_eq_false_iff_not, h.limit_eq, not_le] at hroom
    rw [RecorderTask.take, BlockingQueue.push, List.length_append]
    exact hroom

theorem pending_take (h : Sized s) (request : LogRequest F) :
    (s.take request).pending = s.pending + 1 := by
  have hle : s.received.length ≤ s.accepted.length := by
    rw [h.queued, List.length_append]
    exact Nat.le_add_right ..
  rw [pending, pending, RecorderTask.take, List.length_append, List.length_singleton]
  exact Nat.sub_add_comm hle

end Sized

/-! ### Steps of a recorder -/

/-- A step that puts a request into the queue. -/
theorem take_of_takes {action : RecorderAction F} (htakes : s.Takes action)
    (hstep : s.step action = some t) :
    ∃ request, s.queue.full = false ∧ t = s.take request := by
  have hoffer {request : LogRequest F} (hstate : s.state ≠ .disabled)
      (hstep : s.offer request true = some t) : s.queue.full = false ∧ t = s.take request := by
    rw [offer, if_neg hstate, if_pos rfl] at hstep
    exact take_of_enqueue hstep
  rw [Takes.eq_def] at htakes
  split at htakes
  · exact ⟨_, hoffer htakes hstep⟩
  · exact ⟨_, hoffer htakes hstep⟩
  · exact htakes.elim

/-- Offering a request puts it into the queue, or leaves queue and run as they are. -/
theorem queue_of_offer {request : LogRequest F} {sends : Bool}
    (hstep : s.offer request sends = some t) :
    (s.state ≠ .disabled ∧ sends = true) ∨
      t.queue.full = s.queue.full ∧ t.draining = s.draining := by
  rw [offer] at hstep
  split_ifs at hstep with hstate hsends
  · exact Or.inr (Option.some.inj hstep ▸ ⟨rfl, rfl⟩)
  · exact Or.inl ⟨hstate, hsends⟩
  · exact Or.inr (Option.some.inj hstep ▸ ⟨rfl, rfl⟩)

/-- **What a step of a recorder does to its queue.** It takes a request; or the queue is as full as
it was, and a run is in its main loop if it was; or the queue has room or is drained after the
step. -/
theorem queue_of_step (h : Sized s) {action : RecorderAction F}
    (hsimulate : ∀ sends, action ≠ .simulateIOError sends) (hstep : s.step action = some t) :
    s.Takes action ∨ (t.queue.full = s.queue.full ∧ t.draining = s.draining) ∨
      t.queue.full = false ∨ t.draining = true := by
  have hpos : 0 < recorderQueueSize := by decide
  cases action with
  | record request sends | recordNonblocking request sends =>
    rcases queue_of_offer hstep with ⟨hstate, rfl⟩ | hsame
    · exact Or.inl hstate
    · exact Or.inr (Or.inl hsame)
  | simulateIOError sends => exact absurd rfl (hsimulate sends)
  | stop => exact Or.inr (Or.inl (Option.some.inj hstep ▸ ⟨rfl, rfl⟩))
  | run =>
    obtain ⟨-, rfl⟩ := step_run hstep
    refine Or.inr (Or.inr (Or.inl (decide_eq_false ?_)))
    rw [BlockingQueue.clear, h.limit_eq]
    exact Nat.not_le.mpr hpos
  | notOpened =>
    obtain ⟨hphase, rfl⟩ := step_notOpened hstep
    exact Or.inr (Or.inl ⟨rfl, by rw [draining, draining, hphase]⟩)
  | opened =>
    obtain ⟨hphase, rfl⟩ := step_opened hstep
    exact Or.inr (Or.inl ⟨rfl, by rw [draining, draining, hphase]⟩)
  | calledBack =>
    obtain ⟨-, rfl⟩ := step_calledBack hstep
    exact Or.inr (Or.inr (Or.inr rfl))
  | receive =>
    refine Or.inr (Or.inr (Or.inl ?_))
    have hlen := h.length_le
    obtain ⟨-, ⟨request, queue, hitems, hlimit, rfl⟩ | ⟨⟨-, hitems⟩, rfl⟩⟩ := step_receive hstep
    · rw [hitems, List.length_cons] at hlen
      rw [(keeps_handle _ request).queue_eq, BlockingQueue.full, decide_eq_false_iff_not, hlimit,
        h.limit_eq]
      exact Nat.not_le.mpr hlen
    · rw [BlockingQueue.full, decide_eq_false_iff_not, hitems, h.limit_eq]
      exact Nat.not_le.mpr hpos
  | write error =>
    obtain ⟨request, -, rfl⟩ := step_write hstep
    exact Or.inr (Or.inr (Or.inr rfl))
  | finish =>
    obtain ⟨reason, hphase, rfl⟩ := step_finish hstep
    exact Or.inr (Or.inl ⟨rfl, by rw [draining, draining, hphase]⟩)

theorem Sized.offer (h : Sized s) {request : LogRequest F} {sends : Bool}
    (hstep : s.offer request sends = some t) : Sized t := by
  rw [RecorderTask.offer] at hstep
  split_ifs at hstep
  · exact Option.some.inj hstep ▸ h
  · obtain ⟨hroom, rfl⟩ := take_of_enqueue hstep
    exact h.take request hroom
  · exact Option.some.inj hstep ▸ ⟨h.queued, h.limit_eq, h.length_le⟩

/-- **Every step keeps the queue within its limit.** -/
theorem Sized.step (h : Sized s) {action : RecorderAction F} (hstep : s.step action = some t) :
    Sized t := by
  have hqueued := Queued.step h.queued hstep
  cases action with
  | record request sends | recordNonblocking request sends => exact h.offer hstep
  | simulateIOError sends =>
    rw [RecorderTask.step, simulateIOError] at hstep
    split_ifs at hstep
    · obtain ⟨hroom, rfl⟩ := take_of_enqueue hstep
      exact h.take _ hroom
    · exact Option.some.inj hstep ▸ h
  | stop => exact Option.some.inj hstep ▸ ⟨h.queued, h.limit_eq, h.length_le⟩
  | run =>
    obtain ⟨-, rfl⟩ := step_run hstep
    exact ⟨hqueued, h.limit_eq, Nat.zero_le _⟩
  | receive =>
    rcases keeps_of_receive hstep with ⟨request, queue, hitems, hlimit, hkeeps⟩ | hkeeps
    · have hlen := h.length_le
      rw [hitems, List.length_cons] at hlen
      exact ⟨hqueued, by rw [hkeeps.queue_eq, hlimit, h.limit_eq],
        by rw [hkeeps.queue_eq]; exact Nat.le_of_succ_le hlen⟩
    · exact h.of_keeps hkeeps
  | notOpened | opened | calledBack | write error | finish =>
    exact h.of_keeps (keeps_of_step hstep trivial)

/-- **A full queue without a run** stays full until the recorder is run. -/
theorem Detached.step (h : s.Detached) (hfull : s.queue.full = true) {action : RecorderAction F}
    (hsimulate : ∀ sends, action ≠ .simulateIOError sends) (hrun : action ≠ .run)
    (hstep : s.step action = some t) : t.Detached ∧ t.queue.full = true := by
  have hphase {phase : RunPhase F} (hidle : .idle ≠ phase)
      (hended : ∀ reason, .ended reason ≠ phase) : s.phase ≠ phase := by
    rcases h.phase_eq with heq | ⟨reason, heq⟩
    · exact heq ▸ hidle
    · exact heq ▸ hended reason
  cases action with
  | record request sends | recordNonblocking request sends =>
    rw [RecorderTask.step, offer, if_pos h.state_eq] at hstep
    exact Option.some.inj hstep ▸ ⟨h, hfull⟩
  | simulateIOError sends => exact absurd rfl (hsimulate sends)
  | stop => exact Option.some.inj hstep ▸ ⟨⟨h.state_eq, h.phase_eq⟩, hfull⟩
  | run => exact absurd rfl hrun
  | notOpened => exact absurd (step_notOpened hstep).1 (hphase (by simp) (by simp))
  | opened => exact absurd (step_opened hstep).1 (hphase (by simp) (by simp))
  | calledBack => exact absurd (step_calledBack hstep).1 (hphase (by simp) (by simp))
  | receive => exact absurd (step_receive hstep).1 (hphase (by simp) (by simp))
  | write error =>
    obtain ⟨request, hwriting, -⟩ := step_write hstep
    exact absurd hwriting (hphase (by simp) (by simp))
  | finish =>
    obtain ⟨reason, hleaving, -⟩ := step_finish hstep
    exact absurd hleaving (hphase (by simp) (by simp))

end RecorderTask

end TellerOBC
