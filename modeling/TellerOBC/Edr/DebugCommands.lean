import TellerOBC.Cmd.Process
import TellerOBC.Edr.PendingRequests
import TellerOBC.Edr.Recorders

/-!
# Simulated I/O errors and the command task

Two debug commands simulate an I/O error of a recorder. They put a request into its queue whether
the recorder runs or not, with a `send` that waits for room without a timeout. A run of the recorder
clears the queue when it begins and takes requests out of it in its main loop only; what the loop
leaves behind stays, and so do the requests of later commands. When the queue of a recorder without
a run has no room, the command task waits until the recorder is run again.

The steps of the command task are put together here with those of the recorders and of the tasks
that offer requests to them.

## Main definitions

* `TellerOBC.CommandedRecorders`, `TellerOBC.CommandedRecorders.step`.
* `TellerOBC.CommandedRecorders.Blocked`: the command task waits for a full queue that no run is
  draining.
* `TellerOBC.CommandedRecorders.Allowed`: the steps that do not lead there.

## Main results

* `TellerOBC.requests_processDebugPacket`: the calls of a debug packet.
* `TellerOBC.CommandedRecorders.Waitable.step`, `TellerOBC.CommandedRecorders.blocked_of_step`: what
  one step does.
* `TellerOBC.CommandedRecorders.not_blocked_iff`: which runs never block the command task.
* `TellerOBC.CommandedRecorders.waits_until_run`: a task that is blocked waits until the recorder
  is run.
-/

namespace TellerOBC

open StepSystem

variable {F : Type}

/-! ### Requests of debug packets -/

/-- The recorder that a debug packet simulates an I/O error of. -/
def simulatedArea (message : InboundMessage) : Option StorageArea :=
  if validateEncodedDebugCommandFrame message.payload then
    match decodeDebugCommandFrame message.payload with
    | .simulateFlashmemError => some .flashMemory
    | .simulateSdcardError => some .sdCard
    | _ => none
  else none

/-- The area of a call of `simulateIOError`. -/
def SystemCall.simulatedArea : SystemCall → Option StorageArea
  | .simulateIOError area => some area
  | _ => none

/-- A debug packet calls `simulateIOError` for the area of `simulatedArea`, once, or not at all. -/
theorem requests_processDebugPacket (message : InboundMessage)
    {es : List (Program.Event SystemAnswer)} {r : Outcome}
    (h : (processDebugPacket message).Runs es r) :
    es.filterMap (fun e => e.1.simulatedArea) = (simulatedArea message).toList := by
  rw [processDebugPacket] at h
  rw [TellerOBC.simulatedArea]
  split_ifs at h with hvalid
  · obtain ⟨rfl, -⟩ := h
    rw [Bool.not_eq_true'] at hvalid
    rw [hvalid]
    rfl
  · rw [Bool.not_eq_true', Bool.not_eq_false] at hvalid
    rw [if_pos hvalid]
    obtain ⟨es₁, es₂, returns, rfl, h₁, h₂⟩ := Program.runs_bind.mp h
    obtain ⟨rfl, -⟩ := h₂
    rw [List.append_nil]
    cases hcommand : decodeDebugCommandFrame message.payload with
    | nop | triggerWatchdog =>
      rw [hcommand] at h₁
      obtain ⟨rfl, -⟩ := h₁
      rfl
    | startClock | stopClock | resetClock | toggleSimulatedError | toggleTelemetryLevel =>
      rw [hcommand] at h₁
      obtain ⟨_, _, rfl, _, _, rfl, rfl, -⟩ := h₁
      rfl
    | toggleCamera | reportStorageStatus | reportEdrStatus | reportMemoryUsage
    | simulateFlashmemError | simulateSdcardError =>
      rw [hcommand] at h₁
      obtain ⟨_, _, rfl, rfl, -⟩ := h₁
      rfl

/-! ### The command task and the recorders -/

/-- The recorder that a step belongs to. -/
def RecordersAction.area : RecordersAction F → StorageArea
  | .flashMemory _ => .flashMemory
  | .sdCard _ => .sdCard

/-- The step of that recorder. -/
def RecordersAction.action : RecordersAction F → RecorderAction F
  | .flashMemory action | .sdCard action => action

/-- Whether a step is a call of `simulateIOError`. -/
def RecorderAction.simulates : RecorderAction F → Bool
  | .simulateIOError _ => true
  | _ => false

/-- The recorders, and the area of the recorder whose queue the command task waits for, if it
does. -/
structure CommandedRecorders (F : Type) where
  recorders : Recorders F
  waiting : Option StorageArea

/-- The steps of the command task, and those of the recorders with the other tasks. -/
inductive CommandedAction (F : Type) where
  /-- A debug packet is processed. -/
  | debugPacket (message : InboundMessage)
  /-- The `send` that waits finds room. -/
  | proceed
  | recorders (action : RecordersAction F)

namespace CommandedRecorders

open RecorderTask (simulatedError)

/-- The recorders before any task is started. -/
def start : CommandedRecorders F := ⟨Recorders.start, none⟩

variable (s : CommandedRecorders F)

/-- The recorder of an area. -/
abbrev recorder (area : StorageArea) : RecorderTask F := s.recorders.recorder area

/-- `simulateIOError` until its `send` waits. -/
def simulateIOError (area : StorageArea) : Option (CommandedRecorders F) :=
  match (s.recorder area).queue.send simulatedError with
  | .refused => some s
  | .wait => some { s with waiting := some area }
  | .done _ => (s.recorders.stepOf area (.simulateIOError true)).map fun recorders =>
    { s with recorders := recorders }

/-- The end of a `send` that has waited. -/
def proceed (area : StorageArea) : Option (CommandedRecorders F) :=
  if (s.recorder area).queue.full then none
  else some
    { recorders := { recorder :=
        Function.update s.recorders.recorder area ((s.recorder area).take simulatedError) }
      waiting := none }

/-- The steps. Only the command task calls `simulateIOError`. -/
def step (s : CommandedRecorders F) : CommandedAction F → Option (CommandedRecorders F)
  | .debugPacket message =>
    if s.waiting.isSome then none
    else match simulatedArea message with
      | none => some s
      | some area => s.simulateIOError area
  | .proceed => s.waiting.bind s.proceed
  | .recorders action =>
    if action.action.simulates then none
    else (s.recorders.step action).map fun recorders => { s with recorders := recorders }

/-- The command task waits for room in a full queue that no run is draining. -/
def Blocked : Prop :=
  ∃ area, s.waiting = some area ∧ (s.recorder area).queue.full = true ∧
    (s.recorder area).draining = false

/-- A debug packet simulates an I/O error of a recorder only if its queue is closed, a run is in
its main loop, or less than `QUEUE_SIZE` requests are pending; and while the command task waits for
a recorder without such a run, no other task takes the last room in its queue. -/
def Allowed : CommandedAction F → Prop
  | .debugPacket message => ∀ area, simulatedArea message = some area →
    (s.recorder area).queue.closed = true ∨ (s.recorder area).draining = true ∨
      (s.recorder area).pending < recorderQueueSize
  | .proceed => True
  | .recorders action => s.waiting = some action.area →
    (s.recorder action.area).Takes action.action →
    (s.recorder action.area).draining = true ∨
      (s.recorder action.area).pending + 1 < recorderQueueSize

/-- All queues are within their limits, and the command task is not blocked. -/
structure Waitable : Prop where
  sized : ∀ area, (s.recorder area).Sized
  not_blocked : ¬s.Blocked

theorem waitable_start : Waitable (start : CommandedRecorders F) where
  sized _ := RecorderTask.sized_start
  not_blocked := by
    rintro ⟨area, hwaiting, -⟩
    cases hwaiting

/-! ### Inversion of the steps -/

section Steps

variable {s} {t : CommandedRecorders F}

/-- A step of one recorder leaves the other ones alone. -/
theorem recorder_of_stepOf {r r' : Recorders F} {area : StorageArea} {action : RecorderAction F}
    (h : r.stepOf area action = some r') :
    (r.recorder area).step action = some (r'.recorder area) ∧
      ∀ other, other ≠ area → r'.recorder other = r.recorder other := by
  refine ⟨?_, fun other hne => Recorders.recorder_of_stepOf hne h⟩
  obtain ⟨recorder, hrecorder, rfl⟩ := Option.map_eq_some_iff.mp h
  rw [hrecorder]
  exact congrArg some (Function.update_self area recorder r.recorder).symm

theorem step_recorders {action : RecordersAction F} (hstep : s.step (.recorders action) = some t) :
    t.waiting = s.waiting ∧
      (∀ sends, action.action ≠ .simulateIOError sends) ∧
      (s.recorder action.area).step action.action = some (t.recorder action.area) ∧
      ∀ other, other ≠ action.area → t.recorder other = s.recorder other := by
  rw [step, Option.ite_none_left_eq_some] at hstep
  obtain ⟨hsimulates, hstep⟩ := hstep
  obtain ⟨recorders, hrecorders, rfl⟩ := Option.map_eq_some_iff.mp hstep
  have hstepOf : s.recorders.stepOf action.area action.action = some recorders := by
    cases action <;> exact hrecorders
  refine ⟨rfl, fun sends heq => hsimulates ?_, recorder_of_stepOf hstepOf⟩
  rw [heq]
  rfl

theorem step_proceed (hstep : s.step .proceed = some t) :
    ∃ area, s.waiting = some area ∧ t.waiting = none ∧
      (s.recorder area).queue.full = false ∧
      t.recorder area = (s.recorder area).take simulatedError ∧
      ∀ other, other ≠ area → t.recorder other = s.recorder other := by
  obtain ⟨area, hwaiting, hproceed⟩ := Option.bind_eq_some_iff.mp hstep
  rw [proceed, Option.ite_none_left_eq_some, Bool.not_eq_true] at hproceed
  obtain ⟨hroom, hproceed⟩ := hproceed
  obtain rfl := Option.some.inj hproceed
  exact ⟨area, hwaiting, rfl, hroom, Function.update_self .., fun other hne =>
    Function.update_of_ne hne ..⟩

/-- A debug packet changes nothing, or makes the command task wait for a full queue, or puts a
request into a queue. -/
theorem step_debugPacket {message : InboundMessage}
    (hstep : s.step (.debugPacket message) = some t) :
    s.waiting = none ∧
      (t = s ∨ ∃ area, simulatedArea message = some area ∧
        (((s.recorder area).queue.closed = false ∧ (s.recorder area).queue.full = true ∧
            t = { s with waiting := some area }) ∨
          t.waiting = none ∧
            (s.recorder area).step (.simulateIOError true) = some (t.recorder area) ∧
            ∀ other, other ≠ area → t.recorder other = s.recorder other)) := by
  rw [step, Option.ite_none_left_eq_some, Bool.not_eq_true, Option.isSome_eq_false_iff,
    Option.isNone_iff_eq_none] at hstep
  obtain ⟨hwaiting, hstep⟩ := hstep
  refine ⟨hwaiting, ?_⟩
  split at hstep
  · exact Or.inl (Option.some.inj hstep).symm
  · next area harea =>
    rw [simulateIOError] at hstep
    split at hstep
    · exact Or.inl (Option.some.inj hstep).symm
    · next hwait =>
      rw [BlockingQueue.send] at hwait
      split_ifs at hwait with hclosed hfull
      exact Or.inr ⟨area, harea, Or.inl ⟨Bool.eq_false_iff.mpr hclosed, hfull,
        (Option.some.inj hstep).symm⟩⟩
    · obtain ⟨recorders, hrecorders, rfl⟩ := Option.map_eq_some_iff.mp hstep
      exact Or.inr ⟨area, harea, Or.inr ⟨hwaiting, recorder_of_stepOf hrecorders⟩⟩

end Steps

/-! ### One step -/

section Step

variable {s} {t : CommandedRecorders F}

/-- A command task that does not wait is not blocked. -/
theorem not_blocked_of_waiting (h : s.waiting = none) : ¬s.Blocked := by
  rintro ⟨area, hwaiting, -⟩
  exact absurd (h.symm.trans hwaiting) (Option.some_ne_none area).symm

/-- What holds of one recorder and of the other ones holds of all. -/
theorem forall_recorder {P : RecorderTask F → Prop} {area : StorageArea}
    (hs : ∀ other, P (s.recorder other)) (harea : P (t.recorder area))
    (hothers : ∀ other, other ≠ area → t.recorder other = s.recorder other) (other : StorageArea) :
    P (t.recorder other) := by
  by_cases heq : other = area
  · exact heq ▸ harea
  · rw [hothers other heq]
    exact hs other

theorem Waitable.debugPacket (h : Waitable s) {message : InboundMessage}
    (hok : s.Allowed (.debugPacket message)) (hstep : s.step (.debugPacket message) = some t) :
    Waitable t := by
  obtain ⟨-, rfl | ⟨area, harea, ⟨hopen, hfull, rfl⟩ | ⟨hwaiting, hsend, hothers⟩⟩⟩ :=
    step_debugPacket hstep
  · exact h
  · refine ⟨h.sized, ?_⟩
    rintro ⟨area', hwaiting, -, hdraining⟩
    obtain rfl := Option.some.inj hwaiting
    rcases hok area harea with hclosed | hdraining' | hpending
    · exact absurd (hopen.symm.trans hclosed) Bool.false_ne_true
    · exact absurd (hdraining.symm.trans hdraining') Bool.false_ne_true
    · exact absurd ((h.sized area).full_iff.mp hfull) (Nat.not_le.mpr hpending)
  · exact ⟨forall_recorder h.sized ((h.sized area).step hsend) hothers,
      not_blocked_of_waiting hwaiting⟩

theorem Waitable.proceed (h : Waitable s) (hstep : s.step .proceed = some t) : Waitable t := by
  obtain ⟨area, -, hwaiting, hroom, htake, hothers⟩ := step_proceed hstep
  have hsized : (t.recorder area).Sized := by
    rw [htake]
    exact (h.sized area).take _ hroom
  exact ⟨forall_recorder h.sized hsized hothers, not_blocked_of_waiting hwaiting⟩

theorem Waitable.recorders (h : Waitable s) {action : RecordersAction F}
    (hok : s.Allowed (.recorders action)) (hstep : s.step (.recorders action) = some t) :
    Waitable t := by
  obtain ⟨hwaiting, hsimulate, hrecorder, hothers⟩ := step_recorders hstep
  have hsized := h.sized action.area
  have hsized' := hsized.step hrecorder
  refine ⟨forall_recorder h.sized hsized' hothers, ?_⟩
  rintro ⟨area, harea, hfull, hdraining⟩
  rw [hwaiting] at harea
  by_cases heq : area = action.area
  · subst heq
    rcases RecorderTask.queue_of_step hsized hsimulate hrecorder with
      htakes | ⟨hfull', hdraining'⟩ | hroom | hdrains
    · -- a request of another task has taken the last room
      obtain ⟨request, -, htake⟩ := RecorderTask.take_of_takes htakes hrecorder
      rcases hok harea htakes with hdraining' | hpending
      · rw [htake] at hdraining
        exact absurd (hdraining.symm.trans hdraining') Bool.false_ne_true
      · have hle := hsized'.full_iff.mp hfull
        rw [htake, hsized.pending_take] at hle
        exact absurd hle (Nat.not_le.mpr hpending)
    · exact h.not_blocked ⟨action.area, harea, hfull'.symm.trans hfull,
        hdraining'.symm.trans hdraining⟩
    · exact absurd (hroom.symm.trans hfull) Bool.false_ne_true
    · exact absurd (hdraining.symm.trans hdrains) Bool.false_ne_true
  · rw [hothers area heq] at hfull hdraining
    exact h.not_blocked ⟨area, harea, hfull, hdraining⟩

/-- **The step lemma.** An allowed step does not block the command task. -/
theorem Waitable.step (h : Waitable s) {action : CommandedAction F} (hok : s.Allowed action)
    (hstep : s.step action = some t) : Waitable t := by
  cases action with
  | debugPacket message => exact h.debugPacket hok hstep
  | proceed => exact h.proceed hstep
  | recorders action => exact h.recorders hok hstep

/-- **A step that is not allowed** blocks the command task. -/
theorem blocked_of_step (h : Waitable s) {action : CommandedAction F} (hnot : ¬s.Allowed action)
    (hstep : s.step action = some t) : t.Blocked := by
  cases action with
  | debugPacket message =>
    simp only [Allowed, not_forall, not_or, Bool.not_eq_true, not_lt] at hnot
    obtain ⟨area, harea, hopen, hdraining, hpending⟩ := hnot
    have hfull := (h.sized area).full_iff.mpr hpending
    rw [step, harea] at hstep
    split_ifs at hstep
    simp only [simulateIOError, BlockingQueue.send_of_full hopen hfull] at hstep
    obtain rfl := Option.some.inj hstep
    exact ⟨area, rfl, hfull, hdraining⟩
  | proceed => exact absurd trivial hnot
  | recorders action =>
    simp only [Allowed, Classical.not_imp, not_or, Bool.not_eq_true, not_lt] at hnot
    obtain ⟨harea, htakes, hdraining, hpending⟩ := hnot
    obtain ⟨hwaiting, -, hrecorder, -⟩ := step_recorders hstep
    obtain ⟨request, -, htake⟩ := RecorderTask.take_of_takes htakes hrecorder
    have hsized := h.sized action.area
    refine ⟨action.area, hwaiting.trans harea, ?_, ?_⟩
    · rw [(hsized.step hrecorder).full_iff, htake, hsized.pending_take]
      exact hpending
    · rw [htake]
      exact hdraining

end Step

/-! ### Runs -/

/-- **Runs that never block the command task.** In a run of the command task, the recorders and the
tasks that offer requests, the command task never waits for room in a full queue that no run is
draining exactly if each step is allowed. -/
theorem not_blocked_iff (actions : List (CommandedAction F)) :
    (∀ t, Visits step start actions t → ¬Blocked t) ↔
      Meets step (fun s action => (s.step action).isSome = true → s.Allowed action) start
        actions :=
  forall_visits_iff_meets (I := Waitable) (fun _ h => h.not_blocked)
    (fun _ _ _ h hok hstep => h.step hok hstep)
    (fun _ _ _ h hnot hstep => not_not.mpr (blocked_of_step h hnot hstep)) waitable_start

/-- The step begins a run of a recorder. -/
def Runs (area : StorageArea) : CommandedAction F → Prop
  | .recorders action => action.area = area ∧ action.action = .run
  | _ => False

/-- **A blocked command task waits** for a detached recorder until the recorder is run. -/
theorem waits_until_run {s t : CommandedRecorders F} {area : StorageArea}
    {actions : List (CommandedAction F)} (hwaiting : s.waiting = some area)
    (hfull : (s.recorder area).queue.full = true) (hdetached : (s.recorder area).Detached)
    (hruns : ∀ action ∈ actions, ¬Runs area action) (ht : Visits step s actions t) :
    t.waiting = some area := by
  refine (invariant_visits (I := fun s : CommandedRecorders F => s.waiting = some area ∧
    (s.recorder area).Detached ∧ (s.recorder area).queue.full = true) ?_
    ⟨hwaiting, hdetached, hfull⟩ (meets_of_forall_mem hruns s) ht).1
  rintro u action v ⟨hwaiting, hdetached, hfull⟩ hrun hstep
  cases action with
  | debugPacket message =>
    exact absurd (hwaiting.symm.trans (step_debugPacket hstep).1) (Option.some_ne_none area)
  | proceed =>
    obtain ⟨area', hwaiting', -, hroom, -⟩ := step_proceed hstep
    obtain rfl := Option.some.inj (hwaiting.symm.trans hwaiting')
    exact absurd (hroom.symm.trans hfull) Bool.false_ne_true
  | recorders action =>
    obtain ⟨hwaiting', hsimulate, hrecorder, hothers⟩ := step_recorders hstep
    refine ⟨hwaiting'.trans hwaiting, ?_⟩
    by_cases heq : area = action.area
    · subst heq
      exact hdetached.step hfull hsimulate (fun h => hrun ⟨rfl, h⟩) hrecorder
    · rw [hothers area heq]
      exact ⟨hdetached, hfull⟩

/-- **Seventeen debug packets.** The flash memory recorder is detached, and the ground station asks
seventeen times to simulate an I/O error of it. The queue takes sixteen requests, and the command
task waits for room for the last one until the recorder is run. -/
theorem blocked_of_seventeen_packets :
    let packet : CommandedAction Unit := .debugPacket
      ⟨0, ⟨7, FrameType.debug, Component.groundStation, Component.onboardComputer⟩, [11]⟩
    ∃ t, StepSystem.run step start (List.replicate 17 packet) = some t ∧ Blocked t ∧
      ∀ actions u, (∀ action ∈ actions, ¬Runs .flashMemory action) → Visits step t actions u →
        u.waiting = some .flashMemory := by
  intro packet
  refine ⟨_, rfl, ⟨.flashMemory, rfl, rfl, rfl⟩, fun actions u hruns hu => ?_⟩
  exact waits_until_run rfl rfl ⟨rfl, Or.inl rfl⟩ hruns hu

end CommandedRecorders

end TellerOBC
