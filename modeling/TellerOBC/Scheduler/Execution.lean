import TellerOBC.Scheduler.Clock

/-!
# The execution of the events

The events of a table are executed in order, each when the clock of the scheduler has reached its
timestamp. The index of the next event goes back to the start of the table with each reset of the
clock, and in between the elapsed time does not go back.

## Main definitions

* `TellerOBC.Agenda`: a sorted table with a terminating entry.
* `TellerOBC.Scheduler.Trace`, `TellerOBC.Scheduler.step`: a scheduler with the events that were
  executed since the last reset.
* `TellerOBC.Scheduler.Executed`: the invariant of such a scheduler.

## Main results

* `TellerOBC.Scheduler.executeFrom_append`: the events that the loop executes.
* `TellerOBC.Scheduler.executed_run`.
-/

namespace TellerOBC

/-! ### Tables -/

/-- A table of events that is sorted by timestamp up to a terminating entry. Anything may follow
it. -/
structure Agenda where
  events : List SchedulerEvent
  terminator : SchedulerEvent
  beyond : List SchedulerEvent
  ne_eventEnd : ∀ event ∈ events, event.type ≠ .eventEnd
  terminator_type : terminator.type = .eventEnd
  sorted : events.Pairwise fun e f => e.timestampMsec ≤ f.timestampMsec

/-- The entries of the table. -/
def Agenda.entries (a : Agenda) : List SchedulerEvent := a.events ++ a.terminator :: a.beyond

/-- The tables of the three schedulers are sorted and terminated. -/
theorem exists_agenda (entries : List SchedulerEvent)
    (h : entries = eventsRelativeToSOE ∨ entries = eventsRelativeToSODS ∨
      entries = eventsRelativeToLiftoff) : ∃ a : Agenda, a.entries = entries := by
  rcases h with rfl | rfl | rfl
  · exact ⟨⟨eventsRelativeToSOE.take 8, noMoreEvents, [], by decide, rfl, by decide⟩, rfl⟩
  · exact ⟨⟨eventsRelativeToSODS.take 1, noMoreEvents, [], by decide, rfl, by decide⟩, rfl⟩
  · exact ⟨⟨eventsRelativeToLiftoff.take 1, noMoreEvents, [], by decide, rfl, by decide⟩, rfl⟩

namespace Scheduler

open StepSystem (run Meets)

/-! ### The loop -/

/-- The events that are due at an elapsed time. -/
def due (elapsed : ℕ) (events : List SchedulerEvent) : List SchedulerEvent :=
  events.filter fun event => event.timestampMsec.toNat ≤ elapsed

theorem due_append (elapsed : ℕ) (xs ys : List SchedulerEvent) :
    due elapsed (xs ++ ys) = due elapsed xs ++ due elapsed ys :=
  List.filter_append ..

theorem due_of_forall_le {elapsed : ℕ} {events : List SchedulerEvent}
    (h : ∀ event ∈ events, event.timestampMsec.toNat ≤ elapsed) : due elapsed events = events :=
  List.filter_eq_self.mpr fun event hevent => decide_eq_true (h event hevent)

/-- In a sorted list no event is due if the first one is not. -/
theorem due_cons_of_lt {elapsed : ℕ} {event : SchedulerEvent} {events : List SchedulerEvent}
    (hfirst : ∀ e ∈ events, event.timestampMsec ≤ e.timestampMsec)
    (hlate : elapsed < event.timestampMsec.toNat) : due elapsed (event :: events) = [] := by
  refine List.filter_eq_nil_iff.mpr fun e he hle => Nat.not_le.mpr hlate ?_
  rcases List.mem_cons.mp he with rfl | he
  · exact of_decide_eq_true hle
  · exact (UInt32.le_iff_toNat_le.mp (hfirst e he)).trans (of_decide_eq_true hle)

theorem due_cons_of_le {elapsed : ℕ} {event : SchedulerEvent} (events : List SchedulerEvent)
    (hdue : event.timestampMsec.toNat ≤ elapsed) :
    due elapsed (event :: events) = event :: due elapsed events :=
  List.filter_cons_of_pos (decide_eq_true hdue)

/-- The due events of a sorted list are its first ones. -/
theorem due_prefix (elapsed : ℕ) {events : List SchedulerEvent}
    (hsorted : events.Pairwise fun e f => e.timestampMsec ≤ f.timestampMsec) :
    due elapsed events <+: events := by
  induction events with
  | nil => exact List.prefix_rfl
  | cons event events ih =>
    obtain ⟨hfirst, hsorted⟩ := List.pairwise_cons.mp hsorted
    rcases Nat.lt_or_ge elapsed event.timestampMsec.toNat with hlate | hdue
    · rw [due_cons_of_lt hfirst hlate]
      exact List.nil_prefix
    · rw [due_cons_of_le events hdue]
      exact List.cons_prefix_cons.mpr ⟨rfl, ih hsorted⟩

/-- The loop executes the events of a sorted list that are due, and stops in front of the
terminating entry at the latest. -/
theorem executeFrom_append (elapsed : UInt32) {events : List SchedulerEvent}
    {terminator : SchedulerEvent} (beyond : List SchedulerEvent)
    (hevents : ∀ event ∈ events, event.type ≠ .eventEnd)
    (hterminator : terminator.type = .eventEnd)
    (hsorted : events.Pairwise fun e f => e.timestampMsec ≤ f.timestampMsec) (index : ℕ) :
    executeFrom elapsed (events ++ terminator :: beyond) index =
      some (due elapsed.toNat events, index + (due elapsed.toNat events).length) := by
  induction events generalizing index with
  | nil =>
    rw [List.nil_append, executeFrom, if_pos (Or.inl hterminator)]
    rfl
  | cons event events ih =>
    obtain ⟨hfirst, hsorted⟩ := List.pairwise_cons.mp hsorted
    rw [List.cons_append, executeFrom]
    rcases Nat.lt_or_ge elapsed.toNat event.timestampMsec.toNat with hlate | hdue
    · rw [if_pos (Or.inr (UInt32.lt_iff_toNat_lt.mpr hlate)), due_cons_of_lt hfirst hlate]
      rfl
    · have hnot : ¬(event.type = .eventEnd ∨ event.timestampMsec > elapsed) := by
        rintro (hend | hlate)
        · exact hevents event List.mem_cons_self hend
        · exact Nat.not_lt.mpr hdue (UInt32.lt_iff_toNat_lt.mp hlate)
      rw [if_neg hnot, ih (fun e he => hevents e (List.mem_cons_of_mem _ he)) hsorted,
        due_cons_of_le events hdue, Option.map_some, List.length_cons, Nat.add_assoc,
        Nat.add_comm 1]

/-! ### Runs -/

/-- What is done with a scheduler. -/
inductive Command where
  | clock (command : ClockCommand)
  | executePendingEvents
  deriving DecidableEq, Repr

/-- The operation resets the clock. -/
def ClockCommand.resets : ClockCommand → Bool
  | .start | .stop => false
  | .reset | .restart => true

/-- A scheduler on its timeline, and the events that were executed since the last reset. -/
structure Trace where
  timeline : Timeline
  executed : List SchedulerEvent
  deriving DecidableEq, Repr

/-- A scheduler after its construction, with a table. -/
def Trace.init (table : EventTable) : Trace := ⟨.init (some table), []⟩

/-- A command at a time, unless it reads beyond the table or time goes back. -/
def step (t : Trace) (c : Command × ℕ) : Option Trace :=
  match c.1 with
  | .clock command =>
    (clockStep t.timeline (command, c.2)).map fun timeline => {
      timeline := timeline
      executed := if command.resets then [] else t.executed }
  | .executePendingEvents =>
    if t.timeline.now ≤ c.2 then
      (t.timeline.scheduler.executePendingEvents (clockReading c.2)).map fun r => {
        timeline := ⟨r.2, c.2, t.timeline.stopwatchAt c.2⟩
        executed := t.executed ++ r.1 }
    else none

/-- The elapsed time at a command does not overflow. -/
def Timely (t : Trace) (c : Command × ℕ) : Prop := (t.timeline.stopwatchAt c.2).total < 2 ^ 32

instance (t : Trace) (c : Command × ℕ) : Decidable (Timely t c) := Nat.decLt ..

/-- The events that were executed are those before the next one in the table, and were due. -/
structure Executed (a : Agenda) (t : Trace) : Prop where
  keeps : t.timeline.scheduler.Keeps t.timeline.now t.timeline.stopwatch
  entries_eq : t.timeline.scheduler.events.map EventTable.events = some a.entries
  nextEventIndex_le : t.timeline.scheduler.nextEventIndex ≤ a.events.length
  executed_eq : t.executed = a.events.take t.timeline.scheduler.nextEventIndex
  timestampMsec_le : ∀ event ∈ t.executed,
    event.timestampMsec.toNat ≤ t.timeline.stopwatch.total

section

variable {a : Agenda} {t u : Trace} {time : ℕ}

theorem executed_init (a : Agenda) (address : ℕ) :
    Executed a (.init ⟨address, a.entries⟩) where
  keeps := keeps_init _
  entries_eq := rfl
  nextEventIndex_le := Nat.zero_le _
  executed_eq := rfl
  timestampMsec_le := nofun

/-- What an operation on the clock does to the table and the index. -/
theorem apply_events (s : Scheduler) (now : UInt32) (command : ClockCommand) :
    (s.apply now command).events = s.events ∧
      (s.apply now command).nextEventIndex = if command.resets then 0 else s.nextEventIndex := by
  have hstart : ∀ s : Scheduler, (s.start now).events = s.events ∧
      (s.start now).nextEventIndex = s.nextEventIndex := by
    intro s
    rw [start]
    split_ifs <;> exact ⟨rfl, rfl⟩
  cases command with
  | start => exact hstart s
  | stop =>
    cases hrunning : s.isClockRunning with
    | false | true =>
      rw [apply, stop, hrunning]
      exact ⟨rfl, rfl⟩
  | reset => exact ⟨rfl, rfl⟩
  | restart => exact hstart (s.reset now)

/-- The clock and the stopwatch are operated. -/
theorem Executed.clock (h : Executed a t) {command : ClockCommand}
    (hstep : step t (.clock command, time) = some u) : Executed a u := by
  obtain ⟨timeline, hclock, rfl⟩ := Option.map_eq_some_iff.mp hstep
  have hkeeps := h.keeps.clockStep hclock
  rw [clockStep, Option.ite_none_right_eq_some] at hclock
  obtain ⟨hevents, hindex⟩ := apply_events t.timeline.scheduler (clockReading time) command
  obtain rfl := Option.some.inj hclock.2
  have hentries := h.entries_eq
  rw [← hevents] at hentries
  cases hresets : command.resets with
  | true =>
    rw [hresets, if_pos rfl] at hindex
    refine ⟨hkeeps, hentries, ?_, ?_, fun event hevent => absurd hevent List.not_mem_nil⟩
    · exact hindex.trans_le (Nat.zero_le _)
    · exact (congrArg a.events.take hindex).symm
  | false =>
    rw [hresets, if_neg Bool.false_ne_true] at hindex
    refine ⟨hkeeps, hentries, hindex.trans_le h.nextEventIndex_le, ?_, fun event hevent => ?_⟩
    · exact h.executed_eq.trans (congrArg a.events.take hindex).symm
    · have htotal := Stopwatch.total_le_tick t.timeline.stopwatch (time - t.timeline.now)
      have happly : (command.applyTo (t.timeline.stopwatchAt time)).total =
          (t.timeline.stopwatchAt time).total := by
        cases command with
        | start | stop => rfl
        | reset | restart => exact absurd hresets.symm Bool.false_ne_true
      change _ ≤ (command.applyTo (t.timeline.stopwatchAt time)).total
      rw [happly]
      exact (h.timestampMsec_le event hevent).trans htotal

/-- A running scheduler executes the events that are due and were not executed before. -/
theorem Executed.executePendingEvents_eq (h : Executed a t) (htime : t.timeline.now ≤ time)
    (htimely : Timely t (.executePendingEvents, time))
    (hrunning : t.timeline.scheduler.isClockRunning = true) :
    ∃ events, t.executed ++ events = due (t.timeline.stopwatchAt time).total a.events ∧
      t.timeline.scheduler.executePendingEvents (clockReading time) =
        some (events, { t.timeline.scheduler with
          nextEventIndex := t.timeline.scheduler.nextEventIndex + events.length }) := by
  have hkeeps := h.keeps.stopwatchAt htime
  have helapsed : (t.timeline.scheduler.getElapsedTimeMsec (clockReading time) 0).toNat =
      (t.timeline.stopwatchAt time).total := by
    rw [hkeeps.getElapsedTimeMsec_eq, toNat_clockReading]
    exact Nat.mod_eq_of_lt htimely
  obtain ⟨table, htable, hentries⟩ := Option.map_eq_some_iff.mp h.entries_eq
  have hdrop : table.events.drop t.timeline.scheduler.nextEventIndex =
      a.events.drop t.timeline.scheduler.nextEventIndex ++ a.terminator :: a.beyond := by
    rw [hentries, Agenda.entries, List.drop_append_of_le_length h.nextEventIndex_le]
  have hsplit := due_append (t.timeline.stopwatchAt time).total
    (a.events.take t.timeline.scheduler.nextEventIndex)
    (a.events.drop t.timeline.scheduler.nextEventIndex)
  have hexecuted : due (t.timeline.stopwatchAt time).total t.executed = t.executed :=
    due_of_forall_le fun event hevent =>
      (h.timestampMsec_le event hevent).trans (Stopwatch.total_le_tick _ _)
  rw [List.take_append_drop, ← h.executed_eq, hexecuted] at hsplit
  refine ⟨_, hsplit.symm, ?_⟩
  rw [Scheduler.executePendingEvents, hrunning, htable]
  dsimp only
  rw [hdrop, executeFrom_append _ _ (fun e he => a.ne_eventEnd e (List.mem_of_mem_drop he))
    a.terminator_type (a.sorted.sublist (List.drop_sublist _ _)), helapsed, Option.map_some,
    hrunning, htable]

theorem Executed.executePendingEvents (h : Executed a t)
    (htimely : Timely t (.executePendingEvents, time))
    (hstep : step t (.executePendingEvents, time) = some u) : Executed a u := by
  rw [step, Option.ite_none_right_eq_some] at hstep
  obtain ⟨htime, hstep⟩ := hstep
  have hkeeps := h.keeps.stopwatchAt htime
  have htotal := Stopwatch.total_le_tick t.timeline.stopwatch (time - t.timeline.now)
  cases hrunning : t.timeline.scheduler.isClockRunning with
  | false =>
    have hnone : t.timeline.scheduler.executePendingEvents (clockReading time) =
        some ([], t.timeline.scheduler) := by
      rw [Scheduler.executePendingEvents, hrunning]
    rw [hnone] at hstep
    obtain rfl := Option.some.inj hstep
    refine ⟨hkeeps, h.entries_eq, h.nextEventIndex_le, ?_, fun event hevent => ?_⟩
    · exact (List.append_nil _).trans h.executed_eq
    · dsimp only at hevent
      rw [List.append_nil] at hevent
      exact (h.timestampMsec_le event hevent).trans htotal
  | true =>
    obtain ⟨events, happend, hexecute⟩ := h.executePendingEvents_eq htime htimely hrunning
    rw [hexecute] at hstep
    obtain rfl := Option.some.inj hstep
    have hfirst := due_prefix (t.timeline.stopwatchAt time).total a.sorted
    rw [← happend] at hfirst
    have hlength : (t.executed ++ events).length =
        t.timeline.scheduler.nextEventIndex + events.length := by
      rw [List.length_append, h.executed_eq, List.length_take,
        Nat.min_eq_left h.nextEventIndex_le]
    refine ⟨⟨hkeeps.isClockRunning_eq, hkeeps.represents⟩, h.entries_eq, ?_, ?_, ?_⟩
    · exact hlength.symm.trans_le hfirst.length_le
    · exact (List.prefix_iff_eq_take.mp hfirst).trans (congrArg a.events.take hlength)
    · intro event hevent
      dsimp only at hevent
      rw [happend] at hevent
      exact of_decide_eq_true (List.mem_filter.mp hevent).2

/-- A command keeps the invariant. -/
theorem Executed.step (h : Executed a t) {c : Command × ℕ} (htimely : Timely t c)
    (hstep : Scheduler.step t c = some u) : Executed a u := by
  obtain ⟨command, time⟩ := c
  cases command with
  | clock command => exact h.clock hstep
  | executePendingEvents => exact h.executePendingEvents htimely hstep

end

/-- **The events are executed in order, once each and not early.** At every moment the events that
were executed since the last reset are the first ones of the table, and the clock of the scheduler
has reached their timestamps. The pending events can always be executed without reading beyond the
terminating entry, and if the clock runs, all events that are due have been executed then. -/
theorem executed_run (a : Agenda) (address : ℕ) (commands : List (Command × ℕ)) (t : Trace)
    (hrun : run step (.init ⟨address, a.entries⟩) commands = some t)
    (htimely : Meets step Timely (.init ⟨address, a.entries⟩) commands) (time : ℕ)
    (htime : t.timeline.now ≤ time) (hshort : (t.timeline.stopwatchAt time).total < 2 ^ 32) :
    t.executed <+: a.events ∧
      (∀ event ∈ t.executed, event.timestampMsec.toNat ≤ t.timeline.stopwatch.total) ∧
      ∃ u, step t (.executePendingEvents, time) = some u ∧
        (t.timeline.scheduler.isClockRunning = true →
          u.executed = due (t.timeline.stopwatchAt time).total a.events) := by
  have hexecuted : Executed a t :=
    StepSystem.invariant_visits (fun _ _ _ h hok hstep => Executed.step h hok hstep)
      (executed_init a address) htimely (StepSystem.visits_of_run hrun)
  refine ⟨?_, hexecuted.timestampMsec_le, ?_⟩
  · rw [hexecuted.executed_eq]
    exact List.take_prefix _ _
  · rw [step, if_pos htime]
    cases hrunning : t.timeline.scheduler.isClockRunning with
    | false =>
      rw [executePendingEvents, hrunning]
      exact ⟨_, rfl, nofun⟩
    | true =>
      obtain ⟨events, happend, hexecute⟩ := hexecuted.executePendingEvents_eq htime hshort hrunning
      rw [hexecute]
      exact ⟨_, rfl, fun _ => happend⟩

/-- The table of the liftoff scheduler. -/
def liftoffAgenda : Agenda :=
  ⟨eventsRelativeToLiftoff.take 1, noMoreEvents, [], by decide, rfl, by decide⟩

/-- The event of that table is executed after a restart, and not again without one. -/
theorem executed_liftoff :
    ∃ t u, run step (.init ⟨3, liftoffAgenda.entries⟩) [(.clock .restart, 5000),
        (.executePendingEvents, 5010), (.clock .stop, 5020), (.clock .start, 6000)] = some t ∧
      t.executed <+: liftoffAgenda.events ∧ step t (.executePendingEvents, 6010) = some u ∧
      u.executed = [⟨0, .eventSetTelemetryLevel, 0, 0⟩] := by
  obtain ⟨hfirst, -, u, hu, hdue⟩ := executed_run liftoffAgenda 3 [(.clock .restart, 5000),
    (.executePendingEvents, 5010), (.clock .stop, 5020), (.clock .start, 6000)] _ rfl
    (.cons (by decide) rfl <| .cons (by decide) rfl <| .cons (by decide) rfl <|
      .cons (by decide) rfl trivial) 6010 (by decide) (by decide)
  exact ⟨_, u, rfl, hfirst, hu, hdue rfl⟩

end Scheduler

end TellerOBC
