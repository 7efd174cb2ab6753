import TellerOBC.Hal.EventFlagWaits
import TellerOBC.Storage.Filesystems

/-!
# Waiting for a mount

`waitUntilMounted` and `waitUntilUnmounted` of `FilesystemState` in `modules/storage.cpp`, with the
calls of `ensureMounted` and `ensureUnmounted` that they wait for. The task that records to a
storage area (`edr::manage`) is the only one that waits for it. Any task can mount and unmount.

A waiting task looks at the flag of the file system and then waits for the event. A call that mounts
changes the flag and then sets the event, and other tasks can come between. An event that nobody
waited for stays set, and the next wait returns at once and looks at the flag again.

## Main definitions

* `TellerOBC.MountWaits`, `TellerOBC.MountWaits.step`: a file system, its events, the calls in
  progress and the task that waits.

## Main results

* `TellerOBC.MountWaits.mounts_run`: no mount is missed, and the waiting task goes on for each
  change of the flag at most once.
-/

namespace TellerOBC

/-- `EVT_MOUNTED` and `EVT_UNMOUNTED`. -/
def mountEvent (mounted : Bool) : UInt32 := if mounted then 1 else 2

/-- Where the waiting task is. The Boolean is the value of `isMounted` that it waits for:
`waitUntilMounted` waits for `true` and `waitUntilUnmounted` for `false`. -/
inductive MountWaiter where
  | idle
  /-- At the condition of the loop. -/
  | looking (mounted : Bool)
  /-- It has found the other value and will call `waitAny`. -/
  | missed (mounted : Bool)
  /-- In `waitAny`. -/
  | waiting (mounted : Bool)
  deriving DecidableEq, Repr

/-- A file system with its events, the calls in progress and the task that waits. -/
structure MountWaits where
  mounted : Bool := false
  events : EventFlagThreads := {}
  waiter : MountWaiter := .idle
  /-- The calls that have found the other value of `isMounted` and call littlefs, each with the
  value that it wants. -/
  calling : List Bool := []
  /-- The calls that have changed the flag and will set the event. -/
  setting : List Bool := []
  /-- The changes of the flag so far. -/
  changes : List Bool := []

/-- The steps. -/
inductive MountAction where
  /-- `ensureMounted` or `ensureUnmounted`. -/
  | ensure (mounted : Bool)
  /-- The call of littlefs ends, with an error or not. -/
  | ends (i : ℕ) (ok : Bool)
  /-- The event is set. -/
  | setEvent (i : ℕ)
  /-- The recording task calls `waitUntilMounted` or `waitUntilUnmounted`. -/
  | waitUntil (mounted : Bool)
  | look
  | waitAny
  /-- The task was woken and gets the mutex of the events. -/
  | resume
  /-- The wait ends without a notification. -/
  | wake
  deriving DecidableEq, Repr

namespace MountWaits

open StepSystem EventFlagThreads

variable (s : MountWaits)

/-- The call that the waiting task makes. -/
def waitCall (mounted : Bool) : FlagWait := .any (mountEvent mounted)

/-- The task after it looked at the events, in `waitAny`. -/
def afterLook (mounted : Bool) (events : EventFlagThreads) : MountWaits :=
  { s with
    events := events
    waiter := if events.changedEvent.waiters.isEmpty then .looking mounted else .waiting mounted }

/-- The steps. -/
def step (s : MountWaits) : MountAction → Option MountWaits
  | .ensure mounted =>
    -- a file system that is not configured or has errors is left as it is, too
    some (if s.mounted = mounted then s else { s with calling := s.calling ++ [mounted] })
  | .ends i ok =>
    s.calling[i]?.map fun mounted =>
      if ok then
        { s with
          mounted := mounted
          calling := s.calling.eraseIdx i
          setting := s.setting ++ [mounted]
          changes := s.changes ++ [mounted] }
      else { s with calling := s.calling.eraseIdx i }
  | .setEvent i =>
    s.setting[i]?.bind fun mounted =>
      (s.events.step (.set (mountEvent mounted))).map fun events =>
        { s with events := events, setting := s.setting.eraseIdx i }
  | .waitUntil mounted =>
    if s.waiter = .idle then some { s with waiter := .looking mounted } else none
  | .look =>
    match s.waiter with
    | .looking mounted =>
      -- `while (!isMounted())` and `while (isMounted())`
      some { s with waiter := if s.mounted = mounted then .idle else .missed mounted }
    | _ => none
  | .waitAny =>
    match s.waiter with
    | .missed mounted => (s.events.step (.wait (waitCall mounted))).map (s.afterLook mounted)
    | _ => none
  | .resume =>
    match s.waiter with
    | .waiting mounted => (s.events.step (.resume 0)).map (s.afterLook mounted)
    | _ => none
  | .wake =>
    match s.waiter with
    | .waiting _ => (s.events.step (.wake 0)).map fun events => { s with events := events }
    | _ => none

/-! ### The events -/

/-- The bit of an event. -/
def mountBit (mounted : Bool) : ℕ := if mounted then 0 else 1

theorem mountBit_injective {m m' : Bool} (h : mountBit m = mountBit m') : m = m' := by
  revert m m'
  decide

theorem hasFlag_mountEvent (m : Bool) (b : ℕ) :
    hasFlag b (mountEvent m) = true ↔ b = mountBit m := by
  rcases Nat.lt_or_ge b 32 with hlt | hge
  · revert b m
    decide
  · refine iff_of_false (fun h => ?_) (fun h => ?_)
    · exact absurd (BitVec.lt_of_getLsbD h) (Nat.not_lt.mpr hge)
    · rw [h] at hge
      exact absurd hge (by cases m <;> decide)

theorem checkValidFlags_mountEvent (m : Bool) :
    EventFlags.checkValidFlags (mountEvent m) = true := by
  cases m <;> decide

theorem met_waitCall_iff {m : Bool} {current : UInt32} :
    (waitCall m).met current = true ↔ hasFlag (mountBit m) current = true := by
  rw [waitCall, met_any_iff]
  constructor
  · rintro ⟨b, hb, hcurrent⟩
    rwa [(hasFlag_mountEvent m b).mp hb] at hcurrent
  · exact fun h => ⟨_, (hasFlag_mountEvent m _).mpr rfl, h⟩

/-- The calls in `waitAny`. -/
def waiterCalls : MountWaiter → List FlagWait
  | .waiting m => [waitCall m]
  | _ => []

/-- How often the task returned from `waitAny`. -/
def passes (m : Bool) : ℕ := s.events.finished.countP fun result => result.1 = waitCall m

/-- If the flag has the value that the task waits for, then its event is set or will be; and each
time that an event was raised the flag had changed. -/
structure Sound (s : MountWaits) : Prop where
  events : s.events.Sound
  waiters : s.events.changedEvent.waiters = waiterCalls s.waiter
  owed : ∀ m, s.waiter = .missed m ∨ s.waiter = .waiting m → s.mounted = m →
    hasFlag (mountBit m) s.events.current = true ∨ m ∈ s.setting
  raised_le : ∀ m, countFlag (mountBit m) s.events.raised + s.setting.count m ≤ s.changes.count m

variable {s} {t : MountWaits} {m : Bool}

theorem eq_of_perm_waiterCalls {waiter : MountWaiter} {calls : List FlagWait}
    (h : calls.Perm (waiterCalls waiter)) : calls = waiterCalls waiter := by
  cases waiter with
  | waiting m => exact List.perm_singleton.mp h
  | idle | looking m | missed m => exact List.perm_nil.mp h

theorem sound_start : Sound {} where
  events := EventFlagThreads.sound_start
  waiters := rfl
  owed _ h := by rcases h with h | h <;> cases h
  raised_le _ := Nat.le_refl _

/-- The task takes the event if it is set. -/
theorem afterLook_of_met (events : EventFlagThreads) (hnone : events.changedEvent.waiters = [])
    (hmet : (waitCall m).met events.current = true) :
    (events.look (waitCall m)).changedEvent.waiters = [] ∧
      (s.afterLook m (events.look (waitCall m))).waiter = .looking m := by
  rw [look_of_met events hmet, afterLook]
  refine ⟨hnone, ?_⟩
  simp only [hnone, List.isEmpty_nil, if_true]

/-- The task waits if the event is not set. -/
theorem afterLook_of_not_met {events : EventFlagThreads}
    (hnone : events.changedEvent.waiters = [])
    (hmet : ¬(waitCall m).met events.current = true) :
    (events.look (waitCall m)).changedEvent.waiters = [waitCall m] ∧
      (s.afterLook m (events.look (waitCall m))).waiter = .waiting m := by
  have hperm := CondVar.perm_wait events.changedEvent (waitCall m)
  rw [hnone] at hperm
  rw [look_of_not_met events hmet, afterLook]
  refine ⟨List.perm_singleton.mp hperm, ?_⟩
  simp only [List.perm_singleton.mp hperm, List.isEmpty_cons, Bool.false_eq_true, if_false]

namespace Sound

/-- The task looks at the events, in `waitAny`. -/
theorem afterLook (h : Sound s) (hwaiter : s.waiter = .missed m ∨ s.waiter = .waiting m)
    {events : EventFlagThreads} (hevents : events.Sound)
    (hnone : events.changedEvent.waiters = []) (hcurrent : events.current = s.events.current)
    (hraised : events.raised = s.events.raised) :
    Sound (s.afterLook m (events.look (waitCall m))) := by
  by_cases hmet : (waitCall m).met events.current = true
  · obtain ⟨hwaiters, hlooking⟩ := afterLook_of_met (s := s) events hnone hmet
    refine ⟨hevents.look _, hwaiters.trans (by rw [hlooking]; rfl), fun m' hm' => ?_, fun m' => ?_⟩
    · rw [hlooking] at hm'
      rcases hm' with hm' | hm' <;> cases hm'
    · rw [MountWaits.afterLook, look_of_met events hmet, hraised]
      exact h.raised_le m'
  · obtain ⟨hwaiters, hwaiting⟩ := afterLook_of_not_met (s := s) hnone hmet
    refine ⟨hevents.look _, hwaiters.trans (by rw [hwaiting]; rfl), fun m' hm' hmounted => ?_,
      fun m' => ?_⟩
    · rw [hwaiting] at hm'
      obtain rfl : m = m' := by rcases hm' with hm' | hm' <;> cases hm'; rfl
      rw [MountWaits.afterLook, look_of_not_met events hmet, hcurrent]
      exact h.owed m hwaiter hmounted
    · rw [MountWaits.afterLook, look_of_not_met events hmet, hraised]
      exact h.raised_le m'

theorem ends (h : Sound s) {i : ℕ} {ok : Bool} (hstep : s.step (.ends i ok) = some t) :
    Sound t := by
  obtain ⟨m, -, rfl⟩ := Option.map_eq_some_iff.mp hstep
  split_ifs
  · refine ⟨h.events, h.waiters, fun m' _ hm' => Or.inr ?_, fun m' => ?_⟩
    · rw [← (show m = m' from hm')]
      exact List.mem_append_right _ (List.mem_singleton_self m)
    · simp only [List.count_append, ← Nat.add_assoc]
      exact Nat.add_le_add_right (h.raised_le m') _
  · exact ⟨h.events, h.waiters, h.owed, h.raised_le⟩

theorem setEvent (h : Sound s) {i : ℕ} (hstep : s.step (.setEvent i) = some t) : Sound t := by
  obtain ⟨m, hi, hstep⟩ := Option.bind_eq_some_iff.mp hstep
  obtain ⟨events, hset, rfl⟩ := Option.map_eq_some_iff.mp hstep
  obtain ⟨hlt, rfl⟩ := List.getElem?_eq_some_iff.mp hi
  have hsound := h.events.step _ hset
  obtain rfl := Option.some.inj hset
  have hperm := List.getElem_cons_eraseIdx_perm hlt
  generalize hm : s.setting[i] = m at hsound hperm ⊢
  have hset : (EventFlags.set s.events.current (mountEvent m)).2 =
      s.events.current ||| mountEvent m := by
    rw [EventFlags.set, checkValidFlags_mountEvent]
    rfl
  rw [hset] at hsound ⊢
  refine ⟨hsound, ?_, fun m' hm' hmounted => ?_, fun m' => ?_⟩
  · refine eq_of_perm_waiterCalls ((perm_change _ _).trans ?_)
    rw [h.waiters]
  · rw [change, hasFlag_or, Bool.or_eq_true]
    rcases h.owed m' hm' hmounted with hbit | hmem
    · exact Or.inl (Or.inl hbit)
    · rcases List.mem_cons.mp (hperm.mem_iff.mpr hmem) with rfl | hrest
      · exact Or.inl (Or.inr ((hasFlag_mountEvent m' _).mpr rfl))
      · exact Or.inr hrest
  · have hle := h.raised_le m'
    rw [← hperm.count_eq m', List.count_cons] at hle
    refine Nat.le_trans ?_ hle
    rw [countFlag_concat, Nat.add_assoc, Nat.add_comm (List.count _ _)]
    refine Nat.add_le_add_left (Nat.add_le_add_right ?_ _) _
    -- the event was raised only if it is the one of this call
    rw [hasFlag_and_not, hasFlag_or]
    cases hflag : hasFlag (mountBit m') (mountEvent m) with
    | false => cases hasFlag (mountBit m') s.events.current <;> exact Nat.zero_le _
    | true =>
      obtain rfl := mountBit_injective ((hasFlag_mountEvent m _).mp hflag)
      rw [beq_self_eq_true, if_pos rfl]
      exact Bool.toNat_le _

/-- The call of the waiting task is the only one. -/
theorem resume_waiting (h : Sound s) (hwaiting : s.waiter = .waiting m) {call : FlagWait}
    {event : CondVar FlagWait} (hresume : s.events.changedEvent.resume 0 = some (call, event)) :
    call = waitCall m ∧ event.waiters = [] := by
  have hperm := CondVar.perm_of_resume hresume
  rw [h.waiters, hwaiting] at hperm
  have hcons : call :: event.waiters = [waitCall m] := List.perm_singleton.mp hperm.symm
  rwa [List.cons.injEq] at hcons

theorem step (h : Sound s) (a : MountAction) (hstep : s.step a = some t) : Sound t := by
  cases a with
  | ensure m =>
    obtain rfl := Option.some.inj hstep
    split_ifs
    · exact h
    · exact ⟨h.events, h.waiters, h.owed, h.raised_le⟩
  | ends i ok => exact h.ends hstep
  | setEvent i => exact h.setEvent hstep
  | waitUntil m =>
    rw [MountWaits.step, Option.ite_none_right_eq_some, Option.some.injEq] at hstep
    obtain ⟨hidle, rfl⟩ := hstep
    refine ⟨h.events, ?_, fun m' hm' => ?_, h.raised_le⟩
    · rw [h.waiters, hidle]
      rfl
    · rcases hm' with hm' | hm' <;> cases hm'
  | look =>
    rw [MountWaits.step] at hstep
    split at hstep
    · rename_i m hlooking
      obtain rfl := Option.some.inj hstep
      have hwaiters := h.waiters
      rw [hlooking] at hwaiters
      split_ifs with hmounted
      · refine ⟨h.events, hwaiters, fun m' hm' => ?_, h.raised_le⟩
        rcases hm' with hm' | hm' <;> cases hm'
      · refine ⟨h.events, hwaiters, fun m' hm' hsame => ?_, h.raised_le⟩
        obtain rfl : m = m' := by rcases hm' with hm' | hm' <;> cases hm'; rfl
        exact absurd hsame hmounted
    · cases hstep
  | waitAny =>
    rw [MountWaits.step] at hstep
    split at hstep
    · rename_i m hmissed
      obtain ⟨events, hwait, rfl⟩ := Option.map_eq_some_iff.mp hstep
      rw [EventFlagThreads.step, waitCall, FlagWait.flags, checkValidFlags_mountEvent] at hwait
      obtain rfl := Option.some.inj hwait
      have hwaiters := h.waiters
      rw [hmissed] at hwaiters
      exact h.afterLook (Or.inl hmissed) h.events hwaiters rfl rfl
    · cases hstep
  | resume =>
    rw [MountWaits.step] at hstep
    split at hstep
    · rename_i m hwaiting
      obtain ⟨events, hresumed, rfl⟩ := Option.map_eq_some_iff.mp hstep
      obtain ⟨⟨call, event⟩, hresume, rfl⟩ := Option.map_eq_some_iff.mp hresumed
      obtain ⟨rfl, hnone⟩ := h.resume_waiting hwaiting hresume
      have hevents : EventFlagThreads.Sound { s.events with changedEvent := event } :=
        ⟨h.events.blocked.resume hresume, h.events.met, h.events.counted⟩
      exact h.afterLook (Or.inr hwaiting) hevents hnone rfl rfl
    · cases hstep
  | wake =>
    rw [MountWaits.step] at hstep
    split at hstep
    · obtain ⟨events, hwake, rfl⟩ := Option.map_eq_some_iff.mp hstep
      have hevents := h.events.step _ hwake
      obtain ⟨event, hevent, rfl⟩ := Option.map_eq_some_iff.mp hwake
      refine ⟨hevents, eq_of_perm_waiterCalls ?_, h.owed, h.raised_le⟩
      exact (CondVar.perm_of_wake hevent).trans (by rw [h.waiters])
    · cases hstep

/-- Each return from `waitAny` took an event that was raised. -/
theorem passes_le (h : Sound s) (m : Bool) : s.passes m ≤ s.changes.count m := by
  have htaken : s.passes m ≤ countFlag (mountBit m) (s.events.finished.map taken) := by
    rw [passes, countFlag, List.countP_map]
    refine List.countP_mono_left fun result hresult hcall => ?_
    have hmet := h.events.met result hresult
    rw [of_decide_eq_true hcall, met_waitCall_iff] at hmet
    rw [Function.comp_apply, taken, of_decide_eq_true hcall, hasFlag_and, hmet, Bool.true_and]
    exact (hasFlag_mountEvent m _).mpr rfl
  have hcounted := h.events.counted (mountBit m)
  have hle := h.raised_le m
  omega

/-- The task does not sleep on if the event is set. -/
theorem woken_of_owed (h : Sound s) (hwaiting : s.waiter = .waiting m)
    (hbit : hasFlag (mountBit m) s.events.current = true) :
    s.events.changedEvent.sleeping = [] ∧ s.events.changedEvent.woken = [waitCall m] := by
  have hwaiters := h.waiters
  rw [hwaiting] at hwaiters
  rcases List.append_eq_singleton_iff.mp hwaiters with hwoken | ⟨hsleeping, -⟩
  · exact hwoken
  · refine absurd (met_waitCall_iff.mpr hbit) (h.events.blocked (waitCall m) ?_)
    rw [hsleeping]
    exact List.mem_singleton_self _

end Sound

/-- The task waits until `isMounted` has the value `m`. -/
def Wants (s : MountWaits) (m : Bool) : Prop :=
  s.waiter = .looking m ∨ s.waiter = .missed m ∨ s.waiter = .waiting m

theorem step_waitAny (hmissed : s.waiter = .missed m) :
    s.step .waitAny = some (s.afterLook m (s.events.look (waitCall m))) := by
  rw [step, hmissed]
  simp only [EventFlagThreads.step, waitCall, FlagWait.flags, checkValidFlags_mountEvent,
    Bool.not_true, Bool.false_eq_true, if_false, Option.map_some]

theorem step_resume (hwaiting : s.waiter = .waiting m)
    (hwoken : s.events.changedEvent.woken = [waitCall m]) :
    s.step .resume = some (s.afterLook m (EventFlagThreads.look { s.events with
      changedEvent := { s.events.changedEvent with woken := [] } } (waitCall m))) := by
  rw [step, hwaiting]
  simp only [EventFlagThreads.step, CondVar.resume, hwoken, List.getElem?_cons_zero,
    Option.map_some, List.eraseIdx_cons_zero]

/-- The task goes on where it takes the event. -/
theorem exists_run_of_looking (hlooking : s.waiter = .looking m) (hmounted : s.mounted = m) :
    ∃ t, run step s [.look] = some t ∧ t.waiter = .idle := by
  refine ⟨{ s with waiter := .idle }, ?_, rfl⟩
  simp only [run_cons, step, hlooking, hmounted, if_true, Option.bind_some, run_nil]

theorem sound_run {actions : List MountAction} (hrun : run step {} actions = some s) : Sound s :=
  invariant_visits_of_step (fun _ a _ h hstep => h.step a hstep) sound_start (visits_of_run hrun)

/-- **No mount is missed**, however the calls interleave. If the file system is mounted or not as
the task wants it, and no call is about to set the event, then the task returns after at most two
steps of its own. It goes on for each change of the flag at most once. -/
theorem mounts_run {actions : List MountAction} (hrun : run step {} actions = some s) (m : Bool) :
    (s.Wants m → s.mounted = m → m ∉ s.setting →
      ∃ own t, own.length ≤ 2 ∧ (∀ a ∈ own, a = .look ∨ a = .waitAny ∨ a = .resume) ∧
        run step s own = some t ∧ t.waiter = .idle) ∧
    s.passes m ≤ s.changes.count m := by
  have h := sound_run hrun
  refine ⟨fun hwants hmounted hsetting => ?_, h.passes_le m⟩
  rcases hwants with hlooking | hmissed | hwaiting
  · obtain ⟨t, ht, hidle⟩ := exists_run_of_looking hlooking hmounted
    exact ⟨[.look], t, by decide, by decide, ht, hidle⟩
  · have hbit := (h.owed m (Or.inl hmissed) hmounted).resolve_right hsetting
    have hwaiters := h.waiters
    rw [hmissed] at hwaiters
    obtain ⟨-, hlooking⟩ := afterLook_of_met (s := s) _ hwaiters (met_waitCall_iff.mpr hbit)
    obtain ⟨t, ht, hidle⟩ := exists_run_of_looking hlooking hmounted
    refine ⟨[.waitAny, .look], t, by decide, by decide, ?_, hidle⟩
    rwa [run_cons, step_waitAny hmissed]
  · have hbit := (h.owed m (Or.inr hwaiting) hmounted).resolve_right hsetting
    obtain ⟨hsleeping, hwoken⟩ := h.woken_of_owed hwaiting hbit
    have hnone : ({ s.events.changedEvent with woken := [] } : CondVar FlagWait).waiters = [] := by
      rw [CondVar.waiters, hsleeping, List.append_nil]
    have hmet : (waitCall m).met s.events.current = true := met_waitCall_iff.mpr hbit
    obtain ⟨-, hlooking⟩ := afterLook_of_met (s := s)
      { s.events with changedEvent := { s.events.changedEvent with woken := [] } } hnone hmet
    obtain ⟨t, ht, hidle⟩ := exists_run_of_looking hlooking hmounted
    refine ⟨[.resume, .look], t, by decide, by decide, ?_, hidle⟩
    rwa [run_cons, step_resume hwaiting hwoken]

/-- The task looks before the mount, and the event is set when it sleeps. -/
theorem mounts_of_late_event :
    ∃ s, run step {} [.waitUntil true, .look, .ensure true, .waitAny, .ends 0 true, .setEvent 0] =
        some s ∧ s.waiter = .waiting true ∧
      (∃ own t, own.length ≤ 2 ∧ run step s own = some t ∧ t.waiter = .idle) ∧
      s.passes true ≤ 1 := by
  obtain ⟨s, hrun, hwaiting, hmounted, hsetting, hchanges⟩ : ∃ s : MountWaits,
      run step {} [.waitUntil true, .look, .ensure true, .waitAny, .ends 0 true, .setEvent 0] =
        some s ∧ s.waiter = .waiting true ∧ s.mounted = true ∧ s.setting = [] ∧
        s.changes = [true] :=
    ⟨_, rfl, rfl, rfl, rfl, rfl⟩
  obtain ⟨hreturns, hpasses⟩ := mounts_run hrun true
  obtain ⟨own, t, hlength, -, hown, hidle⟩ :=
    hreturns (Or.inr (Or.inr hwaiting)) hmounted (by rw [hsetting]; exact List.not_mem_nil)
  rw [hchanges] at hpasses
  exact ⟨s, hrun, hwaiting, ⟨own, t, hlength, hown, hidle⟩, hpasses⟩

end MountWaits

end TellerOBC
