import Mathlib.Data.List.FinRange
import Mathlib.Data.UInt
import TellerOBC.Foundations.StepSystem

/-!
# The tasks under supervision

`TaskRegistration` and `checkTasks` of `modules/supervisor.cpp`. A registration owns a slot of a
table, through its token, while it is alive. A task nudges the supervisor in each of its
iterations. Once in an interval the supervisor judges an enabled task: it compares the number of
nudges with the limits of the task, and starts to count again.

The countdown to the next judgement has eight bits and the count of nudges sixteen. The countdown
stays between one and the interval, so that it does not wrap. The registrations that are alive also
record how many nudges they received since the last judgement, disabling or registration, which the
program does not do.

The text of the log messages is left out, and so is the timestamp, which the check does not use.

## Main definitions

* `TellerOBC.Supervisor.registerTask`, `unregisterTask`, `disableTask`, `nudgeTask`, `inSeconds`,
  `expect`, `checkTasks`.
* `TellerOBC.Supervisor.TaskRegistry`, `TellerOBC.Supervisor.TaskRegistry.step`: the table with the
  registrations that are alive.
* `TellerOBC.Supervisor.TaskRegistry.Supervised`: what the supervision is for.

## Main results

* `TellerOBC.Supervisor.TaskRegistry.Sound.step`: the invariant.
* `TellerOBC.Supervisor.TaskRegistry.supervised_run`: every run supervises its tasks.
-/

namespace TellerOBC.Supervisor

/-! ### The table -/

/-- `MAX_TASKS`. -/
def maxTasks : ℕ := 32

/-- `INVALID_TOKEN` for tasks. -/
def invalidTaskToken : UInt8 := 255

/-- `UNLIMITED_NUDGES`. -/
def unlimitedNudges : UInt16 := 65535

/-- A slot: `task_stats_t`. A null name is `none`. -/
structure TaskStats where
  name : Option String
  enabled : Bool
  intervalSec : UInt8
  minNudges : UInt16
  maxNudges : UInt16
  nudges : UInt16
  timeUntilNextCheckSec : UInt8
  deriving DecidableEq, Repr

/-- `task_stats`. -/
abbrev TaskTable := Vector TaskStats maxTasks

/-- What a judgement finds, which the log tells. -/
inductive Verdict where
  | healthy
  | stalled
  | tooSlow
  | tooFast
  deriving DecidableEq, Repr

/-- The minimum that `expect` stores. On POSIX it is `min * 0.8`, truncated. -/
def storedMin (posix : Bool) (min : UInt16) : UInt16 :=
  if posix then UInt16.ofNat (min.toNat * 4 / 5) else min

namespace TaskStats

/-- A slot of zeros. -/
def free : TaskStats := ⟨none, false, 0, 0, 0, 0, 0⟩

variable (stats : TaskStats)

/-- `isTaskEnabled`. -/
def isTaskEnabled : Bool := stats.enabled

/-- `isTaskValid`. -/
def isTaskValid : Bool := stats.name.isSome && 0 < stats.intervalSec

/-- What `registerTask` writes into a slot. -/
def register (name : String) : TaskStats :=
  { stats with
    name := some name
    intervalSec := 1
    timeUntilNextCheckSec := 1
    minNudges := 0
    maxNudges := unlimitedNudges }

/-- What `disableTask` writes into a slot. -/
def disable : TaskStats := { stats with nudges := 0, enabled := false }

/-- What `nudgeTask` writes into a slot. -/
def nudge : TaskStats := { stats with nudges := stats.nudges + 1, enabled := true }

/-- What `inSeconds` writes into a slot. -/
def inSeconds (intervalSec : UInt8) : TaskStats :=
  if 1 ≤ intervalSec then
    { stats with
      intervalSec := intervalSec
      timeUntilNextCheckSec :=
        if intervalSec < stats.timeUntilNextCheckSec then intervalSec
        else stats.timeUntilNextCheckSec }
  else stats

/-- What `expect` writes into a slot. -/
def expect (posix : Bool) (min max : UInt16) : TaskStats :=
  { stats with minNudges := storedMin posix min, maxNudges := max }

/-- The comparisons of `checkTasks`. -/
def judge : Verdict :=
  if stats.nudges = 0 ∧ 0 < stats.minNudges then .stalled
  else if stats.nudges < stats.minNudges then .tooSlow
  else if stats.maxNudges < unlimitedNudges ∧ stats.maxNudges < stats.nudges then .tooFast
  else .healthy

/-- One slot in `checkTasks`: the verdict if its task is judged, and the new slot. -/
def check : Option Verdict × TaskStats :=
  if !stats.isTaskValid || !stats.isTaskEnabled then (none, stats)
  else
    let time := stats.timeUntilNextCheckSec - 1
    if time ≠ 0 then (none, { stats with timeUntilNextCheckSec := time })
    else (some stats.judge,
      { stats with timeUntilNextCheckSec := stats.intervalSec, nudges := 0 })

/-- The next check judges the task of the slot. -/
def judged : Bool := stats.check.1.isSome

end TaskStats

/-- `getTaskFromToken`: the index of the slot. -/
def getTaskFromToken (token : UInt8) : Option (Fin maxTasks) :=
  if h : token.toNat < maxTasks then some ⟨token.toNat, h⟩ else none

/-- Change the slot of a token, if it has one. -/
def updateTask (table : TaskTable) (token : UInt8) (f : TaskStats → TaskStats) : TaskTable :=
  match getTaskFromToken token with
  | some i => table.set i (f table[i])
  | none => table

/-- `registerTask`: the token, and the new table. -/
def registerTask (table : TaskTable) : Option String → UInt8 × TaskTable
  | some name =>
    match (List.finRange maxTasks).find? fun i => !table[i].isTaskValid with
    | some i => (UInt8.ofNat i, table.set i (table[i].register name))
    | none => (invalidTaskToken, table)
  | none => (invalidTaskToken, table)

/-- `unregisterTask`. -/
def unregisterTask (table : TaskTable) (token : UInt8) : TaskTable :=
  updateTask table token fun _ => .free

/-- `disableTask`. -/
def disableTask (table : TaskTable) (token : UInt8) : TaskTable :=
  updateTask table token .disable

/-- `nudgeTask`. -/
def nudgeTask (table : TaskTable) (token : UInt8) : TaskTable :=
  updateTask table token .nudge

/-- `TaskRegistration::inSeconds`. -/
def inSeconds (table : TaskTable) (token : UInt8) (intervalSec : UInt8) : TaskTable :=
  updateTask table token fun stats => stats.inSeconds intervalSec

/-- `TaskRegistration::expect`. -/
def expect (posix : Bool) (table : TaskTable) (token : UInt8) (min max : UInt16) : TaskTable :=
  updateTask table token fun stats => stats.expect posix min max

/-- `checkTasks`: the result, and the new table. -/
def checkTasks (table : TaskTable) : Bool × TaskTable :=
  (table.all fun stats => stats.check.1.all (· = .healthy), table.map fun stats => stats.check.2)

/-! ### Slots -/

namespace TaskStats

variable (stats : TaskStats)

/-- A judged task is healthy exactly if its nudges are within its limits. -/
theorem judge_ne_healthy_iff :
    stats.judge ≠ .healthy ↔ stats.nudges < stats.minNudges ∨ stats.maxNudges < stats.nudges := by
  have hlimit := stats.nudges.toNat_lt
  simp only [judge, unlimitedNudges, UInt16.lt_iff_toNat_lt, ← UInt16.toNat_inj, UInt16.reduceToNat]
  split_ifs with h₁ h₂ h₃
  · exact iff_of_true nofun (Or.inl (by omega))
  · exact iff_of_true nofun (Or.inl h₂)
  · exact iff_of_true nofun (Or.inr h₃.2)
  · refine iff_of_false (fun h => h rfl) ?_
    omega

/-- A task is judged when it is enabled and its countdown ends. -/
theorem judged_iff : stats.judged = true ↔
    stats.isTaskValid = true ∧ stats.isTaskEnabled = true ∧ stats.timeUntilNextCheckSec = 1 := by
  have htime : stats.timeUntilNextCheckSec - 1 = 0 ↔ stats.timeUntilNextCheckSec = 1 :=
    sub_eq_zero
  rw [judged, check]
  cases stats.isTaskValid <;> cases stats.isTaskEnabled <;> simp [htime]
  split_ifs <;> simp [*]

variable {stats}

/-- A judgement starts the countdown and the count again. -/
theorem check_of_judged (h : stats.judged = true) :
    stats.check = (some stats.judge,
      { stats with timeUntilNextCheckSec := stats.intervalSec, nudges := 0 }) := by
  obtain ⟨hvalid, henabled, htime⟩ := stats.judged_iff.mp h
  rw [check, hvalid, henabled, htime]
  rfl

/-- A check that does not judge an enabled task counts down. -/
theorem check_of_enabled (hvalid : stats.isTaskValid = true) (henabled : stats.isTaskEnabled = true)
    (hjudged : stats.judged = false) :
    stats.check =
      (none, { stats with timeUntilNextCheckSec := stats.timeUntilNextCheckSec - 1 }) := by
  have htime : stats.timeUntilNextCheckSec - 1 ≠ 0 := by
    intro htime
    rw [← Bool.not_eq_true, judged_iff] at hjudged
    exact hjudged ⟨hvalid, henabled, sub_eq_zero.mp htime⟩
  rw [check, hvalid, henabled]
  exact if_pos htime

/-- A check skips a task that is not enabled. -/
theorem check_of_disabled (h : stats.isTaskEnabled = false) : stats.check = (none, stats) := by
  rw [check, h, Bool.not_false, Bool.or_true]
  rfl

end TaskStats

/-- A changed table, by slots. -/
theorem getElem_updateTask (table : TaskTable) (token : UInt8) (f : TaskStats → TaskStats)
    (i : Fin maxTasks) :
    (updateTask table token f)[i] =
      if getTaskFromToken token = some i then f table[i] else table[i] := by
  rw [updateTask]
  cases getTaskFromToken token with
  | none => rfl
  | some j =>
    simp only [Fin.getElem_fin, Vector.getElem_set, Option.some.injEq, Fin.ext_iff]
    split_ifs with h
    · simp only [h]
    · rfl

theorem getElem_checkTasks (table : TaskTable) (i : Fin maxTasks) :
    (checkTasks table).2[i] = table[i].check.2 := by
  simp only [checkTasks, Fin.getElem_fin, Vector.getElem_map]

theorem getTaskFromToken_ofNat (i : Fin maxTasks) :
    getTaskFromToken (UInt8.ofNat i) = some i := by
  have htoNat : (UInt8.ofNat i).toNat = i := by
    rw [UInt8.toNat_ofNat']
    exact Nat.mod_eq_of_lt (i.isLt.trans (by decide))
  have hlt : (UInt8.ofNat i).toNat < maxTasks := htoNat.trans_lt i.isLt
  rw [getTaskFromToken, dif_pos hlt]
  exact congrArg some (Fin.ext htoNat)

/-! ### Runs -/

/-- A registration: its token, the name it was constructed with, and the number of nudges it
received since its task was judged, disabled or registered. -/
structure TaskRegistration where
  token : UInt8
  name : Option String
  received : ℕ
  deriving DecidableEq, Repr

/-- The slot of a registration. -/
def TaskRegistration.slot (r : TaskRegistration) : Option (Fin maxTasks) :=
  getTaskFromToken r.token

/-- The table, and the registrations that are alive. -/
structure TaskRegistry where
  table : TaskTable
  alive : List TaskRegistration
  deriving DecidableEq, Repr

namespace TaskRegistry

open StepSystem (run Meets Visits exists_of_not_meets invariant_visits_of_step run_cons_eq_some
  visits_cons visits_of_run visits_start)

/-- What can happen: a registration is constructed, the registration at an index is destroyed or
used, or the tasks are checked. -/
inductive Action where
  | construct (name : Option String)
  | destroy (index : ℕ)
  | disable (index : ℕ)
  | nudge (index : ℕ)
  | inSeconds (index : ℕ) (intervalSec : UInt8)
  | expect (index : ℕ) (min max : UInt16)
  | checkTasks
  deriving DecidableEq, Repr

/-- The table of zeros. -/
def new : TaskRegistry := ⟨.replicate maxTasks .free, []⟩

variable (posix : Bool)

/-- The task of a registration is judged by the next check. -/
def judges (s : TaskRegistry) (r : TaskRegistration) : Bool :=
  r.slot.any fun i => s.table[i].judged

/-- Use the registration at an index: the change of the table by its token, and its new count. -/
def use (s : TaskRegistry) (index : ℕ) (change : TaskTable → UInt8 → TaskTable)
    (count : ℕ → ℕ) : Option TaskRegistry :=
  s.alive[index]?.map fun r =>
    ⟨change s.table r.token, s.alive.set index { r with received := count r.received }⟩

/-- A step. At most 32 registrations are alive. -/
def step (s : TaskRegistry) : Action → Option TaskRegistry
  | .construct name =>
    if s.alive.length < maxTasks then
      let registered := registerTask s.table name
      some ⟨registered.2, ⟨registered.1, name, 0⟩ :: s.alive⟩
    else none
  | .destroy index =>
    s.alive[index]?.map fun r => ⟨unregisterTask s.table r.token, s.alive.eraseIdx index⟩
  | .disable index => s.use index disableTask fun _ => 0
  | .nudge index => s.use index nudgeTask fun received => received + 1
  | .inSeconds index intervalSec =>
    s.use index (fun table token => Supervisor.inSeconds table token intervalSec) id
  | .expect index min max =>
    s.use index (fun table token => Supervisor.expect posix table token min max) id
  | .checkTasks =>
    some ⟨(Supervisor.checkTasks s.table).2,
      s.alive.map fun r => if s.judges r then { r with received := 0 } else r⟩

/-- The task of a slot is enabled, with an interval. -/
def EnabledWith (i : Fin maxTasks) (intervalSec : UInt8) (s : TaskRegistry) : Prop :=
  s.table[i].isTaskValid = true ∧ s.table[i].isTaskEnabled = true ∧
    s.table[i].intervalSec = intervalSec

/-- What the supervision is for. A count of nudges is exact as long as it fits into sixteen bits. -/
structure Supervised (s : TaskRegistry) : Prop where
  /-- Every task has a slot, which holds its name. -/
  owns : ∀ r ∈ s.alive, r.name.isSome = true → ∃ i, r.slot = some i ∧ s.table[i].name = r.name
  /-- The slots are distinct. -/
  distinct : s.alive.Pairwise fun r r' => r.name.isSome = true → r'.name.isSome = true →
    r.slot ≠ r'.slot
  /-- The countdown is between one and the interval. -/
  countdown : ∀ r ∈ s.alive, ∀ i, r.slot = some i →
    1 ≤ s.table[i].timeUntilNextCheckSec ∧
      s.table[i].timeUntilNextCheckSec ≤ s.table[i].intervalSec
  /-- As many checks as the interval has seconds judge a task that stays enabled. -/
  judged : ∀ r ∈ s.alive, ∀ i, r.slot = some i → ∀ intervalSec segment t,
    run (step posix) s segment = some t →
    (∀ u, Visits (step posix) s segment u → EnabledWith i intervalSec u) →
    intervalSec.toNat ≤ segment.count .checkTasks →
    ∃ earlier later u, segment = earlier ++ .checkTasks :: later ∧
      run (step posix) s earlier = some u ∧ u.table[i].judged = true
  /-- A judgement compares the nudges since the last judgement, disabling or registration. -/
  counted : ∀ r ∈ s.alive, ∀ i, r.slot = some i → r.received < 2 ^ 16 →
    s.table[i].nudges.toNat = r.received
  /-- A check fails exactly if it judges a task outside its limits. -/
  fails_iff : (∀ r ∈ s.alive, r.received < 2 ^ 16) →
    ((Supervisor.checkTasks s.table).1 = false ↔ ∃ r ∈ s.alive, ∃ i, r.slot = some i ∧
      s.table[i].judged = true ∧ (r.received < s.table[i].minNudges.toNat ∨
        s.table[i].maxNudges.toNat < r.received))

/-! ### The invariant -/

/-- A slot holds what its registration is told. -/
structure Tracks (stats : TaskStats) (r : TaskRegistration) : Prop where
  name_isSome : stats.name.isSome = true
  name_eq : stats.name = r.name
  le_time : 1 ≤ stats.timeUntilNextCheckSec
  time_le : stats.timeUntilNextCheckSec ≤ stats.intervalSec
  nudges_eq : stats.nudges = UInt16.ofNat r.received

/-- The slots that are not free belong to one registration each, which they track. -/
structure Sound (s : TaskRegistry) : Prop where
  nodup : (s.alive.filterMap TaskRegistration.slot).Nodup
  tracks : ∀ r ∈ s.alive, ∀ i, r.slot = some i → Tracks s.table[i] r
  named : ∀ r ∈ s.alive, r.slot.isSome = r.name.isSome
  free : ∀ i, i ∉ s.alive.filterMap TaskRegistration.slot → s.table[i] = .free

namespace Tracks

variable {stats : TaskStats} {r : TaskRegistration}

theorem isTaskValid (h : Tracks stats r) : stats.isTaskValid = true := by
  rw [TaskStats.isTaskValid, h.name_isSome, Bool.true_and, decide_eq_true_eq]
  exact UInt8.lt_of_lt_of_le (by decide) (UInt8.le_trans h.le_time h.time_le)

theorem disable (h : Tracks stats r) : Tracks stats.disable { r with received := 0 } :=
  { h with nudges_eq := rfl }

theorem nudge (h : Tracks stats r) :
    Tracks stats.nudge { r with received := r.received + 1 } := by
  refine { h with nudges_eq := ?_ }
  rw [TaskStats.nudge, h.nudges_eq, UInt16.ofNat_add]
  rfl

theorem inSeconds (h : Tracks stats r) (intervalSec : UInt8) :
    Tracks (stats.inSeconds intervalSec) r := by
  rw [TaskStats.inSeconds]
  split_ifs with hle hlt
  · exact { h with le_time := hle, time_le := UInt8.le_refl _ }
  · exact { h with time_le := UInt8.not_lt.mp hlt }
  · exact h

theorem expect (h : Tracks stats r) (posix : Bool) (min max : UInt16) :
    Tracks (stats.expect posix min max) r :=
  ⟨h.name_isSome, h.name_eq, h.le_time, h.time_le, h.nudges_eq⟩

/-- Before the end of a countdown, the next second does not wrap. -/
theorem toNat_time_sub_one (h : Tracks stats r) :
    (stats.timeUntilNextCheckSec - 1).toNat = stats.timeUntilNextCheckSec.toNat - 1 :=
  UInt8.toNat_sub_of_le _ _ h.le_time

/-- A check counts down, or judges and starts again. -/
theorem check (h : Tracks stats r) :
    Tracks stats.check.2 (if stats.judged then { r with received := 0 } else r) := by
  cases hjudged : stats.judged with
  | true =>
    rw [TaskStats.check_of_judged hjudged]
    exact ⟨h.name_isSome, h.name_eq, UInt8.le_trans h.le_time h.time_le, UInt8.le_refl _, rfl⟩
  | false =>
    cases henabled : stats.isTaskEnabled with
    | true =>
      rw [TaskStats.check_of_enabled h.isTaskValid henabled hjudged]
      have hne : stats.timeUntilNextCheckSec ≠ 1 := fun htime => Bool.false_ne_true
        (hjudged.symm.trans (stats.judged_iff.mpr ⟨h.isTaskValid, henabled, htime⟩))
      have hsub := h.toNat_time_sub_one
      have hle := UInt8.le_iff_toNat_le.mp h.le_time
      have hle' := UInt8.le_iff_toNat_le.mp h.time_le
      rw [ne_eq, ← UInt8.toNat_inj] at hne
      refine ⟨h.name_isSome, h.name_eq, UInt8.le_iff_toNat_le.mpr ?_,
        UInt8.le_iff_toNat_le.mpr ?_, h.nudges_eq⟩
      · rw [hsub]
        exact Nat.le_sub_one_of_lt (lt_of_le_of_ne hle (Ne.symm hne))
      · rw [hsub]
        exact (Nat.sub_le _ _).trans hle'
    | false =>
      rw [TaskStats.check_of_disabled henabled]
      exact h

/-- Without a judgement, a check of an enabled task counts down by one. -/
theorem time_check (h : Tracks stats r) (henabled : stats.isTaskEnabled = true)
    (hjudged : stats.judged = false) :
    stats.check.2.timeUntilNextCheckSec.toNat + 1 = stats.timeUntilNextCheckSec.toNat := by
  rw [TaskStats.check_of_enabled h.isTaskValid henabled hjudged, h.toNat_time_sub_one]
  exact Nat.sub_add_cancel (UInt8.le_iff_toNat_le.mp h.le_time)

end Tracks

theorem sound_new : Sound new := by
  refine ⟨List.nodup_nil, nofun, nofun, fun i _ => ?_⟩
  simp only [new, Fin.getElem_fin, Vector.getElem_replicate]

namespace Sound

variable {posix : Bool} {s t : TaskRegistry}

/-- Registrations of one slot are the same. -/
theorem index_eq (h : Sound s) {j k : ℕ} {r r' : TaskRegistration} {i : Fin maxTasks}
    (hj : s.alive[j]? = some r) (hk : s.alive[k]? = some r') (hr : r.slot = some i)
    (hr' : r'.slot = some i) : j = k := by
  have hpairwise := List.pairwise_filterMap.mp h.nodup
  obtain ⟨hjlt, rfl⟩ := List.getElem?_eq_some_iff.mp hj
  obtain ⟨hklt, rfl⟩ := List.getElem?_eq_some_iff.mp hk
  rcases lt_trichotomy j k with hlt | heq | hlt
  · exact absurd rfl (List.pairwise_iff_getElem.mp hpairwise j k hjlt hklt hlt i hr i hr')
  · exact heq
  · exact absurd rfl (List.pairwise_iff_getElem.mp hpairwise k j hklt hjlt hlt i hr' i hr)

/-- A slot that is not valid is free. -/
theorem not_mem_of_not_valid (h : Sound s) {i : Fin maxTasks}
    (hi : s.table[i].isTaskValid = false) : i ∉ s.alive.filterMap TaskRegistration.slot := by
  intro hmem
  obtain ⟨r, hr, hslot⟩ := List.mem_filterMap.mp hmem
  exact Bool.false_ne_true (hi.symm.trans (h.tracks r hr i hslot).isTaskValid)

/-- With less than 32 registrations, some slot is not valid. -/
theorem exists_not_valid (h : Sound s) (hlt : s.alive.length < maxTasks) :
    ∃ i : Fin maxTasks, s.table[i].isTaskValid = false := by
  by_contra! hvalid
  have hsubset : List.finRange maxTasks ⊆ s.alive.filterMap TaskRegistration.slot := by
    intro i _
    by_contra hfree
    exact hvalid i (by rw [h.free i hfree]; rfl)
  have hlength := (List.nodup_finRange maxTasks).subperm hsubset |>.length_le
  rw [List.length_finRange] at hlength
  exact absurd (hlength.trans (List.length_filterMap_le _ _)) (not_le.mpr hlt)

/-- With less than 32 registrations, a task gets a free slot. -/
theorem exists_registerTask (h : Sound s) (hlt : s.alive.length < maxTasks) (name : String) :
    ∃ i : Fin maxTasks, i ∉ s.alive.filterMap TaskRegistration.slot ∧
      registerTask s.table (some name) =
        (UInt8.ofNat i, s.table.set i (TaskStats.free.register name)) := by
  obtain ⟨j, hj⟩ := h.exists_not_valid hlt
  cases hfind : (List.finRange maxTasks).find? fun i => !s.table[i].isTaskValid with
  | none =>
    have hnot := List.find?_eq_none.mp hfind j (List.mem_finRange j)
    rw [hj] at hnot
    exact absurd rfl hnot
  | some i =>
    have hi : s.table[i].isTaskValid = false := by
      simpa only [Bool.not_eq_true'] using List.find?_some hfind
    have hfree := h.not_mem_of_not_valid hi
    refine ⟨i, hfree, ?_⟩
    simp only [registerTask, hfind, h.free i hfree]

/-- A registration takes a free slot, if the task has a name. -/
theorem construct (h : Sound s) {name : Option String}
    (hstep : step posix s (.construct name) = some t) : Sound t := by
  rw [step, Option.ite_none_right_eq_some, Option.some.injEq] at hstep
  obtain ⟨hlt, rfl⟩ := hstep
  cases name with
  | none =>
    have hslot : (TaskRegistration.mk invalidTaskToken none 0).slot = none := rfl
    have hslots : (⟨invalidTaskToken, none, 0⟩ :: s.alive).filterMap TaskRegistration.slot =
        s.alive.filterMap TaskRegistration.slot := List.filterMap_cons_none hslot
    exact ⟨hslots ▸ h.nodup, List.forall_mem_cons.mpr ⟨nofun, h.tracks⟩,
      List.forall_mem_cons.mpr ⟨rfl, h.named⟩, fun i hi => h.free i (hslots ▸ hi)⟩
  | some name =>
    obtain ⟨i, hfree, hregister⟩ := h.exists_registerTask hlt name
    have hslot : (TaskRegistration.mk (UInt8.ofNat i) (some name) 0).slot = some i :=
      getTaskFromToken_ofNat i
    have hslots : (⟨UInt8.ofNat i, some name, 0⟩ :: s.alive).filterMap TaskRegistration.slot =
        i :: s.alive.filterMap TaskRegistration.slot := List.filterMap_cons_some hslot
    have hother : ∀ j ≠ i, (s.table.set i (TaskStats.free.register name))[j] = s.table[j] :=
      fun j hne => Vector.getElem_set_ne _ _ fun heq => hne (Fin.ext heq.symm)
    simp only [hregister]
    refine ⟨hslots ▸ List.nodup_cons.mpr ⟨hfree, h.nodup⟩, ?_, ?_, fun j hj => ?_⟩
    · refine List.forall_mem_cons.mpr ⟨fun j hj => ?_, fun r hr j hj => ?_⟩
      · obtain rfl := Option.some.inj (hslot.symm.trans hj)
        rw [Fin.getElem_fin, Vector.getElem_set_self]
        exact ⟨rfl, rfl, UInt8.le_refl _, UInt8.le_refl _, rfl⟩
      · rw [hother j fun heq => hfree (List.mem_filterMap.mpr ⟨r, hr, heq ▸ hj⟩)]
        exact h.tracks r hr j hj
    · exact List.forall_mem_cons.mpr ⟨by rw [hslot]; rfl, h.named⟩
    · rw [hslots, List.mem_cons, not_or] at hj
      rw [hother j hj.1]
      exact h.free j hj.2

/-- The slot of a registration is freed with it. -/
theorem destroy (h : Sound s) {index : ℕ} (hstep : step posix s (.destroy index) = some t) :
    Sound t := by
  obtain ⟨r, hr, rfl⟩ := Option.map_eq_some_iff.mp hstep
  have hsub : (s.alive.eraseIdx index).Sublist s.alive := List.eraseIdx_sublist _ _
  refine ⟨h.nodup.sublist (hsub.filterMap _), fun r' hr' i hi => ?_,
    fun r' hr' => h.named r' (hsub.subset hr'), fun i hi => ?_⟩
  · obtain ⟨j, hne, hj⟩ := List.mem_eraseIdx_iff_getElem?.mp hr'
    rw [unregisterTask, getElem_updateTask, if_neg]
    · exact h.tracks r' (hsub.subset hr') i hi
    · exact fun hslot => hne (h.index_eq hj hr hi hslot)
  · rw [unregisterTask, getElem_updateTask]
    split_ifs with hslot
    · rfl
    · refine h.free i fun hmem => hi ?_
      obtain ⟨r', hr', hi'⟩ := List.mem_filterMap.mp hmem
      obtain ⟨j, hj⟩ := List.mem_iff_getElem?.mp hr'
      refine List.mem_filterMap.mpr ⟨r', List.mem_eraseIdx_iff_getElem?.mpr ⟨j, ?_, hj⟩, hi'⟩
      rintro rfl
      exact hslot (Option.some.inj (hr.symm.trans hj) ▸ hi')

/-- The slots depend on the tokens alone. -/
theorem filterMap_slot_eq (s : TaskRegistry) (alive : List TaskRegistration)
    (htoken : alive.map TaskRegistration.token = s.alive.map TaskRegistration.token) :
    alive.filterMap TaskRegistration.slot = s.alive.filterMap TaskRegistration.slot := by
  have hslots : ∀ alive : List TaskRegistration, alive.filterMap TaskRegistration.slot =
      (alive.map TaskRegistration.token).filterMap getTaskFromToken :=
    fun alive => (List.filterMap_map ..).symm
  rw [hslots, hslots, htoken]

/-- The slot of a registration is changed, and its count, so that the slot tracks it. -/
theorem use (h : Sound s) {index : ℕ} (f : TaskStats → TaskStats) (count : ℕ → ℕ)
    (htracks : ∀ stats r, Tracks stats r → Tracks (f stats) { r with received := count r.received })
    (hstep : s.use index (fun table token => updateTask table token f) count = some t) :
    Sound t := by
  obtain ⟨r, hr, rfl⟩ := Option.map_eq_some_iff.mp hstep
  obtain ⟨hlt, hget⟩ := List.getElem?_eq_some_iff.mp hr
  have hslots := filterMap_slot_eq s (s.alive.set index { r with received := count r.received }) (by
      rw [List.map_set]
      refine (congrArg _ ?_).trans (List.set_getElem_self ((List.length_map _).symm ▸ hlt))
      rw [List.getElem_map, hget])
  have hmem : ∀ r' ∈ s.alive.set index { r with received := count r.received },
      r' = { r with received := count r.received } ∨ ∃ j ≠ index, s.alive[j]? = some r' := by
    intro r' hr'
    obtain ⟨j, hj⟩ := List.mem_iff_getElem?.mp hr'
    rw [List.getElem?_set] at hj
    split_ifs at hj with heq
    · exact Or.inl (Option.some.inj hj).symm
    · exact Or.inr ⟨j, Ne.symm heq, hj⟩
  refine ⟨hslots ▸ h.nodup, fun r' hr' i hi => ?_, fun r' hr' => ?_, fun i hi => ?_⟩
  · rw [getElem_updateTask]
    rcases hmem r' hr' with rfl | ⟨j, hne, hj⟩
    · rw [if_pos (show getTaskFromToken r.token = some i from hi)]
      exact htracks _ r (h.tracks r (List.mem_of_getElem? hr) i hi)
    · rw [if_neg fun hslot : getTaskFromToken r.token = some i => hne (h.index_eq hj hr hi hslot)]
      exact h.tracks r' (List.mem_of_getElem? hj) i hi
  · rcases hmem r' hr' with rfl | ⟨j, -, hj⟩
    · exact h.named r (List.mem_of_getElem? hr)
    · exact h.named r' (List.mem_of_getElem? hj)
  · rw [hslots] at hi
    rw [getElem_updateTask, if_neg]
    · exact h.free i hi
    · exact fun hslot => hi (List.mem_filterMap.mpr ⟨r, List.mem_of_getElem? hr, hslot⟩)

/-- A check judges the tasks whose countdown ends. -/
theorem checkTasks (h : Sound s) : Sound ⟨(Supervisor.checkTasks s.table).2,
    s.alive.map fun r => if s.judges r then { r with received := 0 } else r⟩ := by
  have hcleared : ∀ r : TaskRegistration,
      (if s.judges r then { r with received := 0 } else r).token = r.token ∧
        (if s.judges r then { r with received := 0 } else r).name = r.name := by
    intro r
    split_ifs <;> exact ⟨rfl, rfl⟩
  have hslots := filterMap_slot_eq s
    (s.alive.map fun r => if s.judges r then { r with received := 0 } else r) (by
      rw [List.map_map]
      exact List.map_congr_left fun r _ => (hcleared r).1)
  refine ⟨hslots ▸ h.nodup, List.forall_mem_map.mpr fun r hr i hi => ?_,
    List.forall_mem_map.mpr fun r hr => ?_, fun i hi => ?_⟩
  · rw [TaskRegistration.slot, (hcleared r).1] at hi
    have hjudges : s.judges r = s.table[i].judged := by
      rw [judges, show r.slot = some i from hi]
      rfl
    rw [getElem_checkTasks, hjudges]
    exact (h.tracks r hr i hi).check
  · rw [TaskRegistration.slot, (hcleared r).1, (hcleared r).2]
    exact h.named r hr
  · rw [hslots] at hi
    rw [getElem_checkTasks, h.free i hi]
    rfl

/-- **Every step keeps the slots sound.** -/
theorem step (h : Sound s) {a : Action} (hstep : TaskRegistry.step posix s a = some t) :
    Sound t := by
  cases a with
  | construct name => exact h.construct hstep
  | destroy index => exact h.destroy hstep
  | disable index => exact h.use .disable (fun _ => 0) (fun _ _ => Tracks.disable) hstep
  | nudge index => exact h.use .nudge (· + 1) (fun _ _ => Tracks.nudge) hstep
  | inSeconds index intervalSec =>
    exact h.use (fun stats => stats.inSeconds intervalSec) id
      (fun _ _ hr => hr.inSeconds intervalSec) hstep
  | expect index min max =>
    exact h.use (fun stats => stats.expect posix min max) id
      (fun _ _ hr => hr.expect posix min max) hstep
  | checkTasks =>
    obtain rfl := Option.some.inj hstep
    exact h.checkTasks

/-- A valid slot belongs to a registration. -/
theorem exists_slot_eq (h : Sound s) {i : Fin maxTasks} (hvalid : s.table[i].isTaskValid = true) :
    ∃ r ∈ s.alive, r.slot = some i := by
  by_contra! hfree
  have hi : i ∉ s.alive.filterMap TaskRegistration.slot := fun hmem =>
    let ⟨r, hr, hslot⟩ := List.mem_filterMap.mp hmem
    hfree r hr hslot
  rw [h.free i hi] at hvalid
  exact absurd hvalid (by decide)

/-! ### The countdown -/

/-- While a task stays enabled with its interval, no step lengthens its countdown but a judgement,
and a check shortens it. -/
theorem countdown_step (h : Sound s) {a : Action} {i : Fin maxTasks} {intervalSec : UInt8}
    (hs : s.EnabledWith i intervalSec) (ht : t.EnabledWith i intervalSec)
    (hjudged : a = .checkTasks → s.table[i].judged = false)
    (hstep : TaskRegistry.step posix s a = some t) :
    t.table[i].timeUntilNextCheckSec.toNat + [a].count .checkTasks ≤
      s.table[i].timeUntilNextCheckSec.toNat := by
  have huse : ∀ (index : ℕ) (f : TaskStats → TaskStats) (count : ℕ → ℕ),
      (∀ stats, (f stats).timeUntilNextCheckSec.toNat ≤ stats.timeUntilNextCheckSec.toNat) →
      s.use index (fun table token => updateTask table token f) count = some t →
      t.table[i].timeUntilNextCheckSec.toNat ≤ s.table[i].timeUntilNextCheckSec.toNat := by
    intro index f count hf hstep
    obtain ⟨r, -, rfl⟩ := Option.map_eq_some_iff.mp hstep
    rw [getElem_updateTask]
    split_ifs
    · exact hf _
    · exact le_rfl
  obtain ⟨r, hr, hslot⟩ := h.exists_slot_eq hs.1
  cases a with
  | construct name =>
    rw [TaskRegistry.step, Option.ite_none_right_eq_some, Option.some.injEq] at hstep
    obtain ⟨hlt, rfl⟩ := hstep
    cases name with
    | none => exact le_rfl
    | some name =>
      obtain ⟨j, hfree, hregister⟩ := h.exists_registerTask hlt name
      have hne : (j : ℕ) ≠ i := fun heq =>
        hfree (List.mem_filterMap.mpr ⟨r, hr, Fin.ext heq ▸ hslot⟩)
      simp only [hregister, Fin.getElem_fin, Vector.getElem_set_ne _ _ hne]
      exact le_rfl
  | destroy index =>
    obtain ⟨r', -, rfl⟩ := Option.map_eq_some_iff.mp hstep
    obtain ⟨hvalid, -, -⟩ := ht
    rw [unregisterTask, getElem_updateTask] at hvalid ⊢
    split_ifs at hvalid ⊢
    · exact absurd hvalid (by decide)
    · exact le_rfl
  | disable index => exact huse index .disable (fun _ => 0) (fun _ => le_rfl) hstep
  | nudge index => exact huse index .nudge (· + 1) (fun _ => le_rfl) hstep
  | inSeconds index n =>
    refine huse index (fun stats => stats.inSeconds n) id (fun stats => ?_) hstep
    rw [TaskStats.inSeconds]
    split_ifs with hle hlt
    · exact (UInt8.lt_iff_toNat_lt.mp hlt).le
    · exact le_rfl
    · exact le_rfl
  | expect index min max =>
    exact huse index (fun stats => stats.expect posix min max) id (fun _ => le_rfl) hstep
  | checkTasks =>
    obtain rfl := Option.some.inj hstep
    rw [getElem_checkTasks, List.count_singleton_self]
    exact ((h.tracks r hr i hslot).time_check hs.2.1 (hjudged rfl)).le

/-- The countdown of a task that stays enabled with its interval and is not judged goes down by the
number of checks. -/
theorem countdown_run (h : Sound s) {segment : List Action} {i : Fin maxTasks} {intervalSec : UInt8}
    (hrun : run (TaskRegistry.step posix) s segment = some t)
    (henabled : ∀ u, Visits (TaskRegistry.step posix) s segment u → EnabledWith i intervalSec u)
    (hjudged : Meets (TaskRegistry.step posix)
      (fun u a => a = .checkTasks → u.table[i].judged = false) s segment) :
    t.table[i].timeUntilNextCheckSec.toNat + segment.count .checkTasks ≤
      s.table[i].timeUntilNextCheckSec.toNat := by
  induction segment generalizing s with
  | nil =>
    obtain rfl := Option.some.inj hrun
    exact le_rfl
  | cons a segment ih =>
    obtain ⟨u, hu, hrest⟩ := run_cons_eq_some.mp hrun
    have hvisit : ∀ v, Visits (TaskRegistry.step posix) u segment v → EnabledWith i intervalSec v :=
      fun v hv => henabled v (visits_cons.mpr (Or.inr ⟨u, hu, hv⟩))
    have hfirst := h.countdown_step (henabled s (visits_start s _)) (hvisit u (visits_start u _))
      hjudged.1 hu
    have hlater := ih (h.step hu) hrest hvisit (hjudged.2 u hu)
    rw [← List.singleton_append, List.count_append]
    omega

/-- **A task that stays enabled with its interval is judged** in as many checks as the interval has
seconds. -/
theorem exists_judged (h : Sound s) {segment : List Action} {i : Fin maxTasks} {intervalSec : UInt8}
    (hrun : run (TaskRegistry.step posix) s segment = some t)
    (henabled : ∀ u, Visits (TaskRegistry.step posix) s segment u → EnabledWith i intervalSec u)
    (hchecks : intervalSec.toNat ≤ segment.count .checkTasks) :
    ∃ earlier later u, segment = earlier ++ .checkTasks :: later ∧
      run (TaskRegistry.step posix) s earlier = some u ∧ u.table[i].judged = true := by
  have hnot : ¬Meets (TaskRegistry.step posix)
      (fun u a => a = .checkTasks → u.table[i].judged = false) s segment := by
    intro hjudged
    have hstart := henabled s (visits_start s _)
    have hend := henabled t (visits_of_run hrun)
    have hsound : Sound t := invariant_visits_of_step (fun _ _ _ h => h.step) h (visits_of_run hrun)
    obtain ⟨r, hr, hslot⟩ := h.exists_slot_eq hstart.1
    obtain ⟨r', hr', hslot'⟩ := hsound.exists_slot_eq hend.1
    have hle := UInt8.le_iff_toNat_le.mp (h.tracks r hr i hslot).time_le
    have hpos := UInt8.le_iff_toNat_le.mp (hsound.tracks r' hr' i hslot').le_time
    have hdown := h.countdown_run hrun henabled hjudged
    rw [hstart.2.2] at hle
    rw [UInt8.toNat_one] at hpos
    omega
  obtain ⟨earlier, a, later, u, rfl, hu, ha⟩ := exists_of_not_meets hnot
  obtain ⟨rfl, hjudged⟩ := Classical.not_imp.mp ha
  exact ⟨earlier, later, u, rfl, hu, Bool.not_eq_false _ ▸ hjudged⟩

/-! ### Judgements -/

/-- The count of a slot is the number of nudges, in sixteen bits. -/
theorem toNat_nudges (h : Sound s) {r : TaskRegistration} (hr : r ∈ s.alive) {i : Fin maxTasks}
    (hi : r.slot = some i) (hlt : r.received < 2 ^ 16) : s.table[i].nudges.toNat = r.received := by
  rw [(h.tracks r hr i hi).nudges_eq, UInt16.toNat_ofNat']
  exact Nat.mod_eq_of_lt hlt

/-- A check fails exactly if it judges a task outside its limits. -/
theorem checkTasks_eq_false (h : Sound s) (hlt : ∀ r ∈ s.alive, r.received < 2 ^ 16) :
    (Supervisor.checkTasks s.table).1 = false ↔ ∃ r ∈ s.alive, ∃ i, r.slot = some i ∧
      s.table[i].judged = true ∧ (r.received < s.table[i].minNudges.toNat ∨
        s.table[i].maxNudges.toNat < r.received) := by
  have hslot : ∀ stats : TaskStats, stats.check.1.all (· = .healthy) = false ↔
      stats.judged = true ∧ stats.judge ≠ .healthy := by
    intro stats
    cases hjudged : stats.judged with
    | true => simp [TaskStats.check_of_judged hjudged]
    | false =>
      have hnone : stats.check.1 = none := Option.not_isSome_iff_eq_none.mp
        (Bool.not_eq_true _ ▸ hjudged)
      simp [hnone]
  have hfalse : (Supervisor.checkTasks s.table).1 = false ↔ ∃ i : Fin maxTasks,
      s.table[i].judged = true ∧ s.table[i].judge ≠ .healthy := by
    rw [Supervisor.checkTasks, ← Bool.not_eq_true, Vector.all_eq_true]
    simp only [not_forall, Bool.not_eq_true, hslot]
    exact ⟨fun ⟨i, hi, hfail⟩ => ⟨⟨i, hi⟩, hfail⟩, fun ⟨i, hfail⟩ => ⟨i, i.isLt, hfail⟩⟩
  rw [hfalse]
  constructor
  · rintro ⟨i, hjudged, hunhealthy⟩
    obtain ⟨r, hr, hi⟩ := h.exists_slot_eq (TaskStats.judged_iff _ |>.mp hjudged).1
    refine ⟨r, hr, i, hi, hjudged, ?_⟩
    rwa [TaskStats.judge_ne_healthy_iff, UInt16.lt_iff_toNat_lt, UInt16.lt_iff_toNat_lt,
      h.toNat_nudges hr hi (hlt r hr)] at hunhealthy
  · rintro ⟨r, hr, i, hi, hjudged, hlimits⟩
    refine ⟨i, hjudged, ?_⟩
    rwa [TaskStats.judge_ne_healthy_iff, UInt16.lt_iff_toNat_lt, UInt16.lt_iff_toNat_lt,
      h.toNat_nudges hr hi (hlt r hr)]

/-- The supervision follows from sound slots. -/
theorem supervised (h : Sound s) : Supervised posix s where
  owns r hr hname := by
    obtain ⟨i, hi⟩ := Option.isSome_iff_exists.mp ((h.named r hr).trans hname)
    exact ⟨i, hi, (h.tracks r hr i hi).name_eq⟩
  distinct := by
    have hpairwise := List.pairwise_filterMap.mp h.nodup
    refine hpairwise.imp_of_mem fun hr _ hne hname _ heq => ?_
    obtain ⟨i, hi⟩ := Option.isSome_iff_exists.mp ((h.named _ hr).trans hname)
    exact hne i hi i (heq ▸ hi) rfl
  countdown r hr i hi := ⟨(h.tracks r hr i hi).le_time, (h.tracks r hr i hi).time_le⟩
  judged _ _ _ _ _ _ _ hrun henabled hchecks := h.exists_judged hrun henabled hchecks
  counted _ hr _ hi hlt := h.toNat_nudges hr hi hlt
  fails_iff hlt := h.checkTasks_eq_false hlt

end Sound

/-- **Tasks are supervised** after every run. -/
theorem supervised_run (posix : Bool) {actions : List Action} {s : TaskRegistry}
    (hrun : run (step posix) new actions = some s) : Supervised posix s := by
  have hsound : Sound s :=
    invariant_visits_of_step (fun _ _ _ h => h.step) sound_new (visits_of_run hrun)
  exact hsound.supervised

/-- Two tasks of which one is nudged, and a check. -/
theorem supervised_of_two_tasks :
    ∃ s, run (step false) new [.construct (some "cmd"), .construct (some "lcl"), .inSeconds 0 3,
        .expect 0 1 2, .nudge 0, .nudge 1, .checkTasks] = some s ∧ Supervised false s := by
  have hrun : run (step false) new [.construct (some "cmd"), .construct (some "lcl"),
      .inSeconds 0 3, .expect 0 1 2, .nudge 0, .nudge 1, .checkTasks] = some _ := rfl
  exact ⟨_, rfl, supervised_run false hrun⟩

end TaskRegistry

end TellerOBC.Supervisor
