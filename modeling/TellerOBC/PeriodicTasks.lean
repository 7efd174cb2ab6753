import Mathlib.Data.Fin.VecNotation
import Mathlib.Data.UInt
import Mathlib.Tactic.Common
import TellerOBC.Foundations.StepSystem

/-!
# Periodic tasks

`runSingleIteration` of `modules/telem.cpp` and `modules/log.cpp` goes through a table of tasks with
a counter each, and calls the function of a task when its counter has reached its period.
`sendClockStatusSoon`, which other tasks of the operating system call, sets a counter to the period
and does not exclude the loop. So a step is one access of the loop to a counter, a call of a
function, or one such store; the comparison may use the value that the loop has just stored or load
the counter once more.

## Main definitions

* `TellerOBC.TaskTable`, `TellerOBC.telemTasks`, `TellerOBC.logTasks`.
* `TellerOBC.TaskLoop.step`: the loop with the requests to call a function soon.

## Main results

* `TellerOBC.TaskEntry.Sound.access`, `TellerOBC.TaskEntry.Sound.request`: the invariant of a task.
* `TellerOBC.TaskLoop.calls_run`: which passes call a function.
-/

namespace TellerOBC

/-- A table of tasks, less the line that ends it: the period of that line is zero. -/
structure TaskTable (n : ℕ) (F : Type) where
  period : Fin n → UInt16
  func : Fin n → F
  /-- The functions that other tasks of the operating system ask for. -/
  soon : F → Bool
  period_pos : ∀ i, 0 < (period i).toNat
  /-- The counter goes up to the period and one, if it was set to the period. -/
  period_lt : ∀ i, (period i).toNat + 1 < 2 ^ 16

/-- The functions in the table of `modules/telem.cpp`. -/
inductive TelemFunc where
  | sendHeartbeat
  | sendADCMeasurements
  | sendClockStatus
  | sendIMUMeasurement
  | sendMAGMeasurement
  deriving DecidableEq, Repr

/-- `tasks` of `modules/telem.cpp`. -/
def telemTasks : TaskTable 5 TelemFunc where
  period := ![25, 50, 250, 5, 5]
  func := ![.sendHeartbeat, .sendADCMeasurements, .sendClockStatus, .sendIMUMeasurement,
    .sendMAGMeasurement]
  soon := (· = .sendClockStatus)
  period_pos := by decide
  period_lt := by decide

/-- The functions in the table of `modules/log.cpp`. -/
inductive LogFunc where
  | imuLog
  | magLog
  deriving DecidableEq, Repr

/-- `tasks` of `modules/log.cpp`. -/
def logTasks : TaskTable 2 LogFunc where
  period := ![1, 10]
  func := ![.imuLog, .magLog]
  soon := fun _ => false
  period_pos := by decide
  period_lt := by decide

/-- The next access of the loop in the pass of a task. -/
inductive TaskPhase where
  | load
  /-- It stores the value that it has loaded, plus one. -/
  | store (loaded : UInt16)
  /-- It compares the counter, which it has just stored. -/
  | compare (stored : UInt16)
  | reset
  | call
  deriving DecidableEq, Repr

/-- A task with its history. -/
structure TaskEntry where
  counter : UInt16 := 0
  /-- The number of passes that have loaded the counter. -/
  passes : ℕ := 0
  /-- The passes that have called the function. -/
  called : List ℕ := []
  /-- The number of passes at the first request since the last call. A request that the loop
  overwrites is not recorded. -/
  asked : Option ℕ := none
  /-- There was a request. -/
  requested : Bool := false
  deriving DecidableEq, Repr

namespace TaskEntry

variable (period : UInt16)

/-- The next access in the pass of a task, and the phase after it unless the pass ends. -/
def access (reload : Bool) (e : TaskEntry) : TaskPhase → TaskEntry × Option TaskPhase
  | .load => ({ e with passes := e.passes + 1 }, some (.store e.counter))
  | .store loaded => ({ e with counter := loaded + 1 }, some (.compare (loaded + 1)))
  | .compare stored =>
    (e, if period ≤ (if reload then e.counter else stored) then some .reset else none)
  | .reset => ({ e with counter := 0 }, some .call)
  | .call => ({ e with called := e.called ++ [e.passes], asked := none }, none)

/-- The loop is about to overwrite the counter with a value for which it does not call the
function. -/
def overwrites : TaskPhase → Bool
  | .store loaded => loaded.toNat + 1 < period.toNat
  | _ => false

/-- A request to call the function soon. -/
def request (phase : TaskPhase) (e : TaskEntry) : TaskEntry :=
  if overwrites period phase then { e with counter := period }
  else
    { e with
      counter := period
      asked := some (e.asked.getD e.passes)
      requested := true }

end TaskEntry

/-- The loop in the middle of an iteration. -/
structure TaskLoop (n : ℕ) where
  entries : Fin n → TaskEntry
  /-- The number of iterations that have ended. -/
  iterations : ℕ
  task : Fin n
  phase : TaskPhase

/-- What can happen next. -/
inductive TaskLoopAction (n : ℕ) where
  /-- The loop makes its next access; a comparison may load the counter. -/
  | access (reload : Bool)
  /-- Another task stores the period in the counter. -/
  | request (i : Fin n)
  deriving DecidableEq, Repr

namespace TaskLoop

variable {n : ℕ} {F : Type}

/-- The phase of a task: a task without a pass is about to be loaded. -/
def phaseOf (s : TaskLoop n) (i : Fin n) : TaskPhase := if i = s.task then s.phase else .load

/-- The loop before its first iteration. -/
def start [NeZero n] : TaskLoop n where
  entries := fun _ => {}
  iterations := 0
  task := 0
  phase := .load

/-- The loop goes on with the next task, or with the next iteration after the last task. -/
def next [NeZero n] (s : TaskLoop n) : TaskLoop n :=
  if h : s.task.val + 1 < n then { s with task := ⟨s.task.val + 1, h⟩, phase := .load }
  else { s with iterations := s.iterations + 1, task := 0, phase := .load }

/-- The steps of the system. -/
def step [NeZero n] (T : TaskTable n F) (s : TaskLoop n) : TaskLoopAction n → Option (TaskLoop n)
  | .access reload =>
    let r := (s.entries s.task).access (T.period s.task) reload s.phase
    let s := { s with entries := Function.update s.entries s.task r.1 }
    match r.2 with
    | some phase => some { s with phase := phase }
    | none => some s.next
  | .request i =>
    if T.soon (T.func i) then
      some { s with
        entries := Function.update s.entries i
          ((s.entries i).request (T.period i) (s.phaseOf i)) }
    else none

end TaskLoop

/-! ### The invariant of a task -/

namespace TaskEntry

/-- The passes with numbers up to `k` that are multiples of the period. -/
def multiples (period : UInt16) (k : ℕ) : List ℕ :=
  (List.range' 1 k).filter (period.toNat ∣ ·)

theorem multiples_succ (period : UInt16) (k : ℕ) :
    multiples period (k + 1) =
      multiples period k ++ if period.toNat ∣ k + 1 then [k + 1] else [] := by
  rw [multiples, List.range'_concat, List.filter_append, Nat.one_mul, Nat.add_comm 1 k]
  congr 1
  split_ifs with h <;> simp [h]

/-- The last pass that has called the function. -/
def lastCall (e : TaskEntry) : ℕ := e.called.getLastD 0

/-- The counter of a task and the requests for it, by the phase of its pass. -/
def Counts (period : UInt16) (e : TaskEntry) : TaskPhase → Prop
  | .load => e.lastCall ≤ e.passes ∧ e.passes < e.lastCall + period.toNat ∧
      e.passes ≤ e.lastCall + e.counter.toNat ∧ e.counter.toNat ≤ period.toNat ∧
      ∀ m, e.asked = some m → m = e.passes ∧ e.counter = period
  | .store loaded => e.lastCall < e.passes ∧ e.passes ≤ e.lastCall + period.toNat ∧
      e.passes ≤ e.lastCall + loaded.toNat + 1 ∧ loaded.toNat ≤ period.toNat ∧
      ∀ m, e.asked = some m → period.toNat ≤ loaded.toNat + 1
  | .compare stored => e.lastCall < e.passes ∧ e.passes ≤ e.lastCall + period.toNat ∧
      e.passes ≤ e.lastCall + stored.toNat ∧ (e.counter = stored ∨ e.counter = period) ∧
      ∀ m, e.asked = some m → period ≤ stored ∨ m = e.passes ∧ e.counter = period
  | .reset => e.lastCall < e.passes ∧ e.passes ≤ e.lastCall + period.toNat
  | .call => e.lastCall < e.passes ∧ e.passes ≤ e.lastCall + period.toNat ∧
      e.counter.toNat ≤ period.toNat

/-- The counter of a task without requests. -/
def CountsAlone (period : UInt16) (e : TaskEntry) : TaskPhase → Prop
  | .load => e.counter.toNat = e.passes % period.toNat ∧ e.called = multiples period e.passes
  | .store loaded => ∃ k, e.passes = k + 1 ∧ loaded.toNat = k % period.toNat ∧
      e.called = multiples period k
  | .compare stored => ∃ k, e.passes = k + 1 ∧ stored.toNat = k % period.toNat + 1 ∧
      e.counter = stored ∧ e.called = multiples period k
  | .reset => ∃ k, e.passes = k + 1 ∧ period.toNat ∣ k + 1 ∧ e.called = multiples period k
  | .call => ∃ k, e.passes = k + 1 ∧ period.toNat ∣ k + 1 ∧ e.counter = 0 ∧
      e.called = multiples period k

/-- The invariant of a task in the given phase. -/
structure Sound (period : UInt16) (phase : TaskPhase) (e : TaskEntry) : Prop where
  counts : Counts period e phase
  alone : e.requested = false → CountsAlone period e phase
  /-- Of as many passes as the period, one after the other, one has called the function. -/
  windows : ∀ j, j + period.toNat < e.passes →
    ∃ m ∈ e.called, j < m ∧ m ≤ j + period.toNat

variable {period : UInt16} {e : TaskEntry} {phase : TaskPhase}

theorem lastCall_concat (calls : List ℕ) (k : ℕ) : (calls ++ [k]).getLastD 0 = k := by
  rw [List.getLastD_concat]

/-- The last pass with a call, if there was one. -/
theorem lastCall_mem (h : 0 < e.lastCall) : e.lastCall ∈ e.called := by
  rw [lastCall] at h ⊢
  rcases List.eq_nil_or_concat' e.called with hnil | ⟨calls, k, heq⟩
  · rw [hnil] at h
    exact absurd h (Nat.lt_irrefl 0)
  · rw [heq, lastCall_concat]
    exact List.mem_append_right _ (List.mem_singleton_self k)

theorem sound_start (hpos : 0 < period.toNat) : Sound period .load {} where
  counts := ⟨Nat.le_refl 0, by simpa [lastCall] using hpos, Nat.zero_le _, Nat.zero_le _, by simp⟩
  alone := fun _ => ⟨(Nat.zero_mod _).symm, rfl⟩
  windows := fun _ hj => absurd hj (Nat.not_lt_zero _)

/-- At the end of a pass, also the last passes have a call. -/
theorem Sound.windows_le (h : Sound period .load e) {j : ℕ} (hj : j + period.toNat ≤ e.passes) :
    ∃ m ∈ e.called, j < m ∧ m ≤ j + period.toNat := by
  rcases Nat.lt_or_eq_of_le hj with hlt | heq
  · exact h.windows j hlt
  · obtain ⟨hle, hlt, -⟩ := h.counts
    exact ⟨e.lastCall, lastCall_mem (by omega), by omega, by omega⟩

theorem toNat_add_one {v : UInt16} (h : v.toNat + 1 < 2 ^ 16) : (v + 1).toNat = v.toNat + 1 := by
  rw [UInt16.toNat_add]
  exact Nat.mod_eq_of_lt h

/-- The next remainder is zero or greater by one. -/
theorem dvd_succ_iff {k p : ℕ} (hpos : 0 < p) :
    (p ∣ k + 1 ↔ k % p + 1 = p) ∧ (k % p + 1 < p → (k + 1) % p = k % p + 1) := by
  have hlt := Nat.mod_lt k hpos
  have hsplit : k + 1 = p * (k / p) + (k % p + 1) := by
    rw [← Nat.add_assoc, Nat.div_add_mod]
  refine ⟨?_, fun h => ?_⟩
  · rw [hsplit, Nat.dvd_add_right (Nat.dvd_mul_right p _)]
    exact ⟨fun h => Nat.le_antisymm hlt (Nat.le_of_dvd (Nat.succ_pos _) h), fun h =>
      ⟨1, by rw [Nat.mul_one, h]⟩⟩
  · rw [hsplit, Nat.mul_add_mod, Nat.mod_eq_of_lt h]

/-- **One access.** -/
theorem Sound.access (hpos : 0 < period.toNat) (hlt : period.toNat + 1 < 2 ^ 16)
    (h : Sound period phase e) (reload : Bool) :
    Sound period ((e.access period reload phase).2.getD .load)
      (e.access period reload phase).1 := by
  cases phase with
  | load =>
    obtain ⟨hle, hpasses, hcounter, hcounterLe, hasked⟩ := h.counts
    refine ⟨⟨Nat.lt_succ_of_le hle, hpasses, Nat.succ_le_succ hcounter, hcounterLe, ?_⟩,
      fun hnot => ?_, fun j hj => h.windows_le (Nat.le_of_lt_succ hj)⟩
    · intro m hm
      rw [(hasked m hm).2]
      exact Nat.le_succ _
    · obtain ⟨hmod, hcalled⟩ := h.alone hnot
      exact ⟨e.passes, rfl, hmod, hcalled⟩
  | store loaded =>
    obtain ⟨hle, hpasses, hcounter, hloaded, hasked⟩ := h.counts
    have hadd : (loaded + 1).toNat = loaded.toNat + 1 :=
      toNat_add_one (Nat.lt_of_le_of_lt (Nat.succ_le_succ hloaded) hlt)
    refine ⟨⟨hle, hpasses, ?_, Or.inl rfl, fun m hm => Or.inl ?_⟩, fun hnot => ?_, h.windows⟩
    · rw [hadd]
      exact hcounter
    · rw [UInt16.le_iff_toNat_le, hadd]
      exact hasked m hm
    · obtain ⟨k, hk, hmod, hcalled⟩ := h.alone hnot
      exact ⟨k, hk, by rw [hadd, hmod], rfl, hcalled⟩
  | compare stored =>
    obtain ⟨hle, hpasses, hcounter, hstored, hasked⟩ := h.counts
    by_cases hreached : period ≤ (if reload then e.counter else stored)
    · simp only [TaskEntry.access, if_pos hreached, Option.getD_some]
      refine ⟨⟨hle, hpasses⟩, fun hnot => ?_, h.windows⟩
      obtain ⟨k, hk, hmod, hsame, hcalled⟩ := h.alone hnot
      rw [hsame, ite_self, UInt16.le_iff_toNat_le, hmod] at hreached
      exact ⟨k, hk, (dvd_succ_iff hpos).1.mpr
        (Nat.le_antisymm (Nat.mod_lt k hpos) hreached), hcalled⟩
    · simp only [TaskEntry.access, if_neg hreached, Option.getD_none]
      have hless : stored.toNat < period.toNat := by
        rw [UInt16.not_le, UInt16.lt_iff_toNat_lt] at hreached
        cases reload with
        | false => exact hreached
        | true =>
          rcases hstored with hsame | hperiod
          · exact hsame ▸ hreached
          · exact absurd (hperiod ▸ hreached) (Nat.lt_irrefl _)
      have hnext : e.passes < e.lastCall + period.toNat := by omega
      refine ⟨⟨hle.le, hnext, ?_, ?_, fun m hm => ?_⟩, fun hnot => ?_, h.windows⟩
      · rcases hstored with hsame | hperiod
        · rw [hsame]
          exact hcounter
        · rw [hperiod]
          exact hnext.le
      · rcases hstored with hsame | hperiod
        · rw [hsame]
          exact hless.le
        · rw [hperiod]
      · rcases hasked m hm with hle | hasked
        · exact absurd (UInt16.le_iff_toNat_le.mp hle) (Nat.not_le.mpr hless)
        · exact hasked
      · obtain ⟨k, hk, hmod, hsame, hcalled⟩ := h.alone hnot
        rw [hmod] at hless
        obtain ⟨hdvd, hsucc⟩ := dvd_succ_iff (k := k) hpos
        refine ⟨?_, ?_⟩
        · rw [hsame, hk, hmod, hsucc hless]
        · rw [hk, hcalled, multiples_succ, if_neg (fun h => hless.ne (hdvd.mp h)), List.append_nil]
  | reset =>
    obtain ⟨hle, hpasses⟩ := h.counts
    refine ⟨⟨hle, hpasses, Nat.zero_le _⟩, fun hnot => ?_, h.windows⟩
    obtain ⟨k, hk, hdvd, hcalled⟩ := h.alone hnot
    exact ⟨k, hk, hdvd, rfl, hcalled⟩
  | call =>
    obtain ⟨hle, hpasses, hcounter⟩ := h.counts
    have hlast : ({ e with called := e.called ++ [e.passes], asked := none } : TaskEntry).lastCall =
        e.passes := lastCall_concat _ _
    refine ⟨?_, fun hnot => ?_, fun j hj => ?_⟩
    · simp only [TaskEntry.access, Counts, Option.getD_none, hlast]
      exact ⟨Nat.le_refl _, by omega, Nat.le_add_right _ _, hcounter, by simp⟩
    · obtain ⟨k, hk, hdvd, hzero, hcalled⟩ := h.alone hnot
      refine ⟨?_, ?_⟩
      · simp only [TaskEntry.access, hk, hzero, Nat.mod_eq_zero_of_dvd hdvd]
        rfl
      · simp only [TaskEntry.access, hk, hcalled, multiples_succ, if_pos hdvd]
    · obtain ⟨m, hm, hwithin⟩ := h.windows j hj
      exact ⟨m, List.mem_append_left _ hm, hwithin⟩

/-- A recorded request keeps the first one. -/
theorem asked_getD {m : ℕ} (h : some (e.asked.getD e.passes) = some m) :
    e.asked = some m ∨ m = e.passes := by
  cases hasked : e.asked with
  | none =>
    rw [hasked] at h
    exact Or.inr (Option.some.inj h).symm
  | some first =>
    rw [hasked] at h
    exact Or.inl h

/-- **One request.** -/
theorem Sound.request (h : Sound period phase e) :
    Sound period phase (e.request period phase) := by
  by_cases hover : overwrites period phase = true
  · rw [TaskEntry.request, if_pos hover]
    cases phase with
    | store loaded => exact ⟨h.counts, h.alone, h.windows⟩
    | _ => exact absurd hover Bool.false_ne_true
  · rw [TaskEntry.request, if_neg hover]
    refine ⟨?_, fun hnot => absurd hnot (by simp), h.windows⟩
    cases phase with
    | load =>
      obtain ⟨hle, hpasses, -, -, hasked⟩ := h.counts
      refine ⟨hle, hpasses, hpasses.le, Nat.le_refl _, fun m hm => ⟨?_, rfl⟩⟩
      rcases asked_getD hm with hm | hm
      · exact (hasked m hm).1
      · exact hm
    | store loaded =>
      obtain ⟨hle, hpasses, hcounter, hloaded, -⟩ := h.counts
      refine ⟨hle, hpasses, hcounter, hloaded, fun _ _ => ?_⟩
      simpa [overwrites] using hover
    | compare stored =>
      obtain ⟨hle, hpasses, hcounter, -, hasked⟩ := h.counts
      refine ⟨hle, hpasses, hcounter, Or.inr rfl, fun m hm => ?_⟩
      rcases asked_getD hm with hm | hm
      · exact (hasked m hm).imp_right fun h => ⟨h.1, rfl⟩
      · exact Or.inr ⟨hm, rfl⟩
    | reset => exact h.counts
    | call =>
      obtain ⟨hle, hpasses, -⟩ := h.counts
      exact ⟨hle, hpasses, Nat.le_refl _⟩

/-- A request that the loop overwrites has no effect. -/
theorem access_request (reload : Bool) (h : overwrites period phase = true) :
    (e.request period phase).access period reload phase = e.access period reload phase := by
  cases phase with
  | store loaded => rw [TaskEntry.request, if_pos h, TaskEntry.access, TaskEntry.access]
  | _ => exact absurd h Bool.false_ne_true

end TaskEntry

namespace TaskLoop

open StepSystem

variable {n : ℕ} {F : Type} [NeZero n] {T : TaskTable n F} {s t : TaskLoop n}

/-- The invariant of the loop. -/
structure Sound (T : TaskTable n F) (s : TaskLoop n) : Prop where
  entries : ∀ i, (s.entries i).Sound (T.period i) (s.phaseOf i)
  /-- The passes of a task are the iterations, with the one that has reached it. -/
  passes : ∀ i, (s.entries i).passes =
    s.iterations + if i < s.task ∨ i = s.task ∧ s.phase ≠ .load then 1 else 0
  requested : ∀ i, T.soon (T.func i) = false → (s.entries i).requested = false

theorem sound_start (T : TaskTable n F) : Sound T start where
  entries := fun i => by
    rw [phaseOf, start, ite_self]
    exact TaskEntry.sound_start (T.period_pos i)
  passes := fun i => by simp [start]
  requested := fun _ _ => rfl

omit [NeZero n] in
theorem phaseOf_self (s : TaskLoop n) : s.phaseOf s.task = s.phase := if_pos rfl

theorem next_entries (s : TaskLoop n) : s.next.entries = s.entries := by
  rw [next]
  split_ifs <;> rfl

theorem next_phaseOf (s : TaskLoop n) (i : Fin n) : s.next.phaseOf i = .load := by
  have hphase : s.next.phase = .load := by
    rw [next]
    split_ifs <;> rfl
  rw [phaseOf, hphase, ite_self]

/-- The iterations count the passes up to a task when its pass has ended. -/
theorem next_passes (s : TaskLoop n) (i : Fin n) :
    (s.next.iterations +
        if i < s.next.task ∨ i = s.next.task ∧ s.next.phase ≠ .load then 1 else 0) =
      s.iterations + if i ≤ s.task then 1 else 0 := by
  rw [next]
  by_cases h : s.task.val + 1 < n
  · rw [dif_pos h]
    refine congrArg (s.iterations + ·) (if_congr ?_ rfl rfl)
    rw [Fin.lt_def, Fin.le_def, or_iff_left fun hload => hload.2 rfl]
    exact Nat.lt_succ_iff
  · rw [dif_neg h, if_pos (show i ≤ s.task from Nat.le_of_lt_succ (by omega)), if_neg (by simp)]

/-- The access of a pass that goes on, and of a pass that ends. -/
theorem access_passes (period : UInt16) (reload : Bool) (e : TaskEntry) (phase : TaskPhase) :
    ((e.access period reload phase).1.passes = e.passes + if phase = .load then 1 else 0) ∧
      (e.access period reload phase).2 ≠ some .load ∧
      ((e.access period reload phase).2 = none → phase ≠ .load) := by
  cases phase with
  | compare stored =>
    by_cases hreached : period ≤ (if reload then e.counter else stored)
    · simp [TaskEntry.access, if_pos hreached]
    · simp [TaskEntry.access, if_neg hreached]
  | _ => simp [TaskEntry.access]

/-- **One access of the loop.** -/
theorem Sound.access (h : Sound T s) (reload : Bool) (hstep : step T s (.access reload) = some t) :
    Sound T t := by
  obtain ⟨hpasses, hnotLoad, hended⟩ :=
    access_passes (T.period s.task) reload (s.entries s.task) s.phase
  have hentry := (phaseOf_self s ▸ h.entries s.task).access (T.period_pos _) (T.period_lt _) reload
  have hrequested : ((s.entries s.task).access (T.period s.task) reload s.phase).1.requested =
      (s.entries s.task).requested := by
    cases s.phase <;> rfl
  have hupdate (i : Fin n) :
      (Function.update s.entries s.task
          ((s.entries s.task).access (T.period s.task) reload s.phase).1 i).passes =
        (s.entries i).passes + (if i = s.task ∧ s.phase = .load then 1 else 0) ∧
      (Function.update s.entries s.task
          ((s.entries s.task).access (T.period s.task) reload s.phase).1 i).requested =
        (s.entries i).requested := by
    by_cases hi : i = s.task
    · subst hi
      rw [Function.update_self, hpasses]
      exact ⟨by simp, hrequested⟩
    · rw [Function.update_of_ne hi]
      exact ⟨by simp [hi], rfl⟩
  have hother {i : Fin n} (hi : i ≠ s.task) : (s.entries i).Sound (T.period i) .load := by
    have hi' := h.entries i
    rwa [phaseOf, if_neg hi] at hi'
  cases hphase : ((s.entries s.task).access (T.period s.task) reload s.phase).2 with
  | some phase =>
    simp only [step, hphase, Option.some.injEq] at hstep
    subst hstep
    rw [hphase] at hentry hnotLoad
    refine ⟨fun i => ?_, fun i => ?_, fun i hi => ?_⟩
    · by_cases hi : i = s.task
      · subst hi
        simpa [phaseOf] using hentry
      · simpa [phaseOf, hi] using hother hi
    · refine (hupdate i).1.trans ?_
      rw [h.passes i, Nat.add_assoc]
      refine congrArg (s.iterations + ·) ?_
      have hphase' : phase ≠ .load := fun heq => hnotLoad (congrArg some heq)
      by_cases hi : i = s.task
      · by_cases hload : s.phase = .load <;> simp [hi, hload, hphase']
      · simp [hi]
    · exact (hupdate i).2.trans (h.requested i hi)
  | none =>
    simp only [step, hphase, Option.some.injEq] at hstep
    subst hstep
    rw [hphase] at hentry
    refine ⟨fun i => ?_, fun i => ?_, fun i hi => ?_⟩
    · rw [next_entries, next_phaseOf]
      by_cases hi : i = s.task
      · subst hi
        simpa using hentry
      · simpa [hi] using hother hi
    · rw [next_entries, next_passes]
      refine (hupdate i).1.trans ?_
      rw [h.passes i]
      simp [hended hphase, le_iff_lt_or_eq]
    · rw [next_entries]
      exact (hupdate i).2.trans (h.requested i hi)

/-- **One request.** -/
theorem Sound.request (h : Sound T s) {i : Fin n} (hstep : step T s (.request i) = some t) :
    Sound T t := by
  simp only [step] at hstep
  split_ifs at hstep with hsoon
  obtain rfl := Option.some.inj hstep
  have hpasses : ((s.entries i).request (T.period i) (s.phaseOf i)).passes =
      (s.entries i).passes := by
    rw [TaskEntry.request]
    split_ifs <;> rfl
  refine ⟨fun j => ?_, fun j => ?_, fun j hj => ?_⟩
  · by_cases hji : j = i
    · subst hji
      simpa [phaseOf] using (h.entries j).request
    · simpa [phaseOf, hji] using h.entries j
  · refine Eq.trans ?_ (h.passes j)
    by_cases hji : j = i
    · subst hji
      simpa using hpasses
    · simp [hji]
  · have hji : j ≠ i := by
      rintro rfl
      rw [hj] at hsoon
      exact absurd hsoon Bool.false_ne_true
    simpa [hji] using h.requested j hj

theorem sound_run {actions : List (TaskLoopAction n)} (hrun : run (step T) start actions = some s) :
    Sound T s := by
  refine StepSystem.invariant_visits_of_step (fun s a t h hstep => ?_) (sound_start T)
    (StepSystem.visits_of_run hrun)
  cases a with
  | access reload => exact h.access reload hstep
  | request i => exact h.request hstep

/-- **Calls of periodic tasks.** However requests and the accesses of the loop interleave, and
outside of the passes of a task: it has had a pass in each iteration; if nobody asks for its
function, exactly the passes that are multiples of the period have called the function; of as many
passes as the period, one after the other, one has called it; and requests that are still to be
answered came after the last pass, so that a pass answers all requests before it. The exception are
requests between the load and the store of a counter for which the loop does not call the function
anyway: they have no effect. -/
theorem calls_run {actions : List (TaskLoopAction n)}
    (hrun : run (step T) start actions = some s) :
    (∀ i, s.phaseOf i = .load →
      let e := s.entries i
      e.passes = s.iterations + (if i < s.task then 1 else 0) ∧
      (T.soon (T.func i) = false → e.called = TaskEntry.multiples (T.period i) e.passes) ∧
      (∀ j, j + (T.period i).toNat ≤ e.passes →
        ∃ m ∈ e.called, j < m ∧ m ≤ j + (T.period i).toNat) ∧
      ∀ m, e.asked = some m → m = e.passes) ∧
    ∀ reload, T.soon (T.func s.task) = true →
      TaskEntry.overwrites (T.period s.task) s.phase = true →
      (step T s (.request s.task)).bind (fun t => step T t (.access reload)) =
        step T s (.access reload) := by
  have hsound := sound_run hrun
  constructor
  · intro i hphase e
    have hentry : e.Sound (T.period i) .load := hphase ▸ hsound.entries i
    refine ⟨?_, fun hsoon => ?_, fun j hj => hentry.windows_le hj, fun m hm => ?_⟩
    · refine (hsound.passes i).trans ?_
      have hnot : ¬(i = s.task ∧ s.phase ≠ .load) := by
        rintro ⟨rfl, hne⟩
        exact hne (phaseOf_self s ▸ hphase)
      simp [hnot]
    · exact (hentry.alone (hsound.requested i hsoon)).2
    · exact (hentry.counts.2.2.2.2 m hm).1
  · intro reload hsoon hover
    simp only [step, hsoon, if_true, Option.bind_some, Function.update_self, Function.update_idem,
      phaseOf_self, TaskEntry.access_request reload hover]

/-- A request for the clock status before the first iteration. -/
theorem calls_of_request :
    ∃ s, run (step telemTasks) start (.request 2 :: List.replicate 17 (.access false)) = some s ∧
      (s.entries 2).called = [1] ∧ (s.entries 0).called = TaskEntry.multiples 25 1 ∧
      ∀ m, (s.entries 2).asked = some m → m = 1 := by
  obtain ⟨s, hrun, hcalled, hpasses, hload⟩ : ∃ s,
      run (step telemTasks) start (.request 2 :: List.replicate 17 (.access false)) = some s ∧
        (s.entries 2).called = [1] ∧ ((s.entries 0).passes = 1 ∧ (s.entries 2).passes = 1) ∧
        s.phaseOf 0 = .load ∧ s.phaseOf 2 = .load :=
    ⟨_, rfl, rfl, ⟨rfl, rfl⟩, rfl, rfl⟩
  obtain ⟨-, hheartbeat, -, -⟩ := (calls_run hrun).1 0 hload.1
  obtain ⟨-, -, -, hasked⟩ := (calls_run hrun).1 2 hload.2
  rw [hpasses.1] at hheartbeat
  rw [hpasses.2] at hasked
  exact ⟨s, hrun, hcalled, hheartbeat rfl, hasked⟩

end TaskLoop

end TellerOBC
