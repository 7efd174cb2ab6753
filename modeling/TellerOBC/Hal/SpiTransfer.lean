import TellerOBC.Foundations.StepSystem

/-!
# SPI transfers and their event flags

The two forms of `transfer` in `hal/stm32/spi.cpp` in interrupt or DMA mode, with the callbacks
`HAL_SPI_TxRxCpltCallback` and `HAL_SPI_ErrorCallback`. A call starts hardware transfers one after
the other and waits for each: the interrupt that ends a hardware transfer sets one of the event
flags `EVT_DONE` and `EVT_ERROR` of the bus, and the wait returns the flags that are set and
clears them. A wait that times out or finds an error is followed by `HAL_SPI_Abort`, which stops
the hardware transfer. The calls on one bus hold its lock, so they come one after the other.

The flags are not cleared before a hardware transfer is started. An interrupt between the return of
a failed wait and the abort leaves its flag set, and the next call takes `EVT_DONE` for its own.

The hardware transfers are numbered in the order in which they are started. Of the buffers only
it matters here whether they are null.

## Main definitions

* `TellerOBC.SpiBus`, `TellerOBC.SpiBus.step`: a bus with the call that uses it, and its steps.
* `TellerOBC.SpiBus.TruthfulSuccess`: a successful call has completed its hardware transfers.
* `TellerOBC.SpiBus.NoLateCompletion`: no completion between a failed wait and the abort.

## Main results

* `TellerOBC.SpiBus.DoneIsOwn.step`: the invariant of `EVT_DONE`.
* `TellerOBC.SpiBus.truthfulSuccess_of_noLateCompletion`: in which runs success is truthful.
-/

namespace TellerOBC

/-- What is left of a call: the one transfer of the form with two buffers, or the entries of the
array that were not reached, with the number of transfers still allowed. An entry is `true` if one
of its buffers is not null; `false` is the guard element. -/
inductive PendingTransfers where
  | single
  | multi (entries : List Bool) (count : ℕ)
  deriving DecidableEq, Repr

/-- Where a call of `transfer` is: returned with a result, before a hardware transfer, in
`osEventFlagsWait`, or after a wait that failed. -/
inductive TransferPhase where
  | idle (result : Option Bool)
  | entering (pending : PendingTransfers)
  | waiting (pending : PendingTransfers)
  | aborting
  deriving DecidableEq, Repr

/-- An SPI bus with the call that uses it. -/
structure SpiBus where
  /-- The event flag `EVT_DONE`. -/
  evtDone : Bool := false
  /-- The event flag `EVT_ERROR`. -/
  evtError : Bool := false
  /-- The hardware transfer that is in progress. -/
  running : Option ℕ := none
  /-- The number of hardware transfers started so far. -/
  started : ℕ := 0
  /-- The hardware transfers that have completed. -/
  completed : List ℕ := []
  /-- The first hardware transfer of the last call. -/
  callFirst : ℕ := 0
  /-- Whether the call leaves the chip select line alone. -/
  noChipSelect : Bool := true
  /-- Whether the call has pulled the chip select line low. -/
  chipSelected : Bool := false
  phase : TransferPhase := .idle none
  deriving DecidableEq, Repr

/-- The arguments of a call: whether one of the two buffers is not null, or the array with the
maximum number of transfers. -/
inductive TransferForm where
  | single (buffers : Bool)
  | multi (transfers : List Bool) (count : ℕ)
  deriving DecidableEq, Repr

/-- The steps of a bus. -/
inductive SpiAction where
  | call (form : TransferForm) (noChipSelect : Bool)
  /-- Start the next hardware transfer, if there is one and the hardware accepts it. -/
  | proceed (accepted : Bool)
  /-- The wait returns the flags that are set. -/
  | waitReturns
  | waitTimesOut
  | abort
  /-- `HAL_SPI_TxRxCpltCallback`. -/
  | complete
  /-- `HAL_SPI_ErrorCallback`. -/
  | error
  deriving DecidableEq, Repr

namespace SpiBus

variable (s : SpiBus)

/-- The end of a call: release the chip select line and return. -/
def finish (result : Bool) : SpiBus :=
  { s with
    chipSelected := s.chipSelected && s.noChipSelect
    phase := .idle (some result) }

/-- The beginning of a call. Without buffers there is nothing to do, and a maximum number of zero
means the largest one. -/
def call (noChipSelect : Bool) : TransferForm → SpiBus
  | .single false => { s with callFirst := s.started, phase := .idle (some true) }
  | .single true =>
    { s with
      callFirst := s.started, noChipSelect := noChipSelect, chipSelected := !noChipSelect
      phase := .entering .single }
  | .multi transfers count =>
    { s with
      callFirst := s.started, noChipSelect := noChipSelect, chipSelected := !noChipSelect
      phase := .entering (.multi transfers (if count = 0 then 65535 else count)) }

/-- `HAL_SPI_TransmitReceive_IT` or `HAL_SPI_TransmitReceive_DMA`: the hardware refuses a transfer
while one is in progress. -/
def startHardware (accepted : Bool) (pending : PendingTransfers) : SpiBus :=
  if accepted && s.running.isNone then
    { s with running := some s.started, started := s.started + 1, phase := .waiting pending }
  else s.finish false

/-- What a call does before a hardware transfer. An array that ends before its guard element and
before the maximum number of transfers would be read past its end. -/
def proceed (accepted : Bool) : PendingTransfers → Option SpiBus
  | .single => some (s.startHardware accepted .single)
  | .multi _ 0 => some (s.finish false)
  | .multi [] (_ + 1) => none
  | .multi (false :: _) (_ + 1) => some (s.finish true)
  | .multi (true :: entries) (count + 1) => some (s.startHardware accepted (.multi entries count))

/-- What a call does with the flags that the wait returns. -/
def handleEvents (pending : PendingTransfers) : SpiBus :=
  let cleared := { s with evtDone := false, evtError := false }
  if s.evtError then { cleared with phase := .aborting }
  else
    match pending with
    | .single => cleared.finish s.evtDone
    | .multi entries count => { cleared with phase := .entering (.multi entries count) }

/-- The steps of the bus. -/
def step (s : SpiBus) : SpiAction → Option SpiBus
  | .call form noChipSelect =>
    match s.phase with
    | .idle _ => some (s.call noChipSelect form)
    | _ => none
  | .proceed accepted =>
    match s.phase with
    | .entering pending => s.proceed accepted pending
    | _ => none
  | .waitReturns =>
    match s.phase with
    | .waiting pending => if s.evtDone || s.evtError then some (s.handleEvents pending) else none
    | _ => none
  | .waitTimesOut =>
    match s.phase with
    | .waiting _ =>
      if s.evtDone || s.evtError then none else some { s with phase := .aborting }
    | _ => none
  | .abort =>
    if s.phase = .aborting then some ({ s with running := none }.finish false) else none
  | .complete =>
    s.running.map fun transfer =>
      { s with evtDone := true, running := none, completed := transfer :: s.completed }
  | .error => s.running.map fun _ => { s with evtError := true, running := none }

/-! ### What the steps do -/

section Steps

variable {s} {t : SpiBus} {pending : PendingTransfers}

/-- Before a hardware transfer a call returns, or tries to start it. -/
theorem proceed_cases {accepted : Bool} (h : s.proceed accepted pending = some t) :
    (∃ result, t = s.finish result) ∨ ∃ pending', t = s.startHardware accepted pending' := by
  match pending, h with
  | .single, h => exact Or.inr ⟨_, (Option.some.inj h).symm⟩
  | .multi _ 0, h => exact Or.inl ⟨_, (Option.some.inj h).symm⟩
  | .multi (false :: _) (_ + 1), h => exact Or.inl ⟨_, (Option.some.inj h).symm⟩
  | .multi (true :: _) (_ + 1), h => exact Or.inr ⟨_, (Option.some.inj h).symm⟩

theorem step_call {form : TransferForm} {noChipSelect : Bool}
    (hstep : s.step (.call form noChipSelect) = some t) :
    (∃ result, s.phase = .idle result) ∧ t = s.call noChipSelect form := by
  simp only [step] at hstep
  split at hstep
  · rename_i result hphase
    exact ⟨⟨result, hphase⟩, (Option.some.inj hstep).symm⟩
  · cases hstep

theorem step_proceed {accepted : Bool} (hstep : s.step (.proceed accepted) = some t) :
    ∃ pending, s.phase = .entering pending ∧
      ((∃ result, t = s.finish result) ∨ ∃ pending', t = s.startHardware accepted pending') := by
  simp only [step] at hstep
  split at hstep
  · rename_i pending hphase
    exact ⟨pending, hphase, proceed_cases hstep⟩
  · cases hstep

theorem step_waitReturns (hstep : s.step .waitReturns = some t) :
    ∃ pending, s.phase = .waiting pending ∧ (s.evtDone || s.evtError) = true ∧
      t = s.handleEvents pending := by
  simp only [step] at hstep
  split at hstep
  · rename_i pending hphase
    split_ifs at hstep with hset
    exact ⟨pending, hphase, hset, (Option.some.inj hstep).symm⟩
  · cases hstep

/-- A wait times out if no flag is set. -/
theorem step_waitTimesOut (hstep : s.step .waitTimesOut = some t) :
    (s.evtDone = false ∧ s.evtError = false) ∧ t = { s with phase := .aborting } := by
  simp only [step] at hstep
  split at hstep
  · split_ifs at hstep with hset
    rw [Bool.or_eq_true, not_or, Bool.not_eq_true, Bool.not_eq_true] at hset
    exact ⟨hset, (Option.some.inj hstep).symm⟩
  · cases hstep

theorem step_abort (hstep : s.step .abort = some t) :
    s.phase = .aborting ∧ t = finish { s with running := none } false := by
  simp only [step] at hstep
  split_ifs at hstep with hphase
  exact ⟨hphase, (Option.some.inj hstep).symm⟩

end Steps

/-! ### Successful calls -/

/-- The hardware transfers of the call below the given number have completed. -/
def CompletedBelow (bound : ℕ) : Prop :=
  ∀ transfer, s.callFirst ≤ transfer → transfer < bound → transfer ∈ s.completed

/-- If the last call returned true, all hardware transfers that it started have completed. -/
def TruthfulSuccess : Prop :=
  s.phase = .idle (some true) → s.CompletedBelow s.started

/-- No completion is raised between the return of a failed wait and the abort. -/
def NoLateCompletion (action : SpiAction) : Prop :=
  action = .complete → s.phase ≠ .aborting

/-- What `EVT_DONE` means in each phase: while no hardware transfer was started it is clear, and
after that it is set by the last one. -/
def DoneIsOwn : Prop :=
  match s.phase with
  | .idle result =>
    s.evtDone = false ∧ s.running = none ∧ (result = some true → s.CompletedBelow s.started)
  | .entering _ =>
    s.evtDone = false ∧ s.running = none ∧ s.callFirst ≤ s.started ∧ s.CompletedBelow s.started
  | .waiting _ =>
    s.callFirst < s.started ∧ s.CompletedBelow (s.started - 1) ∧
      (∀ transfer, s.running = some transfer → transfer = s.started - 1 ∧ s.evtDone = false) ∧
      (s.evtDone = true → s.started - 1 ∈ s.completed)
  | .aborting => s.evtDone = false

variable {s} {t : SpiBus} {action : SpiAction} {pending : PendingTransfers}

theorem CompletedBelow.succ {n : ℕ} (h : s.CompletedBelow n) (hn : n ∈ s.completed) :
    s.CompletedBelow (n + 1) := by
  intro transfer hlow hhigh
  rcases Nat.lt_succ_iff_lt_or_eq.mp hhigh with hlt | rfl
  · exact h transfer hlow hlt
  · exact hn

/-- A call that has not started a hardware transfer has completed all that it started. -/
theorem DoneIsOwn.call {result : Option Bool} (h : s.DoneIsOwn) (hphase : s.phase = .idle result)
    (form : TransferForm) (noChipSelect : Bool) : (s.call noChipSelect form).DoneIsOwn := by
  simp only [DoneIsOwn, hphase] at h
  obtain ⟨hdone, hrunning, -⟩ := h
  have hnone : ∀ transfer, s.started ≤ transfer → transfer < s.started →
      transfer ∈ s.completed := fun transfer hlow hhigh => absurd hlow (by omega)
  match form with
  | .single false => exact ⟨hdone, hrunning, fun _ => hnone⟩
  | .single true => exact ⟨hdone, hrunning, le_rfl, hnone⟩
  | .multi _ _ => exact ⟨hdone, hrunning, le_rfl, hnone⟩

/-- A call that returns before a hardware transfer has completed all that it started. -/
theorem DoneIsOwn.finish (h : s.DoneIsOwn) (hphase : s.phase = .entering pending)
    (result : Bool) : (s.finish result).DoneIsOwn := by
  simp only [DoneIsOwn, hphase] at h
  exact ⟨h.1, h.2.1, fun _ => h.2.2.2⟩

theorem DoneIsOwn.startHardware (h : s.DoneIsOwn) (hphase : s.phase = .entering pending)
    (accepted : Bool) (pending' : PendingTransfers) :
    (s.startHardware accepted pending').DoneIsOwn := by
  rw [SpiBus.startHardware]
  split
  · simp only [DoneIsOwn, hphase] at h
    obtain ⟨hdone, -, hle, hcompleted⟩ := h
    refine ⟨Nat.lt_succ_of_le hle, hcompleted, ?_, fun htrue => ?_⟩
    · rintro transfer ⟨⟩
      exact ⟨rfl, hdone⟩
    · exact absurd htrue (by simp [hdone])
  · exact h.finish hphase false

/-- The wait returns without an error only if the last hardware transfer has completed. -/
theorem DoneIsOwn.handleEvents (h : s.DoneIsOwn) (hphase : s.phase = .waiting pending)
    (hset : (s.evtDone || s.evtError) = true) : (s.handleEvents pending).DoneIsOwn := by
  simp only [DoneIsOwn, hphase] at h
  obtain ⟨hlt, hbelow, hrunning, hlast⟩ := h
  cases herror : s.evtError with
  | true =>
    simp only [SpiBus.handleEvents, herror, ↓reduceIte]
    rfl
  | false =>
    simp only [SpiBus.handleEvents, herror, Bool.false_eq_true, ↓reduceIte]
    have hdone : s.evtDone = true := by simpa [herror] using hset
    have hnone : s.running = none := by
      rw [Option.eq_none_iff_forall_ne_some]
      intro transfer hsome
      exact absurd (hrunning transfer hsome).2 (by simp [hdone])
    have hall : s.CompletedBelow s.started := by
      have hsucc := hbelow.succ (hlast hdone)
      rwa [Nat.sub_add_cancel (by omega)] at hsucc
    cases pending with
    | single => exact ⟨rfl, hnone, fun _ => hall⟩
    | multi entries count => exact ⟨rfl, hnone, hlt.le, hall⟩

/-- The end of a hardware transfer sets the flag of the phase that waits for it. -/
theorem DoneIsOwn.complete (h : s.DoneIsOwn) (hlate : s.phase ≠ .aborting) {transfer : ℕ}
    (hrunning : s.running = some transfer) :
    DoneIsOwn { s with evtDone := true, running := none,
                       completed := transfer :: s.completed } := by
  cases hphase : s.phase with
  | idle result =>
    simp only [DoneIsOwn, hphase] at h
    exact absurd h.2.1 (by simp [hrunning])
  | entering pending =>
    simp only [DoneIsOwn, hphase] at h
    exact absurd h.2.1 (by simp [hrunning])
  | waiting pending =>
    simp only [DoneIsOwn, hphase] at h ⊢
    obtain ⟨hlt, hbelow, hown, -⟩ := h
    obtain ⟨rfl, -⟩ := hown transfer hrunning
    exact ⟨hlt, fun n hlow hhigh => List.mem_cons_of_mem _ (hbelow n hlow hhigh),
      fun _ hsome => by simp at hsome, fun _ => List.mem_cons_self⟩
  | aborting => exact absurd hphase hlate

theorem DoneIsOwn.error (h : s.DoneIsOwn) :
    DoneIsOwn { s with evtError := true, running := none } := by
  cases hphase : s.phase with
  | idle result =>
    simp only [DoneIsOwn, hphase] at h ⊢
    exact ⟨h.1, trivial, h.2.2⟩
  | entering pending =>
    simp only [DoneIsOwn, hphase] at h ⊢
    exact ⟨h.1, trivial, h.2.2⟩
  | waiting pending =>
    simp only [DoneIsOwn, hphase] at h ⊢
    exact ⟨h.1, h.2.1, fun _ hsome => by simp at hsome, h.2.2.2⟩
  | aborting =>
    simp only [DoneIsOwn, hphase] at h ⊢
    exact h

/-- One step keeps the meaning of `EVT_DONE` unless a completion comes late. -/
theorem DoneIsOwn.step (h : s.DoneIsOwn) (hok : s.NoLateCompletion action)
    (hstep : s.step action = some t) : t.DoneIsOwn := by
  cases action with
  | call form noChipSelect =>
    obtain ⟨⟨result, hphase⟩, rfl⟩ := step_call hstep
    exact h.call hphase form noChipSelect
  | proceed accepted =>
    obtain ⟨pending, hphase, ⟨result, rfl⟩ | ⟨pending', rfl⟩⟩ := step_proceed hstep
    · exact h.finish hphase result
    · exact h.startHardware hphase accepted pending'
  | waitReturns =>
    obtain ⟨pending, hphase, hset, rfl⟩ := step_waitReturns hstep
    exact h.handleEvents hphase hset
  | waitTimesOut =>
    obtain ⟨⟨hdone, -⟩, rfl⟩ := step_waitTimesOut hstep
    exact hdone
  | abort =>
    obtain ⟨hphase, rfl⟩ := step_abort hstep
    simp only [DoneIsOwn, hphase] at h
    exact ⟨h, rfl, fun hfalse => by simp at hfalse⟩
  | complete =>
    obtain ⟨transfer, hrunning, rfl⟩ := Option.map_eq_some_iff.mp hstep
    exact h.complete (hok rfl) hrunning
  | error =>
    obtain ⟨transfer, hrunning, rfl⟩ := Option.map_eq_some_iff.mp hstep
    exact h.error

theorem DoneIsOwn.truthfulSuccess (h : s.DoneIsOwn) : s.TruthfulSuccess := by
  intro hphase
  simp only [DoneIsOwn, hphase] at h
  exact h.2.2 trivial

/-! ### Late completions -/

/-- What holds in every run: only hardware transfers that were started run or complete, and while
one runs on after a failed wait the flags are clear. -/
structure Numbered (s : SpiBus) : Prop where
  running_lt : ∀ transfer, s.running = some transfer → transfer < s.started
  completed_lt : ∀ transfer ∈ s.completed, transfer < s.started
  flags_clear : s.phase = .aborting → s.running ≠ none → s.evtDone = false ∧ s.evtError = false

/-- A step that leaves the hardware transfers alone and does not enter the abort. -/
theorem Numbered.of_eq (h : s.Numbered) (hrunning : t.running = s.running ∨ t.running = none)
    (hstarted : t.started = s.started) (hcompleted : t.completed = s.completed)
    (hphase : t.phase ≠ .aborting) : t.Numbered := by
  refine ⟨fun n hn => ?_, ?_, fun habort => absurd habort hphase⟩
  · rcases hrunning with heq | hnone
    · rw [hstarted]
      exact h.running_lt n (heq ▸ hn)
    · rw [hnone] at hn
      cases hn
  · rw [hstarted, hcompleted]
    exact h.completed_lt

theorem Numbered.startHardware (h : s.Numbered) (accepted : Bool) (pending : PendingTransfers) :
    (s.startHardware accepted pending).Numbered := by
  rw [SpiBus.startHardware]
  split
  · refine ⟨?_, fun n hn => Nat.lt_succ_of_lt (h.completed_lt n hn), ?_⟩
    · rintro n ⟨⟩
      exact Nat.lt_succ_self _
    · rintro ⟨⟩
  · exact h.of_eq (Or.inl rfl) rfl rfl (by rintro ⟨⟩)

theorem Numbered.handleEvents (h : s.Numbered) (pending : PendingTransfers) :
    (s.handleEvents pending).Numbered := by
  cases herror : s.evtError with
  | true =>
    simp only [SpiBus.handleEvents, herror, ↓reduceIte]
    exact ⟨h.running_lt, h.completed_lt, fun _ _ => ⟨rfl, rfl⟩⟩
  | false =>
    simp only [SpiBus.handleEvents, herror, Bool.false_eq_true, ↓reduceIte]
    cases pending with
    | single => exact h.of_eq (Or.inl rfl) rfl rfl (by rintro ⟨⟩)
    | multi entries count => exact h.of_eq (Or.inl rfl) rfl rfl (by rintro ⟨⟩)

theorem Numbered.step (h : s.Numbered) (hstep : s.step action = some t) : t.Numbered := by
  cases action with
  | call form noChipSelect =>
    obtain ⟨-, rfl⟩ := step_call hstep
    match form with
    | .single false => exact h.of_eq (Or.inl rfl) rfl rfl (by rintro ⟨⟩)
    | .single true => exact h.of_eq (Or.inl rfl) rfl rfl (by rintro ⟨⟩)
    | .multi _ _ => exact h.of_eq (Or.inl rfl) rfl rfl (by rintro ⟨⟩)
  | proceed accepted =>
    obtain ⟨pending, -, ⟨result, rfl⟩ | ⟨pending', rfl⟩⟩ := step_proceed hstep
    · exact h.of_eq (Or.inl rfl) rfl rfl (by rintro ⟨⟩)
    · exact h.startHardware accepted pending'
  | waitReturns =>
    obtain ⟨pending, -, -, rfl⟩ := step_waitReturns hstep
    exact h.handleEvents pending
  | waitTimesOut =>
    obtain ⟨hflags, rfl⟩ := step_waitTimesOut hstep
    exact ⟨h.running_lt, h.completed_lt, fun _ _ => hflags⟩
  | abort =>
    obtain ⟨-, rfl⟩ := step_abort hstep
    exact h.of_eq (Or.inr rfl) rfl rfl (by rintro ⟨⟩)
  | complete =>
    obtain ⟨transfer, hrunning, rfl⟩ := Option.map_eq_some_iff.mp hstep
    refine ⟨fun n hn => by simp at hn, ?_, fun _ hsome => absurd rfl hsome⟩
    rintro n (_ | ⟨_, hn⟩)
    · exact h.running_lt transfer hrunning
    · exact h.completed_lt n hn
  | error =>
    obtain ⟨transfer, hrunning, rfl⟩ := Option.map_eq_some_iff.mp hstep
    exact ⟨fun n hn => by simp at hn, h.completed_lt, fun _ hsome => absurd rfl hsome⟩

/-- After a completion between a failed wait and its abort the next call returns true while its
hardware transfer is in progress. -/
theorem Numbered.false_success (h : s.Numbered) (hphase : s.phase = .aborting)
    (hrunning : s.running ≠ none) (noChipSelect : Bool) :
    ∃ t, StepSystem.run SpiBus.step s [.complete, .abort, .call (.single true) noChipSelect,
        .proceed true, .waitReturns] = some t ∧
      t.phase = .idle (some true) ∧ ¬ t.TruthfulSuccess := by
  obtain ⟨transfer, hsome⟩ := Option.ne_none_iff_exists'.mp hrunning
  obtain ⟨-, herror⟩ := h.flags_clear hphase hrunning
  simp only [StepSystem.run_cons, StepSystem.run_nil, SpiBus.step, hsome, hphase, herror,
    SpiBus.finish, SpiBus.call, SpiBus.proceed, SpiBus.startHardware, SpiBus.handleEvents,
    Option.map_some, Option.bind_some, Option.isNone_none, Bool.and_self, Bool.or_false,
    Bool.false_eq_true, ↓reduceIte]
  refine ⟨_, rfl, rfl, fun htruth => ?_⟩
  have hmem := htruth rfl s.started le_rfl (Nat.lt_succ_self _)
  rcases List.mem_cons.mp hmem with heq | hold
  · exact absurd (h.running_lt transfer hsome) (by omega)
  · exact absurd (h.completed_lt _ hold) (Nat.lt_irrefl _)

/-! ### Runs -/

/-- A bus on which nothing was transferred yet. -/
def start : SpiBus := {}

theorem doneIsOwn_start : start.DoneIsOwn := ⟨rfl, rfl, fun hfalse => by cases hfalse⟩

theorem numbered_start : start.Numbered where
  running_lt := nofun
  completed_lt := nofun
  flags_clear := nofun

/-- **Success is truthful if no completion comes late.** In a run of calls and interrupts from a
bus on which nothing was transferred yet, in which no completion is raised between the return of a
failed wait and the abort, a call that returns true has completed all hardware transfers that it
started. The condition is sharp: after any run, such a late completion lets the next call return
true while its hardware transfer is in progress. -/
theorem truthfulSuccess_of_noLateCompletion {actions : List SpiAction} {t : SpiBus}
    (hvisit : StepSystem.Visits step start actions t) :
    (StepSystem.Meets step NoLateCompletion start actions → t.TruthfulSuccess) ∧
      ((t.step .complete).isSome → ¬ t.NoLateCompletion .complete → ∀ noChipSelect,
        ∃ u, StepSystem.run step t [.complete, .abort, .call (.single true) noChipSelect,
            .proceed true, .waitReturns] = some u ∧
          u.phase = .idle (some true) ∧ ¬ u.TruthfulSuccess) := by
  constructor
  · intro hmeets
    have hown : t.DoneIsOwn :=
      StepSystem.invariant_visits (fun _ _ _ hs hok hstep => DoneIsOwn.step hs hok hstep)
        doneIsOwn_start hmeets hvisit
    exact hown.truthfulSuccess
  · intro henabled hlate noChipSelect
    have hnumbered : t.Numbered :=
      StepSystem.invariant_visits_of_step (fun _ _ _ hs hstep => Numbered.step hs hstep)
        numbered_start hvisit
    simp only [NoLateCompletion, not_forall, not_not] at hlate
    obtain ⟨-, hphase⟩ := hlate
    refine hnumbered.false_success hphase (fun hnone => ?_) noChipSelect
    simp [SpiBus.step, hnone] at henabled

/-- A transfer times out, completes before the abort, and the next call returns true while its
own transfer is in progress. -/
theorem success_before_completion :
    ∃ t, StepSystem.run step start
        [.call (.single true) true, .proceed true, .waitTimesOut, .complete, .abort,
          .call (.single true) true, .proceed true, .waitReturns] = some t ∧
      t.phase = .idle (some true) ∧ ¬ t.TruthfulSuccess :=
  ⟨_, rfl, rfl, fun h => absurd (h rfl 1 (by decide) (by decide)) (by decide)⟩

/-- A header and a data transfer of one call complete in time and the call succeeds. -/
theorem truthfulSuccess_two_transfers :
    ∃ t, StepSystem.run step start
        [.call (.multi [true, true, false] 0) false, .proceed true, .complete, .waitReturns,
          .proceed true, .complete, .waitReturns, .proceed true] = some t ∧
      t.phase = .idle (some true) ∧ t.TruthfulSuccess := by
  have hmeets : StepSystem.Meets step NoLateCompletion start
      [.call (.multi [true, true, false] 0) false, .proceed true, .complete, .waitReturns,
        .proceed true, .complete, .waitReturns, .proceed true] := by
    refine .cons ?_ rfl (.cons ?_ rfl (.cons ?_ rfl (.cons ?_ rfl (.cons ?_ rfl (.cons ?_ rfl
      (.cons ?_ rfl (.cons ?_ rfl trivial))))))) <;> rintro - ⟨⟩
  exact ⟨_, rfl, rfl, (truthfulSuccess_of_noLateCompletion (StepSystem.visits_of_run rfl)).1 hmeets⟩

end SpiBus

end TellerOBC
