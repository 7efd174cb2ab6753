import TellerOBC.Foundations.StepSystem
import TellerOBC.Storage.Medium

/-!
# Handing an operation over to the reader task

The command task starts operations and the storage reader task runs and drops them, without a
lock between them. Here the start functions and the loop of `runStorageReader` are cut into
atomic steps: the start functions test whether an operation is running, construct the new
operation and install it; the reader tests whether there is an operation, iterates it, tests
whether it is still running, and clears it. Every step reads the operation anew, as the source
reads the member `_operation`.

The operations get numbers in the order in which they are installed. An operation is *ended* once
its `iterate` returned an error or its `running` was observed to be false by either task. The
test of a start function can see a finished operation that the reader has not cleared yet; if
the new operation is installed before the reader clears, the reader clears the new one.

## Main definitions

* `TellerOBC.Handover`: the storage module with the program points of both tasks.
* `TellerOBC.Handover.step`: the atomic steps.
* `TellerOBC.Handover.Justified`: the invariant.

## Main results

* `TellerOBC.Handover.exists_run_reader`, `TellerOBC.Handover.exists_run_request`: steps of one
  task without steps of the other one do what the functions of the source do.
* `TellerOBC.Handover.removed_after_end`: operations are removed only after their end, in every
  run where no operation is installed while the reader is about to clear.
-/

namespace TellerOBC

variable {W : Type} (io : StorageIO W)

/-! ### The start functions -/

/-- The arguments of a start function. -/
inductive StartRequest where
  | rawStorageDownload (area : StorageArea) (address : UInt64) (length : UInt16)
      (targets seqNo : UInt8)
  | directoryListing (area : StorageArea) (name : List UInt8) (start_ count : UInt16)
      (targets seqNo : UInt8)
  | fileDownload (area : StorageArea) (path : List UInt8) (offset : UInt32) (length : UInt16)
      (targets seqNo : UInt8)

namespace StartRequest

/-- The telemetry targets of a request. -/
def targets : StartRequest → UInt8
  | rawStorageDownload _ _ _ targets _ => targets
  | directoryListing _ _ _ _ targets _ => targets
  | fileDownload _ _ _ _ targets _ => targets

/-- The sequence number of a request. -/
def seqNo : StartRequest → UInt8
  | rawStorageDownload _ _ _ _ seqNo => seqNo
  | directoryListing _ _ _ _ _ seqNo => seqNo
  | fileDownload _ _ _ _ _ seqNo => seqNo

/-- Construct the operation of a request; `none` if it does not start. -/
def construct (s : Storage W) : StartRequest → Option StorageAccessOperation × Storage W
  | rawStorageDownload area address length _ _ =>
    match s.makeRawStorageRead area address length with
    | (none, op, s) => (some op, s)
    | (some _, _, s) => (none, s)
  | directoryListing area name start_ count _ _ =>
    match s.makeDirectoryListing io area name start_ count with
    | (none, op, s) => (some op, s)
    | (some _, _, s) => (none, s)
  | fileDownload area path offset length _ _ =>
    match s.makeFileDownload io area path offset length with
    | (.ok _, op, s) => (some op, s)
    | (.error _, _, s) => (none, s)

/-- The storage module after the start function of a request. -/
def call (s : Storage W) : StartRequest → Storage W
  | rawStorageDownload area address length targets seqNo =>
    (s.startRawStorageDownload io area address length targets seqNo).2
  | directoryListing area name start_ count targets seqNo =>
    (s.startDirectoryListing io area name start_ count targets seqNo).2
  | fileDownload area path offset length targets seqNo =>
    (s.startFileDownload io area path offset length targets seqNo).2

/-- A start function tests, prepares, constructs and installs. -/
theorem call_eq (s : Storage W) (r : StartRequest) :
    r.call io s =
      if s.access.running then s
      else match r.construct io (s.prepare r.targets r.seqNo) with
        | (none, s) => s
        | (some op, s) => s.setOperation io (some op) := by
  cases r with
  | rawStorageDownload area address length targets seqNo =>
    simp only [call, Storage.startRawStorageDownload, construct, StartRequest.targets,
      StartRequest.seqNo]
    split
    · rfl
    · rcases (s.prepare targets seqNo).makeRawStorageRead area address length with
        ⟨_ | e, op, t⟩ <;> rfl
  | directoryListing area name start_ count targets seqNo =>
    simp only [call, Storage.startDirectoryListing, construct, StartRequest.targets,
      StartRequest.seqNo]
    split
    · rfl
    · rcases (s.prepare targets seqNo).makeDirectoryListing io area name start_ count with
        ⟨_ | e, op, t⟩ <;> rfl
  | fileDownload area path offset length targets seqNo =>
    simp only [call, Storage.startFileDownload, construct, StartRequest.targets,
      StartRequest.seqNo]
    split
    · rfl
    · rcases (s.prepare targets seqNo).makeFileDownload io area path offset length with
        ⟨e | size, op, t⟩ <;> rfl

end StartRequest

/-! ### The atomic steps -/

/-- The program points of the command task, by the step that comes next. -/
inductive CommandPoint where
  /-- No start function is being called. -/
  | idle
  | construct (r : StartRequest)
  | install (op : StorageAccessOperation)

/-- The program points of the storage reader task, by the step that comes next. -/
inductive ReaderPoint where
  /-- Test whether there is an operation. -/
  | take
  | iterate
  /-- Test whether the operation is still running. -/
  | test
  /-- Clear the operation that was not running. -/
  | clear
  /-- Clear the operation that failed. -/
  | clearFailed
  /-- Cancel once more in `runStorageReader` after the failure. -/
  | cancel
  deriving DecidableEq, Repr

/-- Whether the reader is about to clear. -/
def ReaderPoint.clearing : ReaderPoint → Bool
  | take | iterate | test => false
  | clear | clearFailed | cancel => true

/-- The storage module, the program points of the two tasks, and what happened to the operations:
the number of the installed one, the number of operations installed so far, and the numbers of
those that ended and of those that were removed. -/
structure Handover (W : Type) where
  storage : Storage W
  command : CommandPoint := .idle
  reader : ReaderPoint := .take
  installed : Option ℕ := none
  started : ℕ := 0
  ended : List ℕ := []
  removed : List ℕ := []

/-- The steps: a call of a start function, which begins with its test, the next step of the
pending start function, and the next step of the reader task. -/
inductive HandoverAction where
  | request (r : StartRequest)
  | command
  | reader

namespace Handover

variable (s : Handover W)

/-- `_setOperation` with the number of the removed operation and of the new one. -/
def replace (op : Option StorageAccessOperation) : Handover W :=
  { s with
    storage := s.storage.setOperation io op
    installed := op.map fun _ => s.started
    started := s.started + op.toList.length
    removed := s.installed.toList ++ s.removed }

/-- The installed operation was seen to be at its end. -/
def observeEnd : Handover W := { s with ended := s.installed.toList ++ s.ended }

/-- The next step of the pending start function. -/
def commandStep : Option (Handover W) :=
  match s.command with
  | .idle => none
  | .construct r =>
    match r.construct io s.storage with
    | (none, storage) => some { s with storage := storage, command := .idle }
    | (some op, storage) => some { s with storage := storage, command := .install op }
  | .install op => some { s.replace io (some op) with command := .idle }

/-- The next step of the reader task. -/
def readerStep : Handover W :=
  match s.reader with
  | .take => if s.storage.access.operation.isSome then { s with reader := .iterate } else s
  | .iterate =>
    match s.storage.iterateOperation io with
    | (some _, storage) => { s.observeEnd with storage := storage, reader := .clearFailed }
    | (none, storage) => { s with storage := storage, reader := .test }
  | .test =>
    if s.storage.access.running then { s with reader := .take }
    else { s.observeEnd with reader := .clear }
  | .clear => { s.replace io none with reader := .take }
  | .clearFailed => { s.replace io none with reader := .cancel }
  | .cancel => { s.replace io none with reader := .take }

/-- The atomic steps. A start function that finds a running operation returns at once. -/
def step : HandoverAction → Option (Handover W)
  | .request r =>
    match s.command with
    | .idle =>
      some (if s.storage.access.running then s
        else
          { s.observeEnd with
            storage := s.storage.prepare r.targets r.seqNo
            command := .construct r })
    | _ => none
  | .command => s.commandStep io
  | .reader => some (s.readerStep io)

/-! ### Steps of one task alone -/

/-- **The reader task alone.** Some steps of the reader from its first program point do what one
pass of the loop of `runStorageReader` does. -/
theorem exists_run_reader (h : s.reader = .take) :
    ∃ n t, StepSystem.run (step io) s (List.replicate n .reader) = some t ∧ t.reader = .take ∧
      t.storage = s.storage.readerIteration io := by
  cases hop : s.storage.access.operation with
  | none =>
    refine ⟨1, s, ?_, h, (Storage.readerIteration_of_none io s.storage hop).symm⟩
    simp [StepSystem.run, step, readerStep, h, hop]
  | some op =>
    rcases hr : s.storage.iterateOperation io with ⟨_ | e, storage⟩
    · cases hrun : storage.access.running with
      | true =>
        refine ⟨3, { s with storage := storage }, ?_, h, ?_⟩
        · simp [StepSystem.run, List.replicate, step, readerStep, h, hop, hr, hrun]
        · simp only [Storage.readerIteration, Storage.iterate, hop, hr, hrun, ↓reduceIte]
      | false =>
        refine ⟨4, _, by
          simp [StepSystem.run, List.replicate, step, readerStep, h, hop, hr, hrun]; rfl, rfl, ?_⟩
        simp only [Storage.readerIteration, Storage.iterate, hop, hr, hrun]
        rfl
    · refine ⟨4, _, by
        simp [StepSystem.run, List.replicate, step, readerStep, h, hop, hr]; rfl, rfl, ?_⟩
      simp only [Storage.readerIteration, Storage.iterate, hop, hr]
      rfl

/-- **The command task alone.** A request and the steps that follow it do what its start function
does. -/
theorem exists_run_request (r : StartRequest) (h : s.command = .idle) :
    ∃ n t, StepSystem.run (step io) s (.request r :: List.replicate n .command) = some t ∧
      t.command = .idle ∧ t.storage = r.call io s.storage := by
  rw [StartRequest.call_eq]
  cases hrun : s.storage.access.running with
  | true =>
    refine ⟨0, s, ?_, h, rfl⟩
    simp [StepSystem.run, step, h, hrun]
  | false =>
    rcases hr : r.construct io (s.storage.prepare r.targets r.seqNo) with ⟨_ | op, storage⟩
    · refine ⟨1, _, by
        simp [StepSystem.run, List.replicate, step, commandStep, h, hrun, hr]; rfl, rfl, rfl⟩
    · refine ⟨2, _, by
        simp [StepSystem.run, List.replicate, step, commandStep, h, hrun, hr]; rfl, rfl, rfl⟩

/-! ### The invariant -/

/-- The installed operation, if any, ended. -/
def InstalledEnded : Prop := ∀ i ∈ s.installed, i ∈ s.ended

/-- No operation is installed while the reader is about to clear. -/
def InstallsBeforeClearing : HandoverAction → Prop
  | .command => ∀ op, s.command = .install op → s.reader.clearing = false
  | _ => True

/-- All removed operations ended; between the test of a start function and the installation, and
while the reader is about to clear, the installed operation ended. -/
structure Justified : Prop where
  tracks : s.installed.isSome = s.storage.access.operation.isSome
  removed : ∀ i ∈ s.removed, i ∈ s.ended
  command : s.command ≠ .idle → s.InstalledEnded
  reader : s.reader = .clear ∨ s.reader = .clearFailed → s.InstalledEnded
  cancel : s.reader = .cancel → s.installed = none

variable {s}

theorem installedEnded_observeEnd (s : Handover W) : s.observeEnd.InstalledEnded := fun _ hi =>
  List.mem_append_left _ (Option.mem_toList.mpr hi)

theorem InstalledEnded.observeEnd (h : s.InstalledEnded) : s.observeEnd.InstalledEnded :=
  fun i hi => List.mem_append_right _ (h i hi)

/-- Replacing an operation that ended removes only operations that ended. -/
theorem removed_replace (hremoved : ∀ i ∈ s.removed, i ∈ s.ended) (hended : s.InstalledEnded)
    (op : Option StorageAccessOperation) : ∀ i ∈ (s.replace io op).removed, i ∈ s.ended := by
  intro i hi
  rcases List.mem_append.mp hi with hi | hi
  · exact hended i (Option.mem_toList.mp hi)
  · exact hremoved i hi

theorem tracks_replace (op : Option StorageAccessOperation) :
    (s.replace io op).installed.isSome =
      (s.replace io op).storage.access.operation.isSome := by
  simp [replace, Storage.setOperation]

theorem isSome_iterateOperation (storage : Storage W) :
    (storage.iterateOperation io).2.access.operation.isSome =
      storage.access.operation.isSome := by
  rw [Storage.iterateOperation]
  split
  · rfl
  · next hop => rw [hop]; rfl

theorem access_construct (storage : Storage W) (r : StartRequest) :
    (r.construct io storage).2.access = storage.access := by
  cases r with
  | rawStorageDownload area address length targets seqNo =>
    unfold StartRequest.construct Storage.makeRawStorageRead
    dsimp only
    split <;> next heq => exact congrArg Storage.access (Prod.mk.inj (Prod.mk.inj heq).2).2.symm
  | directoryListing area name start_ count targets seqNo =>
    unfold StartRequest.construct Storage.makeDirectoryListing
    dsimp only
    rcases DirectoryListingOperation.start io {} storage.filesystems area name start_ count
      storage.access.seqNo storage.world with ⟨_ | e, op, w⟩ <;> rfl
  | fileDownload area path offset length targets seqNo =>
    unfold StartRequest.construct Storage.makeFileDownload
    dsimp only
    rcases FileDownloadOperation.start io {} storage.filesystems area path offset length
      storage.access.seqNo storage.world with ⟨e | size, op, w⟩ <;> rfl

namespace Justified

variable {io} {t : Handover W}

theorem readerStep (h : s.Justified) : (s.readerStep io).Justified := by
  have hobserved : ∀ i ∈ s.removed, i ∈ s.observeEnd.ended := fun i hi =>
    List.mem_append_right _ (h.removed i hi)
  rw [Handover.readerStep]
  split
  · split
    · exact ⟨h.tracks, h.removed, h.command, by simp, by simp⟩
    · exact h
  · have htracks := isSome_iterateOperation io s.storage
    split
    · next heq =>
      rw [heq] at htracks
      exact ⟨h.tracks.trans htracks.symm, hobserved, fun hc => (h.command hc).observeEnd,
        fun _ => installedEnded_observeEnd s, by simp⟩
    · next heq =>
      rw [heq] at htracks
      exact ⟨h.tracks.trans htracks.symm, h.removed, h.command, by simp, by simp⟩
  · split
    · exact ⟨h.tracks, h.removed, h.command, by simp, by simp⟩
    · exact ⟨h.tracks, hobserved, fun hc => (h.command hc).observeEnd,
        fun _ => installedEnded_observeEnd s, by simp⟩
  · next hreader =>
    have hended := h.reader (Or.inl hreader)
    exact ⟨tracks_replace io none, removed_replace io h.removed hended none,
      fun _ i hi => by simp [replace] at hi, by simp, by simp⟩
  · next hreader =>
    have hended := h.reader (Or.inr hreader)
    exact ⟨tracks_replace io none, removed_replace io h.removed hended none,
      fun _ i hi => by simp [replace] at hi, by simp, fun _ => rfl⟩
  · next hreader =>
    have hended : s.InstalledEnded := fun i hi => by simp [h.cancel hreader] at hi
    exact ⟨tracks_replace io none, removed_replace io h.removed hended none,
      fun _ i hi => by simp [replace] at hi, by simp, by simp⟩

theorem commandStep (h : s.Justified) (hok : s.InstallsBeforeClearing .command)
    (hstep : s.commandStep io = some t) : t.Justified := by
  rw [Handover.commandStep] at hstep
  split at hstep
  · simp at hstep
  · next r hcommand =>
    have haccess := access_construct io s.storage r
    have hended : s.InstalledEnded := h.command (by simp [hcommand])
    split at hstep <;> next heq =>
      rw [heq] at haccess
      cases hstep
      exact ⟨h.tracks.trans (by rw [← haccess]), h.removed, fun _ => hended, h.reader, h.cancel⟩
  · next op hcommand =>
    have hended : s.InstalledEnded := h.command (by simp [hcommand])
    have hreader := hok op hcommand
    cases hstep
    refine ⟨tracks_replace io (some op), removed_replace io h.removed hended (some op), by simp,
      fun hclear => ?_, fun hclear => ?_⟩
    · have hpoint : s.reader = .clear ∨ s.reader = .clearFailed := hclear
      rcases hpoint with hpoint | hpoint
      · rw [hpoint] at hreader
        exact absurd hreader (by decide)
      · rw [hpoint] at hreader
        exact absurd hreader (by decide)
    · have hpoint : s.reader = .cancel := hclear
      rw [hpoint] at hreader
      exact absurd hreader (by decide)

/-- **The step lemma.** A step that installs no operation while the reader is about to clear keeps
the invariant. -/
theorem step {action : HandoverAction} (h : s.Justified) (hok : s.InstallsBeforeClearing action)
    (hstep : s.step io action = some t) : t.Justified := by
  cases action with
  | request r =>
    rw [Handover.step] at hstep
    dsimp only at hstep
    split at hstep
    · cases hstep
      split
      · exact h
      · exact ⟨h.tracks, fun i hi => List.mem_append_right _ (h.removed i hi),
          fun _ => installedEnded_observeEnd s, fun hr => (h.reader hr).observeEnd, h.cancel⟩
    · simp at hstep
  | command => exact h.commandStep hok hstep
  | reader => exact Option.some.inj hstep ▸ h.readerStep

end Justified

/-! ### Runs -/

/-- Nothing was started yet. -/
theorem justified_start {storage : Storage W} (hop : storage.access.operation = none) :
    Justified ({ storage := storage } : Handover W) where
  tracks := by rw [hop]; rfl
  removed i hi := by simp at hi
  command h := by simp at h
  reader h := by simp at h
  cancel h := by simp at h

/-- **Removal only after the end.** From a state without an operation, along every interleaving
of the two tasks that installs no operation while the reader is about to clear, an operation is
removed only after its `iterate` returned an error or its `running` was observed to be false. -/
theorem removed_after_end {storage : Storage W} {t : Handover W} {actions : List HandoverAction}
    (hop : storage.access.operation = none)
    (hok : StepSystem.Meets (step io) InstallsBeforeClearing { storage := storage } actions)
    (ht : StepSystem.Visits (step io) { storage := storage } actions t) :
    ∀ i ∈ t.removed, i ∈ t.ended :=
  (StepSystem.invariant_visits (fun _ _ _ h hmeets hstep => h.step hmeets hstep)
    (justified_start hop) hok ht).removed

open Medium in
/-- A download of one byte that is started and run to its end. -/
theorem removed_after_end_oneByte :
    let m : Medium := ⟨fun _ => 0, [1], by decide, .empty⟩
    let r : StartRequest := .fileDownload .sdCard [0x61] 0 1 1 0
    let s : Handover State := { storage := booted fun _ => true }
    ∀ t, StepSystem.Visits (step m.io) s
        [.request r, .command, .command, .reader, .reader, .reader, .reader] t →
      ∀ i ∈ t.removed, i ∈ t.ended := by
  intro m r s t
  refine removed_after_end m.io rfl ⟨trivial, fun u hu => ⟨?_, fun v hv => ⟨?_, fun _ _ =>
    ⟨trivial, fun _ _ => ⟨trivial, fun _ _ => ⟨trivial, fun _ _ => ⟨trivial, fun _ _ =>
      trivial⟩⟩⟩⟩⟩⟩⟩
  -- at both steps of the command task the reader is at its first program point
  all_goals cases hu
  · exact fun _ _ => rfl
  · cases hv
    exact fun _ _ => rfl

open Medium in
/-- **A lost request.** The reader sees the end of a first download. Before it clears, a second
one is started, accepted and installed; the reader clears the second one, which never ran. -/
theorem not_removed_after_end :
    let m : Medium := ⟨fun _ => 0, [1], by decide, .empty⟩
    let r : StartRequest := .fileDownload .sdCard [0x61] 0 1 1 0
    let s : Handover State := { storage := booted fun _ => true }
    ∃ t, StepSystem.run (step m.io) s
        [.request r, .command, .command, .reader, .reader, .reader, .request r, .command,
          .command, .reader] = some t ∧
      1 ∈ t.removed ∧ 1 ∉ t.ended := by
  refine ⟨_, rfl, ?_⟩
  decide

end Handover

end TellerOBC
