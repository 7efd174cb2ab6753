import Mathlib.Data.List.Pairwise
import TellerOBC.Drivers.SdCard.Blocks
import TellerOBC.Foundations.StepSystem

/-!
# Two tasks on the bus of the SD card

The storage reader task downloads the raw contents of the card while the recorder task uses its
file system. Both read and write blocks. The bus is locked during a transfer only, so between two
transfers of one task the other one may make any of its own. The device selector of a block
operation does not lock the bus.

The system makes the calls of the two tasks one by one, in any order and with any answers, and
keeps the transfers in the order in which they were granted the bus.

## Main definitions

* `TellerOBC.SdCard.BusState`, `TellerOBC.SdCard.BusState.step`: the two tasks on the bus.
* `TellerOBC.SdCard.Contiguous`: no other transfers are between the command and the end of a block
  operation.
* `TellerOBC.SdCard.BeginsAlone`: a block operation begins while the other task has none.

## Main results

* `TellerOBC.SdCard.contiguous_of_beginsAlone`: operations that do not overlap are contiguous.
-/

namespace TellerOBC.SdCard

/-- The tasks that use the card. -/
inductive CardTask where
  | storageReader
  | recorder
  deriving DecidableEq, Repr

/-- The other task. -/
def CardTask.other : CardTask → CardTask
  | storageReader => recorder
  | recorder => storageReader

theorem CardTask.eq_other {task task' : CardTask} (h : task' ≠ task) : task' = task.other := by
  cases task <;> cases task' <;> first | rfl | exact absurd rfl h

/-- The operations on blocks, with their buffers. -/
inductive BlockOperation where
  | read (block : UInt32) (buf : List UInt8)
  | write (block : UInt32) (buf : List UInt8)
  deriving Repr

/-- What an operation does. -/
def BlockOperation.perform (passes : ℕ) : BlockOperation → Driver (Bool × List UInt8)
  | read block buf => readBlockIntoBuffer passes block buf
  | write block buf => programBlockFromBuffer passes block buf

/-- An operation in progress: its number, and what is left of it. -/
structure InProgress where
  number : ℕ
  rest : Program SpiCall.Answer (Option (Bool × List UInt8))

/-- A transfer on the bus, with the task that made it and the number of the operation. -/
structure BusTransfer where
  task : CardTask
  number : ℕ
  txBuf : List UInt8
  deriving DecidableEq, Repr

/-- The transfer is that of a command. -/
def BusTransfer.IsCommand (t : BusTransfer) : Prop := t.txBuf.length = 6

/-- The operations of the tasks in progress, the number of operations so far, and the transfers, the
first one first. -/
structure BusState where
  inProgress : CardTask → Option InProgress
  started : ℕ
  transfers : List BusTransfer

namespace BusState

/-- Before the first operation. -/
def start : BusState := ⟨fun _ => none, 0, []⟩

/-- What can happen: a task begins an operation, or makes its next call. -/
inductive Action where
  | begin (task : CardTask) (op : BlockOperation)
  | advance (task : CardTask) (answer : (c : SpiCall) → c.Answer)

/-- The transfers of a call. -/
def transfersOf (task : CardTask) (number : ℕ) : SpiCall → List BusTransfer
  | .exchange txBuf => [⟨task, number, txBuf⟩]
  | _ => []

/-- A task makes the next call of its operation, or returns from it. -/
def advance (s : BusState) (task : CardTask) (answer : (c : SpiCall) → c.Answer) :
    InProgress → BusState
  | ⟨_, .done _⟩ => { s with inProgress := Function.update s.inProgress task none }
  | ⟨number, .call c next⟩ =>
    { s with
      inProgress := Function.update s.inProgress task (some ⟨number, next (answer c)⟩)
      transfers := s.transfers ++ transfersOf task number c }

/-- The system of the two tasks. A task has one operation at a time. -/
def step (passes : ℕ) (s : BusState) : Action → Option BusState
  | .begin task op =>
    match s.inProgress task with
    | some _ => none
    | none =>
      some { s with
        inProgress := Function.update s.inProgress task
          (some ⟨s.started, (op.perform passes).run⟩)
        started := s.started + 1 }
  | .advance task answer => (s.inProgress task).map (s.advance task answer)

end BusState

/-- Between a command and a later transfer of the same operation there are only transfers of this
operation. -/
def Contiguous (transfers : List BusTransfer) : Prop :=
  ∀ before command between last after,
    transfers = before ++ command :: (between ++ last :: after) → command.IsCommand →
    last.number = command.number → ∀ t ∈ between, t.number = command.number

/-- An operation begins while the other task has none in progress. -/
def BeginsAlone (s : BusState) : BusState.Action → Prop
  | .begin task _ => s.inProgress task.other = none
  | .advance _ _ => True

/-! ### The order of the operations -/

/-- The transfers are in the order of their operations. -/
theorem contiguous_of_sorted {transfers : List BusTransfer}
    (h : transfers.Pairwise fun t u => t.number ≤ u.number) : Contiguous transfers := by
  rintro before command between last after rfl - hlast t ht
  have hafter := (List.pairwise_append.mp h).2.1
  obtain ⟨hcommand, hrest⟩ := List.pairwise_cons.mp hafter
  have hle : command.number ≤ t.number := hcommand t (List.mem_append_left _ ht)
  have hge : t.number ≤ last.number :=
    (List.pairwise_append.mp hrest).2.2 t ht last List.mem_cons_self
  omega

/-- At most one operation is in progress, the last one that was begun, and the transfers are in the
order of their operations. -/
structure BusState.Serial (s : BusState) : Prop where
  sorted : s.transfers.Pairwise fun t u => t.number ≤ u.number
  number_lt : ∀ t ∈ s.transfers, t.number < s.started
  number_eq : ∀ task op, s.inProgress task = some op → op.number + 1 = s.started
  alone : ∀ task op, s.inProgress task = some op → s.inProgress task.other = none

namespace BusState

variable {passes : ℕ} {s t : BusState}

theorem serial_start : Serial start :=
  ⟨.nil, fun _ => nofun, fun _ _ => nofun, fun _ _ => nofun⟩

theorem update_inProgress_other {task : CardTask} {op : Option InProgress}
    {f : CardTask → Option InProgress} : Function.update f task op task.other = f task.other := by
  refine Function.update_of_ne ?_ _ _
  cases task <;> decide

/-- Only this task has an operation in progress. -/
theorem Serial.of_update {task : CardTask} {op : Option InProgress} {number : ℕ}
    {transfers : List BusTransfer} (hother : s.inProgress task.other = none)
    (hnumber : ∀ op', op = some op' → op'.number + 1 = number)
    (hsorted : transfers.Pairwise fun t u => t.number ≤ u.number)
    (hlt : ∀ t ∈ transfers, t.number < number) :
    Serial ⟨Function.update s.inProgress task op, number, transfers⟩ := by
  have hnone : Function.update s.inProgress task op task.other = none :=
    update_inProgress_other.trans hother
  have hself : ∀ task' op', Function.update s.inProgress task op task' = some op' →
      task' = task ∧ op = some op' := by
    intro task' op' h
    by_cases heq : task' = task
    · subst heq
      rw [Function.update_self] at h
      exact ⟨rfl, h⟩
    · rw [CardTask.eq_other heq, hnone] at h
      cases h
  refine ⟨hsorted, hlt, fun task' op' h => hnumber op' (hself task' op' h).2, ?_⟩
  intro task' op' h
  obtain ⟨rfl, -⟩ := hself task' op' h
  exact hnone

theorem number_transfersOf {task : CardTask} {number : ℕ} {c : SpiCall} :
    ∀ t ∈ transfersOf task number c, t.number = number := by
  cases c with
  | exchange txBuf =>
    intro t ht
    rw [List.mem_singleton.mp ht]
  | _ => exact fun _ => nofun

/-- The calls of the operation in progress keep the order. -/
theorem Serial.advance {task : CardTask} {answer : (c : SpiCall) → c.Answer} {op : InProgress}
    (hs : s.Serial) (h : s.inProgress task = some op) : (s.advance task answer op).Serial := by
  have hother := hs.alone task op h
  have hnumber : op.number + 1 = s.started := hs.number_eq task op h
  obtain ⟨number, rest⟩ := op
  dsimp only at hnumber
  cases rest with
  | done r => exact .of_update hother (fun _ => nofun) hs.sorted hs.number_lt
  | call c next =>
    refine .of_update hother (fun op' hop' => ?_) ?_ fun t ht => ?_
    · obtain rfl := Option.some.inj hop'
      exact hnumber
    · refine List.pairwise_append.mpr ⟨hs.sorted, ?_, fun t ht u hu => ?_⟩
      · exact List.pairwise_of_forall_mem_list fun t ht u hu => by
          rw [number_transfersOf t ht, number_transfersOf u hu]
      · have hlt := hs.number_lt t ht
        rw [number_transfersOf u hu]
        omega
    · rcases List.mem_append.mp ht with ht | ht
      · exact hs.number_lt t ht
      · rw [number_transfersOf t ht]
        omega

/-- A step keeps the order if an operation begins alone. -/
theorem serial_step {a : Action} (hs : s.Serial) (ha : BeginsAlone s a)
    (h : step passes s a = some t) : t.Serial := by
  cases a with
  | begin task op =>
    rw [step] at h
    split at h
    · cases h
    · obtain rfl := Option.some.inj h
      refine .of_update ha (fun op' hop' => ?_) hs.sorted fun t ht => ?_
      · rw [← Option.some.inj hop']
      · exact Nat.lt_succ_of_lt (hs.number_lt t ht)
  | advance task answer =>
    obtain ⟨op, hop, rfl⟩ := Option.map_eq_some_iff.mp h
    exact hs.advance hop

end BusState

/-- **Block operations that do not overlap.** In every interleaving of the transfers of the two
tasks in which a block operation begins only while the other task has none in progress, the
transfers of each block operation are contiguous from its command to its end. -/
theorem contiguous_of_beginsAlone (passes : ℕ) {actions : List BusState.Action}
    (hok : StepSystem.Meets (BusState.step passes) BeginsAlone .start actions) {t : BusState}
    (ht : StepSystem.Visits (BusState.step passes) .start actions t) : Contiguous t.transfers :=
  contiguous_of_sorted
    (StepSystem.invariant_visits (fun _ _ _ => BusState.serial_step) BusState.serial_start
      hok ht).sorted

/-! ### Operations that overlap -/

/-- Answers to all calls: the device sends the same byte all the time. -/
def answering (byte : UInt8) : (c : SpiCall) → c.Answer
  | .chipSelect _ => ()
  | .exchange txBuf => ⟨true, List.replicate txBuf.length byte, List.length_replicate⟩
  | .getTimeSinceBootMsec => 0
  | .delayMsec _ => ()

/-- The next calls of a task, with the bytes that the device sends. -/
def advances (task : CardTask) (bytes : List UInt8) : List BusState.Action :=
  bytes.map fun byte => .advance task (answering byte)

theorem meets_advances (passes : ℕ) (s : BusState) (task : CardTask) (bytes : List UInt8) :
    StepSystem.Meets (BusState.step passes) BeginsAlone s (advances task bytes) := by
  induction bytes generalizing s with
  | nil => trivial
  | cons byte bytes ih => exact ⟨trivial, fun t _ => ih t⟩

/-- The recorder begins to read block 9 when the storage reader has sent the command to read block
5; then the storage reader receives a response, a token and a block. -/
def overlapping : List BusState.Action :=
  .begin .storageReader (.read 5 []) :: advances .storageReader [0xff, 0xff, 0xff, 0xff] ++
    .begin .recorder (.read 9 []) :: advances .recorder [0xff, 0xff, 0xff, 0xff] ++
    advances .storageReader [0x00, 0x00, 0xfe, 0x00]

/-- The command of the recorder is between the command and the data block of the storage reader. -/
theorem command_between_command_and_block :
    (StepSystem.run (BusState.step 1) .start overlapping).map BusState.transfers =
      some [⟨.storageReader, 0, [0xff]⟩,
        ⟨.storageReader, 0, prepareCommand cmdReadSingleBlock 5⟩, ⟨.recorder, 1, [0xff]⟩,
        ⟨.recorder, 1, prepareCommand cmdReadSingleBlock 9⟩, ⟨.storageReader, 0, [0xff]⟩,
        ⟨.storageReader, 0, [0xff]⟩, ⟨.storageReader, 0, List.replicate 512 0xff⟩] ∧
    ¬ ∀ t, StepSystem.Visits (BusState.step 1) .start overlapping t → Contiguous t.transfers := by
  have hrun : (StepSystem.run (BusState.step 1) .start overlapping).map BusState.transfers =
      some [⟨.storageReader, 0, [0xff]⟩,
        ⟨.storageReader, 0, prepareCommand cmdReadSingleBlock 5⟩, ⟨.recorder, 1, [0xff]⟩,
        ⟨.recorder, 1, prepareCommand cmdReadSingleBlock 9⟩, ⟨.storageReader, 0, [0xff]⟩,
        ⟨.storageReader, 0, [0xff]⟩, ⟨.storageReader, 0, List.replicate 512 0xff⟩] := by
    decide +kernel
  refine ⟨hrun, fun hall => ?_⟩
  obtain ⟨t, ht, heq⟩ := Option.map_eq_some_iff.mp hrun
  have hcontiguous := hall t (StepSystem.visits_of_run ht)
  have hrecorder := hcontiguous [⟨.storageReader, 0, [0xff]⟩] _
    [⟨.recorder, 1, [0xff]⟩, ⟨.recorder, 1, prepareCommand cmdReadSingleBlock 9⟩,
      ⟨.storageReader, 0, [0xff]⟩, ⟨.storageReader, 0, [0xff]⟩] _ [] heq rfl rfl _
    List.mem_cons_self
  exact absurd hrecorder (by decide)

/-- What the theorem says of two reads that follow each other. -/
theorem contiguous_two_reads : ∃ t, StepSystem.run (BusState.step 1) .start
    (.begin .storageReader (.read 5 []) ::
      advances .storageReader [0xff, 0xff, 0xff, 0xff, 0, 0, 0xfe, 0, 0, 0, 0] ++
      .begin .recorder (.read 9 []) :: advances .recorder [0xff, 0xff, 0xff, 0xff]) = some t ∧
    Contiguous t.transfers := by
  have hsome : (StepSystem.run (BusState.step 1) .start
      (.begin .storageReader (.read 5 []) ::
        advances .storageReader [0xff, 0xff, 0xff, 0xff, 0, 0, 0xfe, 0, 0, 0, 0] ++
        .begin .recorder (.read 9 []) ::
          advances .recorder [0xff, 0xff, 0xff, 0xff])).isSome = true := by
    decide +kernel
  obtain ⟨t, ht⟩ := Option.isSome_iff_exists.mp hsome
  refine ⟨t, ht, contiguous_of_beginsAlone 1 ?_ (StepSystem.visits_of_run ht)⟩
  refine .append ⟨rfl, fun t _ => meets_advances 1 t _ _⟩ fun t ht => ⟨?_, fun t _ =>
    meets_advances 1 t _ _⟩
  have hdone : (StepSystem.run (BusState.step 1) .start (.begin .storageReader (.read 5 []) ::
      advances .storageReader [0xff, 0xff, 0xff, 0xff, 0, 0, 0xfe, 0, 0, 0, 0])).map
        (fun t => (t.inProgress .storageReader).isNone) = some true := by decide +kernel
  rw [ht] at hdone
  exact Option.isNone_iff_eq_none.mp (Option.some.inj hdone)

end TellerOBC.SdCard
