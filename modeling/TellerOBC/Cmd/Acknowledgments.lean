import TellerOBC.Cmd.Process

/-!
# Acknowledgments

A command of the ground station is answered: whatever the other modules answer, a handler that
returns gives back a response, and `processNext` hands exactly one frame to `sendTo`, the
acknowledgment with this response. A command whose payload is not valid is refused before anything
else is called.

## Main definitions

* `TellerOBC.AcknowledgedCommand`, `TellerOBC.acknowledgedCommands`: the commands that are answered,
  with their validators and handlers.
* `TellerOBC.IsSending`: the events of `sendTo` on a frame that it sends.

## Main results

* `TellerOBC.processPacket_eq`: the handler that a command of the ground station reaches.
* `TellerOBC.processReceived_acknowledges`: the answer to a command.
-/

namespace TellerOBC

open Program

/-! ### Commands -/

/-- A type of commands with its validator and its handler. -/
structure AcknowledgedCommand where
  frameType : UInt8
  validate : List UInt8 → Bool
  process : InboundMessage → Program SystemAnswer Outcome

/-- The types of commands that the ground station gets an acknowledgment for. -/
def acknowledgedCommands : List AcknowledgedCommand := [
  ⟨FrameType.clockSync, validateEncodedClockSyncFrame, processClockSyncPacket⟩,
  ⟨FrameType.storage, validateEncodedStorageCommandFrame, processStoragePacket⟩,
  ⟨FrameType.directoryListing, validateEncodedDirectoryListingRequestFrame,
    processDirectoryListingPacket⟩,
  ⟨FrameType.fileDownload, validateEncodedFileDownloadRequestFrame, processFileDownloadPacket⟩,
  ⟨FrameType.lclReset, validateEncodedLCLResetRequestFrame, processLCLResetRequestPacket⟩,
  ⟨FrameType.calibration, validateEncodedCalibrationRequestFrame, processCalibrationPacket⟩,
  ⟨FrameType.debug, validateEncodedDebugCommandFrame, processDebugPacket⟩]

variable {message : InboundMessage} {c : AcknowledgedCommand}

/-- A command of the ground station reaches its handler. -/
theorem processPacket_eq (hc : c ∈ acknowledgedCommands)
    (htype : message.envelope.frameType = c.frameType)
    (hsource : message.envelope.source = Component.groundStation) :
    processPacket message = c.process message := by
  have hguard (what : String) (fromGcs next : Program SystemAnswer Outcome) :
      ignoreUnlessFromGcs message what fromGcs next = fromGcs := if_neg (not_not.mpr hsource)
  have hcases : ∀ c ∈ acknowledgedCommands, message.envelope.frameType = c.frameType →
      processPacket message = c.process message := by
    simp only [acknowledgedCommands, List.forall_mem_cons]
    refine ⟨?_, ?_, ?_, ?_, ?_, ?_, ?_, List.forall_mem_nil _⟩ <;>
    · intro htype
      rw [processPacket, htype]
      exact hguard _ _ _
  exact hcases c hc htype

/-! ### Handlers -/

/-- The events by which `sendTo` prepares a frame and passes it on. -/
def IsSending : Event SystemAnswer → Prop
  | ⟨.malloc _, _⟩ | ⟨.nextSeqNo, _⟩ | ⟨.sendLowLevel .., _⟩ => True
  | _ => False

/-- An acknowledgment is sent at every telemetry level: `sendTo` tries to allocate its buffer. -/
theorem exists_isSending_of_sendFrameTo {targets : UInt8} {payload : List UInt8}
    (hlength : payload.length ≤ maxPayloadLength) {es : List (Event SystemAnswer)} {sent : Bool}
    (h : (sendFrameTo targets FrameType.ack payload).Runs es sent) :
    ∃ event ∈ es, IsSending event := by
  rw [sendFrameTo, sendTo, perform_bind] at h
  obtain ⟨level, es, rfl, h⟩ := h
  have hsize : getMessageSizeForPayloadLength payload.length ≠ 0 := by
    rw [getMessageSizeForPayloadLength, if_pos hlength]
    exact Nat.succ_ne_zero _
  dsimp only at h
  rw [if_pos (Or.inr (by decide)), if_neg hsize, perform_bind] at h
  obtain ⟨allocated, rest, rfl, -⟩ := h
  exact ⟨_, List.mem_cons_of_mem _ List.mem_cons_self, trivial⟩

/-- A part of a handler that hands no frame to `sendTo`. -/
abbrev Silent {α : Type} (p : Program SystemAnswer α) : Prop :=
  p.Always (fun event => ¬ IsSending event) fun _ => True

/-- A handler that hands no frame to `sendTo` and gives back a response if it returns. -/
def Responds (p : Program SystemAnswer Outcome) : Prop :=
  p.Always (fun event => ¬ IsSending event) (· ≠ .none)

theorem responds_respond (response : Response) : Responds (.done (.respond response)) :=
  Outcome.noConfusion

/-- A call that is no part of `sendTo`. -/
theorem Responds.call {call : SystemCall} {next : SystemAnswer call → Program SystemAnswer Outcome}
    (hcall : ∀ answer, ¬ IsSending ⟨call, answer⟩) (hnext : ∀ answer, Responds (next answer)) :
    Responds (.call call next) := fun answer => ⟨hcall answer, hnext answer⟩

theorem Responds.ite {p : Prop} [Decidable p] {yes no : Program SystemAnswer Outcome}
    (hyes : Responds yes) (hno : Responds no) : Responds (if p then yes else no) := by
  split
  · exact hyes
  · exact hno

theorem responds_processClockSyncPacket (message : InboundMessage) :
    Responds (processClockSyncPacket message) := by
  refine .ite (responds_respond _) (.call (fun _ => id) fun success => .ite ?_ (responds_respond _))
  exact .call (fun _ => id) fun _ => responds_respond _

theorem responds_processLCLResetRequestPacket (message : InboundMessage) :
    Responds (processLCLResetRequestPacket message) :=
  .ite (responds_respond _) (.call (fun _ => id) fun _ => responds_respond _)

theorem responds_processCalibrationPacket (message : InboundMessage) :
    Responds (processCalibrationPacket message) := by
  refine .ite (responds_respond _) ?_
  cases decodeCalibrationRequestFrame message.payload with
  | nop => exact responds_respond _
  | gyro => exact .call (fun _ => id) fun _ => responds_respond _
  | accel => exact responds_respond _

theorem silent_performDebugCommand (command : DebugCommand) :
    Silent (performDebugCommand command) := by
  cases command with
  | nop | triggerWatchdog => trivial
  | startClock | stopClock | resetClock | toggleSimulatedError | toggleTelemetryLevel =>
    exact fun _ => ⟨id, fun _ => ⟨id, trivial⟩⟩
  | toggleCamera | reportStorageStatus | reportEdrStatus | reportMemoryUsage | simulateFlashmemError
  | simulateSdcardError => exact fun _ => ⟨id, trivial⟩

theorem responds_processDebugPacket (message : InboundMessage) :
    Responds (processDebugPacket message) := by
  refine .ite (responds_respond _) (Always.bind (silent_performDebugCommand _) fun returns _ => ?_)
  cases returns with
  | true => exact responds_respond _
  | false => exact Outcome.noConfusion

theorem silent_performStorageCommand (message : InboundMessage) (data : StorageCommandData) :
    Silent (performStorageCommand message data) := by
  rw [performStorageCommand]
  cases data.command with
  | mount | unmount | erase | read | getSize => exact fun _ => ⟨id, trivial⟩
  | nop => trivial
  | getStatus => exact fun _ => ⟨id, fun _ => ⟨id, fun _ => ⟨id, trivial⟩⟩⟩

theorem responds_processStoragePacket (message : InboundMessage) :
    Responds (processStoragePacket message) :=
  .ite (responds_respond _)
    (Always.bind (silent_performStorageCommand message _) fun _ _ => responds_respond _)

theorem responds_processDirectoryListingPacket (message : InboundMessage) :
    Responds (processDirectoryListingPacket message) :=
  .ite (responds_respond _) (.call (fun _ => id) fun _ => responds_respond _)

theorem responds_processFileDownloadPacket (message : InboundMessage) :
    Responds (processFileDownloadPacket message) := by
  refine .ite (responds_respond _) (.call (fun _ => id) fun result => ?_)
  cases result with
  | error e => exact responds_respond _
  | ok size => exact responds_respond _

/-- The handlers of all commands respond. -/
theorem responds_process (hc : c ∈ acknowledgedCommands) (message : InboundMessage) :
    Responds (c.process message) := by
  have hall : ∀ c ∈ acknowledgedCommands, Responds (c.process message) := by
    simp only [acknowledgedCommands, List.forall_mem_cons]
    exact ⟨responds_processClockSyncPacket message, responds_processStoragePacket message,
      responds_processDirectoryListingPacket message, responds_processFileDownloadPacket message,
      responds_processLCLResetRequestPacket message, responds_processCalibrationPacket message,
      responds_processDebugPacket message, List.forall_mem_nil _⟩
  exact hall c hc

/-- A command whose payload is not valid is refused at once. -/
theorem process_of_invalid (hc : c ∈ acknowledgedCommands)
    (hinvalid : c.validate message.payload = false) :
    c.process message = .done (.respond .invalid) := by
  have hall : ∀ c ∈ acknowledgedCommands, c.validate message.payload = false →
      c.process message = .done (.respond .invalid) := by
    simp only [acknowledgedCommands, List.forall_mem_cons]
    refine ⟨?_, ?_, ?_, ?_, ?_, ?_, ?_, List.forall_mem_nil _⟩ <;>
    · intro hinvalid
      refine if_pos ?_
      rw [hinvalid]
      rfl
  exact hall c hc hinvalid

/-! ### Answers -/

/-- **Every command is answered once.** When a command of the ground station has been processed,
exactly one acknowledgment has been handed to `sendTo`, after everything else, addressed to the
channel of the command, with its type and sequence number. If the payload was not valid, the result
is `NAK_INVALID`, and no other module was called before. In `sendTo` itself the allocation for the
acknowledgment can still fail, which sets `NOT_ENOUGH_MEMORY`. -/
theorem processReceived_acknowledges (hc : c ∈ acknowledgedCommands)
    (htype : message.envelope.frameType = c.frameType)
    (hsource : message.envelope.source = Component.groundStation)
    (htarget : message.envelope.target = Component.onboardComputer)
    {es : List (Event SystemAnswer)} (hruns : (processReceived message).Runs es true) :
    ∃ (handling sending : List (Event SystemAnswer)) (result : AckResult) (detail : UInt32)
      (sent : Bool),
      es = handling ++ ⟨.free, ()⟩ :: sending ∧ (∀ event ∈ handling, ¬ IsSending event) ∧
      (sendFrameTo message.targets FrameType.ack (message.envelope.frameType ::
        message.envelope.seqNo :: result.code :: uint32Bytes detail)).Runs sending sent ∧
      (c.validate message.payload = false → result = .invalid ∧ handling = []) := by
  obtain ⟨handling, rest, outcome, rfl, hhandling, hrest⟩ := runs_bind.mp hruns
  rw [processForTarget, if_pos htarget, processPacket_eq hc htype hsource] at hhandling
  obtain ⟨hsilent, hsome⟩ := (responds_process hc message).of_runs hhandling
  cases outcome with
  | none => exact absurd rfl hsome
  | never => exact absurd hrest.2.symm Bool.false_ne_true
  | respond response =>
    obtain ⟨_, sendingAndEnd, rfl, hrest⟩ := hrest
    have hrest : (sendResponse message response >>= fun _ => pure true).Runs sendingAndEnd true :=
      hrest
    obtain ⟨sending, _, sent, rfl, hsending, rfl, -⟩ := runs_bind.mp hrest
    rw [List.append_nil]
    refine ⟨handling, sending, response.result, _, sent, rfl, hsilent, hsending, fun hinvalid => ?_⟩
    rw [process_of_invalid hc hinvalid] at hhandling
    obtain ⟨rfl, heq⟩ := hhandling
    cases heq
    exact ⟨rfl, rfl⟩

/-- A clock synchronisation without a timestamp. -/
theorem processReceived_acknowledges_clockSync :
    let message : InboundMessage := ⟨0, ⟨7, FrameType.clockSync, Component.groundStation,
      Component.onboardComputer⟩, []⟩
    ∃ (handling sending : List (Event SystemAnswer)) (result : AckResult) (detail : UInt32)
      (sent : Bool),
      (processReceived message).trace permissive () = handling ++ ⟨.free, ()⟩ :: sending ∧
      (∀ event ∈ handling, ¬ IsSending event) ∧
      (sendFrameTo message.targets FrameType.ack (message.envelope.frameType ::
        message.envelope.seqNo :: result.code :: uint32Bytes detail)).Runs sending sent ∧
      (validateEncodedClockSyncFrame message.payload = false →
        result = .invalid ∧ handling = []) :=
  processReceived_acknowledges (c := ⟨FrameType.clockSync, validateEncodedClockSyncFrame,
    processClockSyncPacket⟩) List.mem_cons_self rfl rfl rfl (runs_trace permissive _ ())

end TellerOBC
