import TellerOBC.Cmd.Process
import TellerOBC.Foundations.Ownership
import TellerOBC.Foundations.StepSystem
import TellerOBC.Hal.BlockingQueue

/-!
# Frame buffers and sequence numbers of outbound messages

`sendTo`, `sendLowLevel`, `processNext` and `destroy` of `modules/telem.cpp`. A call of `sendTo`
allocates a buffer, takes the sequence number and serialises the frame under a mutex, which it holds
until the outbound queue has taken the message or refused it, and frees the buffer after the mutex
is released if the queue refused. Otherwise the buffer goes with the message, and the task that
processes the message frees it.

The steps of different calls interleave. A buffer is *referenced* by the call that allocated it, by
a message in the queue, or by a message that is being written to the UARTs. Buffers are numbered in
the order of their allocation.

## Main definitions

* `TellerOBC.OutboundQueue`, `TellerOBC.OutboundQueue.step`.
* `TellerOBC.OutboundQueue.Owned`: no buffer leaks, is freed twice or while it is referenced.
* `TellerOBC.OutboundQueue.Numbered`: the sequence numbers in the queue.

## Main results

* `TellerOBC.OutboundQueue.Accounted.step`, `TellerOBC.OutboundQueue.Numbering.step`: the
  invariants.
* `TellerOBC.OutboundQueue.owned_and_numbered`: what holds in every state of every run.
-/

namespace TellerOBC

open StepSystem

/-- A message in the outbound queue: the bitmask of the UARTs to write it to, the number of the
buffer with its frame, and the length of the frame. -/
structure OutboundMessage where
  targets : UInt8
  data : ℕ
  length : ℕ
  deriving DecidableEq, Repr

/-- `1 << uart::RXSM`. -/
def rxsmTarget : UInt8 := 1

/-- `1 << uart::DEBUG`. -/
def debugTarget : UInt8 := 8

/-- The masks of the UARTs that `processNext` writes the message to, in order. -/
def OutboundMessage.uarts (message : OutboundMessage) : List UInt8 :=
  [rxsmTarget, debugTarget].filter fun target => message.targets &&& target ≠ 0

/-- The arguments of a call of `sendTo`; a null payload is empty. -/
structure SendCall where
  targets : UInt8
  envelope : Envelope
  payload : List UInt8
  timeout : ℕ
  deriving DecidableEq, Repr

/-- A call of `sendTo` that has allocated its buffer and does not have the mutex yet. -/
structure PreparedCall where
  call : SendCall
  buf : ℕ
  deriving DecidableEq, Repr

/-- The call of `sendTo` that has the mutex and sends its message. -/
structure LockedCall where
  message : OutboundMessage
  timeout : ℕ
  /-- The call waits for room in the queue. -/
  waits : Bool := false
  deriving DecidableEq, Repr

/-- The outbound queue with the calls that use it, the sequence number of the next message, and the
heap as far as frame buffers are concerned. -/
structure OutboundQueue where
  queue : BlockingQueue OutboundMessage
  level : TelemetryLevel := .full
  seqNo : UInt8 := 0
  /-- The contents of the buffers that were allocated so far. -/
  heap : List (List UInt8) := []
  freed : List ℕ := []
  prepared : List PreparedCall := []
  locked : Option LockedCall := none
  /-- The buffers of the calls that failed and have still to free them. -/
  failed : List ℕ := []
  /-- The messages that `processNext` has received and is writing. -/
  transmitting : List OutboundMessage := []
  /-- What was written to which UART. -/
  written : List (UInt8 × List UInt8) := []
  /-- The buffers in the order in which sequence numbers were assigned to them. -/
  assigned : List ℕ := []
  /-- The buffers of all failed calls to which a sequence number was assigned, in that order. -/
  lost : List ℕ := []

/-- The steps of the tasks. -/
inductive OutboundAction where
  /-- A call of `sendTo` until its buffer is allocated, and whether the allocation succeeds. -/
  | sendTo (call : SendCall) (allocates : Bool)
  /-- A call takes the mutex and serialises its frame with the next sequence number. -/
  | lock (i : ℕ)
  /-- The call with the mutex sends its message, until it has to wait. -/
  | sendLowLevel
  /-- The waiting call finds room. -/
  | resume
  /-- The wait for room fails; this happens on STM32 only. -/
  | timeOut
  /-- A failed call frees its buffer. -/
  | free (i : ℕ)
  /-- `processNext` receives a message, or returns because the queue is closed. -/
  | receive
  /-- `processNext` writes its message and frees the buffer. -/
  | finish (i : ℕ)
  | setTelemetryLevel (level : TelemetryLevel)
  | close
  deriving DecidableEq, Repr

namespace OutboundQueue

/-- `QUEUE_SIZE`. -/
def queueSize : ℕ := 64

/-- The module after `init`. -/
def start : OutboundQueue where
  queue := { limit := queueSize }

variable (s : OutboundQueue)

/-- The mutex is released with the message in the queue. -/
def sent (queue : BlockingQueue OutboundMessage) : OutboundQueue :=
  { s with queue := queue, locked := none }

/-- The mutex is released by a call that failed. -/
def notSent (buf : ℕ) : OutboundQueue :=
  { s with locked := none, failed := s.failed ++ [buf], lost := s.lost ++ [buf] }

/-- Under the mutex: `seq_no++` and `serialize`. -/
def serializeNext (i : ℕ) (sender : PreparedCall) : OutboundQueue :=
  let call := sender.call
  let s' := { s with
    seqNo := s.seqNo + 1
    prepared := s.prepared.eraseIdx i
    assigned := s.assigned ++ [sender.buf] }
  match serialize (getMessageSizeForPayloadLength call.payload.length)
      { call.envelope with seqNo := s.seqNo } call.payload with
  | none => s'.notSent sender.buf
  | some bytes => { s' with
      heap := s.heap.set sender.buf bytes
      locked := some
        { message := ⟨call.targets, sender.buf, call.payload.length + 8⟩
          timeout := call.timeout } }

/-- The frame of a message. -/
def frame (message : OutboundMessage) : List UInt8 :=
  (s.heap.getD message.data []).take message.length

/-- The steps; a call that waits for the mutex, for a message or for room is not enabled. -/
def step : OutboundAction → Option OutboundQueue
  | .sendTo call allocates =>
    if s.level = .full ∨ isEssentialFrameType call.envelope.frameType then
      let bufLength := getMessageSizeForPayloadLength call.payload.length
      if bufLength = 0 then some s
      else if allocates then
        some { s with
          heap := s.heap ++ [List.replicate bufLength 0]
          prepared := s.prepared ++ [⟨call, s.heap.length⟩] }
      else some s
    else some s
  | .lock i =>
    match s.locked, s.prepared[i]? with
    | none, some sender => some (s.serializeNext i sender)
    | _, _ => none
  | .sendLowLevel =>
    match s.locked with
    | some ⟨message, timeout, false⟩ =>
      match s.queue.sendWithTimeout message timeout with
      | .refused => some (s.notSent message.data)
      | .wait => some { s with locked := some ⟨message, timeout, true⟩ }
      | .done queue => some (s.sent queue)
    | _ => none
  | .resume =>
    match s.locked with
    | some ⟨message, _, true⟩ =>
      if s.queue.full then none else some (s.sent (s.queue.push message))
    | _ => none
  | .timeOut =>
    match s.locked with
    | some ⟨message, _, true⟩ => if s.queue.full then some (s.notSent message.data) else none
    | _ => none
  | .free i => s.failed[i]?.map fun buf =>
      { s with failed := s.failed.eraseIdx i, freed := s.freed ++ [buf] }
  | .receive =>
    match s.queue.receive with
    | .done (message, queue) =>
      some { s with queue := queue, transmitting := s.transmitting ++ [message] }
    | .refused => some s
    | .wait => none
  | .finish i => s.transmitting[i]?.map fun message =>
      { s with
        transmitting := s.transmitting.eraseIdx i
        written := s.written ++ message.uarts.map fun target => (target, s.frame message)
        freed := s.freed ++ [message.data] }
  | .setTelemetryLevel level => some { s with level := level }
  | .close => some { s with queue := s.queue.close }

/-- `destroy`: receive the messages and free their buffers until the queue is empty. -/
def destroy (s : OutboundQueue) : OutboundQueue :=
  match _h : s.queue.receive with
  | .done (message, queue) =>
    destroy { s with queue := queue, freed := s.freed ++ [message.data] }
  | .refused | .wait => { s with seqNo := 0, level := .full }
termination_by s.queue.items.length
decreasing_by
  have hitems := BlockingQueue.items_of_receive _h
  simp only [hitems, List.length_cons, Nat.lt_add_one]

/-! ### What the steps do -/

section Steps

variable {s} {t : OutboundQueue}

/-- A call of `sendTo` has no effect, or allocates its buffer. -/
theorem step_sendTo {call : SendCall} {allocates : Bool}
    (hstep : s.step (.sendTo call allocates) = some t) :
    t = s ∨ ∃ bytes, t = { s with
      heap := s.heap ++ [bytes], prepared := s.prepared ++ [⟨call, s.heap.length⟩] } := by
  simp only [step] at hstep
  split_ifs at hstep
  · exact Or.inl (Option.some.inj hstep).symm
  · exact Or.inr ⟨_, (Option.some.inj hstep).symm⟩
  · exact Or.inl (Option.some.inj hstep).symm
  · exact Or.inl (Option.some.inj hstep).symm

/-- A call takes the mutex when it is free. -/
theorem step_lock {i : ℕ} (hstep : s.step (.lock i) = some t) :
    s.locked = none ∧ ∃ sender, s.prepared[i]? = some sender ∧ t = s.serializeNext i sender := by
  simp only [step] at hstep
  split at hstep
  · rename_i sender hlocked hi
    exact ⟨hlocked, sender, hi, (Option.some.inj hstep).symm⟩
  · cases hstep

/-- The call with the mutex sends its message, fails, or waits. -/
theorem step_of_locked {action : OutboundAction}
    (haction : action ∈ [OutboundAction.sendLowLevel, .resume, .timeOut])
    (hstep : s.step action = some t) : ∃ call, s.locked = some call ∧
      (t = s.sent (s.queue.push call.message) ∨ t = s.notSent call.message.data ∨
        t = { s with locked := some { call with waits := true } }) := by
  simp only [List.mem_cons, List.not_mem_nil, or_false] at haction
  rcases haction with rfl | rfl | rfl
  · simp only [step] at hstep
    split at hstep
    · rename_i message timeout hlocked
      refine ⟨_, hlocked, ?_⟩
      split at hstep
      · exact Or.inr (Or.inl (Option.some.inj hstep).symm)
      · exact Or.inr (Or.inr (Option.some.inj hstep).symm)
      · rename_i queue hsend
        rw [BlockingQueue.push_of_sendWithTimeout hsend] at hstep
        exact Or.inl (Option.some.inj hstep).symm
    · cases hstep
  · simp only [step] at hstep
    split at hstep
    · rename_i message timeout hlocked
      split_ifs at hstep
      exact ⟨_, hlocked, Or.inl (Option.some.inj hstep).symm⟩
    · cases hstep
  · simp only [step] at hstep
    split at hstep
    · rename_i message timeout hlocked
      split_ifs at hstep
      exact ⟨_, hlocked, Or.inr (Or.inl (Option.some.inj hstep).symm)⟩
    · cases hstep

/-- `processNext` has no effect, or receives the first message. -/
theorem step_receive (hstep : s.step .receive = some t) :
    t = s ∨ ∃ message queue, s.queue.items = message :: queue.items ∧
      t = { s with queue := queue, transmitting := s.transmitting ++ [message] } := by
  simp only [step] at hstep
  split at hstep
  · rename_i message queue hreceive
    exact Or.inr ⟨message, queue, BlockingQueue.items_of_receive hreceive,
      (Option.some.inj hstep).symm⟩
  · exact Or.inl (Option.some.inj hstep).symm
  · cases hstep

end Steps

/-! ### Buffers -/

/-- The messages in the queue, those being written and that of the call with the mutex. -/
def messages : List OutboundMessage :=
  s.queue.items ++ s.transmitting ++ (s.locked.map LockedCall.message).toList

/-- The buffers that messages and calls refer to. -/
def references : List ℕ :=
  s.messages.map OutboundMessage.data ++ s.failed ++ s.prepared.map PreparedCall.buf

/-- A buffer that was allocated and not freed. -/
def Live (buf : ℕ) : Prop := buf < s.heap.length ∧ buf ∉ s.freed

/-- The live buffers are those that are referenced, each once, and no buffer was freed twice. When
no call is in progress and the queue is empty, every buffer was freed exactly once. -/
structure Owned : Prop where
  live_iff : ∀ buf, s.Live buf ↔ buf ∈ s.references
  nodup_references : s.references.Nodup
  nodup_freed : s.freed.Nodup
  freed_of_idle : s.references = [] → s.freed.Perm (List.range s.heap.length)

/-- The invariant: every buffer is referenced or freed, once. -/
def Accounted : Prop := Ownership.Accounted s.references s.freed s.heap.length

variable {s} {t : OutboundQueue}

theorem Accounted.owned (h : s.Accounted) : s.Owned where
  live_iff := Ownership.Accounted.live_iff h
  nodup_references := Ownership.Accounted.nodup_references h
  nodup_freed := Ownership.Accounted.nodup_freed h
  freed_of_idle := fun hidle =>
    Ownership.Accounted.freed_of_nil (by rwa [Accounted, hidle] at h)

/-! ### Buffers in one step -/

namespace Accounted

/-- The references after the call with the mutex has sent its message. -/
theorem perm_references_sent {call : LockedCall} (hlocked : s.locked = some call) :
    (s.sent (s.queue.push call.message)).references.Perm s.references := by
  refine (List.Perm.append_right _ (List.Perm.map _ ?_)).append_right _
  simp only [messages, OutboundQueue.sent, BlockingQueue.push, hlocked, Option.map_none,
    Option.toList_none, Option.map_some, Option.toList_some, List.append_nil, List.append_assoc]
  exact (List.perm_append_comm).append_left _

/-- The references after the call with the mutex has failed. -/
theorem perm_references_notSent {call : LockedCall} (hlocked : s.locked = some call) :
    (s.notSent call.message.data).references.Perm s.references := by
  rw [List.perm_iff_count]
  intro buf
  simp only [references, messages, notSent, hlocked, Option.map_none, Option.toList_none,
    Option.map_some, Option.toList_some, List.append_nil, List.map_append, List.map_cons,
    List.map_nil, List.count_append]
  omega

/-- The references after a call has taken the mutex. -/
theorem perm_references_serializeNext {i : ℕ} {sender : PreparedCall} (hlocked : s.locked = none)
    (hi : s.prepared[i]? = some sender) :
    (s.serializeNext i sender).references.Perm s.references := by
  obtain ⟨hlt, rfl⟩ := List.getElem?_eq_some_iff.mp hi
  have hprepared := (List.getElem_cons_eraseIdx_perm hlt).map PreparedCall.buf
  rw [List.perm_iff_count] at hprepared ⊢
  intro buf
  have hcount := hprepared buf
  rw [serializeNext]
  split <;>
  · simp only [references, messages, notSent, hlocked, Option.map_none, Option.toList_none,
      Option.map_some, Option.toList_some, List.append_nil, List.map_append, List.map_cons,
      List.map_nil, List.count_append, List.count_cons, List.count_nil] at hcount ⊢
    omega

/-- Steps that pass buffers on keep them accounted. -/
theorem of_perm (h : s.Accounted) (hreferences : t.references.Perm s.references)
    (hheap : t.heap.length = s.heap.length) (hfreed : t.freed = s.freed) : t.Accounted := by
  rw [Accounted, hheap, hfreed]
  exact Ownership.Accounted.of_perm h hreferences

theorem sendTo (h : s.Accounted) {call : SendCall} {allocates : Bool}
    (hstep : s.step (.sendTo call allocates) = some t) : t.Accounted := by
  obtain rfl | ⟨bytes, rfl⟩ := step_sendTo hstep
  · exact h
  · rw [Accounted, List.length_append]
    refine Ownership.Accounted.allocate h ?_
    simp only [references, messages, List.map_append, List.map_cons, List.map_nil]
    rw [← List.append_assoc]
    exact List.perm_append_singleton ..

theorem lock (h : s.Accounted) {i : ℕ} (hstep : s.step (.lock i) = some t) : t.Accounted := by
  obtain ⟨hlocked, sender, hi, rfl⟩ := step_lock hstep
  refine h.of_perm (perm_references_serializeNext hlocked hi) ?_ ?_ <;>
    rw [serializeNext] <;> split
  · rfl
  · exact List.length_set
  · rfl
  · rfl

theorem locked (h : s.Accounted) {action : OutboundAction}
    (haction : action ∈ [OutboundAction.sendLowLevel, .resume, .timeOut])
    (hstep : s.step action = some t) : t.Accounted := by
  obtain ⟨call, hlocked, rfl | rfl | rfl⟩ := step_of_locked haction hstep
  · exact h.of_perm (perm_references_sent hlocked) rfl rfl
  · exact h.of_perm (perm_references_notSent hlocked) rfl rfl
  · refine h.of_perm (List.Perm.of_eq ?_) rfl rfl
    simp only [references, messages, hlocked, Option.map_some]

theorem free (h : s.Accounted) {i : ℕ} (hstep : s.step (.free i) = some t) : t.Accounted := by
  obtain ⟨buf, hi, rfl⟩ := Option.map_eq_some_iff.mp hstep
  obtain ⟨hlt, rfl⟩ := List.getElem?_eq_some_iff.mp hi
  refine Ownership.Accounted.free h ?_
  have hfailed := List.getElem_cons_eraseIdx_perm hlt
  rw [List.perm_iff_count] at hfailed ⊢
  intro buf
  have hcount := hfailed buf
  simp only [references, messages, List.count_append, List.count_cons, List.count_nil] at hcount ⊢
  omega

theorem receive (h : s.Accounted) (hstep : s.step .receive = some t) : t.Accounted := by
  obtain rfl | ⟨message, queue, hitems, rfl⟩ := step_receive hstep
  · exact h
  · refine h.of_perm (List.Perm.append_right _ (List.Perm.append_right _ (List.Perm.map _ ?_))) rfl
      rfl
    simp only [messages, hitems]
    refine List.Perm.append_right _ ?_
    rw [← List.append_assoc]
    exact List.perm_append_singleton ..

theorem finish (h : s.Accounted) {i : ℕ} (hstep : s.step (.finish i) = some t) :
    t.Accounted := by
  obtain ⟨message, hi, rfl⟩ := Option.map_eq_some_iff.mp hstep
  obtain ⟨hlt, rfl⟩ := List.getElem?_eq_some_iff.mp hi
  refine Ownership.Accounted.free h ?_
  have htransmitting := (List.getElem_cons_eraseIdx_perm hlt).map OutboundMessage.data
  rw [List.perm_iff_count] at htransmitting ⊢
  intro buf
  have hcount := htransmitting buf
  simp only [references, messages, List.map_append, List.map_cons, List.count_append,
    List.count_cons, List.count_nil] at hcount ⊢
  omega

/-- One step keeps the buffers accounted. -/
theorem step (h : s.Accounted) (action : OutboundAction) (hstep : s.step action = some t) :
    t.Accounted := by
  cases action with
  | sendTo call allocates => exact h.sendTo hstep
  | lock i => exact h.lock hstep
  | sendLowLevel | resume | timeOut => exact h.locked (by decide) hstep
  | free i => exact h.free hstep
  | receive => exact h.receive hstep
  | finish i => exact h.finish hstep
  | setTelemetryLevel level =>
    cases hstep
    exact h
  | close =>
    cases hstep
    exact h

/-- `destroy` frees the buffers of the messages in the queue. -/
theorem destroy (h : s.Accounted) : s.destroy.Accounted := by
  fun_induction OutboundQueue.destroy s with
  | case1 s message queue hreceive ih =>
    refine ih (Ownership.Accounted.free h (List.Perm.of_eq ?_))
    simp only [references, messages, BlockingQueue.items_of_receive hreceive, List.cons_append,
      List.map_cons, List.nil_append]
  | case2 => exact h
  | case3 => exact h

end Accounted

/-! ### Sequence numbers -/

variable (s) in
/-- The sequence number in the frame of a message. -/
def seqNoOf (message : OutboundMessage) : UInt8 := (s.heap.getD message.data []).getD 2 0

/-- The sequence numbers in the queue: the messages are in the order in which the numbers were
assigned, which are consecutive modulo 256, and from a message to the next one the number increases
by one and by one more for each failed call to which a number was assigned in between. -/
structure Numbered (s : OutboundQueue) : Prop where
  in_order : (s.queue.items.map OutboundMessage.data).Sublist s.assigned
  seqNoOf_eq : ∀ message ∈ s.queue.items, ∀ k, s.assigned[k]? = some message.data →
    s.seqNoOf message = UInt8.ofNat k
  consecutive : ∀ message message', [message, message'] <:+: s.queue.items →
    ∃ failed : List ℕ, message.data :: failed ++ [message'.data] <:+: s.assigned ∧
      (∀ buf ∈ failed, buf ∈ s.lost) ∧
      s.seqNoOf message' = s.seqNoOf message + 1 + UInt8.ofNat failed.length

variable (s) in
/-- The buffers with a sequence number whose messages are not in the queue: those of failed calls
and that of the call with the mutex. -/
def unsent : List ℕ := s.lost ++ (s.locked.map fun call => call.message.data).toList

variable (s) in
/-- The invariant: each buffer belongs to a call without a sequence number or was assigned one, and
the queue has the last of the messages that were sent. -/
structure Numbering : Prop where
  partition : (s.prepared.map PreparedCall.buf ++ s.assigned).Perm (List.range s.heap.length)
  seqNo_eq : s.seqNo = UInt8.ofNat s.assigned.length
  seqNoOf_eq : ∀ message ∈ s.queue.items ++ (s.locked.map LockedCall.message).toList,
    ∀ k, s.assigned[k]? = some message.data → s.seqNoOf message = UInt8.ofNat k
  locked_last : ∀ call ∈ s.locked, [call.message.data] <:+ s.assigned
  unsent_sublist : s.unsent.Sublist s.assigned
  queued : s.queue.items.map OutboundMessage.data <:+ s.assigned.filter (· ∉ s.unsent)

namespace Numbering

theorem nodup_assigned (h : s.Numbering) : s.assigned.Nodup :=
  (List.nodup_append.mp (h.partition.nodup_iff.mpr List.nodup_range)).2.1

theorem lt_of_mem_assigned (h : s.Numbering) {buf : ℕ} (hbuf : buf ∈ s.assigned) :
    buf < s.heap.length :=
  List.mem_range.mp (h.partition.mem_iff.mp (List.mem_append_right _ hbuf))

/-- A call without the mutex has no sequence number yet. -/
theorem not_mem_assigned (h : s.Numbering) {sender : PreparedCall} (hsender : sender ∈ s.prepared) :
    sender.buf ∉ s.assigned := fun hmem =>
  (List.nodup_append.mp (h.partition.nodup_iff.mpr List.nodup_range)).2.2 _
    (List.mem_map_of_mem hsender) _ hmem rfl

theorem mem_assigned_of_queued (h : s.Numbering) {message : OutboundMessage}
    (hmem : message ∈ s.queue.items) : message.data ∈ s.assigned :=
  (List.mem_filter.mp (h.queued.subset (List.mem_map_of_mem hmem))).1

/-- The element of a list between its first part and its last. -/
theorem getElem?_append_length {α : Type} (l m : List α) (a : α) :
    (l ++ a :: m)[l.length]? = some a := by
  rw [List.getElem?_append_right (Nat.le_refl _), Nat.sub_self, List.getElem?_cons_zero]

/-- The messages between two neighbours in the queue are lost. -/
theorem numbered (h : s.Numbering) : s.Numbered where
  in_order := h.queued.sublist.trans List.filter_sublist
  seqNoOf_eq := fun message hmem => h.seqNoOf_eq message (List.mem_append_left _ hmem)
  consecutive := by
    rintro message message' ⟨earlier, later, hitems⟩
    obtain ⟨received, hfilter⟩ := h.queued
    rw [← hitems] at hfilter
    simp only [List.map_append, List.map_cons, List.append_assoc, List.cons_append,
      List.nil_append] at hfilter
    rw [← List.append_assoc] at hfilter
    obtain ⟨before, after, hassigned, -, hafter⟩ := List.filter_eq_append_iff.mp hfilter.symm
    obtain ⟨skipped, rest, hsplit, -, -, hrest⟩ := List.filter_eq_cons_iff.mp hafter
    obtain ⟨failed, last, hsplit', hfailed, -, -⟩ := List.filter_eq_cons_iff.mp hrest
    have heq : s.assigned =
        (before ++ skipped ++ message.data :: failed) ++ (message'.data :: last) := by
      rw [hassigned, hsplit, hsplit']
      simp only [List.append_assoc, List.cons_append]
    have hmem : message ∈ s.queue.items := by
      rw [← hitems]
      simp only [List.mem_append, List.mem_cons, true_or, or_true]
    have hmem' : message' ∈ s.queue.items := by
      rw [← hitems]
      simp only [List.mem_append, List.mem_cons, true_or, or_true]
    refine ⟨failed, ⟨before ++ skipped, last, ?_⟩, fun buf hbuf => ?_, ?_⟩
    · rw [heq]
      simp only [List.append_assoc, List.cons_append, List.nil_append]
    · have hunsent := hfailed buf hbuf
      simp only [decide_not, Bool.not_eq_true', decide_eq_false_iff_not, not_not, unsent,
        List.mem_append] at hunsent
      refine hunsent.resolve_right fun hlocked => ?_
      -- the call with the mutex has the last number, and that of `message'` comes after `buf`
      obtain ⟨call, hcall, hdata⟩ := Option.map_eq_some_iff.mp (Option.mem_toList.mp hlocked)
      have hlast : [buf] <:+ message'.data :: last := by
        refine List.suffix_of_suffix_length_le (hdata ▸ h.locked_last call hcall) ⟨_, heq.symm⟩ ?_
        exact Nat.succ_le_succ (Nat.zero_le _)
      have hnodup := h.nodup_assigned
      rw [heq] at hnodup
      exact (List.nodup_append.mp hnodup).2.2 buf
        (List.mem_append_right _ (List.mem_cons_of_mem _ hbuf)) buf
        (hlast.subset (List.mem_singleton_self _)) rfl
    · have hnumber := h.seqNoOf_eq message (List.mem_append_left _ hmem) (before ++ skipped).length
        (by rw [heq, List.append_assoc, List.cons_append, getElem?_append_length])
      have hnumber' := h.seqNoOf_eq message' (List.mem_append_left _ hmem')
        (before ++ skipped ++ message.data :: failed).length (by rw [heq, getElem?_append_length])
      rw [List.length_append, List.length_cons, Nat.add_comm failed.length, ← Nat.add_assoc]
        at hnumber'
      rw [hnumber, hnumber', UInt8.ofNat_add, UInt8.ofNat_add]
      rfl

/-! ### Sequence numbers in one step -/

/-- A new last element that is left out does not change what is kept. -/
theorem filter_append_singleton {assigned unsent : List ℕ} {buf : ℕ} (hbuf : buf ∉ assigned) :
    (assigned ++ [buf]).filter (· ∉ unsent ++ [buf]) = assigned.filter (· ∉ unsent) := by
  have hnone : [buf].filter (· ∉ unsent ++ [buf]) = [] :=
    List.filter_eq_nil_iff.mpr fun b hb => by
      simp only [List.mem_append, hb, or_true, not_true_eq_false, decide_false, Bool.false_eq_true,
        not_false_eq_true]
  rw [List.filter_append, hnone, List.append_nil]
  refine List.filter_congr fun b hb => ?_
  have hne : b ≠ buf := fun heq => hbuf (heq ▸ hb)
  simp only [List.mem_append, List.mem_singleton, hne, or_false]

/-- The call with the mutex sends its message. -/
theorem sent (h : s.Numbering) {call : LockedCall} (hlocked : s.locked = some call) :
    (s.sent (s.queue.push call.message)).Numbering := by
  obtain ⟨earlier, hassigned⟩ := h.locked_last call hlocked
  have hfresh : call.message.data ∉ earlier := fun hmem => by
    have hnodup := h.nodup_assigned
    rw [← hassigned] at hnodup
    exact (List.nodup_append.mp hnodup).2.2 _ hmem _ (List.mem_singleton_self _) rfl
  have hunsent : s.unsent = s.lost ++ [call.message.data] := by
    rw [unsent, hlocked, Option.map_some, Option.toList_some]
  have hlost : s.lost.Sublist earlier := by
    have hsublist := h.unsent_sublist
    rw [hunsent, ← hassigned] at hsublist
    exact (List.append_sublist_append_right _).mp hsublist
  have hunsent' : (s.sent (s.queue.push call.message)).unsent = s.lost := List.append_nil _
  refine ⟨h.partition, h.seqNo_eq, ?_, nofun, ?_, ?_⟩
  · have hmessages := h.seqNoOf_eq
    simp only [hlocked, Option.map_some, Option.toList_some] at hmessages
    simp only [OutboundQueue.sent, BlockingQueue.push, Option.map_none, Option.toList_none,
      List.append_nil]
    exact hmessages
  · rw [hunsent', OutboundQueue.sent, ← hassigned]
    exact hlost.trans (List.sublist_append_left ..)
  · have hqueued := h.queued
    rw [hunsent, ← hassigned, filter_append_singleton hfresh] at hqueued
    have hkept : [call.message.data].filter (· ∉ s.lost) = [call.message.data] :=
      List.filter_eq_self.mpr fun b hb => by
        rw [List.mem_singleton.mp hb]
        exact decide_eq_true fun hmem => hfresh (hlost.subset hmem)
    rw [hunsent']
    simp only [OutboundQueue.sent, BlockingQueue.push, List.map_append, List.map_cons, List.map_nil]
    rw [← hassigned, List.filter_append, hkept]
    exact List.suffix_append_self_iff.mpr hqueued

/-- The call with the mutex fails. -/
theorem notSent (h : s.Numbering) {call : LockedCall} (hlocked : s.locked = some call) :
    (s.notSent call.message.data).Numbering := by
  have hunsent : (s.notSent call.message.data).unsent = s.unsent := by
    simp only [unsent, OutboundQueue.notSent, hlocked, Option.map_none, Option.toList_none,
      Option.map_some, Option.toList_some, List.append_nil]
  refine ⟨h.partition, h.seqNo_eq, fun message hmem => ?_, nofun, ?_, ?_⟩
  · refine h.seqNoOf_eq message (List.mem_append_left _ ?_)
    simpa only [OutboundQueue.notSent, Option.map_none, Option.toList_none, List.append_nil]
      using hmem
  · rw [hunsent]
    exact h.unsent_sublist
  · rw [hunsent]
    exact h.queued

/-- The number of a message is in its buffer. -/
theorem seqNoOf_congr {message : OutboundMessage}
    (hheap : t.heap[message.data]? = s.heap[message.data]?) :
    t.seqNoOf message = s.seqNoOf message := by
  simp only [seqNoOf, List.getD_eq_getElem?_getD, hheap]

/-- Writing to a buffer without a sequence number leaves the numbers of the messages in the queue
as they are. -/
theorem seqNoOf_set (h : s.Numbering) {sender : PreparedCall} (hsender : sender ∈ s.prepared)
    {message : OutboundMessage} (hmem : message ∈ s.queue.items) {bytes : List UInt8}
    (hheap : t.heap = s.heap.set sender.buf bytes) : t.seqNoOf message = s.seqNoOf message := by
  have hne : sender.buf ≠ message.data := fun heq =>
    h.not_mem_assigned hsender (heq ▸ h.mem_assigned_of_queued hmem)
  exact seqNoOf_congr (by rw [hheap, List.getElem?_set_ne hne])

/-- The number of the message whose frame was serialised. -/
theorem seqNoOf_set_self {message : OutboundMessage} (hlt : message.data < s.heap.length)
    {bytes : List UInt8} (hheap : t.heap = s.heap.set message.data bytes) :
    t.seqNoOf message = bytes.getD 2 0 := by
  simp only [seqNoOf, hheap, List.getD_eq_getElem?_getD, List.getElem?_set_self hlt,
    Option.getD_some]

/-- The numbers of the messages in the queue after another one was assigned. -/
theorem seqNoOf_eq_of_assigned (h : s.Numbering) {sender : PreparedCall}
    (hsender : sender ∈ s.prepared) {message : OutboundMessage} (hmem : message ∈ s.queue.items)
    {k : ℕ} (hk : (s.assigned ++ [sender.buf])[k]? = some message.data) :
    s.seqNoOf message = UInt8.ofNat k := by
  refine h.seqNoOf_eq message (List.mem_append_left _ hmem) k ?_
  rw [List.getElem?_append] at hk
  split_ifs at hk with hlt
  · exact hk
  · have hbuf : message.data ∈ [sender.buf] := List.mem_of_getElem? hk
    rw [List.mem_singleton] at hbuf
    exact absurd (hbuf ▸ h.mem_assigned_of_queued hmem) (h.not_mem_assigned hsender)

/-- The number that was assigned last. -/
theorem eq_length_of_assigned (h : s.Numbering) {sender : PreparedCall}
    (hsender : sender ∈ s.prepared) {k : ℕ}
    (hk : (s.assigned ++ [sender.buf])[k]? = some sender.buf) : k = s.assigned.length := by
  rw [List.getElem?_append] at hk
  split_ifs at hk with hlt
  · exact absurd (List.mem_of_getElem? hk) (h.not_mem_assigned hsender)
  · obtain ⟨hbound, -⟩ := List.getElem?_eq_some_iff.mp hk
    rw [List.length_singleton] at hbound
    omega

/-- A call takes the mutex and the next sequence number. -/
theorem serializeNext (h : s.Numbering) {i : ℕ} {sender : PreparedCall} (hlocked : s.locked = none)
    (hi : s.prepared[i]? = some sender) : (s.serializeNext i sender).Numbering := by
  have hsender : sender ∈ s.prepared := List.mem_of_getElem? hi
  have hunsent : s.unsent = s.lost := by
    rw [unsent, hlocked, Option.map_none, Option.toList_none, List.append_nil]
  have hpartition : ((s.prepared.eraseIdx i).map PreparedCall.buf ++
      (s.assigned ++ [sender.buf])).Perm (List.range s.heap.length) := by
    obtain ⟨hlt, rfl⟩ := List.getElem?_eq_some_iff.mp hi
    have hprepared := (List.getElem_cons_eraseIdx_perm hlt).map PreparedCall.buf
    refine List.Perm.trans ?_ h.partition
    rw [← List.append_assoc]
    exact (List.perm_append_singleton ..).trans (hprepared.append_right _)
  have hseqNo : s.seqNo + 1 = UInt8.ofNat (s.assigned ++ [sender.buf]).length := by
    rw [List.length_append, List.length_singleton, UInt8.ofNat_add, h.seqNo_eq]
    rfl
  have hsublist : (s.lost ++ [sender.buf]).Sublist (s.assigned ++ [sender.buf]) :=
    (hunsent ▸ h.unsent_sublist).append_right _
  have hqueued : s.queue.items.map OutboundMessage.data <:+
      (s.assigned ++ [sender.buf]).filter (· ∉ s.lost ++ [sender.buf]) := by
    rw [filter_append_singleton (h.not_mem_assigned hsender), ← hunsent]
    exact h.queued
  rw [OutboundQueue.serializeNext]
  split
  · refine ⟨hpartition, hseqNo, fun message hmem k hk => ?_, fun call hcall => ?_, ?_, ?_⟩
    · simp only [OutboundQueue.notSent, Option.map_none, Option.toList_none, List.append_nil]
        at hmem
      exact h.seqNoOf_eq_of_assigned hsender hmem hk
    · cases hcall
    · simpa only [unsent, OutboundQueue.notSent, Option.map_none, Option.toList_none,
        List.append_nil] using hsublist
    · simpa only [unsent, OutboundQueue.notSent, Option.map_none, Option.toList_none,
        List.append_nil] using hqueued
  · rename_i bytes hbytes
    refine ⟨?_, hseqNo, fun message hmem k hk => ?_, fun call hcall => ?_, hsublist, hqueued⟩
    · rw [List.length_set]
      exact hpartition
    · rcases List.mem_append.mp hmem with hmem | hmem
      · exact (h.seqNoOf_set hsender hmem rfl).trans (h.seqNoOf_eq_of_assigned hsender hmem hk)
      · rw [Option.map_some, Option.toList_some, List.mem_singleton] at hmem
        subst hmem
        have hlt : sender.buf < s.heap.length := List.mem_range.mp
          (h.partition.mem_iff.mp (List.mem_append_left _ (List.mem_map_of_mem hsender)))
        rw [h.eq_length_of_assigned hsender hk, ← h.seqNo_eq]
        exact (seqNoOf_set_self hlt rfl).trans (seqNo_of_serialize hbytes)
    · cases hcall
      exact List.suffix_append ..

theorem sendTo (h : s.Numbering) {call : SendCall} {allocates : Bool}
    (hstep : s.step (.sendTo call allocates) = some t) : t.Numbering := by
  obtain rfl | ⟨bytes, rfl⟩ := step_sendTo hstep
  · exact h
  · refine ⟨?_, h.seqNo_eq, fun message hmem k hk => ?_, h.locked_last, h.unsent_sublist, h.queued⟩
    · rw [List.map_append, List.append_assoc, List.length_append]
      exact (List.perm_middle.trans (h.partition.cons _)).trans
        (List.range_succ ▸ (List.perm_append_singleton ..).symm)
    · have hlt : message.data < s.heap.length := h.lt_of_mem_assigned (List.mem_of_getElem? hk)
      rw [← h.seqNoOf_eq message hmem k hk]
      exact seqNoOf_congr (List.getElem?_append_left hlt)

theorem lock (h : s.Numbering) {i : ℕ} (hstep : s.step (.lock i) = some t) : t.Numbering := by
  obtain ⟨hlocked, sender, hi, rfl⟩ := step_lock hstep
  exact h.serializeNext hlocked hi

/-- The call with the mutex waits for room. -/
theorem waits (h : s.Numbering) {call : LockedCall} (hlocked : s.locked = some call) :
    Numbering { s with locked := some { call with waits := true } } := by
  have hmessage : (some { call with waits := true }).map LockedCall.message =
      s.locked.map LockedCall.message := by rw [hlocked]; rfl
  have hdata : (some { call with waits := true }).map (fun call => call.message.data) =
      s.locked.map fun call => call.message.data := by rw [hlocked]; rfl
  refine ⟨h.partition, h.seqNo_eq, ?_, fun call' hcall => ?_, ?_, ?_⟩
  · rw [hmessage]
    exact h.seqNoOf_eq
  · cases hcall
    exact h.locked_last call hlocked
  · rw [unsent, hdata]
    exact h.unsent_sublist
  · rw [unsent, hdata]
    exact h.queued

theorem locked (h : s.Numbering) {action : OutboundAction}
    (haction : action ∈ [OutboundAction.sendLowLevel, .resume, .timeOut])
    (hstep : s.step action = some t) : t.Numbering := by
  obtain ⟨call, hlocked, rfl | rfl | rfl⟩ := step_of_locked haction hstep
  · exact h.sent hlocked
  · exact h.notSent hlocked
  · exact h.waits hlocked

theorem receive (h : s.Numbering) (hstep : s.step .receive = some t) : t.Numbering := by
  obtain rfl | ⟨message, queue, hitems, rfl⟩ := step_receive hstep
  · exact h
  · refine ⟨h.partition, h.seqNo_eq, fun m hmem => h.seqNoOf_eq m ?_, h.locked_last,
      h.unsent_sublist, ?_⟩
    · rw [hitems]
      exact List.mem_cons_of_mem _ hmem
    · have hqueued := h.queued
      rw [hitems, List.map_cons] at hqueued
      exact (List.suffix_cons ..).trans hqueued

/-- One step keeps the numbering. -/
theorem step (h : s.Numbering) (action : OutboundAction) (hstep : s.step action = some t) :
    t.Numbering := by
  cases action with
  | sendTo call allocates => exact h.sendTo hstep
  | lock i => exact h.lock hstep
  | sendLowLevel | resume | timeOut => exact h.locked (by decide) hstep
  | receive => exact h.receive hstep
  | free i =>
    obtain ⟨buf, -, rfl⟩ := Option.map_eq_some_iff.mp hstep
    exact ⟨h.partition, h.seqNo_eq, h.seqNoOf_eq, h.locked_last, h.unsent_sublist, h.queued⟩
  | finish i =>
    obtain ⟨message, -, rfl⟩ := Option.map_eq_some_iff.mp hstep
    exact ⟨h.partition, h.seqNo_eq, h.seqNoOf_eq, h.locked_last, h.unsent_sublist, h.queued⟩
  | setTelemetryLevel level =>
    cases hstep
    exact ⟨h.partition, h.seqNo_eq, h.seqNoOf_eq, h.locked_last, h.unsent_sublist, h.queued⟩
  | close =>
    cases hstep
    exact ⟨h.partition, h.seqNo_eq, h.seqNoOf_eq, h.locked_last, h.unsent_sublist, h.queued⟩

end Numbering

/-! ### Runs -/

theorem accounted_start : start.Accounted := List.Perm.refl _

theorem numbering_start : start.Numbering where
  partition := List.Perm.refl _
  seqNo_eq := rfl
  seqNoOf_eq := nofun
  locked_last := nofun
  unsent_sublist := List.Sublist.refl _
  queued := List.suffix_refl _

/-- **Buffers and sequence numbers.** In every state of every run, a buffer is live exactly if a
call or a message refers to it, no buffer is freed twice, and the sequence numbers of the messages
in the queue are in the order of their assignment and consecutive modulo 256 except for one number
for each failed call. -/
theorem owned_and_numbered {actions : List OutboundAction}
    (hvisit : Visits OutboundQueue.step start actions s) : s.Owned ∧ s.Numbered := by
  have h : s.Accounted ∧ s.Numbering :=
    invariant_visits_of_step (I := fun s => s.Accounted ∧ s.Numbering)
      (fun _ action _ h hstep => ⟨h.1.step action hstep, h.2.step action hstep⟩)
      ⟨accounted_start, numbering_start⟩ hvisit
  exact ⟨h.1.owned, h.2.numbered⟩

/-- Two calls take the mutex in the opposite order of their allocations. A third one fails because
the queue has been closed, and frees its buffer. -/
theorem owned_and_numbered_of_three_calls :
    let heartbeat : SendCall :=
      ⟨1, ⟨0, FrameType.heartbeat, Component.onboardComputer, Component.groundStation⟩, [], 10⟩
    let actions : List OutboundAction := [.sendTo heartbeat true, .sendTo heartbeat true, .lock 1,
      .sendLowLevel, .sendTo heartbeat true, .lock 0, .sendLowLevel, .close, .lock 0, .sendLowLevel,
      .free 0]
    ∃ s, run OutboundQueue.step start actions = some s ∧
      s.queue.items.map OutboundMessage.data = [1, 0] ∧ s.freed = [2] ∧ s.Owned ∧ s.Numbered := by
  intro heartbeat actions
  have hitems : (run OutboundQueue.step start actions).map
      (fun s => (s.queue.items.map OutboundMessage.data, s.freed)) = some ([1, 0], [2]) := by
    decide +kernel
  obtain ⟨s, hrun, hs⟩ := Option.map_eq_some_iff.mp hitems
  obtain ⟨hdata, hfreed⟩ := Prod.mk.inj hs
  exact ⟨s, hrun, hdata, hfreed, owned_and_numbered (visits_of_run hrun)⟩

end OutboundQueue

end TellerOBC
