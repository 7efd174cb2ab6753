import TellerOBC.Core.Telem.Streams
import TellerOBC.Telem.OutboundQueue

/-!
# The downlink

What a parser on the ground finds in the bytes that `modules/telem.cpp` writes to the telemetry
UART. Calls of `sendTo` from any tasks interleave, fail, and wait for room in the outbound queue;
one task takes the messages from the queue and writes them. The ground finds the messages that the
queue took, each once and in the order of their sequence numbers, with the payloads that were given
to `sendTo`.

Each buffer belongs to the call that allocated it, and the number of a message is the place of its
buffer in the order in which sequence numbers were assigned.

## Main definitions

* `TellerOBC.Downlink`: the outbound queue with the calls of its buffers.
* `TellerOBC.Downlink.accepted`: the buffers whose messages the queue took.
* `TellerOBC.Downlink.messagesOf`: what the ground is to find.

## Main results

* `TellerOBC.Downlink.Inv.step`: the invariant.
* `TellerOBC.Downlink.reports_rxsmBytes`: what the ground finds.
-/

namespace TellerOBC

open StepSystem OutboundQueue

/-- The outbound queue, with the calls that have allocated a buffer, in the order of the
allocations. -/
structure Downlink where
  outbound : OutboundQueue
  calls : List SendCall

namespace Downlink

/-- Before the first call. -/
def start : Downlink := ⟨OutboundQueue.start, []⟩

variable (s : Downlink)

/-- The calls after a step that leads to the given state of the outbound queue. -/
def callsAfter (outbound : OutboundQueue) : OutboundAction → List SendCall
  | .sendTo call _ =>
    if outbound.heap.length = s.outbound.heap.length then s.calls else s.calls ++ [call]
  | _ => s.calls

/-- The steps of the outbound queue. -/
def step (s : Downlink) (a : OutboundAction) : Option Downlink :=
  (s.outbound.step a).map fun outbound => ⟨outbound, s.callsAfter outbound a⟩

/-- The senders use components of the enumeration, and one task processes the messages. -/
def Proper : OutboundAction → Prop
  | .sendTo call _ => call.envelope.InRange
  | .receive => s.outbound.transmitting = []
  | _ => True

/-- The buffers whose messages were taken by the queue, in the order of their sequence numbers. -/
def accepted : List ℕ := s.outbound.assigned.filter (· ∉ s.outbound.unsent)

/-- The envelope of the message in a buffer. -/
def envelopeOf (call : SendCall) (buf : ℕ) : Envelope :=
  { call.envelope with seqNo := UInt8.ofNat (s.outbound.assigned.idxOf buf) }

/-- The messages in some buffers, as far as they are for the telemetry UART. -/
def messagesOf (bufs : List ℕ) : List (Envelope × List UInt8) :=
  bufs.filterMap fun buf => s.calls[buf]?.bind fun call =>
    if call.targets &&& rxsmTarget ≠ 0 then
      some ((s.envelopeOf call buf).withDefaults, call.payload)
    else none

/-- The bytes written to the telemetry UART. -/
def rxsmBytes : List UInt8 :=
  s.outbound.written.flatMap fun w => if w.1 = rxsmTarget then w.2 else []

/-! ### The invariant -/

/-- A message has the frame of the call whose buffer it has. -/
def Carries (message : OutboundMessage) : Prop :=
  ∃ call bytes bufferLength, s.calls[message.data]? = some call ∧ message.targets = call.targets ∧
    call.envelope.InRange ∧ message.data ∈ s.outbound.assigned ∧
    serialize bufferLength (s.envelopeOf call message.data) call.payload = some bytes ∧
    s.outbound.frame message = bytes

/-- The invariant. The messages that were written are in front of those that are being written or
wait in the queue. -/
structure Inv : Prop where
  numbering : s.outbound.Numbering
  length_calls : s.calls.length = s.outbound.heap.length
  inRange : ∀ call ∈ s.calls, call.envelope.InRange
  prepared : ∀ sender ∈ s.outbound.prepared, s.calls[sender.buf]? = some sender.call
  single : s.outbound.transmitting.length ≤ 1
  locked : ∀ call ∈ s.outbound.locked, s.Carries call.message
  messages : ∃ done : List OutboundMessage,
    (done ++ s.outbound.transmitting ++ s.outbound.queue.items).map OutboundMessage.data =
        s.accepted ∧
      (∀ message ∈ done ++ s.outbound.transmitting ++ s.outbound.queue.items,
        s.Carries message) ∧
      s.outbound.written = done.flatMap fun message =>
        message.uarts.map fun target => (target, s.outbound.frame message)

variable {s} {t : Downlink}

/-! ### Messages keep their frames -/

/-- Calls and sequence numbers are added, and the buffers with a sequence number are left alone. -/
structure Extends (s t : Downlink) : Prop where
  calls : s.calls <+: t.calls
  assigned : s.outbound.assigned <+: t.outbound.assigned
  heap : ∀ buf ∈ s.outbound.assigned, t.outbound.heap[buf]? = s.outbound.heap[buf]?

theorem Extends.frame_eq (h : s.Extends t) {message : OutboundMessage}
    (hmem : message.data ∈ s.outbound.assigned) :
    t.outbound.frame message = s.outbound.frame message := by
  rw [OutboundQueue.frame, OutboundQueue.frame, List.getD_eq_getElem?_getD,
    List.getD_eq_getElem?_getD, h.heap _ hmem]

theorem Extends.carries (h : s.Extends t) {message : OutboundMessage}
    (hcarries : s.Carries message) : t.Carries message := by
  obtain ⟨call, bytes, bufferLength, hcall, htargets, hrange, hmem, hbytes, hframe⟩ := hcarries
  refine ⟨call, bytes, bufferLength, ?_, htargets, hrange, h.assigned.subset hmem, ?_, ?_⟩
  · obtain ⟨hlt, -⟩ := List.getElem?_eq_some_iff.mp hcall
    rw [← hcall]
    obtain ⟨later, hlater⟩ := h.calls
    rw [← hlater, List.getElem?_append_left hlt]
  · obtain ⟨later, hlater⟩ := h.assigned
    have hindex : t.outbound.assigned.idxOf message.data =
        s.outbound.assigned.idxOf message.data := by
      rw [← hlater, List.idxOf_append_of_mem hmem]
    rwa [envelopeOf, hindex]
  · rw [h.frame_eq hmem, hframe]

/-- A message is in a buffer with a sequence number. -/
theorem Carries.mem_assigned {message : OutboundMessage} (h : s.Carries message) :
    message.data ∈ s.outbound.assigned := by
  obtain ⟨-, -, -, -, -, -, hmem, -⟩ := h
  exact hmem

/-- The written frames, the messages on their way and the accepted buffers stay related in a step
that neither moves a message nor accepts one. -/
theorem Inv.messages_of_extends (h : s.Inv) (hextends : s.Extends t)
    (haccepted : t.accepted = s.accepted)
    (htransmitting : t.outbound.transmitting = s.outbound.transmitting)
    (hitems : t.outbound.queue.items = s.outbound.queue.items)
    (hwritten : t.outbound.written = s.outbound.written) :
    ∃ done : List OutboundMessage,
      (done ++ t.outbound.transmitting ++ t.outbound.queue.items).map OutboundMessage.data =
          t.accepted ∧
        (∀ message ∈ done ++ t.outbound.transmitting ++ t.outbound.queue.items,
          t.Carries message) ∧
        t.outbound.written = done.flatMap fun message =>
          message.uarts.map fun target => (target, t.outbound.frame message) := by
  obtain ⟨done, hdata, hcarries, hframes⟩ := h.messages
  rw [htransmitting, hitems, haccepted, hwritten, hframes]
  refine ⟨done, hdata, fun message hmem => hextends.carries (hcarries message hmem), ?_⟩
  refine List.flatMap_congr fun message hmem => ?_
  have hcarried := hcarries message (List.mem_append_left _ (List.mem_append_left _ hmem))
  rw [hextends.frame_eq hcarried.mem_assigned]

/-! ### The steps -/

/-- A call allocates its buffer. -/
theorem Inv.sendTo (h : s.Inv) {call : SendCall} {allocates : Bool}
    (hrange : call.envelope.InRange) {outbound : OutboundQueue}
    (hstep : s.outbound.step (.sendTo call allocates) = some outbound) :
    Inv ⟨outbound, s.callsAfter outbound (.sendTo call allocates)⟩ := by
  have hnumbering := h.numbering.sendTo hstep
  obtain rfl | ⟨bytes, rfl⟩ := step_sendTo hstep
  · rw [callsAfter, if_pos rfl]
    exact h
  · have hcalls : s.callsAfter { s.outbound with
        heap := s.outbound.heap ++ [bytes]
        prepared := s.outbound.prepared ++ [⟨call, s.outbound.heap.length⟩] }
        (.sendTo call allocates) = s.calls ++ [call] := by
      refine if_neg ?_
      rw [List.length_append, List.length_singleton]
      omega
    rw [hcalls]
    have hextends : s.Extends ⟨{ s.outbound with
        heap := s.outbound.heap ++ [bytes]
        prepared := s.outbound.prepared ++ [⟨call, s.outbound.heap.length⟩] },
        s.calls ++ [call]⟩ :=
      ⟨List.prefix_append .., List.prefix_rfl, fun buf hbuf =>
        List.getElem?_append_left (h.numbering.lt_of_mem_assigned hbuf)⟩
    refine ⟨hnumbering, ?_, ?_, ?_, h.single, fun locked hlocked =>
      hextends.carries (h.locked locked hlocked),
      h.messages_of_extends hextends rfl rfl rfl rfl⟩
    · rw [List.length_append, List.length_append, h.length_calls]
      rfl
    · exact List.forall_mem_append.mpr ⟨h.inRange, List.forall_mem_singleton.mpr hrange⟩
    · refine List.forall_mem_append.mpr ⟨fun sender hsender => ?_, ?_⟩
      · have hcall := h.prepared sender hsender
        obtain ⟨hlt, -⟩ := List.getElem?_eq_some_iff.mp hcall
        rw [List.getElem?_append_left hlt, hcall]
      · rw [List.forall_mem_singleton, ← h.length_calls, List.getElem?_append_right le_rfl,
          Nat.sub_self]
        rfl

/-- A number that is assigned and not sent yet is not accepted. -/
theorem accepted_of_assigned {buf : ℕ} (hfresh : buf ∉ s.outbound.assigned)
    (hassigned : t.outbound.assigned = s.outbound.assigned ++ [buf])
    (hunsent : t.outbound.unsent = s.outbound.unsent ++ [buf]) : t.accepted = s.accepted := by
  rw [accepted, hassigned, hunsent]
  exact Numbering.filter_append_singleton hfresh

/-- A call takes the mutex, and its message is serialised. -/
theorem Inv.lock (h : s.Inv) {i : ℕ} {outbound : OutboundQueue}
    (hstep : s.outbound.step (.lock i) = some outbound) : Inv ⟨outbound, s.calls⟩ := by
  have hnumbering := h.numbering.lock hstep
  obtain ⟨hlocked, sender, hi, rfl⟩ := step_lock hstep
  have hsender : sender ∈ s.outbound.prepared := List.mem_of_getElem? hi
  have hfresh := h.numbering.not_mem_assigned hsender
  have hcall := h.prepared sender hsender
  have hrest : ∀ other ∈ s.outbound.prepared.eraseIdx i, s.calls[other.buf]? = some other.call :=
    fun other hother => h.prepared other ((List.eraseIdx_sublist ..).subset hother)
  have hunsent : s.outbound.unsent = s.outbound.lost := by
    rw [unsent, hlocked, Option.map_none, Option.toList_none, List.append_nil]
  rw [OutboundQueue.serializeNext] at hnumbering ⊢
  split
  · -- nothing was serialised: the call fails
    rename_i hserialize
    rw [hserialize] at hnumbering
    have hextends : s.Extends ⟨OutboundQueue.notSent { s.outbound with
        seqNo := s.outbound.seqNo + 1
        prepared := s.outbound.prepared.eraseIdx i
        assigned := s.outbound.assigned ++ [sender.buf] } sender.buf, s.calls⟩ :=
      ⟨List.prefix_rfl, List.prefix_append .., fun _ _ => rfl⟩
    refine ⟨hnumbering, h.length_calls, h.inRange, hrest, h.single, (fun _ hnone => by cases hnone),
      h.messages_of_extends hextends ?_ rfl rfl rfl⟩
    refine accepted_of_assigned hfresh rfl ?_
    rw [hunsent, unsent, OutboundQueue.notSent, Option.map_none, Option.toList_none,
      List.append_nil]
  · rename_i bytes hserialize
    rw [hserialize] at hnumbering
    have hlt : sender.buf < s.outbound.heap.length := List.mem_range.mp
      (h.numbering.partition.mem_iff.mp (List.mem_append_left _ (List.mem_map_of_mem hsender)))
    have hextends : s.Extends ⟨{ s.outbound with
        seqNo := s.outbound.seqNo + 1
        prepared := s.outbound.prepared.eraseIdx i
        assigned := s.outbound.assigned ++ [sender.buf]
        heap := s.outbound.heap.set sender.buf bytes
        locked := some
          { message := ⟨sender.call.targets, sender.buf, sender.call.payload.length + 8⟩
            timeout := sender.call.timeout } }, s.calls⟩ :=
      ⟨List.prefix_rfl, List.prefix_append .., fun buf hbuf =>
        List.getElem?_set_ne fun heq : sender.buf = buf => hfresh (heq ▸ hbuf)⟩
    refine ⟨hnumbering, ?_, h.inRange, hrest, h.single, fun call hmem => ?_,
      h.messages_of_extends hextends (accepted_of_assigned hfresh rfl ?_) rfl rfl rfl⟩
    · rw [List.length_set]
      exact h.length_calls
    · cases hmem
      have hwell := wellFormedFrame_of_serialize hserialize
      refine ⟨sender.call, bytes, getMessageSizeForPayloadLength sender.call.payload.length, hcall,
        rfl, h.inRange _ (List.mem_of_getElem? hcall),
        List.mem_append_right _ (List.mem_singleton_self _), ?_, ?_⟩
      · have hindex : (s.outbound.assigned ++ [sender.buf]).idxOf sender.buf =
            s.outbound.assigned.length := by
          rw [List.idxOf_append_of_notMem hfresh, List.idxOf_cons_self, Nat.add_zero]
        rw [envelopeOf]
        simp only [hindex, ← h.numbering.seqNo_eq]
        exact hserialize
      · rw [OutboundQueue.frame, List.getD_eq_getElem?_getD, List.getElem?_set_self hlt,
          Option.getD_some]
        exact List.take_of_length_le hwell.length_eq.le
    · rw [hunsent]
      rfl

/-- The call with the mutex sends its message, fails or waits. -/
theorem Inv.ofLocked (h : s.Inv) {action : OutboundAction}
    (haction : action ∈ [OutboundAction.sendLowLevel, .resume, .timeOut])
    {outbound : OutboundQueue} (hstep : s.outbound.step action = some outbound) :
    Inv ⟨outbound, s.calls⟩ := by
  have hnumbering := h.numbering.locked haction hstep
  obtain ⟨call, hlocked, rfl | rfl | rfl⟩ := step_of_locked haction hstep
  · obtain ⟨earlier, hassigned⟩ := h.numbering.locked_last call hlocked
    have hfresh : call.message.data ∉ earlier := fun hmem => by
      have hnodup := h.numbering.nodup_assigned
      rw [← hassigned] at hnodup
      exact (List.nodup_append.mp hnodup).2.2 _ hmem _ (List.mem_singleton_self _) rfl
    have hunsent : s.outbound.unsent = s.outbound.lost ++ [call.message.data] := by
      rw [unsent, hlocked, Option.map_some, Option.toList_some]
    have hlost : call.message.data ∉ s.outbound.lost := fun hmem => by
      have hsublist := h.numbering.unsent_sublist
      rw [hunsent, ← hassigned, List.append_sublist_append_right] at hsublist
      exact hfresh (hsublist.subset hmem)
    -- the buffer of the message is accepted behind those before it
    have haccepted : accepted ⟨s.outbound.sent (s.outbound.queue.push call.message), s.calls⟩ =
        s.accepted ++ [call.message.data] := by
      have hbefore : s.accepted = earlier.filter (· ∉ s.outbound.lost) := by
        rw [accepted, hunsent, ← hassigned, Numbering.filter_append_singleton hfresh]
      have hsent : OutboundQueue.unsent (s.outbound.sent (s.outbound.queue.push call.message)) =
          s.outbound.lost := List.append_nil _
      rw [hbefore, accepted, hsent, OutboundQueue.sent, ← hassigned, List.filter_append]
      refine congrArg (_ ++ ·) (List.filter_eq_self.mpr fun buf hbuf => ?_)
      rw [List.mem_singleton.mp hbuf]
      exact decide_eq_true hlost
    obtain ⟨done, hdata, hcarries, hframes⟩ := h.messages
    refine ⟨hnumbering, h.length_calls, h.inRange, h.prepared, h.single,
      (fun _ hnone => by cases hnone), done, ?_, ?_, hframes⟩
    · rw [haccepted, ← hdata]
      simp only [OutboundQueue.sent, BlockingQueue.push, List.map_append, List.append_assoc,
        List.map_cons, List.map_nil]
    · intro message hmem
      simp only [OutboundQueue.sent, BlockingQueue.push, ← List.append_assoc] at hmem
      rcases List.mem_append.mp hmem with hmem | hmem
      · exact hcarries message hmem
      · rw [List.mem_singleton.mp hmem]
        exact h.locked call hlocked
  · have hextends : s.Extends ⟨s.outbound.notSent call.message.data, s.calls⟩ :=
      ⟨List.prefix_rfl, List.prefix_rfl, fun _ _ => rfl⟩
    refine ⟨hnumbering, h.length_calls, h.inRange, h.prepared, h.single,
      (fun _ hnone => by cases hnone), h.messages_of_extends hextends ?_ rfl rfl rfl⟩
    rw [accepted, accepted]
    simp only [unsent, OutboundQueue.notSent, hlocked, Option.map_none, Option.toList_none,
      Option.map_some, Option.toList_some, List.append_nil]
  · have hextends : s.Extends
        ⟨{ s.outbound with locked := some { call with waits := true } }, s.calls⟩ :=
      ⟨List.prefix_rfl, List.prefix_rfl, fun _ _ => rfl⟩
    refine ⟨hnumbering, h.length_calls, h.inRange, h.prepared, h.single, fun locked hmem => ?_,
      h.messages_of_extends hextends ?_ rfl rfl rfl⟩
    · cases hmem
      exact h.locked call hlocked
    · rw [accepted, accepted]
      simp only [unsent, hlocked, Option.map_some]
      rfl

/-- `processNext` takes a message from the queue, or writes it. -/
theorem Inv.receive (h : s.Inv) (hidle : s.outbound.transmitting = []) {outbound : OutboundQueue}
    (hstep : s.outbound.step .receive = some outbound) : Inv ⟨outbound, s.calls⟩ := by
  have hnumbering := h.numbering.receive hstep
  obtain rfl | ⟨message, queue, hitems, rfl⟩ := step_receive hstep
  · exact h
  · obtain ⟨done, hdata, hcarries, hframes⟩ := h.messages
    have hmoved : ∀ l : List OutboundMessage,
        l ++ s.outbound.transmitting ++ s.outbound.queue.items =
          l ++ (s.outbound.transmitting ++ [message]) ++ queue.items := fun l => by
      rw [hitems]
      simp only [List.append_assoc, List.cons_append, List.nil_append]
    rw [hmoved] at hdata hcarries
    refine ⟨hnumbering, h.length_calls, h.inRange, h.prepared, ?_, h.locked, done, hdata, hcarries,
      hframes⟩
    rw [hidle]
    rfl

theorem Inv.finish (h : s.Inv) {i : ℕ} {outbound : OutboundQueue}
    (hstep : s.outbound.step (.finish i) = some outbound) : Inv ⟨outbound, s.calls⟩ := by
  have hnumbering := h.numbering.step (.finish i) hstep
  obtain ⟨message, hi, rfl⟩ := Option.map_eq_some_iff.mp hstep
  -- there is no other message that is being written
  obtain ⟨htransmitting, rfl⟩ : s.outbound.transmitting = [message] ∧ i = 0 := by
    have hsingle := h.single
    match hlist : s.outbound.transmitting, i with
    | [], _ => rw [hlist] at hi; cases hi
    | [m], 0 => rw [hlist] at hi; cases hi; exact ⟨rfl, rfl⟩
    | [_], _ + 1 => rw [hlist] at hi; cases hi
    | _ :: _ :: _, _ =>
      rw [hlist, List.length_cons, List.length_cons] at hsingle
      omega
  obtain ⟨done, hdata, hcarries, hframes⟩ := h.messages
  have hempty : s.outbound.transmitting.eraseIdx 0 = [] := by rw [htransmitting]; rfl
  rw [htransmitting] at hdata hcarries
  refine ⟨hnumbering, h.length_calls, h.inRange, h.prepared, ?_, h.locked, done ++ [message],
    ?_, ?_, ?_⟩
  · rw [hempty]
    exact Nat.zero_le 1
  · rw [hempty, List.append_nil]
    exact hdata
  · rw [hempty, List.append_nil]
    exact hcarries
  · rw [hframes, List.flatMap_append, List.flatMap_singleton]
    rfl

/-- Every step that is taken as it is meant to be preserves the invariant. -/
theorem Inv.step {a : OutboundAction} (h : s.Inv) (hproper : s.Proper a)
    (hstep : s.step a = some t) : t.Inv := by
  obtain ⟨outbound, houtbound, rfl⟩ := Option.map_eq_some_iff.mp hstep
  cases a with
  | sendTo call allocates => exact h.sendTo hproper houtbound
  | lock i => exact h.lock houtbound
  | sendLowLevel | resume | timeOut => exact h.ofLocked (by decide) houtbound
  | receive => exact h.receive hproper houtbound
  | finish i => exact h.finish houtbound
  | free i =>
    have hnumbering := h.numbering.step (.free i) houtbound
    obtain ⟨buf, -, rfl⟩ := Option.map_eq_some_iff.mp houtbound
    exact ⟨hnumbering, h.length_calls, h.inRange, h.prepared, h.single, h.locked, h.messages⟩
  | setTelemetryLevel level =>
    have hnumbering := h.numbering.step (.setTelemetryLevel level) houtbound
    cases houtbound
    exact ⟨hnumbering, h.length_calls, h.inRange, h.prepared, h.single, h.locked, h.messages⟩
  | close =>
    have hnumbering := h.numbering.step .close houtbound
    cases houtbound
    exact ⟨hnumbering, h.length_calls, h.inRange, h.prepared, h.single, h.locked, h.messages⟩

/-! ### Runs -/

theorem inv_start : start.Inv where
  numbering := numbering_start
  length_calls := rfl
  inRange := fun _ hmem => absurd hmem List.not_mem_nil
  prepared := fun _ hmem => absurd hmem List.not_mem_nil
  single := Nat.zero_le 1
  locked := fun _ hmem => by cases hmem
  messages := ⟨[], rfl, fun _ hmem => absurd hmem List.not_mem_nil, rfl⟩

/-- What is written of a message to the telemetry UART. -/
theorem rxsmBytes_uarts (message : OutboundMessage) (frame : List UInt8) :
    (message.uarts.map fun target => (target, frame)).flatMap
        (fun w => if w.1 = rxsmTarget then w.2 else []) =
      if message.targets &&& rxsmTarget ≠ 0 then frame else [] := by
  have hne : debugTarget ≠ rxsmTarget := by decide
  by_cases hrxsm : message.targets &&& rxsmTarget = 0 <;>
    by_cases hdebug : message.targets &&& debugTarget = 0 <;>
      simp [OutboundMessage.uarts, hrxsm, hdebug, hne]

/-- The messages that were written are found. -/
theorem reports_written {p : Parser} (hs : p.state = .waitingSyncByte1)
    {done : List OutboundMessage} (hdone : ∀ message ∈ done, s.Carries message) :
    p.reports ((done.flatMap fun message => message.uarts.map fun target =>
        (target, s.outbound.frame message)).flatMap
          fun w => if w.1 = rxsmTarget then w.2 else []) =
      s.messagesOf (done.map OutboundMessage.data) := by
  induction done generalizing p with
  | nil => rfl
  | cons message done ih =>
    obtain ⟨hmessage, hrest⟩ := List.forall_mem_cons.mp hdone
    obtain ⟨call, bytes, bufferLength, hcall, htargets, hrange, -, hbytes, hframe⟩ := hmessage
    rw [List.flatMap_cons, List.flatMap_append, rxsmBytes_uarts, htargets, List.map_cons,
      messagesOf, List.filterMap_cons, hcall, Option.bind_some]
    have hrange' : (s.envelopeOf call message.data).InRange := ⟨hrange.source, hrange.target⟩
    split_ifs with htarget
    · obtain ⟨hreports, hstate⟩ := Parser.reports_serialize hs hrange' hbytes
      rw [hframe, Parser.reports_append, hreports, ih hstate hrest]
      rfl
    · rw [List.nil_append, ih hs hrest]
      rfl

/-- **What the ground finds.** Let calls of `sendTo` with components of the enumeration interleave
in any way, with one task that processes the messages of the queue. A parser on the ground that is
fed the bytes of the telemetry UART finds the messages for this UART that the queue took, each once,
in the order of their sequence numbers and with their payloads, but for the last ones, which are in
the queue or being written. -/
theorem reports_rxsmBytes {p : Parser} (hs : p.state = .waitingSyncByte1)
    {actions : List OutboundAction} (hproper : Meets step Proper start actions)
    (hvisit : Visits step start actions s) :
    s.accepted.Nodup ∧ p.reports s.rxsmBytes ++ s.messagesOf
        ((s.outbound.transmitting ++ s.outbound.queue.items).map OutboundMessage.data) =
      s.messagesOf s.accepted := by
  have h : s.Inv :=
    invariant_visits (fun _ _ _ hs hok hstep => Inv.step hs hok hstep) inv_start hproper hvisit
  obtain ⟨done, hdata, hcarries, hframes⟩ := h.messages
  rw [List.append_assoc] at hdata hcarries
  have hdone : ∀ message ∈ done, s.Carries message :=
    fun message hmem => hcarries message (List.mem_append_left _ hmem)
  refine ⟨h.numbering.nodup_assigned.filter _, ?_⟩
  rw [rxsmBytes, hframes, reports_written hs hdone, ← hdata]
  simp only [messagesOf, List.map_append, List.filterMap_append]

/-- Two tasks send heartbeats; the second one takes the mutex first, and its message is found. -/
theorem reports_rxsmBytes_of_two_calls :
    let heartbeat : SendCall :=
      ⟨1, ⟨0, FrameType.heartbeat, Component.onboardComputer, Component.groundStation⟩, [], 10⟩
    let actions : List OutboundAction := [.sendTo heartbeat true, .sendTo heartbeat true, .lock 1,
      .sendLowLevel, .lock 0, .sendLowLevel, .receive, .finish 0]
    ∃ s, run step start actions = some s ∧ s.accepted = [1, 0] ∧
      Parser.fresh.reports s.rxsmBytes ++ s.messagesOf [0] = s.messagesOf s.accepted := by
  intro heartbeat actions
  have hrun : (run step start actions).map (fun s => (s.accepted,
      (s.outbound.transmitting ++ s.outbound.queue.items).map OutboundMessage.data)) =
      some ([1, 0], [0]) := by
    decide +kernel
  have hproper : Meets step Proper start actions := by
    refine .cons ⟨by decide, by decide⟩ rfl (.cons ⟨by decide, by decide⟩ rfl (.cons trivial rfl
      (.cons trivial rfl (.cons trivial rfl (.cons trivial rfl (.cons ?_ rfl (.cons trivial rfl
        trivial)))))))
    rfl
  obtain ⟨s, hs, heq⟩ := Option.map_eq_some_iff.mp hrun
  obtain ⟨haccepted, hpending⟩ := Prod.mk.inj heq
  refine ⟨s, hs, haccepted, ?_⟩
  rw [← hpending]
  exact (reports_rxsmBytes rfl hproper (visits_of_run hs)).2

end Downlink

end TellerOBC
