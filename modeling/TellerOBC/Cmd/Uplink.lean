import TellerOBC.Cmd.InboundQueue
import TellerOBC.Core.Telem.Streams
import TellerOBC.UartRx

/-!
# The uplink

The way of a message from the ground: the receiving tasks of `modules/uart_rx.cpp` feed the bytes of
their UARTs to their parsers and pass on the messages to `feedNonblocking` of `modules/cmd.cpp`, and
one task takes them from the inbound queue in `processNext`. The steps of these tasks interleave in
any order. A message is lost if there is no memory for its payload, or if the queue is full or
closed.

## Main definitions

* `TellerOBC.Uplink.step`: the receiving tasks with the inbound queue.
* `TellerOBC.Uplink.messages`: the messages of a UART that the queue has taken.

## Main results

* `TellerOBC.Uplink.Inv.step`: the invariant.
* `TellerOBC.Uplink.messages_run`: the messages of a stream.
-/

namespace TellerOBC

open StepSystem

/-- The position in the enumeration `uart_t`. -/
def RxUart.code : RxUart → UInt8
  | .rxsm => 0
  | .debug => 3

/-- The receiving tasks and the inbound queue, with their history. -/
structure Uplink where
  rx : UartRx
  inbound : InboundQueue
  /-- The messages that the parsers have passed on, with the results of `feedNonblocking`. -/
  feeds : List (InboundMessage × Bool) := []
  /-- The messages that `processNext` has taken from the queue. -/
  handled : List InboundMessage := []

/-- The steps of the tasks. -/
inductive UplinkAction where
  /-- A step of a receiving task; if it passes on a message, the allocation may fail. -/
  | rx (action : UartRxAction) (allocates : Bool)
  | receive
  | finish
  | close
  deriving DecidableEq, Repr

namespace Uplink

/-- After `init` of both modules. -/
def start (rxBuf : Vector UInt8 rxBufSize) (parsers : RxUart → Parser) (closed : Bool) :
    Uplink where
  rx := UartRx.start rxBuf parsers
  inbound := InboundQueue.start closed

/-- The message that the parser of a UART passes on at the next byte of its task. -/
def reportAt (rx : UartRx) (index : RxUart) : Option InboundMessage :=
  let task := rx.tasks index
  if h : task.i < rxBufSize then
    let r := task.parser.feed rx.rxBuf[task.i]
    if r.1 ≠ 0 then some ⟨index.code, r.2.envelope, r.2.getPayload.take (r.1.toNat - 1)⟩ else none
  else none

variable (s : Uplink)

/-- A message is passed on to `feedNonblocking`. -/
def feedNonblocking (rx : UartRx) (message : InboundMessage) (allocates : Bool) : Option Uplink :=
  (s.inbound.step (.feedNonblocking message allocates)).map fun inbound =>
    { s with
      rx := rx
      inbound := inbound
      feeds := s.feeds ++
        [(message, allocates && !s.inbound.queue.closed && !s.inbound.queue.full)] }

/-- The steps of the system. -/
def step : UplinkAction → Option Uplink
  | .rx (.feed index) allocates =>
    (s.rx.step (.feed index)).bind fun rx =>
      match reportAt s.rx index with
      | some message => s.feedNonblocking rx message allocates
      | none => some { s with rx := rx }
  | .rx action _ => (s.rx.step action).map fun rx => { s with rx := rx }
  | .receive => (s.inbound.step .receive).map fun inbound =>
      { s with
        inbound := inbound
        handled := s.handled ++ inbound.processing.toList.map QueuedMessage.message }
  | .finish => (s.inbound.step .finish).map fun inbound => { s with inbound := inbound }
  | .close => (s.inbound.step .close).map fun inbound => { s with inbound := inbound }

/-- A read leaves the bytes of the other receiving task as they are. -/
def Spares : UplinkAction → Prop
  | .rx action _ => s.rx.Spares action
  | _ => True

/-- The messages that the queue has taken, in order: those that were handled and those in the
queue. -/
def taken : List InboundMessage :=
  s.handled ++ s.inbound.queue.items.map QueuedMessage.message

/-- The envelope and the payload of a message of a UART. -/
def contentOf (index : RxUart) (message : InboundMessage) : Option (Envelope × List UInt8) :=
  if message.index = index.code then some (message.envelope, message.payload) else none

/-- The messages of a UART that the queue has taken. -/
def messages (index : RxUart) : List (Envelope × List UInt8) :=
  s.taken.filterMap (contentOf index)

/-! ### The invariant -/

/-- The invariant. -/
structure Inv (rxBuf : Vector UInt8 rxBufSize) (parsers : RxUart → Parser) : Prop where
  sound : s.rx.Sound
  reached : ∃ actions, run UartRx.step (UartRx.start rxBuf parsers) actions = some s.rx
  /-- The parsers have passed on what is in the bytes that they were fed. -/
  reports : ∀ index, (s.feeds.map Prod.fst).filterMap (contentOf index) =
    (parsers index).reset.reports (s.rx.tasks index).fed
  /-- The queue has taken the messages that `feedNonblocking` accepted. -/
  accepted : s.taken = (s.feeds.filter Prod.snd).map Prod.fst

variable {s} {t : Uplink} {rxBuf : Vector UInt8 rxBufSize} {parsers : RxUart → Parser}

theorem inv_start (rxBuf : Vector UInt8 rxBufSize) (parsers : RxUart → Parser) (closed : Bool) :
    (start rxBuf parsers closed).Inv rxBuf parsers where
  sound := UartRx.sound_start rxBuf parsers
  reached := ⟨[], rfl⟩
  reports := fun _ => rfl
  accepted := rfl

/-- A byte that a receiving task feeds, and what its parser passes on. -/
theorem reportAt_of_step {rx rx' : UartRx} {index : RxUart}
    (hstep : rx.step (.feed index) = some rx') :
    ∃ ch, rx' = rx.update index ((rx.tasks index).feed ch) ∧
      reportAt rx index =
        let r := (rx.tasks index).parser.feed ch
        if r.1 ≠ 0 then some ⟨index.code, r.2.envelope, r.2.getPayload.take (r.1.toNat - 1)⟩
        else none := by
  rw [UartRx.step] at hstep
  split_ifs at hstep with h
  exact ⟨_, (Option.some.inj hstep).symm, dif_pos h.2⟩

/-- What the queue contains after `feedNonblocking`. -/
theorem items_of_feedNonblocking {inbound inbound' : InboundQueue} {message : InboundMessage}
    {allocates : Bool}
    (hstep : inbound.step (.feedNonblocking message allocates) = some inbound') :
    inbound'.queue.items.map QueuedMessage.message =
      inbound.queue.items.map QueuedMessage.message ++
        if allocates && !inbound.queue.closed && !inbound.queue.full then [message] else [] := by
  cases allocates with
  | false =>
    obtain rfl := Option.some.inj hstep
    simp
  | true =>
    cases hclosed : inbound.queue.closed <;> cases hfull : inbound.queue.full <;>
      simp only [InboundQueue.step, InboundQueue.prepareMessage, BlockingQueue.sendOrDrop, hclosed,
        hfull, Option.some.injEq, Bool.or_true, Bool.or_false, Bool.or_self, if_true, if_false,
        Bool.false_eq_true] at hstep <;>
      subst hstep <;> simp [BlockingQueue.push]

theorem code_injective {index other : RxUart} (h : index.code = other.code) : index = other := by
  cases index <;> cases other
  · rfl
  · exact absurd h (by decide)
  · exact absurd h (by decide)
  · rfl

/-- The report of one byte. -/
theorem reports_singleton (p : Parser) (index : RxUart) (ch : UInt8) :
    p.reports [ch] =
      ((let r := p.feed ch
        if r.1 ≠ 0 then some ⟨index.code, r.2.envelope, r.2.getPayload.take (r.1.toNat - 1)⟩
        else none : Option InboundMessage).toList).filterMap (contentOf index) := by
  simp only [Parser.reports]
  split_ifs with h
  · simp [contentOf]
  · rfl

/-- A step of the receiving tasks that passes on no message. -/
theorem Inv.of_rx (h : s.Inv rxBuf parsers) {rx : UartRx} {action : UartRxAction}
    (hspares : s.rx.Spares action) (hstep : s.rx.step action = some rx)
    (hfed : ∀ index, (rx.tasks index).fed = (s.rx.tasks index).fed) :
    ({ s with rx := rx } : Uplink).Inv rxBuf parsers where
  sound := h.sound.step action hspares hstep
  reached := by
    obtain ⟨actions, hrun⟩ := h.reached
    exact ⟨actions ++ [action], run_concat_eq_some.mpr ⟨_, hrun, hstep⟩⟩
  reports := fun index => (hfed index).symm ▸ h.reports index
  accepted := h.accepted

/-- Only a feeding step changes what the parsers were fed. -/
theorem fed_of_step {rx rx' : UartRx} {action : UartRxAction} (hstep : rx.step action = some rx')
    (hnot : ∀ index, action ≠ .feed index) (index : RxUart) :
    (rx'.tasks index).fed = (rx.tasks index).fed := by
  cases action with
  | feed other => exact absurd rfl (hnot other)
  | readFails other =>
    rw [UartRx.step, Option.ite_none_right_eq_some, Option.some.injEq] at hstep
    rw [hstep.2]
  | read other bytes =>
    rw [UartRx.step, Option.ite_none_right_eq_some, Option.some.injEq] at hstep
    obtain ⟨-, rfl⟩ := hstep
    by_cases hother : index = other
    · subst hother
      rw [UartRx.complete, UartRx.tasks_update_self, RxTask.complete]
    · rw [UartRx.complete, UartRx.tasks_update_of_ne _ _ hother]

/-- What the parsers have passed on after one more byte. -/
theorem Inv.reports_feed (h : s.Inv rxBuf parsers) {rx : UartRx} {index : RxUart}
    (hstep : s.rx.step (.feed index) = some rx) (other : RxUart) :
    (s.feeds.map Prod.fst ++ (reportAt s.rx index).toList).filterMap (contentOf other) =
      (parsers other).reset.reports (rx.tasks other).fed := by
  obtain ⟨ch, rfl, hreport⟩ := reportAt_of_step hstep
  obtain ⟨actions, hrun⟩ := h.reached
  rw [List.filterMap_append, h.reports other, hreport]
  by_cases hother : other = index
  · subst hother
    rw [UartRx.tasks_update_self, RxTask.feed, Parser.reports_append,
      ← UartRx.parser_run hrun other, reports_singleton _ other]
  · rw [UartRx.tasks_update_of_ne _ _ hother]
    have hcode : index.code ≠ other.code := fun hcode => hother (code_injective hcode).symm
    dsimp only
    split_ifs
    · simp [contentOf, hcode]
    · exact List.append_nil _

/-- **One byte of a receiving task**, with the message that it ends. -/
theorem Inv.feed (h : s.Inv rxBuf parsers) {index : RxUart} {allocates : Bool}
    (hstep : s.step (.rx (.feed index) allocates) = some t) : t.Inv rxBuf parsers := by
  obtain ⟨rx, hrx, hrest⟩ := Option.bind_eq_some_iff.mp hstep
  have hreports := h.reports_feed hrx
  have hsound : rx.Sound := h.sound.step (.feed index) trivial hrx
  have hreached : ∃ actions, run UartRx.step (UartRx.start rxBuf parsers) actions = some rx := by
    obtain ⟨actions, hrun⟩ := h.reached
    exact ⟨actions ++ [.feed index], run_concat_eq_some.mpr ⟨_, hrun, hrx⟩⟩
  cases hreport : reportAt s.rx index with
  | none =>
    simp only [hreport, Option.some.injEq] at hrest
    subst hrest
    simp only [hreport, Option.toList_none, List.append_nil] at hreports
    exact ⟨hsound, hreached, hreports, h.accepted⟩
  | some message =>
    simp only [hreport, feedNonblocking, Option.map_eq_some_iff] at hrest
    obtain ⟨inbound, hinbound, rfl⟩ := hrest
    refine ⟨hsound, hreached, fun other => ?_, ?_⟩
    · rw [List.map_append, ← hreports other, hreport]
      rfl
    · rw [taken, items_of_feedNonblocking hinbound, ← List.append_assoc, List.filter_append,
        List.map_append]
      refine congrArg₂ (· ++ ·) h.accepted ?_
      split_ifs with htakes
      · simp [htakes]
      · simp [htakes]

/-- **The invariant** is kept by all steps in which reads spare the bytes of the other task. -/
theorem Inv.step (h : s.Inv rxBuf parsers) (a : UplinkAction) (hspares : s.Spares a)
    (hstep : s.step a = some t) : t.Inv rxBuf parsers := by
  cases a with
  | rx action allocates =>
    cases action with
    | feed index => exact h.feed hstep
    | read index bytes =>
      obtain ⟨rx, hrx, rfl⟩ := Option.map_eq_some_iff.mp hstep
      exact h.of_rx (show s.rx.Spares (.read index bytes) from hspares) hrx
        (fed_of_step hrx fun _ heq => UartRxAction.noConfusion heq)
    | readFails index =>
      obtain ⟨rx, hrx, rfl⟩ := Option.map_eq_some_iff.mp hstep
      exact h.of_rx (show s.rx.Spares (.readFails index) from trivial) hrx
        (fed_of_step hrx fun _ heq => UartRxAction.noConfusion heq)
  | receive =>
    obtain ⟨inbound, hinbound, rfl⟩ := Option.map_eq_some_iff.mp hstep
    refine ⟨h.sound, h.reached, h.reports, Eq.trans ?_ h.accepted⟩
    rw [InboundQueue.step] at hinbound
    split at hinbound
    · rename_i message queue hprocessing hreceive
      cases hinbound
      simp [taken, BlockingQueue.items_of_receive hreceive]
    · rename_i hprocessing hreceive
      cases hinbound
      simp [taken, hprocessing]
    · cases hinbound
  | finish =>
    obtain ⟨inbound, hinbound, rfl⟩ := Option.map_eq_some_iff.mp hstep
    refine ⟨h.sound, h.reached, h.reports, Eq.trans ?_ h.accepted⟩
    obtain ⟨message, -, rfl⟩ := Option.map_eq_some_iff.mp hinbound
    rfl
  | close =>
    obtain rfl := Option.some.inj hstep
    exact ⟨h.sound, h.reached, h.reports, h.accepted⟩

theorem inv_run {closed : Bool} {actions : List UplinkAction}
    (hrun : run step (start rxBuf parsers closed) actions = some s)
    (hspares : Meets step Spares (start rxBuf parsers closed) actions) : s.Inv rxBuf parsers :=
  invariant_visits (I := fun u => u.Inv rxBuf parsers)
    (fun _ a _ h hok hstep => h.step a hok hstep) (inv_start rxBuf parsers closed) hspares
    (visits_of_run hrun)

/-- What the queue has taken of a UART is among what its parser has found, in the same order. -/
theorem Inv.messages_sublist (h : s.Inv rxBuf parsers) (index : RxUart) :
    (s.messages index).Sublist ((parsers index).reset.reports (s.rx.tasks index).received) := by
  have htaken : s.taken.Sublist (s.feeds.map Prod.fst) := by
    rw [h.accepted]
    exact List.filter_sublist.map _
  obtain ⟨rest, hrest⟩ := (h.sound.faithful index).1
  rw [← hrest, Parser.reports_append, ← h.reports index]
  exact (htaken.filterMap _).trans (List.sublist_append_left _ _)

/-- If nothing was lost and all bytes were fed, the queue has taken all messages. -/
theorem Inv.messages_eq (h : s.Inv rxBuf parsers) (hall : ∀ f ∈ s.feeds, f.2 = true)
    {index : RxUart} (hfed : (s.rx.tasks index).i = (s.rx.tasks index).bytesRead) :
    s.messages index = (parsers index).reset.reports (s.rx.tasks index).received := by
  rw [messages, h.accepted, List.filter_eq_self.mpr hall, h.reports index,
    (h.sound.faithful index).2 hfed]

/-- **The messages of the uplink.** The bytes that were received from a UART are a stream of
messages with noise that does not get in their way. However the receiving tasks, which spare each
other's bytes, and the task that handles messages interleave: the messages of this UART that were
handled or wait in the queue are messages of the stream, each at most once and in the order of the
stream; and if no message was refused, for want of memory or room, and all bytes were fed, they are
all messages of the stream. -/
theorem messages_run {closed : Bool} {actions : List UplinkAction}
    (hrun : run step (start rxBuf parsers closed) actions = some s)
    (hspares : Meets step Spares (start rxBuf parsers closed) actions)
    (index : RxUart) (segments : List Segment) {noise : List UInt8}
    (hnoise : ∀ i, ¬SyncWordAt noise i)
    (hreceived : (s.rx.tasks index).received = segments.flatMap Segment.bytes ++ noise) :
    let sent := segments.map fun segment => (segment.envelope.withDefaults, segment.payload)
    (s.messages index).Sublist sent ∧
      ((∀ f ∈ s.feeds, f.2 = true) → (s.rx.tasks index).i = (s.rx.tasks index).bytesRead →
        s.messages index = sent) := by
  intro sent
  have h := inv_run hrun hspares
  have hreports : (parsers index).reset.reports (s.rx.tasks index).received = sent := by
    obtain ⟨hsegments, hstate⟩ :=
      Parser.reports_segments (p := (parsers index).reset) rfl segments
    rw [hreceived, Parser.reports_append, hsegments, Parser.reports_noise hstate hnoise,
      List.append_nil]
  rw [← hreports]
  exact ⟨h.messages_sublist index, fun hall hfed => h.messages_eq hall hfed⟩

/-- Only reads may fail to spare bytes. -/
theorem meets_spares {actions : List UplinkAction}
    (h : ∀ a ∈ actions, ∀ index bytes allocates, a ≠ .rx (.read index bytes) allocates)
    (s : Uplink) : Meets step Spares s actions := by
  induction actions generalizing s with
  | nil => trivial
  | cons a actions ih =>
    rw [List.forall_mem_cons] at h
    refine ⟨?_, fun t _ => ih h.2 t⟩
    cases a with
    | rx action allocates =>
      cases action with
      | read index bytes => exact absurd rfl (h.1 index bytes allocates)
      | _ => trivial
    | _ => trivial

/-- Two bytes `0xCA` and a heartbeat, which is handled. -/
theorem messages_of_heartbeat :
    let bytes := [Parser.heartbeatSegment].flatMap Segment.bytes
    let actions := .rx (.read .rxsm bytes) true :: (List.replicate 10 (.rx (.feed .rxsm) true) ++
      [.receive])
    ∃ s, run step (start (.replicate rxBufSize 0) (fun _ => Parser.fresh) false) actions = some s ∧
      s.handled.length = 1 ∧
      s.messages .rxsm = [(⟨1, FrameType.heartbeat, 2, 1⟩, [])] := by
  intro bytes actions
  have hvalue : (run step (start (.replicate rxBufSize 0) (fun _ => Parser.fresh) false)
      actions).map (fun t => (t.handled.length, t.feeds.map Prod.snd,
        (t.rx.tasks .rxsm).received, (t.rx.tasks .rxsm).i, (t.rx.tasks .rxsm).bytesRead)) =
      some (1, [true], bytes ++ [], 10, 10) := by
    decide +kernel
  obtain ⟨s, hrun, heq⟩ := Option.map_eq_some_iff.mp hvalue
  simp only [Prod.mk.injEq] at heq
  obtain ⟨hhandled, hfeeds, hreceived, hi, hread⟩ := heq
  have hspares : Meets step Spares (start (.replicate rxBufSize 0) (fun _ => Parser.fresh) false)
      actions := by
    refine ⟨fun other _ => ?_, fun t _ => meets_spares (fun a ha index bytes allocates => ?_) t⟩
    · exact (SharedBuffer.window_self _ 0).trans (SharedBuffer.window_self _ 0).symm
    · rintro rfl
      simp at ha
  have hall : ∀ f ∈ s.feeds, f.2 = true := by
    intro f hf
    have hmem : f.2 ∈ s.feeds.map Prod.snd := List.mem_map_of_mem hf
    rwa [hfeeds, List.mem_singleton] at hmem
  exact ⟨s, hrun, hhandled, (messages_run hrun hspares .rxsm [Parser.heartbeatSegment]
    (fun i h => absurd h.1 (by simp)) hreceived).2 hall (hi.trans hread.symm)⟩

end Uplink

end TellerOBC
