import TellerOBC.Cmd.Process
import TellerOBC.Foundations.Ownership
import TellerOBC.Foundations.StepSystem
import TellerOBC.Hal.BlockingQueue

/-!
# Ownership of payload copies

`feed`, `feedNonblocking`, `processNext` and `destroy` of `modules/cmd.cpp` on the inbound queue. A
feeder copies the payload of a message to the heap, the queue carries the pointer, and the task
that processes the message or the draining of the queue frees the copy.

The copies are numbered in the order of their allocation. Steps of different tasks interleave: a
`feed` waits while the queue is full, and other calls may come between the receipt of a message by
`processNext` and the end of its processing. A copy is *referenced* by a message in the queue, by
the message that is being processed, or by a `feed` that is still waiting.

If the queue does not take a message, nobody frees the copy: its owner is lost when the queue is
closed, or full for `feedNonblocking`.

## Main definitions

* `TellerOBC.InboundQueue`, `TellerOBC.InboundQueue.step`.
* `TellerOBC.InboundQueue.Owned`: no copy leaks or is freed twice.
* `TellerOBC.InboundQueue.QueueTakes`: the queue takes every message.

## Main results

* `TellerOBC.InboundQueue.Accounted.step`: the invariant.
* `TellerOBC.InboundQueue.owned_iff`: in which runs the copies are owned.
-/

namespace TellerOBC

/-- A message in the inbound queue, with the number of its payload copy. -/
structure QueuedMessage where
  message : InboundMessage
  copy : ℕ
  deriving DecidableEq, Repr

/-- The inbound queue with the calls that use it, and the heap as far as payload copies are
concerned: the number of allocations so far and the copies that were freed. -/
structure InboundQueue where
  queue : BlockingQueue QueuedMessage
  /-- The messages of the `feed` calls that wait for room. -/
  waiting : List QueuedMessage := []
  /-- The message that `processNext` is processing. -/
  processing : Option QueuedMessage := none
  allocated : ℕ := 0
  freed : List ℕ := []

/-- The steps of the tasks. The calls that feed say whether their allocation succeeds. -/
inductive InboundAction where
  | feed (message : InboundMessage) (allocates : Bool)
  /-- A waiting `feed` finds room and adds its message. -/
  | resumeFeed (i : ℕ)
  | feedNonblocking (message : InboundMessage) (allocates : Bool)
  /-- `processNext` receives a message, or returns because the queue is closed. -/
  | receive
  /-- `processNext` has processed its message and frees the copy. -/
  | finish
  | destroy
  | close
  deriving DecidableEq, Repr

namespace InboundQueue

/-- `QUEUE_SIZE`. -/
def queueSize : ℕ := 64

/-- The module before its first call. -/
def start (closed : Bool) : InboundQueue where
  queue := { closed := closed, limit := queueSize }

variable (s : InboundQueue)

/-- A successful `prepareMessage`: copy the payload. -/
def prepareMessage (message : InboundMessage) : QueuedMessage × InboundQueue :=
  (⟨message, s.allocated⟩, { s with allocated := s.allocated + 1 })

/-- Free the copies of messages. -/
def free (messages : List QueuedMessage) : InboundQueue :=
  { s with freed := s.freed ++ messages.map QueuedMessage.copy }

/-- `destroy`: receive and free the messages until the queue is empty. -/
def destroy (s : InboundQueue) : InboundQueue :=
  match _h : s.queue.receive with
  | .done (message, queue) => destroy { s.free [message] with queue := queue }
  | .refused | .wait => s
termination_by s.queue.items.length
decreasing_by
  have hitems := BlockingQueue.items_of_receive _h
  simp only [hitems, List.length_cons, Nat.lt_add_one]

/-- The steps; a call that waits for a message or for room is not enabled. -/
def step : InboundAction → Option InboundQueue
  | .feed message true =>
    let r := s.prepareMessage message
    match r.2.queue.send r.1 with
    | .refused => some r.2
    | .wait => some { r.2 with waiting := r.2.waiting ++ [r.1] }
    | .done queue => some { r.2 with queue := queue }
  | .resumeFeed i =>
    if s.queue.full then none
    else s.waiting[i]?.map fun message =>
      { s with queue := s.queue.push message, waiting := s.waiting.eraseIdx i }
  | .feedNonblocking message true =>
    let r := s.prepareMessage message
    match r.2.queue.sendOrDrop r.1 with
    | none => some r.2
    | some queue => some { r.2 with queue := queue }
  | .feed _ false | .feedNonblocking _ false => some s
  | .receive =>
    match s.processing, s.queue.receive with
    | none, .done (message, queue) => some { s with queue := queue, processing := some message }
    | none, .refused => some s
    | _, _ => none
  | .finish => s.processing.map fun message => { s.free [message] with processing := none }
  | .destroy => some s.destroy
  | .close => some { s with queue := s.queue.close }

/-! ### Ownership -/

/-- The messages in the queue, the one being processed and those of waiting calls. -/
def messages : List QueuedMessage := s.queue.items ++ s.processing.toList ++ s.waiting

/-- The copies that messages refer to. -/
def references : List ℕ := s.messages.map QueuedMessage.copy

/-- A copy that was allocated and not freed. -/
def Live (copy : ℕ) : Prop := copy < s.allocated ∧ copy ∉ s.freed

/-- The live copies are those that are referenced, each once, and no copy was freed twice. -/
structure Owned : Prop where
  live_iff : ∀ copy, s.Live copy ↔ copy ∈ s.references
  nodup_references : s.references.Nodup
  nodup_freed : s.freed.Nodup

/-- The queue takes the message of the call, if its payload was copied: for `feed` it is not
closed, for `feedNonblocking` neither closed nor full. -/
def QueueTakes : InboundAction → Prop
  | .feed _ true => s.queue.closed = false
  | .feedNonblocking _ true => s.queue.closed = false ∧ s.queue.full = false
  | _ => True

/-- The invariant: every copy is referenced or freed, once. -/
def Accounted : Prop := (s.references ++ s.freed).Perm (List.range s.allocated)

variable {s} {t : InboundQueue}

theorem Accounted.ledger (h : s.Accounted) :
    Ownership.Accounted s.references s.freed s.allocated := h

theorem Accounted.owned (h : s.Accounted) : s.Owned :=
  ⟨h.ledger.live_iff, h.ledger.nodup_references, h.ledger.nodup_freed⟩

/-! ### The step lemma -/

/-- The messages after one was added to the queue. -/
theorem perm_messages_push (s : InboundQueue) (message : QueuedMessage) :
    ({ s with queue := s.queue.push message } : InboundQueue).messages.Perm
      (message :: s.messages) := by
  simp only [messages, BlockingQueue.push, List.append_assoc, List.singleton_append]
  exact List.perm_middle

namespace Accounted

/-- Moving messages keeps the copies accounted. -/
theorem of_perm (h : s.Accounted) (hmessages : t.messages.Perm s.messages)
    (hallocated : t.allocated = s.allocated) (hfreed : t.freed = s.freed) : t.Accounted := by
  rw [Accounted, hallocated, hfreed]
  exact h.ledger.of_perm (hmessages.map _)

/-- Adding a message with a new copy keeps the copies accounted. -/
theorem of_add (h : s.Accounted) (message : InboundMessage)
    (hmessages : t.messages.Perm (⟨message, s.allocated⟩ :: s.messages))
    (hallocated : t.allocated = s.allocated + 1) (hfreed : t.freed = s.freed) : t.Accounted := by
  rw [Accounted, hallocated, hfreed]
  exact h.ledger.allocate (hmessages.map _)

/-- Removing messages and freeing their copies keeps the copies accounted. -/
theorem of_free (h : s.Accounted) (removed : List QueuedMessage)
    (hmessages : s.messages.Perm (removed ++ t.messages)) (hallocated : t.allocated = s.allocated)
    (hfreed : t.freed = s.freed ++ removed.map QueuedMessage.copy) : t.Accounted := by
  have hreferences : s.references.Perm (removed.map QueuedMessage.copy ++ t.references) := by
    rw [references, references, ← List.map_append]
    exact hmessages.map _
  rw [Accounted, hallocated, hfreed]
  exact h.ledger.free hreferences

theorem feed (h : s.Accounted) {message : InboundMessage} (hopen : s.queue.closed = false)
    (hstep : s.step (.feed message true) = some t) : t.Accounted := by
  have hopen' : (s.prepareMessage message).2.queue.closed = false := hopen
  cases hfull : (s.prepareMessage message).2.queue.full with
  | true =>
    simp only [InboundQueue.step, BlockingQueue.send_of_full hopen' hfull] at hstep
    cases hstep
    refine h.of_add message ?_ rfl rfl
    rw [messages, ← List.append_assoc]
    exact List.perm_append_singleton ..
  | false =>
    simp only [InboundQueue.step, BlockingQueue.send_of_room hopen' hfull] at hstep
    cases hstep
    exact h.of_add message (perm_messages_push s _) rfl rfl

theorem feedNonblocking (h : s.Accounted) {message : InboundMessage}
    (hopen : s.queue.closed = false) (hroom : s.queue.full = false)
    (hstep : s.step (.feedNonblocking message true) = some t) : t.Accounted := by
  have hsend := @BlockingQueue.sendOrDrop_of_room _ s.queue ⟨message, s.allocated⟩ hopen hroom
  simp only [InboundQueue.step, prepareMessage, hsend] at hstep
  cases hstep
  exact h.of_add message (perm_messages_push s _) rfl rfl

theorem resumeFeed (h : s.Accounted) {i : ℕ} (hstep : s.step (.resumeFeed i) = some t) :
    t.Accounted := by
  rw [InboundQueue.step] at hstep
  cases hfull : s.queue.full with
  | true => simp only [hfull, ↓reduceIte, reduceCtorEq] at hstep
  | false =>
    simp only [hfull, Bool.false_eq_true, ↓reduceIte] at hstep
    obtain ⟨message, hi, rfl⟩ := Option.map_eq_some_iff.mp hstep
    obtain ⟨hlt, rfl⟩ := List.getElem?_eq_some_iff.mp hi
    refine h.of_perm ?_ rfl rfl
    simp only [messages, BlockingQueue.push, List.append_assoc, List.singleton_append]
    refine List.Perm.append_left _ (List.perm_middle.symm.trans ?_)
    exact (List.getElem_cons_eraseIdx_perm hlt).append_left _

theorem receive (h : s.Accounted) (hstep : s.step .receive = some t) : t.Accounted := by
  rw [InboundQueue.step] at hstep
  split at hstep
  · rename_i message queue hprocessing hreceive
    cases hstep
    refine h.of_perm ?_ rfl rfl
    rw [messages, messages, BlockingQueue.items_of_receive hreceive, hprocessing]
    simp only [Option.toList_some, Option.toList_none, List.append_nil, List.append_assoc,
      List.cons_append]
    exact List.perm_middle
  · cases hstep
    exact h
  · cases hstep

theorem finish (h : s.Accounted) (hstep : s.step .finish = some t) : t.Accounted := by
  obtain ⟨message, hmessage, rfl⟩ := Option.map_eq_some_iff.mp hstep
  refine h.of_free [message] ?_ rfl rfl
  simp only [messages, hmessage, free, Option.toList_some, Option.toList_none, List.append_nil,
    List.append_assoc, List.singleton_append]
  exact List.perm_middle

theorem destroy (h : s.Accounted) : s.destroy.Accounted := by
  fun_induction InboundQueue.destroy s with
  | case1 s message queue hreceive ih =>
    refine ih (h.of_free [message] ?_ rfl rfl)
    simp only [messages, free, BlockingQueue.items_of_receive hreceive, List.cons_append,
      List.nil_append, List.Perm.refl]
  | case2 => exact h
  | case3 => exact h

/-- One step keeps the copies accounted if the queue takes the message of a feeding call. -/
theorem step (h : s.Accounted) (action : InboundAction) (htakes : s.QueueTakes action)
    (hstep : s.step action = some t) : t.Accounted := by
  cases action with
  | feed message allocates =>
    cases allocates with
    | true => exact h.feed htakes hstep
    | false =>
      cases hstep
      exact h
  | resumeFeed i => exact h.resumeFeed hstep
  | feedNonblocking message allocates =>
    cases allocates with
    | true => exact h.feedNonblocking htakes.1 htakes.2 hstep
    | false =>
      cases hstep
      exact h
  | receive => exact h.receive hstep
  | finish => exact h.finish hstep
  | destroy =>
    cases hstep
    exact h.destroy
  | close =>
    cases hstep
    exact h.of_perm (List.Perm.refl _) rfl rfl

end Accounted

/-! ### Messages that the queue does not take -/

/-- The copy of a message that nobody took is live and not referenced. -/
theorem not_owned_prepareMessage (h : s.Accounted) (message : InboundMessage) :
    ¬(s.prepareMessage message).2.Owned := by
  intro howned
  have hfresh : s.allocated ∉ s.references ++ s.freed := h.ledger.not_mem_next
  rw [List.mem_append, not_or] at hfresh
  have hlive : (s.prepareMessage message).2.Live s.allocated := ⟨Nat.lt_succ_self _, hfresh.2⟩
  exact hfresh.1 ((howned.live_iff _).mp hlive)

/-- A message that the queue does not take leaves its copy without an owner. -/
theorem not_owned_of_not_queueTakes (h : s.Accounted) (action : InboundAction)
    (htakes : ¬s.QueueTakes action) (hstep : s.step action = some t) : ¬t.Owned := by
  cases action with
  | feed message allocates =>
    cases allocates with
    | true =>
      have hclosed : (s.prepareMessage message).2.queue.closed = true :=
        eq_true_of_ne_false htakes
      simp only [step, BlockingQueue.send_of_closed hclosed] at hstep
      cases hstep
      exact not_owned_prepareMessage h message
    | false => exact absurd trivial htakes
  | feedNonblocking message allocates =>
    cases allocates with
    | true =>
      have hsend : (s.prepareMessage message).2.queue.sendOrDrop ⟨message, s.allocated⟩ = none :=
        BlockingQueue.sendOrDrop_eq_none htakes
      simp only [step, prepareMessage] at hstep hsend
      rw [hsend] at hstep
      cases hstep
      exact not_owned_prepareMessage h message
    | false => exact absurd trivial htakes
  | resumeFeed i => exact absurd trivial htakes
  | receive => exact absurd trivial htakes
  | finish => exact absurd trivial htakes
  | destroy => exact absurd trivial htakes
  | close => exact absurd trivial htakes

/-! ### Runs -/

theorem accounted_start (closed : Bool) : (start closed).Accounted := List.Perm.refl _

/-- **When payload copies are owned.** Along a run from the start, the live copies are always
those that messages refer to and none is freed twice, exactly when every feeding call with a
copied payload finds a queue that takes its message. -/
theorem owned_iff (closed : Bool) (actions : List InboundAction) :
    (∀ t, StepSystem.Visits step (start closed) actions t → t.Owned) ↔
      StepSystem.Meets step (fun s action => (s.step action).isSome → s.QueueTakes action)
        (start closed) actions :=
  StepSystem.forall_visits_iff_meets (fun _ => Accounted.owned)
    (fun _ action _ h htakes hstep => h.step action htakes hstep)
    (fun _ action _ h htakes hstep => not_owned_of_not_queueTakes h action htakes hstep)
    (accounted_start closed)

/-- When nothing is received, the first frame after the queue has become full leaks its copy. -/
theorem exists_not_owned (message : InboundMessage) {n : ℕ} (h : s.Accounted)
    (hopen : s.queue.closed = false) (hroom : s.queue.items.length + n = s.queue.limit) :
    ∃ t, StepSystem.run step s (List.replicate (n + 1) (.feedNonblocking message true)) = some t ∧
      ¬t.Owned := by
  induction n generalizing s with
  | zero =>
    have hfull : s.queue.full = true := decide_eq_true hroom.ge
    have hsend : s.queue.sendOrDrop ⟨message, s.allocated⟩ = none :=
      BlockingQueue.sendOrDrop_eq_none fun hnot => Bool.false_ne_true (hnot.2.symm.trans hfull)
    refine ⟨(s.prepareMessage message).2, ?_, not_owned_prepareMessage h message⟩
    simp only [List.replicate, StepSystem.run_cons, StepSystem.run_nil, step, prepareMessage, hsend,
      Option.bind_some]
  | succ n ih =>
    have hfull : s.queue.full = false := decide_eq_false (by omega)
    have hsend := @BlockingQueue.sendOrDrop_of_room _ s.queue ⟨message, s.allocated⟩ hopen hfull
    have hstep : s.step (.feedNonblocking message true) = some { s with
        queue := s.queue.push ⟨message, s.allocated⟩, allocated := s.allocated + 1 } := by
      simp only [step, prepareMessage, hsend]
    obtain ⟨t, hrun, ht⟩ := ih (h.feedNonblocking hopen hfull hstep) hopen (by
      simp only [BlockingQueue.push, List.length_append, List.length_singleton]
      omega)
    exact ⟨t, StepSystem.run_cons_eq_some.mpr ⟨_, hstep, hrun⟩, ht⟩

/-- **A lost copy.** While the command task is busy, 65 frames arrive. The last one is dropped
because the queue is full, and its copy is neither freed nor referenced. -/
theorem not_owned_feedNonblocking :
    let frame : InboundMessage := ⟨0, ⟨7, FrameType.debug, Component.groundStation,
      Component.onboardComputer⟩, [0]⟩
    ¬∀ t, StepSystem.Visits step (start false)
      (List.replicate 65 (.feedNonblocking frame true)) t → t.Owned := by
  intro frame h
  obtain ⟨t, hrun, ht⟩ := @exists_not_owned (start false) frame 64 (accounted_start false) rfl rfl
  exact ht (h t (StepSystem.visits_of_run hrun))

end InboundQueue

end TellerOBC
