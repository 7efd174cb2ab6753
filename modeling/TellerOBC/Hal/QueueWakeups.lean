import TellerOBC.Foundations.ConditionVariable
import TellerOBC.Hal.QueueCalls

/-!
# Wake-ups of the callers of a message queue

The condition variables of a `BlockingQueue` of `hal/posix/queue.hpp`. A `receive` that finds the
queue empty waits on `item_added_event`, and a sending call that finds it full waits on
`item_removed_event`. Each message that is added or removed notifies one waiting call, and `close`
notifies all calls that wait for a message. A call that wakes up looks at the queue again when it
gets the mutex, and another call can have come first. A wait can also end without a notification.

`close` does not take the mutex, and it is two steps: it sets `is_closed`, and then it notifies. It
can come when a `receive` that holds the mutex has looked at `is_closed` and does not wait yet.

## Main definitions

* `TellerOBC.QueueThreads`, `TellerOBC.QueueThreads.step`: the queue with the calls that wait on its
  condition variables.
* `TellerOBC.QueueThreads.Abstracts`: the same calls when it is not said why a wait ends.

## Main results

* `TellerOBC.QueueThreads.exists_step_of_abstracts`: each step is a step of `QueueCalls` or does
  nothing there.
* `TellerOBC.QueueThreads.wakeups_run`: no call sleeps on while it could go on.
* `TellerOBC.QueueThreads.awake_of_closed`: when a closed queue leaves no receiver asleep.
-/

namespace TellerOBC

/-- A queue with the calls in progress, and what the calls did. -/
structure QueueThreads (T : Type) where
  queue : BlockingQueue T
  /-- The message of the sending call that holds the mutex and will add it. -/
  entered : Option T := none
  /-- A `receive` holds the mutex, has found the queue empty and open, and will wait. -/
  checked : Bool := false
  itemAddedEvent : CondVar Unit := {}
  /-- The sending calls that wait, with their messages. -/
  itemRemovedEvent : CondVar T := {}
  /-- The number of the `close` calls that have set `is_closed` and will notify. -/
  closing : ℕ := 0
  /-- The messages of the sending calls that succeeded. -/
  accepted : List T := []
  /-- The messages of the sending calls that returned false. -/
  refused : List T := []
  /-- The messages that were received or cleared. -/
  removed : List T := []

/-- The steps of the calls. Where a step notifies one call, `i` is the call that wakes up; where a
call gets the mutex after its wait, `j` is that call. -/
inductive QueueThreadAction (T : Type) where
  | send (message : T)
  | sendOrDrop (message : T)
  | sendWithTimeout (message : T) (timeout : ℕ)
  /-- The sending call that holds the mutex adds its message. -/
  | add (i : ℕ)
  | resumeSend (j i : ℕ)
  | receive (i : ℕ)
  | resumeReceive (j i : ℕ)
  /-- The `receive` that holds the mutex waits. -/
  | wait
  | clear (is : List ℕ)
  | close
  /-- `close` notifies all. -/
  | notifyClosed
  /-- The wait of a sending call ends without a notification. -/
  | wakeSend (i : ℕ)
  /-- The wait of a `receive` ends without a notification. -/
  | wakeReceive (i : ℕ)
  deriving DecidableEq, Repr

namespace QueueThreads

open StepSystem

variable {T : Type}

/-- A new queue. -/
def start (limit : ℕ) : QueueThreads T where
  queue := { limit := limit }

variable (s : QueueThreads T)

/-- The mutex is free. -/
def unlocked : Bool := s.entered.isNone && !s.checked

/-- A sending call after its checks. -/
def enter (message : T) : QueueOutcome (BlockingQueue T) → QueueThreads T
  | .refused => { s with refused := s.refused ++ [message] }
  | .wait => { s with itemRemovedEvent := s.itemRemovedEvent.wait message }
  | .done _ => { s with entered := some message }

/-- A sending call does nothing else before it adds its message. -/
theorem enter_frame (message : T) (outcome : QueueOutcome (BlockingQueue T)) :
    (s.enter message outcome).queue = s.queue ∧ (s.enter message outcome).closing = s.closing ∧
      (s.enter message outcome).checked = s.checked ∧
      (s.enter message outcome).itemAddedEvent = s.itemAddedEvent := by
  cases outcome <;> exact ⟨rfl, rfl, rfl, rfl⟩

/-- Add a message and notify a `receive`. -/
def accept (message : T) (i : ℕ) : Option (QueueThreads T) :=
  (s.itemAddedEvent.notifyOne i).map fun event =>
    { s with
      queue := s.queue.push message
      itemAddedEvent := event
      accepted := s.accepted ++ [message] }

/-- A `receive` that holds the mutex looks at the queue. If it takes a message then it notifies a
sending call. -/
def take (i : ℕ) : Option (QueueThreads T) :=
  match s.queue.receive with
  | .refused => some s
  | .wait => some { s with checked := true }
  | .done (message, queue) =>
    (s.itemRemovedEvent.notifyOne i).map fun event =>
      { s with queue := queue, itemRemovedEvent := event, removed := s.removed ++ [message] }

/-- The steps. -/
def step (s : QueueThreads T) : QueueThreadAction T → Option (QueueThreads T)
  | .send message =>
    if s.unlocked then some (s.enter message (s.queue.send message)) else none
  | .sendOrDrop message =>
    if s.unlocked then some (s.enter message (s.queue.sendWithTimeout message 0)) else none
  | .sendWithTimeout message timeout =>
    if s.unlocked then some (s.enter message (s.queue.sendWithTimeout message timeout)) else none
  | .add i => s.entered.bind fun message => { s with entered := none }.accept message i
  | .resumeSend j i =>
    if s.unlocked then
      (s.itemRemovedEvent.resume j).bind fun (message, event) =>
        -- `while (items.size() >= item_limit)`
        if s.queue.full then some { s with itemRemovedEvent := event.wait message }
        else { s with itemRemovedEvent := event }.accept message i
    else none
  | .receive i => if s.unlocked then s.take i else none
  | .resumeReceive j i =>
    if s.unlocked then
      (s.itemAddedEvent.resume j).bind fun (_, event) => { s with itemAddedEvent := event }.take i
    else none
  | .wait =>
    if s.checked then
      some { s with checked := false, itemAddedEvent := s.itemAddedEvent.wait () }
    else none
  | .clear is =>
    -- one notification for each message
    if s.unlocked ∧ is.length = s.queue.items.length then
      (CondVar.notifyEach is s.itemRemovedEvent).map fun event =>
        { s with
          queue := s.queue.clear
          itemRemovedEvent := event
          removed := s.removed ++ s.queue.items }
    else none
  | .close =>
    if s.queue.closed then some s
    else some { s with queue := s.queue.close, closing := s.closing + 1 }
  | .notifyClosed =>
    if 0 < s.closing then
      some { s with closing := s.closing - 1, itemAddedEvent := s.itemAddedEvent.notifyAll }
    else none
  | .wakeSend i => (s.itemRemovedEvent.wake i).map fun event => { s with itemRemovedEvent := event }
  | .wakeReceive i => (s.itemAddedEvent.wake i).map fun event => { s with itemAddedEvent := event }

/-! ### The calls of `QueueCalls` -/

/-- The calls with the queue as in `QueueCalls`, where all waits can end at any time. -/
structure Abstracts (s : QueueThreads T) (c : QueueCalls T) : Prop where
  queue_eq : c.queue = s.queue
  entered_eq : c.entered = s.entered
  accepted_eq : c.accepted = s.accepted
  refused_eq : c.refused = s.refused
  removed_eq : c.removed = s.removed
  waiting_perm : c.waiting.Perm s.itemRemovedEvent.waiters
  receivers_eq : c.receivers = s.itemAddedEvent.waiters.length + s.checked.toNat

variable {s} {t : QueueThreads T} {c : QueueCalls T}

theorem abstracts_start (limit : ℕ) :
    Abstracts (start limit : QueueThreads T) (QueueCalls.start limit) :=
  ⟨rfl, rfl, rfl, rfl, rfl, List.Perm.refl _, rfl⟩

/-- What a sending call does that was woken. -/
theorem step_resumeSend {j i : ℕ} (hstep : s.step (.resumeSend j i) = some t) :
    s.unlocked = true ∧ ∃ message event, s.itemRemovedEvent.resume j = some (message, event) ∧
      (s.queue.full = true ∧ t = { s with itemRemovedEvent := event.wait message } ∨
        s.queue.full = false ∧ { s with itemRemovedEvent := event }.accept message i = some t) := by
  rw [step, Option.ite_none_right_eq_some] at hstep
  obtain ⟨hunlocked, hstep⟩ := hstep
  obtain ⟨⟨message, event⟩, hresume, hstep⟩ := Option.bind_eq_some_iff.mp hstep
  refine ⟨hunlocked, message, event, hresume, ?_⟩
  dsimp only at hstep
  split_ifs at hstep with hfull
  · exact Or.inl ⟨hfull, (Option.some.inj hstep).symm⟩
  · exact Or.inr ⟨Bool.not_eq_true _ ▸ hfull, hstep⟩

/-- What a `receive` does that was woken. -/
theorem step_resumeReceive {j i : ℕ} (hstep : s.step (.resumeReceive j i) = some t) :
    s.unlocked = true ∧ ∃ event, s.itemAddedEvent.resume j = some ((), event) ∧
      { s with itemAddedEvent := event }.take i = some t := by
  rw [step, Option.ite_none_right_eq_some] at hstep
  obtain ⟨hunlocked, hstep⟩ := hstep
  obtain ⟨⟨_, event⟩, hresume, hstep⟩ := Option.bind_eq_some_iff.mp hstep
  exact ⟨hunlocked, event, hresume, hstep⟩

namespace Abstracts

theorem unlocked (h : Abstracts s c) (hunlocked : s.unlocked = true) : c.unlocked = true := by
  rw [QueueThreads.unlocked, Bool.and_eq_true] at hunlocked
  rw [QueueCalls.unlocked, h.entered_eq]
  exact hunlocked.1

theorem checked_eq (hunlocked : s.unlocked = true) : s.checked = false := by
  rw [QueueThreads.unlocked, Bool.and_eq_true, Bool.not_eq_true'] at hunlocked
  exact hunlocked.2

/-- A sending call does the same before it waits. -/
theorem enter (h : Abstracts s c) (message : T) (outcome : QueueOutcome (BlockingQueue T)) :
    Abstracts (s.enter message outcome) (c.enter message outcome) := by
  cases outcome with
  | refused =>
    refine ⟨h.queue_eq, h.entered_eq, h.accepted_eq, ?_, h.removed_eq, h.waiting_perm,
      h.receivers_eq⟩
    exact congrArg (· ++ [message]) h.refused_eq
  | wait =>
    refine ⟨h.queue_eq, h.entered_eq, h.accepted_eq, h.refused_eq, h.removed_eq, ?_,
      h.receivers_eq⟩
    refine (List.perm_append_singleton _ _).trans (List.Perm.trans ?_ (CondVar.perm_wait _ _).symm)
    exact h.waiting_perm.cons message
  | done queue =>
    exact ⟨h.queue_eq, rfl, h.accepted_eq, h.refused_eq, h.removed_eq, h.waiting_perm,
      h.receivers_eq⟩

/-- A message is added in the same way. -/
theorem accept (h : Abstracts s c) {message : T} {i : ℕ} (haccept : s.accept message i = some t) :
    Abstracts t (c.accept message) := by
  obtain ⟨event, hevent, rfl⟩ := Option.map_eq_some_iff.mp haccept
  refine ⟨?_, h.entered_eq, ?_, h.refused_eq, h.removed_eq, h.waiting_perm, ?_⟩
  · exact congrArg (·.push message) h.queue_eq
  · exact congrArg (· ++ [message]) h.accepted_eq
  · rw [QueueCalls.accept, h.receivers_eq, (CondVar.perm_of_notifyOne hevent).length_eq]

/-- A `receive` does the same; in `QueueCalls` it waits at once. -/
theorem take (h : Abstracts s c) (hchecked : s.checked = false) {i : ℕ}
    (htake : s.take i = some t) : Abstracts t (c.take (c.receivers + 1)) := by
  rw [QueueThreads.take] at htake
  rw [QueueCalls.take, h.queue_eq]
  cases hreceive : s.queue.receive with
  | refused =>
    rw [hreceive] at htake
    obtain rfl := Option.some.inj htake
    exact h
  | wait =>
    rw [hreceive] at htake
    obtain rfl := Option.some.inj htake
    refine ⟨rfl, h.entered_eq, h.accepted_eq, h.refused_eq, h.removed_eq, h.waiting_perm, ?_⟩
    have hreceivers := h.receivers_eq
    rw [hchecked] at hreceivers
    exact congrArg (· + 1) hreceivers
  | done result =>
    obtain ⟨message, queue⟩ := result
    rw [hreceive] at htake
    obtain ⟨event, hevent, rfl⟩ := Option.map_eq_some_iff.mp htake
    refine ⟨rfl, h.entered_eq, h.accepted_eq, h.refused_eq, ?_, ?_, h.receivers_eq⟩
    · exact congrArg (· ++ [message]) h.removed_eq
    · exact h.waiting_perm.trans (CondVar.perm_of_notifyOne hevent).symm

/-- A sending call that was woken does the same. -/
theorem resumeSend (h : Abstracts s c) {j i : ℕ} (hstep : s.step (.resumeSend j i) = some t) :
    ∃ k d, c.step (.resumeSend k) = some d ∧ Abstracts t d := by
  obtain ⟨hunlocked, message, event, hresume, hcases⟩ := step_resumeSend hstep
  have hperm := h.waiting_perm.trans (CondVar.perm_of_resume hresume)
  obtain ⟨k, hk, hmessage⟩ := List.getElem_of_mem (hperm.mem_iff.mpr List.mem_cons_self)
  have hk' : c.waiting[k]? = some message := by rw [List.getElem?_eq_getElem hk, hmessage]
  refine ⟨k, _, by rw [QueueCalls.step, if_pos (h.unlocked hunlocked), hk', Option.map_some], ?_⟩
  have hwaiting : (c.waiting.eraseIdx k).Perm event.waiters := by
    refine List.Perm.cons_inv (a := message) ?_
    rw [← hmessage]
    exact (List.getElem_cons_eraseIdx_perm hk).trans (hmessage ▸ hperm)
  rw [h.queue_eq]
  obtain ⟨hfull, rfl⟩ | ⟨hfull, haccept⟩ := hcases
  · rw [if_pos hfull]
    refine ⟨h.queue_eq, h.entered_eq, h.accepted_eq, h.refused_eq, h.removed_eq, ?_, h.receivers_eq⟩
    exact hperm.trans (CondVar.perm_wait event message).symm
  · rw [if_neg (by rw [hfull]; exact Bool.false_ne_true)]
    have hresumed : Abstracts { s with itemRemovedEvent := event }
        { c with waiting := c.waiting.eraseIdx k } :=
      ⟨h.queue_eq, h.entered_eq, h.accepted_eq, h.refused_eq, h.removed_eq, hwaiting,
        h.receivers_eq⟩
    exact hresumed.accept haccept

/-- A `receive` that was woken does the same. -/
theorem resumeReceive (h : Abstracts s c) {j i : ℕ}
    (hstep : s.step (.resumeReceive j i) = some t) :
    ∃ d, c.step .resumeReceive = some d ∧ Abstracts t d := by
  obtain ⟨hunlocked, event, hresume, hstep⟩ := step_resumeReceive hstep
  have hchecked := checked_eq hunlocked
  have hlength : c.receivers = event.waiters.length + 1 := by
    rw [h.receivers_eq, hchecked, (CondVar.perm_of_resume hresume).length_eq]
    rfl
  have hresumed : Abstracts { s with itemAddedEvent := event }
      { c with receivers := c.receivers - 1 } := by
    refine ⟨h.queue_eq, h.entered_eq, h.accepted_eq, h.refused_eq, h.removed_eq, h.waiting_perm, ?_⟩
    rw [hlength, hchecked]
    rfl
  have htake := hresumed.take hchecked hstep
  refine ⟨_, if_pos ⟨h.unlocked hunlocked, hlength ▸ Nat.succ_pos _⟩, ?_⟩
  rwa [show c.receivers - 1 + 1 = c.receivers by rw [hlength, Nat.add_sub_cancel]] at htake

end Abstracts

/-- **Each step is a step of `QueueCalls`**, or nothing happens there. -/
theorem exists_step_of_abstracts (h : Abstracts s c) (a : QueueThreadAction T)
    (hstep : s.step a = some t) :
    ∃ d, Abstracts t d ∧ (d = c ∨ ∃ b, c.step b = some d) := by
  cases a with
  | send message =>
    rw [step, Option.ite_none_right_eq_some, Option.some.injEq] at hstep
    obtain ⟨hunlocked, rfl⟩ := hstep
    refine ⟨_, h.enter message _, Or.inr ⟨.send message, ?_⟩⟩
    rw [QueueCalls.step, if_pos (h.unlocked hunlocked), h.queue_eq]
  | sendOrDrop message =>
    rw [step, Option.ite_none_right_eq_some, Option.some.injEq] at hstep
    obtain ⟨hunlocked, rfl⟩ := hstep
    refine ⟨_, h.enter message _, Or.inr ⟨.sendOrDrop message, ?_⟩⟩
    rw [QueueCalls.step, if_pos (h.unlocked hunlocked), h.queue_eq]
  | sendWithTimeout message timeout =>
    rw [step, Option.ite_none_right_eq_some, Option.some.injEq] at hstep
    obtain ⟨hunlocked, rfl⟩ := hstep
    refine ⟨_, h.enter message _, Or.inr ⟨.sendWithTimeout message timeout, ?_⟩⟩
    rw [QueueCalls.step, if_pos (h.unlocked hunlocked), h.queue_eq]
  | add i =>
    obtain ⟨message, hentered, haccept⟩ := Option.bind_eq_some_iff.mp hstep
    have hleft : Abstracts { s with entered := none } { c with entered := none } :=
      ⟨h.queue_eq, rfl, h.accepted_eq, h.refused_eq, h.removed_eq, h.waiting_perm, h.receivers_eq⟩
    refine ⟨_, hleft.accept haccept, Or.inr ⟨.add, ?_⟩⟩
    rw [QueueCalls.step, h.entered_eq, hentered]
    rfl
  | resumeSend j i =>
    obtain ⟨k, d, hd, habs⟩ := h.resumeSend hstep
    exact ⟨d, habs, Or.inr ⟨_, hd⟩⟩
  | receive i =>
    rw [step, Option.ite_none_right_eq_some] at hstep
    obtain ⟨hunlocked, htake⟩ := hstep
    refine ⟨_, h.take (Abstracts.checked_eq hunlocked) htake, Or.inr ⟨.receive, ?_⟩⟩
    rw [QueueCalls.step, if_pos (h.unlocked hunlocked)]
  | resumeReceive j i =>
    obtain ⟨d, hd, habs⟩ := h.resumeReceive hstep
    exact ⟨d, habs, Or.inr ⟨_, hd⟩⟩
  | wait =>
    rw [step, Option.ite_none_right_eq_some, Option.some.injEq] at hstep
    obtain ⟨hchecked, rfl⟩ := hstep
    refine ⟨c, ⟨h.queue_eq, h.entered_eq, h.accepted_eq, h.refused_eq, h.removed_eq,
      h.waiting_perm, ?_⟩, Or.inl rfl⟩
    rw [h.receivers_eq, hchecked, (CondVar.perm_wait _ _).length_eq]
    rfl
  | clear is =>
    rw [step, Option.ite_none_right_eq_some] at hstep
    obtain ⟨⟨hunlocked, -⟩, hstep⟩ := hstep
    obtain ⟨event, hevent, rfl⟩ := Option.map_eq_some_iff.mp hstep
    refine ⟨{ c with queue := c.queue.clear, removed := c.removed ++ c.queue.items },
      ⟨?_, h.entered_eq, h.accepted_eq, h.refused_eq, ?_, ?_, h.receivers_eq⟩,
      Or.inr ⟨.clear, by rw [QueueCalls.step, if_pos (h.unlocked hunlocked)]⟩⟩
    · exact congrArg (·.clear) h.queue_eq
    · rw [h.removed_eq, h.queue_eq]
    · exact h.waiting_perm.trans (CondVar.perm_of_notifyEach hevent).symm
  | close =>
    rw [step] at hstep
    split_ifs at hstep with hclosed
    · obtain rfl := Option.some.inj hstep
      exact ⟨c, h, Or.inl rfl⟩
    · obtain rfl := Option.some.inj hstep
      refine ⟨{ c with queue := c.queue.close }, ⟨?_, h.entered_eq, h.accepted_eq, h.refused_eq,
        h.removed_eq, h.waiting_perm, h.receivers_eq⟩, Or.inr ⟨.close, rfl⟩⟩
      exact congrArg (·.close) h.queue_eq
  | notifyClosed =>
    rw [step, Option.ite_none_right_eq_some, Option.some.injEq] at hstep
    obtain ⟨-, rfl⟩ := hstep
    refine ⟨c, ⟨h.queue_eq, h.entered_eq, h.accepted_eq, h.refused_eq, h.removed_eq,
      h.waiting_perm, ?_⟩, Or.inl rfl⟩
    rw [h.receivers_eq, (CondVar.perm_notifyAll _).length_eq]
  | wakeSend i =>
    obtain ⟨event, hevent, rfl⟩ := Option.map_eq_some_iff.mp hstep
    exact ⟨c, ⟨h.queue_eq, h.entered_eq, h.accepted_eq, h.refused_eq, h.removed_eq,
      h.waiting_perm.trans (CondVar.perm_of_wake hevent).symm, h.receivers_eq⟩, Or.inl rfl⟩
  | wakeReceive i =>
    obtain ⟨event, hevent, rfl⟩ := Option.map_eq_some_iff.mp hstep
    refine ⟨c, ⟨h.queue_eq, h.entered_eq, h.accepted_eq, h.refused_eq, h.removed_eq,
      h.waiting_perm, ?_⟩, Or.inl rfl⟩
    rw [h.receivers_eq, (CondVar.perm_of_wake hevent).length_eq]

/-- The calls of a run are calls of `QueueCalls`. -/
theorem exists_run_abstracts {limit : ℕ} {actions : List (QueueThreadAction T)}
    (hrun : run step (start limit) actions = some s) :
    ∃ calls c, run QueueCalls.step (QueueCalls.start limit) calls = some c ∧ Abstracts s c := by
  refine invariant_visits_of_step (I := fun s : QueueThreads T =>
    ∃ calls c, run QueueCalls.step (QueueCalls.start limit) calls = some c ∧ Abstracts s c)
    (fun s a t hs hstep => ?_) ⟨[], _, rfl, abstracts_start limit⟩ (visits_of_run hrun)
  obtain ⟨calls, c, hcalls, h⟩ := hs
  obtain ⟨d, habs, rfl | ⟨b, hb⟩⟩ := exists_step_of_abstracts h a hstep
  · exact ⟨calls, d, hcalls, habs⟩
  · exact ⟨calls ++ [b], d, run_concat_eq_some.mpr ⟨c, hcalls, hb⟩, habs⟩

/-! ### Wake-ups -/

/-- While a `receive` sleeps, there is a woken one for each message; while a sending call sleeps,
there is a woken one for each free place. The queue is empty when a `receive` is about to wait. -/
structure Awake (s : QueueThreads T) : Prop where
  receivers : s.itemAddedEvent.Covers s.queue.items.length
  senders : s.itemRemovedEvent.Covers (s.queue.limit - s.queue.items.length)
  empty : s.checked = true → s.entered = none ∧ s.queue.items = []

theorem awake_start (limit : ℕ) : Awake (start limit : QueueThreads T) :=
  ⟨fun h => absurd rfl h, fun h => absurd rfl h, fun h => absurd h Bool.false_ne_true⟩

theorem empty_of_unlocked (hunlocked : s.unlocked = true) {P : Prop} (hchecked : s.checked = true) :
    P := by
  rw [Abstracts.checked_eq hunlocked] at hchecked
  exact absurd hchecked Bool.false_ne_true

/-- A message that is added takes a place. -/
theorem awake_of_accept {message : T} {i : ℕ} (hchecked : s.checked = false)
    (hreceivers : s.itemAddedEvent.Covers s.queue.items.length)
    (hsenders : s.itemRemovedEvent.Covers (s.queue.limit - s.queue.items.length - 1))
    (haccept : s.accept message i = some t) : Awake t := by
  obtain ⟨event, hevent, rfl⟩ := Option.map_eq_some_iff.mp haccept
  refine ⟨?_, ?_, fun h => absurd (hchecked.symm.trans h) Bool.false_ne_true⟩
  · simp only [BlockingQueue.push, List.length_append, List.length_singleton]
    exact hreceivers.notifyOne hevent
  · simp only [BlockingQueue.push, List.length_append, List.length_singleton, Nat.sub_add_eq]
    exact hsenders

/-- A message that is removed frees a place. -/
theorem awake_of_take {i : ℕ} (hunlocked : s.unlocked = true)
    (hreceivers : s.itemAddedEvent.Covers (s.queue.items.length - 1))
    (hsenders : s.itemRemovedEvent.Covers (s.queue.limit - s.queue.items.length))
    (htake : s.take i = some t) : Awake t := by
  rw [take] at htake
  cases hreceive : s.queue.receive with
  | refused =>
    rw [hreceive] at htake
    obtain rfl := Option.some.inj htake
    have hnil := (BlockingQueue.receive_eq_refused_iff.mp hreceive).2
    exact ⟨by rw [hnil]; exact CondVar.covers_zero _, hsenders, empty_of_unlocked hunlocked⟩
  | wait =>
    rw [hreceive] at htake
    obtain rfl := Option.some.inj htake
    have hnil := (BlockingQueue.receive_eq_wait_iff.mp hreceive).2
    rw [unlocked, Bool.and_eq_true] at hunlocked
    exact ⟨by rw [hnil]; exact CondVar.covers_zero _, hsenders,
      fun _ => ⟨Option.isNone_iff_eq_none.mp hunlocked.1, hnil⟩⟩
  | done result =>
    obtain ⟨message, queue⟩ := result
    rw [hreceive] at htake
    obtain ⟨event, hevent, rfl⟩ := Option.map_eq_some_iff.mp htake
    rw [BlockingQueue.items_of_receive hreceive, List.length_cons] at hreceivers hsenders
    rw [← (BlockingQueue.limit_of_receive hreceive).1] at hsenders
    refine ⟨hreceivers, (hsenders.notifyOne hevent).mono ?_, empty_of_unlocked hunlocked⟩
    dsimp only
    omega

namespace Awake

theorem enter (h : Awake s) (hunlocked : s.unlocked = true) {message : T}
    {outcome : QueueOutcome (BlockingQueue T)}
    (hwait : outcome = .wait → s.queue.full = true) : Awake (s.enter message outcome) := by
  cases outcome with
  | refused => exact ⟨h.receivers, h.senders, h.empty⟩
  | wait =>
    refine ⟨h.receivers, ?_, h.empty⟩
    have hfull : s.queue.limit ≤ s.queue.items.length := of_decide_eq_true (hwait rfl)
    simp only [QueueThreads.enter, Nat.sub_eq_zero_of_le hfull]
    exact CondVar.covers_zero _
  | done queue => exact ⟨h.receivers, h.senders, empty_of_unlocked hunlocked⟩

/-- **No step loses a wake-up.** -/
theorem step (h : Awake s) (a : QueueThreadAction T) (hstep : s.step a = some t) : Awake t := by
  cases a with
  | send message =>
    rw [QueueThreads.step, Option.ite_none_right_eq_some, Option.some.injEq] at hstep
    obtain ⟨hunlocked, rfl⟩ := hstep
    exact h.enter hunlocked BlockingQueue.full_of_send_eq_wait
  | sendOrDrop message | sendWithTimeout message timeout =>
    rw [QueueThreads.step, Option.ite_none_right_eq_some, Option.some.injEq] at hstep
    obtain ⟨hunlocked, rfl⟩ := hstep
    exact h.enter hunlocked BlockingQueue.full_of_sendWithTimeout_eq_wait
  | add i =>
    obtain ⟨message, hentered, haccept⟩ := Option.bind_eq_some_iff.mp hstep
    have hchecked : s.checked = false := by
      cases hc : s.checked with
      | false => rfl
      | true => exact absurd (hentered.symm.trans (h.empty hc).1) (Option.some_ne_none _)
    exact awake_of_accept (s := { s with entered := none }) hchecked h.receivers
      (h.senders.mono (Nat.sub_le _ _)) haccept
  | resumeSend j i =>
    obtain ⟨hunlocked, message, event, hresume, ⟨hfull, rfl⟩ | ⟨-, haccept⟩⟩ :=
      step_resumeSend hstep
    · refine ⟨h.receivers, ?_, h.empty⟩
      have hle : s.queue.limit ≤ s.queue.items.length := of_decide_eq_true hfull
      simp only [Nat.sub_eq_zero_of_le hle]
      exact CondVar.covers_zero _
    · exact awake_of_accept (s := { s with itemRemovedEvent := event })
        (Abstracts.checked_eq hunlocked) h.receivers (h.senders.resume hresume) haccept
  | receive i =>
    rw [QueueThreads.step, Option.ite_none_right_eq_some] at hstep
    exact awake_of_take hstep.1 (h.receivers.mono (Nat.sub_le _ _)) h.senders hstep.2
  | resumeReceive j i =>
    obtain ⟨hunlocked, event, hresume, htake⟩ := step_resumeReceive hstep
    exact awake_of_take (s := { s with itemAddedEvent := event }) hunlocked
      (h.receivers.resume hresume) h.senders htake
  | wait =>
    rw [QueueThreads.step, Option.ite_none_right_eq_some, Option.some.injEq] at hstep
    obtain ⟨hchecked, rfl⟩ := hstep
    refine ⟨?_, h.senders, fun hnot => absurd hnot Bool.false_ne_true⟩
    rw [(h.empty hchecked).2]
    exact CondVar.covers_zero _
  | clear is =>
    rw [QueueThreads.step, Option.ite_none_right_eq_some] at hstep
    obtain ⟨⟨hunlocked, hlength⟩, hstep⟩ := hstep
    obtain ⟨event, hevent, rfl⟩ := Option.map_eq_some_iff.mp hstep
    refine ⟨CondVar.covers_zero _, (h.senders.notifyEach hevent).mono ?_,
      empty_of_unlocked hunlocked⟩
    -- one notification for each message, and so for each place that becomes free
    rw [hlength]
    exact Nat.le_add_of_sub_le (Nat.le_refl _)
  | close =>
    rw [QueueThreads.step] at hstep
    split_ifs at hstep
    · rwa [← Option.some.inj hstep]
    · rw [← Option.some.inj hstep]
      exact ⟨h.receivers, h.senders, h.empty⟩
  | notifyClosed =>
    rw [QueueThreads.step, Option.ite_none_right_eq_some, Option.some.injEq] at hstep
    obtain ⟨-, rfl⟩ := hstep
    exact ⟨CondVar.covers_notifyAll _ _, h.senders, h.empty⟩
  | wakeSend i =>
    obtain ⟨event, hevent, rfl⟩ := Option.map_eq_some_iff.mp hstep
    exact ⟨h.receivers, h.senders.wake hevent, h.empty⟩
  | wakeReceive i =>
    obtain ⟨event, hevent, rfl⟩ := Option.map_eq_some_iff.mp hstep
    exact ⟨h.receivers.wake hevent, h.senders, h.empty⟩

end Awake

theorem awake_run {limit : ℕ} {actions : List (QueueThreadAction T)}
    (hrun : run step (start limit) actions = some s) : Awake s :=
  invariant_visits_of_step (fun _ a _ h hstep => h.step a hstep) (awake_start limit)
    (visits_of_run hrun)

/-- **No wake-up is lost**, however the calls interleave, whichever call a notification wakes, and
whenever waits end by themselves. While a `receive` sleeps there is a woken one for each message,
and while a sending call sleeps there is a woken one for each free place; and so, once the mutex is
free and no call is woken, a `receive` sleeps only on an empty queue and a sending call only on a
full one. The calls are those of `QueueCalls`, and remove messages in the order in which they were
accepted. -/
theorem wakeups_run {limit : ℕ} {actions : List (QueueThreadAction T)}
    (hrun : run step (start limit) actions = some s) :
    (∃ calls c, run QueueCalls.step (QueueCalls.start limit) calls = some c ∧ Abstracts s c) ∧
      s.accepted = s.removed ++ s.queue.items ∧ s.queue.items.length ≤ limit ∧
      s.itemAddedEvent.Covers s.queue.items.length ∧
      s.itemRemovedEvent.Covers (limit - s.queue.items.length) ∧
      (s.itemAddedEvent.woken = [] → s.itemRemovedEvent.woken = [] →
        (s.itemAddedEvent.sleeping ≠ [] → s.queue.items = []) ∧
        (s.itemRemovedEvent.sleeping ≠ [] → s.queue.items.length = limit)) := by
  have hawake := awake_run hrun
  obtain ⟨calls, c, hcalls, habs⟩ := exists_run_abstracts hrun
  have hsound := QueueCalls.sound_run hcalls
  have haccepted := hsound.accepted_eq
  have hlength := hsound.length_le
  have hsenders := hawake.senders
  rw [habs.accepted_eq, habs.removed_eq, habs.queue_eq] at haccepted
  rw [habs.queue_eq] at hlength
  rw [show s.queue.limit = limit by rw [← habs.queue_eq, hsound.limit_eq]] at hsenders
  refine ⟨⟨calls, c, hcalls, habs⟩, haccepted, hlength, hawake.receivers, hsenders,
    fun hadded hremoved => ⟨fun hne => ?_, fun hne => ?_⟩⟩
  · exact List.length_eq_zero_iff.mp (hawake.receivers.eq_zero hadded hne)
  · exact Nat.le_antisymm hlength (Nat.sub_eq_zero_iff_le.mp (hsenders.eq_zero hremoved hne))

/-- Two senders on a queue of one message, and then a receiver that finds nothing. -/
theorem wakeups_of_two_senders :
    ∃ s : QueueThreads ℕ, run step (start 1) [.send 7, .add 0, .send 8, .receive 0, .resumeSend 0 0,
        .receive 0, .receive 0, .wait] = some s ∧
      s.itemAddedEvent.sleeping = [()] ∧ s.queue.items = [] ∧
      s.accepted = s.removed ++ s.queue.items ∧ s.removed = [7, 8] := by
  have hrun : run step (start 1) [.send 7, .add 0, .send 8, .receive 0, .resumeSend 0 0,
      .receive 0, .receive 0, .wait] = some (_ : QueueThreads ℕ) := rfl
  obtain ⟨-, haccepted, -, -, -, hasleep⟩ := wakeups_run hrun
  exact ⟨_, rfl, rfl, (hasleep rfl rfl).1 (List.cons_ne_nil _ _), haccepted, rfl⟩

/-! ### Closed queues -/

/-- Once `close` has notified all, no `receive` sleeps. -/
structure ClosedAwake (s : QueueThreads T) : Prop where
  not_checked : s.queue.closed = true → s.checked = false
  awake : s.queue.closed = true → s.closing = 0 → s.itemAddedEvent.sleeping = []

theorem closedAwake_start (limit : ℕ) : ClosedAwake (start limit : QueueThreads T) :=
  ⟨fun _ => rfl, fun _ _ => rfl⟩

/-- The same calls sleep on `item_added_event` or fewer, and `is_closed` does not change. -/
theorem ClosedAwake.of_sublist (h : ClosedAwake s) (hclosed : t.queue.closed = s.queue.closed)
    (hclosing : t.closing = s.closing) (hchecked : s.queue.closed = true → t.checked = false)
    (hsub : t.itemAddedEvent.sleeping.Sublist s.itemAddedEvent.sleeping) : ClosedAwake t := by
  refine ⟨fun hc => hchecked (hclosed ▸ hc), fun hc hzero => ?_⟩
  rw [hclosed] at hc
  rw [hclosing] at hzero
  rw [h.awake hc hzero] at hsub
  exact List.sublist_nil.mp hsub

theorem ClosedAwake.accept (h : ClosedAwake s) {message : T} {i : ℕ}
    (haccept : s.accept message i = some t) : ClosedAwake t := by
  obtain ⟨event, hevent, rfl⟩ := Option.map_eq_some_iff.mp haccept
  exact h.of_sublist rfl rfl h.not_checked (CondVar.sublist_of_notifyOne hevent)

theorem ClosedAwake.take (h : ClosedAwake s) {i : ℕ} (htake : s.take i = some t) :
    ClosedAwake t := by
  rw [QueueThreads.take] at htake
  cases hreceive : s.queue.receive with
  | refused =>
    rw [hreceive] at htake
    rwa [← Option.some.inj htake]
  | wait =>
    rw [hreceive] at htake
    obtain rfl := Option.some.inj htake
    have hopen := (BlockingQueue.receive_eq_wait_iff.mp hreceive).1
    exact h.of_sublist rfl rfl
      (fun hclosed => absurd (hopen.symm.trans hclosed) Bool.false_ne_true) (List.Sublist.refl _)
  | done result =>
    rw [hreceive] at htake
    obtain ⟨event, -, rfl⟩ := Option.map_eq_some_iff.mp htake
    exact h.of_sublist (BlockingQueue.limit_of_receive hreceive).2 rfl h.not_checked
      (List.Sublist.refl _)

/-- A step keeps the receivers awake unless `close` comes between a look at `is_closed` and the
wait that follows it. -/
theorem ClosedAwake.step (h : ClosedAwake s) {a : QueueThreadAction T}
    (hok : a = .close → s.checked = false) (hstep : s.step a = some t) : ClosedAwake t := by
  cases a with
  | send message | sendOrDrop message | sendWithTimeout message timeout =>
    rw [QueueThreads.step, Option.ite_none_right_eq_some, Option.some.injEq] at hstep
    obtain ⟨-, rfl⟩ := hstep
    obtain ⟨hqueue, hclosing, hchecked, hevent⟩ := s.enter_frame message _
    exact h.of_sublist (congrArg _ hqueue) hclosing (hchecked ▸ h.not_checked) (by rw [hevent])
  | add i =>
    obtain ⟨message, -, haccept⟩ := Option.bind_eq_some_iff.mp hstep
    exact ClosedAwake.accept (s := { s with entered := none }) ⟨h.not_checked, h.awake⟩ haccept
  | resumeSend j i =>
    obtain ⟨-, message, event, -, ⟨-, rfl⟩ | ⟨-, haccept⟩⟩ := step_resumeSend hstep
    · exact ⟨h.not_checked, h.awake⟩
    · exact ClosedAwake.accept (s := { s with itemRemovedEvent := event })
        ⟨h.not_checked, h.awake⟩ haccept
  | receive i =>
    rw [QueueThreads.step, Option.ite_none_right_eq_some] at hstep
    exact h.take hstep.2
  | resumeReceive j i =>
    obtain ⟨-, event, hresume, htake⟩ := step_resumeReceive hstep
    refine ClosedAwake.take (s := { s with itemAddedEvent := event }) ?_ htake
    exact h.of_sublist rfl rfl h.not_checked (by rw [CondVar.sleeping_of_resume hresume])
  | wait =>
    rw [QueueThreads.step, Option.ite_none_right_eq_some, Option.some.injEq] at hstep
    obtain ⟨hchecked, rfl⟩ := hstep
    refine ⟨fun _ => rfl, fun hclosed => ?_⟩
    exact absurd (hchecked.symm.trans (h.not_checked hclosed)) (Bool.noConfusion ·)
  | clear is =>
    rw [QueueThreads.step, Option.ite_none_right_eq_some] at hstep
    obtain ⟨-, hstep⟩ := hstep
    obtain ⟨event, -, rfl⟩ := Option.map_eq_some_iff.mp hstep
    exact ⟨h.not_checked, h.awake⟩
  | close =>
    rw [QueueThreads.step] at hstep
    split_ifs at hstep
    · rwa [← Option.some.inj hstep]
    · rw [← Option.some.inj hstep]
      exact ⟨fun _ => hok rfl, fun _ hzero => absurd hzero (Nat.succ_ne_zero _)⟩
  | notifyClosed =>
    rw [QueueThreads.step, Option.ite_none_right_eq_some, Option.some.injEq] at hstep
    obtain ⟨-, rfl⟩ := hstep
    exact ⟨h.not_checked, fun _ _ => rfl⟩
  | wakeSend i =>
    obtain ⟨event, -, rfl⟩ := Option.map_eq_some_iff.mp hstep
    exact ⟨h.not_checked, h.awake⟩
  | wakeReceive i =>
    obtain ⟨event, hevent, rfl⟩ := Option.map_eq_some_iff.mp hstep
    exact h.of_sublist rfl rfl h.not_checked (CondVar.sublist_of_wake hevent)

/-- **When `close` leaves no receiver asleep.** If no `close` comes while a `receive` has looked at
`is_closed` and does not wait yet, then no `receive` sleeps once the queue is closed and all are
notified; and if one comes then, the `receive` sleeps on. -/
theorem awake_of_closed {limit : ℕ} {actions : List (QueueThreadAction T)}
    (hrun : run step (start limit) actions = some s) :
    (Meets step (fun s a => a = .close → s.checked = false) (start limit) actions →
      s.queue.closed = true → s.closing = 0 → s.itemAddedEvent.sleeping = []) ∧
    (s.checked = true → s.queue.closed = false →
      ∃ t, run step s [.close, .notifyClosed, .wait] = some t ∧ t.queue.closed = true ∧
        t.closing = s.closing ∧ t.itemAddedEvent.sleeping = [()]) := by
  refine ⟨fun hmeets hclosed hclosing => ?_, fun hchecked hopen => ?_⟩
  · have h : ClosedAwake s := invariant_visits (fun _ _ _ h hok hstep => h.step hok hstep)
      (closedAwake_start limit) hmeets (visits_of_run hrun)
    exact h.awake hclosed hclosing
  · refine ⟨{ s with
      queue := s.queue.close
      checked := false
      itemAddedEvent := s.itemAddedEvent.notifyAll.wait () }, ?_, rfl, rfl, rfl⟩
    simp [run_cons, step, hopen, hchecked]

/-- A receiver that sleeps when the queue is closed. -/
theorem awake_of_close_after_wait :
    ∃ s : QueueThreads ℕ, run step (start 1) [.receive 0, .wait, .close, .notifyClosed] = some s ∧
      s.itemAddedEvent.sleeping = [] ∧ s.itemAddedEvent.woken = [()] := by
  have hrun : run step (start 1) [.receive 0, .wait, .close, .notifyClosed] =
      some (_ : QueueThreads ℕ) := rfl
  exact ⟨_, rfl, (awake_of_closed hrun).1 (by decide) rfl rfl, rfl⟩

end QueueThreads

end TellerOBC
