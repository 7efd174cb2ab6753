import Mathlib.Data.List.Perm.Basic
import TellerOBC.Foundations.StepSystem
import TellerOBC.Hal.BlockingQueue

/-!
# Concurrent calls on a message queue

Any number of calls of `send`, `send_or_drop`, `send_with_timeout`, `receive`, `clear` and `close`
on a `BlockingQueue` of `hal/posix/queue.hpp`. A call holds the mutex of the queue except while it
waits on a condition variable, and so the calls interleave at their waits. A wait may end at any
time, also without a notification, and the call then looks at the elements again.

Only `close` does not take the mutex. It can come between the check of `is_closed` in a sending call
and the end of that call, and so such a call is two steps if it adds its message.

## Main definitions

* `TellerOBC.QueueCalls`, `TellerOBC.QueueCalls.step`: the queue with the calls in progress.

## Main results

* `TellerOBC.QueueCalls.conserved_run`: messages are removed in the order in which they were
  accepted, and the queue keeps its limit.
* `TellerOBC.QueueCalls.refuses_after_close_iff`: when a queue that was closed takes no message.
-/

namespace TellerOBC

/-- A queue with the calls in progress, and what the calls did. -/
structure QueueCalls (T : Type) where
  queue : BlockingQueue T
  /-- The message of the sending call that holds the mutex and will add it. -/
  entered : Option T := none
  /-- The messages of the calls that wait for room. -/
  waiting : List T := []
  /-- The number of the `receive` calls that wait for a message. -/
  receivers : ℕ := 0
  /-- The messages of the sending calls that succeeded. -/
  accepted : List T := []
  /-- The messages of the sending calls that returned false. -/
  refused : List T := []
  /-- The messages that were received or cleared. -/
  removed : List T := []

/-- The steps of the calls. -/
inductive QueueAction (T : Type) where
  | send (message : T)
  | sendOrDrop (message : T)
  | sendWithTimeout (message : T) (timeout : ℕ)
  /-- The sending call that holds the mutex adds its message. -/
  | add
  /-- The wait of a sending call ends. -/
  | resumeSend (i : ℕ)
  | receive
  /-- The wait of a `receive` ends. -/
  | resumeReceive
  | clear
  | close
  deriving DecidableEq, Repr

/-- The message of a sending call. -/
def QueueAction.sent {T : Type} : QueueAction T → Option T
  | .send message | .sendOrDrop message | .sendWithTimeout message _ => some message
  | _ => none

namespace QueueCalls

open StepSystem

variable {T : Type}

/-- A new queue. -/
def start (limit : ℕ) : QueueCalls T where
  queue := { limit := limit }

variable (s : QueueCalls T)

/-- The mutex is free. -/
def unlocked : Bool := s.entered.isNone

/-- A sending call after its checks. -/
def enter (message : T) : QueueOutcome (BlockingQueue T) → QueueCalls T
  | .refused => { s with refused := s.refused ++ [message] }
  | .wait => { s with waiting := s.waiting ++ [message] }
  | .done _ => { s with entered := some message }

/-- Add a message. -/
def accept (message : T) : QueueCalls T :=
  { s with queue := s.queue.push message, accepted := s.accepted ++ [message] }

/-- A `receive` after it looked at the queue; `waiting` is the number of calls that wait then. -/
def take (waiting : ℕ) : QueueCalls T :=
  match s.queue.receive with
  | .refused => s
  | .wait => { s with receivers := waiting }
  | .done (message, queue) => { s with queue := queue, removed := s.removed ++ [message] }

/-- The steps. All of them but `close` need the mutex. -/
def step (s : QueueCalls T) : QueueAction T → Option (QueueCalls T)
  | .send message =>
    if s.unlocked then some (s.enter message (s.queue.send message)) else none
  | .sendOrDrop message =>
    if s.unlocked then some (s.enter message (s.queue.sendWithTimeout message 0)) else none
  | .sendWithTimeout message timeout =>
    if s.unlocked then some (s.enter message (s.queue.sendWithTimeout message timeout)) else none
  | .add => s.entered.map fun message => { s.accept message with entered := none }
  | .resumeSend i =>
    if s.unlocked then
      s.waiting[i]?.map fun message =>
        if s.queue.full then s else { s.accept message with waiting := s.waiting.eraseIdx i }
    else none
  | .receive => if s.unlocked then some (s.take (s.receivers + 1)) else none
  | .resumeReceive =>
    if s.unlocked ∧ 0 < s.receivers then
      some ({ s with receivers := s.receivers - 1 }.take s.receivers)
    else none
  | .clear =>
    if s.unlocked then
      some { s with queue := s.queue.clear, removed := s.removed ++ s.queue.items }
    else none
  | .close => some { s with queue := s.queue.close }

/-! ### Messages -/

/-- Messages are removed in the order in which they were accepted, and each sending call has either
succeeded, or returned false, or is in progress. -/
structure Conserved (limit : ℕ) (past : List (QueueAction T)) (s : QueueCalls T) : Prop where
  accepted_eq : s.accepted = s.removed ++ s.queue.items
  length_le : s.queue.items.length ≤ limit
  perm_sent : (past.filterMap QueueAction.sent).Perm
    (s.accepted ++ s.refused ++ s.waiting ++ s.entered.toList)

/-- With the conserved messages, a call that will add its message has room for it. -/
structure Sound (limit : ℕ) (past : List (QueueAction T)) (s : QueueCalls T) : Prop
    extends Conserved limit past s where
  limit_eq : s.queue.limit = limit
  room : s.entered.isSome = true → s.queue.full = false

variable {s} {t : QueueCalls T} {limit : ℕ} {past : List (QueueAction T)}

/-- What a sending call does before it waits: it needs the mutex and enters the queue only where
there is room, and a closed queue refuses it. -/
theorem step_of_sent {a : QueueAction T} {message : T} (hsent : a.sent = some message)
    (hstep : s.step a = some t) :
    s.unlocked = true ∧ ∃ outcome, t = s.enter message outcome ∧
      (∀ queue, outcome = .done queue → s.queue.full = false) ∧
      (s.queue.closed = true → outcome = .refused) := by
  cases a with
  | send message' =>
    obtain rfl := Option.some.inj hsent
    rw [step, Option.ite_none_right_eq_some, Option.some.injEq] at hstep
    obtain ⟨hunlocked, rfl⟩ := hstep
    exact ⟨hunlocked, _, rfl, fun _ => BlockingQueue.full_of_send, BlockingQueue.send_of_closed⟩
  | sendOrDrop message' | sendWithTimeout message' timeout =>
    obtain rfl := Option.some.inj hsent
    rw [step, Option.ite_none_right_eq_some, Option.some.injEq] at hstep
    obtain ⟨hunlocked, rfl⟩ := hstep
    exact ⟨hunlocked, _, rfl, fun _ => BlockingQueue.full_of_sendWithTimeout,
      BlockingQueue.sendWithTimeout_of_closed⟩
  | add | resumeSend | receive | resumeReceive | clear | close => cases hsent

theorem sound_start (limit : ℕ) : Sound limit [] (start limit : QueueCalls T) :=
  ⟨⟨rfl, Nat.zero_le _, List.Perm.refl _⟩, rfl, nofun⟩

namespace Sound

/-- A sending call waits, is refused, or enters the queue where there is room. -/
theorem enter (h : Sound limit past s) (hunlocked : s.unlocked = true) {a : QueueAction T}
    {message : T} (hsent : a.sent = some message) {outcome : QueueOutcome (BlockingQueue T)}
    (hroom : ∀ queue, outcome = .done queue → s.queue.full = false) :
    Sound limit (past ++ [a]) (s.enter message outcome) := by
  have hentered : s.entered = none := Option.isNone_iff_eq_none.mp hunlocked
  have hperm := h.perm_sent
  rw [hentered, Option.toList_none, List.append_nil] at hperm
  have hpast : ((past ++ [a]).filterMap QueueAction.sent).Perm
      (s.accepted ++ s.refused ++ s.waiting ++ [message]) := by
    rw [List.filterMap_append, List.filterMap_cons_some hsent, List.filterMap_nil]
    exact hperm.append_right _
  cases outcome with
  | refused =>
    refine ⟨⟨h.accepted_eq, h.length_le, hpast.trans ?_⟩, h.limit_eq, h.room⟩
    simp only [QueueCalls.enter, hentered, Option.toList_none, List.append_nil, List.append_assoc]
    exact (List.perm_append_comm.append_left _).append_left _
  | wait =>
    refine ⟨⟨h.accepted_eq, h.length_le, hpast.trans ?_⟩, h.limit_eq, h.room⟩
    simp only [QueueCalls.enter, hentered, Option.toList_none, List.append_nil, List.append_assoc]
    exact List.Perm.refl _
  | done queue =>
    exact ⟨⟨h.accepted_eq, h.length_le, hpast⟩, h.limit_eq, fun _ => hroom queue rfl⟩

/-- A message is added where there is room. -/
theorem accept (h : Sound limit past s) (hroom : s.queue.full = false) (message : T) :
    (s.accept message).accepted = (s.accept message).removed ++ (s.accept message).queue.items ∧
      (s.accept message).queue.items.length ≤ limit := by
  have hlt : s.queue.items.length < limit :=
    h.limit_eq ▸ Nat.lt_of_not_le (of_decide_eq_false hroom)
  refine ⟨?_, ?_⟩
  · simp only [QueueCalls.accept, BlockingQueue.push, h.accepted_eq, List.append_assoc]
  · simp only [QueueCalls.accept, BlockingQueue.push, List.length_append, List.length_singleton]
    exact hlt

theorem add (h : Sound limit past s) (hstep : s.step .add = some t) : Sound limit past t := by
  obtain ⟨message, hentered, rfl⟩ := Option.map_eq_some_iff.mp hstep
  obtain ⟨haccepted, hlength⟩ := h.accept (h.room (by rw [hentered]; rfl)) message
  refine ⟨⟨haccepted, hlength, ?_⟩, h.limit_eq, nofun⟩
  have hperm := h.perm_sent
  rw [hentered, Option.toList_some] at hperm
  refine hperm.trans ?_
  simp only [QueueCalls.accept, Option.toList_none, List.append_nil, List.append_assoc]
  refine List.Perm.append_left _ ?_
  rw [← List.append_assoc]
  exact List.perm_append_comm

theorem resumeSend (h : Sound limit past s) {i : ℕ} (hstep : s.step (.resumeSend i) = some t) :
    Sound limit past t := by
  rw [step, Option.ite_none_right_eq_some] at hstep
  obtain ⟨hunlocked, hstep⟩ := hstep
  obtain ⟨message, hi, rfl⟩ := Option.map_eq_some_iff.mp hstep
  split_ifs with hfull
  · exact h
  · have hentered : s.entered = none := Option.isNone_iff_eq_none.mp hunlocked
    have hroom : s.queue.full = false := Bool.not_eq_true _ ▸ hfull
    obtain ⟨haccepted, hlength⟩ := h.accept hroom message
    refine ⟨⟨haccepted, hlength, ?_⟩, h.limit_eq, fun hsome => ?_⟩
    · have hperm := h.perm_sent
      obtain ⟨hlt, rfl⟩ := List.getElem?_eq_some_iff.mp hi
      have hwaiting := List.getElem_cons_eraseIdx_perm hlt
      refine hperm.trans ?_
      simp only [QueueCalls.accept, hentered, Option.toList_none, List.append_nil,
        List.append_assoc]
      refine List.Perm.append_left _ (((hwaiting.symm.append_left _).trans ?_))
      exact List.perm_middle
    · rw [QueueCalls.accept, hentered] at hsome
      exact nomatch hsome

/-- A `receive` takes the first message. -/
theorem take (h : Sound limit past s) (hunlocked : s.unlocked = true) (waiting : ℕ) :
    Sound limit past (s.take waiting) := by
  have hentered : s.entered = none := Option.isNone_iff_eq_none.mp hunlocked
  rw [QueueCalls.take]
  cases hreceive : s.queue.receive with
  | refused => exact h
  | wait => exact ⟨⟨h.accepted_eq, h.length_le, h.perm_sent⟩, h.limit_eq, h.room⟩
  | done result =>
    obtain ⟨message, queue⟩ := result
    have hitems := BlockingQueue.items_of_receive hreceive
    obtain ⟨hlimit, -⟩ := BlockingQueue.limit_of_receive hreceive
    refine ⟨⟨?_, ?_, h.perm_sent⟩, hlimit.trans h.limit_eq, fun hsome => ?_⟩
    · rw [h.accepted_eq, hitems, List.append_cons]
    · have hlength := h.length_le
      rw [hitems, List.length_cons] at hlength
      exact (Nat.le_succ _).trans hlength
    · rw [hentered] at hsome
      exact nomatch hsome

/-- A step that is no sending call keeps the messages of such calls. -/
theorem append_of_sent_eq_none (h : Sound limit past s) {a : QueueAction T} (ha : a.sent = none) :
    Sound limit (past ++ [a]) s := by
  refine ⟨⟨h.accepted_eq, h.length_le, ?_⟩, h.limit_eq, h.room⟩
  rw [List.filterMap_append, List.filterMap_cons_none ha, List.filterMap_nil, List.append_nil]
  exact h.perm_sent

/-- **Every step conserves the messages.** -/
theorem step (h : Sound limit past s) (a : QueueAction T) (hstep : s.step a = some t) :
    Sound limit (past ++ [a]) t := by
  cases a with
  | send message | sendOrDrop message | sendWithTimeout message timeout =>
    obtain ⟨hunlocked, outcome, rfl, hroom, -⟩ := step_of_sent rfl hstep
    exact h.enter hunlocked rfl hroom
  | add => exact (h.add hstep).append_of_sent_eq_none rfl
  | resumeSend i => exact (h.resumeSend hstep).append_of_sent_eq_none rfl
  | receive =>
    rw [QueueCalls.step, Option.ite_none_right_eq_some, Option.some.injEq] at hstep
    obtain ⟨hunlocked, rfl⟩ := hstep
    exact (h.take hunlocked _).append_of_sent_eq_none rfl
  | resumeReceive =>
    rw [QueueCalls.step, Option.ite_none_right_eq_some, Option.some.injEq] at hstep
    obtain ⟨⟨hunlocked, -⟩, rfl⟩ := hstep
    have hs : Sound limit past { s with receivers := s.receivers - 1 } :=
      ⟨⟨h.accepted_eq, h.length_le, h.perm_sent⟩, h.limit_eq, h.room⟩
    exact (hs.take hunlocked _).append_of_sent_eq_none rfl
  | clear =>
    rw [QueueCalls.step, Option.ite_none_right_eq_some, Option.some.injEq] at hstep
    obtain ⟨hunlocked, rfl⟩ := hstep
    have hcleared : Sound limit past { s with
        queue := s.queue.clear, removed := s.removed ++ s.queue.items } := by
      refine ⟨⟨?_, Nat.zero_le _, h.perm_sent⟩, h.limit_eq, fun hsome => ?_⟩
      · rw [h.accepted_eq, BlockingQueue.clear, List.append_nil]
      · rw [Option.isNone_iff_eq_none.mp hunlocked] at hsome
        exact nomatch hsome
    exact hcleared.append_of_sent_eq_none rfl
  | close =>
    obtain rfl := Option.some.inj hstep
    have hclosed : Sound limit past { s with queue := s.queue.close } :=
      ⟨⟨h.accepted_eq, h.length_le, h.perm_sent⟩, h.limit_eq, h.room⟩
    exact hclosed.append_of_sent_eq_none rfl

end Sound

theorem sound_run {limit : ℕ} {actions : List (QueueAction T)} {s : QueueCalls T}
    (hrun : run step (start limit) actions = some s) : Sound limit actions s :=
  invariant_history (J := Sound limit) (fun _ _ a _ h _ hstep => h.step a hstep) (sound_start limit)
    (meets_true _ actions) hrun

/-- **Messages are conserved** by every run: those that were received or cleared are, in this order,
the first ones of those that were accepted, and the others are in the queue, which keeps its
limit. -/
theorem conserved_run {limit : ℕ} {actions : List (QueueAction T)} {s : QueueCalls T}
    (hrun : run step (start limit) actions = some s) :
    s.accepted = s.removed ++ s.queue.items ∧ s.queue.items.length ≤ limit ∧
      (actions.filterMap QueueAction.sent).Perm
        (s.accepted ++ s.refused ++ s.waiting ++ s.entered.toList) := by
  have h := sound_run hrun
  exact ⟨h.accepted_eq, h.length_le, h.perm_sent⟩

/-- Two senders on a queue of one message. -/
theorem conserved_of_two_senders :
    ∃ s : QueueCalls ℕ, run step (start 1) [.send 7, .add, .send 8, .resumeSend 0, .receive,
        .resumeSend 0, .clear] = some s ∧
      s.accepted = s.removed ++ s.queue.items ∧ s.queue.items.length ≤ 1 ∧
      s.accepted = [7, 8] ∧ s.removed = [7, 8] := by
  have hrun : run step (start 1) [.send 7, .add, .send 8, .resumeSend 0, .receive, .resumeSend 0,
      .clear] = some (_ : QueueCalls ℕ) := rfl
  exact ⟨_, rfl, (conserved_run hrun).1, (conserved_run hrun).2.1, rfl, rfl⟩

/-! ### Closed queues -/

/-- The queue is closed and no sending call is in progress. -/
structure Quiet (s : QueueCalls T) : Prop where
  closed : s.queue.closed = true
  entered_eq : s.entered = none
  waiting_eq : s.waiting = []

/-- A quiet queue refuses messages. -/
theorem Quiet.enter (h : Quiet s) (message : T) :
    Quiet (s.enter message .refused) :=
  ⟨h.closed, h.entered_eq, h.waiting_eq⟩

/-- A `receive` leaves a queue quiet. -/
theorem Quiet.take (h : Quiet s) (waiting : ℕ) : Quiet (s.take waiting) ∧
    (s.take waiting).accepted = s.accepted ∧ (s.take waiting).refused = s.refused := by
  rw [QueueCalls.take]
  cases hreceive : s.queue.receive with
  | refused => exact ⟨h, rfl, rfl⟩
  | wait => exact ⟨⟨h.closed, h.entered_eq, h.waiting_eq⟩, rfl, rfl⟩
  | done result =>
    obtain ⟨-, hclosed⟩ := BlockingQueue.limit_of_receive hreceive
    exact ⟨⟨hclosed.trans h.closed, h.entered_eq, h.waiting_eq⟩, rfl, rfl⟩

/-- In a quiet queue every sending call is refused, and nothing is added. -/
theorem Quiet.step (h : Quiet s) (a : QueueAction T) (hstep : s.step a = some t) :
    Quiet t ∧ t.accepted = s.accepted ∧
      t.refused = s.refused ++ [a].filterMap QueueAction.sent := by
  cases a with
  | send message | sendOrDrop message | sendWithTimeout message timeout =>
    obtain ⟨-, outcome, rfl, -, hclosed⟩ := step_of_sent rfl hstep
    obtain rfl := hclosed h.closed
    exact ⟨h.enter message, rfl, rfl⟩
  | add =>
    rw [QueueCalls.step, h.entered_eq] at hstep
    exact nomatch hstep
  | resumeSend i =>
    rw [QueueCalls.step, h.waiting_eq, List.getElem?_nil, Option.map_none, ite_self] at hstep
    exact nomatch hstep
  | receive =>
    rw [QueueCalls.step, Option.ite_none_right_eq_some, Option.some.injEq] at hstep
    obtain ⟨-, rfl⟩ := hstep
    obtain ⟨hquiet, haccepted, hrefused⟩ := h.take (s.receivers + 1)
    exact ⟨hquiet, haccepted, hrefused.trans (List.append_nil _).symm⟩
  | resumeReceive =>
    rw [QueueCalls.step, Option.ite_none_right_eq_some, Option.some.injEq] at hstep
    obtain ⟨-, rfl⟩ := hstep
    have hs : Quiet { s with receivers := s.receivers - 1 } :=
      ⟨h.closed, h.entered_eq, h.waiting_eq⟩
    obtain ⟨hquiet, haccepted, hrefused⟩ := hs.take s.receivers
    exact ⟨hquiet, haccepted, hrefused.trans (List.append_nil _).symm⟩
  | clear =>
    rw [QueueCalls.step, Option.ite_none_right_eq_some, Option.some.injEq] at hstep
    obtain ⟨-, rfl⟩ := hstep
    exact ⟨⟨h.closed, h.entered_eq, h.waiting_eq⟩, rfl, (List.append_nil _).symm⟩
  | close =>
    obtain rfl := Option.some.inj hstep
    exact ⟨⟨rfl, h.entered_eq, h.waiting_eq⟩, rfl, (List.append_nil _).symm⟩

/-- A quiet queue takes no message in any run. -/
theorem Quiet.run (h : Quiet s) {later : List (QueueAction T)}
    (hrun : StepSystem.run QueueCalls.step s later = some t) :
    t.accepted = s.accepted ∧ t.refused = s.refused ++ later.filterMap QueueAction.sent := by
  have hinv : Quiet t ∧ t.accepted = s.accepted ∧
      t.refused = s.refused ++ ([] ++ later).filterMap QueueAction.sent := by
    refine invariant_history (J := fun past t => Quiet t ∧ t.accepted = s.accepted ∧
      t.refused = s.refused ++ past.filterMap QueueAction.sent)
      (fun past u a v hu _ hstep => ?_) ⟨h, rfl, (List.append_nil _).symm⟩ (meets_true _ later) hrun
    obtain ⟨hquiet, haccepted, hrefused⟩ := hu.1.step a hstep
    refine ⟨hquiet, haccepted.trans hu.2.1, ?_⟩
    rw [hrefused, hu.2.2, List.filterMap_append, List.append_assoc]
  exact hinv.2

/-- A message of a call in progress is added to a queue that was closed, when there is room. -/
theorem exists_accepted_after_close (hsound : Sound limit past s) (hlimit : 0 < limit)
    (hbusy : ¬(s.entered = none ∧ s.waiting = [])) :
    ∃ later t, StepSystem.run step s (.close :: later) = some t ∧ t.accepted ≠ s.accepted := by
  have hne : ∀ message, s.accepted ++ [message] ≠ s.accepted := fun message heq =>
    absurd (List.append_right_eq_self.mp heq) (List.cons_ne_nil _ _)
  let closed : QueueCalls T := { s with queue := s.queue.close }
  cases hentered : s.entered with
  | some message =>
    have hadd : closed.step .add = some { closed.accept message with entered := none } := by
      rw [step, show closed.entered = some message from hentered]
      rfl
    exact ⟨[.add], _, run_cons_eq_some.mpr ⟨closed, rfl, run_cons_eq_some.mpr ⟨_, hadd, rfl⟩⟩,
      hne message⟩
  | none =>
    obtain ⟨message, waiting, hcons⟩ :=
      List.exists_cons_of_ne_nil fun hnil => hbusy ⟨hentered, hnil⟩
    let cleared : QueueCalls T :=
      { closed with queue := closed.queue.clear, removed := s.removed ++ s.queue.items }
    have hunlocked : s.unlocked = true := Option.isNone_iff_eq_none.mpr hentered
    have hclear : closed.step .clear = some cleared := if_pos hunlocked
    have hroom : cleared.queue.full = false :=
      decide_eq_false (not_le.mpr (hsound.limit_eq.symm ▸ hlimit))
    have hresume : cleared.step (.resumeSend 0) =
        some { cleared.accept message with waiting := cleared.waiting.eraseIdx 0 } := by
      rw [step, if_pos (show cleared.unlocked = true from hunlocked), hroom,
        show cleared.waiting[0]? = some message from hcons ▸ rfl]
      rfl
    exact ⟨[.clear, .resumeSend 0], _, run_cons_eq_some.mpr ⟨closed, rfl,
      run_cons_eq_some.mpr ⟨cleared, hclear, run_cons_eq_some.mpr ⟨_, hresume, rfl⟩⟩⟩, hne message⟩

/-- **When a closed queue takes no message.** After `close`, in every continuation no message is
added and all sending calls return false, exactly if no sending call is in progress at the moment at
which `close` sets `is_closed`: none waits for room, and none is between its check of `is_closed`
and its end. A call that was in progress when `close` was called and has ended by then does not
matter. -/
theorem refuses_after_close_iff {limit : ℕ} (hlimit : 0 < limit) {actions : List (QueueAction T)}
    {s : QueueCalls T} (hrun : run step (start limit) actions = some s) :
    (∀ later t, run step s (.close :: later) = some t → t.accepted = s.accepted ∧
        t.refused = s.refused ++ later.filterMap QueueAction.sent) ↔
      s.entered = none ∧ s.waiting = [] := by
  have hsound := sound_run hrun
  constructor
  · intro hrefuses
    by_contra hbusy
    obtain ⟨later, t, hlater, hne⟩ := exists_accepted_after_close hsound hlimit hbusy
    exact hne (hrefuses later t hlater).1
  · rintro ⟨hentered, hwaiting⟩ later t hlater
    obtain ⟨u, hclose, hrest⟩ := run_cons_eq_some.mp hlater
    obtain rfl := Option.some.inj hclose
    have hquiet : Quiet { s with queue := s.queue.close } := ⟨rfl, hentered, hwaiting⟩
    exact hquiet.run hrest

/-- A queue that is closed after its senders are done. -/
theorem refuses_after_close_of_done :
    ∃ s : QueueCalls ℕ, run step (start 1) [.send 7, .add, .sendOrDrop 8] = some s ∧
      ∀ later t, run step s (.close :: later) = some t → t.accepted = s.accepted ∧
        t.refused = s.refused ++ later.filterMap QueueAction.sent := by
  have hrun : run step (start 1) [.send 7, .add, .sendOrDrop 8] = some (_ : QueueCalls ℕ) := rfl
  exact ⟨_, rfl, (refuses_after_close_iff Nat.one_pos hrun).mpr ⟨rfl, rfl⟩⟩

/-- A sender waits for room while the queue is closed, and adds its message when there is room. -/
theorem not_refuses_after_close :
    ¬∀ (actions later : List (QueueAction ℕ)) (s t : QueueCalls ℕ),
      run step (start 1) actions = some s → run step s (.close :: later) = some t →
      t.accepted = s.accepted := by
  intro h
  exact absurd (h [.send 7, .add, .send 8] [.receive, .resumeSend 0] _ _ rfl rfl) (by decide)

end QueueCalls

end TellerOBC
