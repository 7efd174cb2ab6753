import Mathlib.Data.List.Basic

/-!
# Size-limited message queues

`BlockingQueue` of `hal/queue.hpp` with its POSIX implementation in `hal/posix/queue.hpp`. The
functions that can block are split where they wait on a condition variable: the first part says
whether the call is done or has to wait, and `push` is what a waiting `send` does when it finds
room. Each part runs under the mutex of the queue.

## Main definitions

* `TellerOBC.BlockingQueue` with `send`, `push`, `sendOrDrop`, `sendWithTimeout`, `receive`,
  `clear`, `close`.
-/

namespace TellerOBC

/-- A queue: its elements, the first one first, whether it is closed, and its size limit. -/
structure BlockingQueue (T : Type) where
  items : List T := []
  closed : Bool := false
  limit : ℕ

/-- The outcome of the first part of a blocking call. -/
inductive QueueOutcome (α : Type) where
  | refused
  | wait
  | done (a : α)

namespace BlockingQueue

variable {T : Type} (q : BlockingQueue T) (message : T)

/-- Whether the queue has no room. -/
def full : Bool := q.limit ≤ q.items.length

/-- Add a message to the end of the queue. -/
def push : BlockingQueue T := { q with items := q.items ++ [message] }

/-- `send` until it waits for room: a closed queue refuses the message. A `send` that waited does
not look at `is_closed` again. -/
def send : QueueOutcome (BlockingQueue T) :=
  if q.closed then .refused
  else if q.full then .wait
  else .done (q.push message)

/-- `send_or_drop`; `none` if the message is dropped. -/
def sendOrDrop : Option (BlockingQueue T) :=
  if q.closed || q.full then none else some (q.push message)

/-- `send_with_timeout` until it waits for room. Without a timeout it does not wait. The wait never
fails, because the lock is owned again after it. -/
def sendWithTimeout (timeout : ℕ) : QueueOutcome (BlockingQueue T) :=
  if timeout = 0 then
    match q.sendOrDrop message with
    | some queue => .done queue
    | none => .refused
  else q.send message

/-- `receive` until it waits for a message: an empty closed queue refuses. -/
def receive : QueueOutcome (T × BlockingQueue T) :=
  match q.items with
  | [] => if q.closed then .refused else .wait
  | message :: items => .done (message, { q with items := items })

/-- `clear`. -/
def clear : BlockingQueue T := { q with items := [] }

/-- `close`. -/
def close : BlockingQueue T := { q with closed := true }

variable {q message}

/-- `receive` takes the first message. -/
theorem items_of_receive {q' : BlockingQueue T} (h : q.receive = .done (message, q')) :
    q.items = message :: q'.items := by
  rw [receive] at h
  split at h
  · split at h <;> cases h
  · cases h
    assumption

/-- `receive` refuses if the queue is closed and there is no message. -/
theorem receive_eq_refused_iff : q.receive = .refused ↔ q.closed = true ∧ q.items = [] := by
  rw [receive]
  cases q.items with
  | nil => cases q.closed <;> simp
  | cons message items => simp

theorem receive_eq_wait_iff : q.receive = .wait ↔ q.closed = false ∧ q.items = [] := by
  rw [receive]
  cases q.items with
  | nil => cases q.closed <;> simp
  | cons message items => simp

/-- `receive` leaves the limit as it is, and whether the queue is closed. -/
theorem limit_of_receive {q' : BlockingQueue T} (h : q.receive = .done (message, q')) :
    q'.limit = q.limit ∧ q'.closed = q.closed := by
  rw [receive] at h
  split at h
  · split at h <;> cases h
  · cases h
    exact ⟨rfl, rfl⟩

theorem send_of_closed (h : q.closed = true) : q.send message = .refused := if_pos h

theorem send_of_full (hopen : q.closed = false) (hfull : q.full = true) :
    q.send message = .wait := by
  simp only [send, hopen, hfull, Bool.false_eq_true, ↓reduceIte]

theorem send_of_room (hopen : q.closed = false) (hroom : q.full = false) :
    q.send message = .done (q.push message) := by
  simp only [send, hopen, hroom, Bool.false_eq_true, ↓reduceIte]

theorem sendOrDrop_of_room (hopen : q.closed = false) (hroom : q.full = false) :
    q.sendOrDrop message = some (q.push message) := by
  simp only [sendOrDrop, hopen, hroom, Bool.or_self, Bool.false_eq_true, ↓reduceIte]

/-- A message is dropped where the queue is closed or full. -/
theorem sendOrDrop_eq_none (h : ¬(q.closed = false ∧ q.full = false)) :
    q.sendOrDrop message = none := by
  refine if_pos ?_
  rw [Bool.or_eq_true]
  rcases hclosed : q.closed with _ | _
  · exact Or.inr (Bool.not_eq_false _ ▸ fun hfull => h ⟨hclosed, hfull⟩)
  · exact Or.inl rfl

/-- `send` adds a message where it finds room. -/
theorem full_of_send {q' : BlockingQueue T} (h : q.send message = .done q') : q.full = false := by
  rw [send] at h
  split_ifs at h with _ hfull
  exact Bool.not_eq_true _ ▸ hfull

/-- `send` waits where it finds no room. -/
theorem full_of_send_eq_wait (h : q.send message = .wait) : q.full = true := by
  rw [send] at h
  split_ifs at h with _ hfull
  exact hfull

theorem full_of_sendWithTimeout_eq_wait {timeout : ℕ}
    (h : q.sendWithTimeout message timeout = .wait) : q.full = true := by
  rw [sendWithTimeout] at h
  split_ifs at h
  · cases hdrop : q.sendOrDrop message with
    | none => exact nomatch hdrop ▸ h
    | some queue => exact nomatch hdrop ▸ h
  · exact full_of_send_eq_wait h

/-- `send_with_timeout` adds a message where it finds room. -/
theorem full_of_sendWithTimeout {q' : BlockingQueue T} {timeout : ℕ}
    (h : q.sendWithTimeout message timeout = .done q') : q.full = false := by
  rw [sendWithTimeout] at h
  split_ifs at h
  · cases hdrop : q.sendOrDrop message with
    | none => exact nomatch hdrop ▸ h
    | some queue =>
      rw [sendOrDrop] at hdrop
      split_ifs at hdrop with hbusy
      rw [Bool.or_eq_true, not_or] at hbusy
      exact Bool.not_eq_true _ ▸ hbusy.2
  · exact full_of_send h

/-- The message that `send_with_timeout` adds is the last one. -/
theorem push_of_sendWithTimeout {q' : BlockingQueue T} {timeout : ℕ}
    (h : q.sendWithTimeout message timeout = .done q') : q' = q.push message := by
  rw [sendWithTimeout, sendOrDrop, send] at h
  split_ifs at h <;> cases h <;> rfl

theorem sendWithTimeout_of_closed {timeout : ℕ} (h : q.closed = true) :
    q.sendWithTimeout message timeout = .refused := by
  rw [sendWithTimeout, send_of_closed h, sendOrDrop, h, Bool.true_or, if_pos rfl, ite_self]

end BlockingQueue

end TellerOBC
