import TellerOBC.Foundations.ConditionVariable
import TellerOBC.Foundations.StepSystem
import TellerOBC.Hal.TimedWaits

/-!
# Concurrent calls on event flags

Any number of calls of `set`, `clear`, `waitAll` and `waitAny` on the event flags of
`hal/posix/event_flags.hpp`. A call holds the mutex except while it waits on `changed_event`, and
all calls that wait are notified whenever the flags change in `set` or `clear`. A wait that ends
does not notify, and a wait can end without a notification, also because its timeout expired.

## Main definitions

* `TellerOBC.EventFlags.set`, `TellerOBC.EventFlags.clear`.
* `TellerOBC.EventFlagThreads`, `TellerOBC.EventFlagThreads.step`: the flags with the calls that
  wait for them.

## Main results

* `TellerOBC.EventFlagThreads.wakes_run`: no call sleeps on while its flags are set, and no flag is
  lost or taken twice.
-/

namespace TellerOBC

namespace EventFlags

/-- `set`: its result and `current` after it. -/
def set (current flags : UInt32) : UInt32 × UInt32 :=
  if !checkValidFlags flags then (osFlagsErrorParameter, current)
  else (current ||| flags, current ||| flags)

/-- `clear`: its result and `current` after it. -/
def clear (current flags : UInt32) : UInt32 × UInt32 :=
  if !checkValidFlags flags then (osFlagsErrorParameter, current)
  else (current, current &&& ~~~flags)

end EventFlags

/-- A call of `waitAll` or `waitAny`. -/
inductive FlagWait where
  | all (flags : UInt32)
  | any (flags : UInt32)
  deriving DecidableEq, Repr

namespace FlagWait

/-- The flags of the call. -/
def flags : FlagWait → UInt32
  | .all flags | .any flags => flags

/-- The loop of the call is left. -/
def met (current : UInt32) : FlagWait → Bool
  | .all flags => current &&& flags = flags
  | .any flags => current &&& flags ≠ 0

end FlagWait

/-- Event flags with the calls that wait for them, and what the calls did. -/
structure EventFlagThreads where
  current : UInt32 := 0
  changedEvent : CondVar FlagWait := {}
  /-- The flags that the calls of `set` raised. -/
  raised : List UInt32 := []
  /-- The flags that the calls of `clear` lowered. -/
  cleared : List UInt32 := []
  /-- The waiting calls that returned, with their results. -/
  finished : List (FlagWait × UInt32) := []

/-- The steps of the calls. -/
inductive EventFlagAction where
  | set (flags : UInt32)
  | clear (flags : UInt32)
  | wait (call : FlagWait)
  /-- The call `j` of those that were woken gets the mutex. -/
  | resume (j : ℕ)
  /-- A wait ends without a notification. -/
  | wake (i : ℕ)
  deriving DecidableEq, Repr

namespace EventFlagThreads

open StepSystem

variable (s : EventFlagThreads)

/-- Store the flags, and notify all if they changed. -/
def change (current : UInt32) : EventFlagThreads :=
  { s with
    current := current
    changedEvent := if current ≠ s.current then s.changedEvent.notifyAll else s.changedEvent }

/-- A waiting call that holds the mutex looks at the flags. It waits, or takes its flags. -/
def look (call : FlagWait) : EventFlagThreads :=
  if call.met s.current then
    { s with
      current := s.current &&& ~~~call.flags
      finished := s.finished ++ [(call, s.current)] }
  else { s with changedEvent := s.changedEvent.wait call }

/-- The steps. -/
def step (s : EventFlagThreads) : EventFlagAction → Option EventFlagThreads
  | .set flags =>
    some { s.change (EventFlags.set s.current flags).2 with
      raised := s.raised ++ [(EventFlags.set s.current flags).2 &&& ~~~s.current] }
  | .clear flags =>
    some { s.change (EventFlags.clear s.current flags).2 with
      cleared := s.cleared ++ [s.current &&& ~~~(EventFlags.clear s.current flags).2] }
  | .wait call => some (if !EventFlags.checkValidFlags call.flags then s else s.look call)
  | .resume j =>
    (s.changedEvent.resume j).map fun (call, event) => { s with changedEvent := event }.look call
  | .wake i => (s.changedEvent.wake i).map fun event => { s with changedEvent := event }

/-! ### Single flags -/

/-- The flags contain the flag of bit `b`. -/
def hasFlag (b : ℕ) (flags : UInt32) : Bool := flags.toBitVec.getLsbD b

@[simp] theorem hasFlag_or (b : ℕ) (x y : UInt32) :
    hasFlag b (x ||| y) = (hasFlag b x || hasFlag b y) := by
  simp only [hasFlag, UInt32.toBitVec_or, BitVec.getLsbD_or]

@[simp] theorem hasFlag_and (b : ℕ) (x y : UInt32) :
    hasFlag b (x &&& y) = (hasFlag b x && hasFlag b y) := by
  simp only [hasFlag, UInt32.toBitVec_and, BitVec.getLsbD_and]

theorem hasFlag_and_not (b : ℕ) (x y : UInt32) :
    hasFlag b (x &&& ~~~y) = (hasFlag b x && !hasFlag b y) := by
  simp only [hasFlag, UInt32.toBitVec_and, UInt32.toBitVec_not, BitVec.getLsbD_and,
    BitVec.getLsbD_not]
  cases hx : x.toBitVec.getLsbD b with
  | false => rfl
  | true => simp [BitVec.lt_of_getLsbD hx]

theorem hasFlag_zero (b : ℕ) : hasFlag b 0 = false := BitVec.getLsbD_zero

/-- Two sets of flags with the same bits are equal. -/
theorem eq_of_hasFlag {x y : UInt32} (h : ∀ b, hasFlag b x = hasFlag b y) : x = y :=
  UInt32.toBitVec_inj.mp (BitVec.eq_of_getLsbD_eq fun b _ => h b)

/-- The flag is set in how many of them. -/
def countFlag (b : ℕ) (flags : List UInt32) : ℕ := flags.countP (hasFlag b)

theorem countFlag_concat (b : ℕ) (flags : List UInt32) (x : UInt32) :
    countFlag b (flags ++ [x]) = countFlag b flags + (hasFlag b x).toNat := by
  rw [countFlag, List.countP_append, List.countP_singleton]
  cases hasFlag b x <;> rfl

/-- A flag that is there now and was not before. -/
theorem toNat_and_not {x y : Bool} (h : x = true → y = true) :
    (y && !x).toNat + x.toNat = y.toNat := by
  cases x with
  | false => simp only [Bool.not_false, Bool.and_true, Bool.toNat_false, Nat.add_zero]
  | true => rw [h rfl]; rfl

/-- `set` lowers no flag. -/
theorem hasFlag_set (b : ℕ) (current flags : UInt32)
    (h : hasFlag b current = true) : hasFlag b (EventFlags.set current flags).2 = true := by
  rw [EventFlags.set]
  split_ifs
  · exact h
  · rw [hasFlag_or, h, Bool.true_or]

/-- `clear` raises no flag. -/
theorem hasFlag_of_clear (b : ℕ) (current flags : UInt32)
    (h : hasFlag b (EventFlags.clear current flags).2 = true) : hasFlag b current = true := by
  rw [EventFlags.clear] at h
  split_ifs at h
  · exact h
  · rw [hasFlag_and_not, Bool.and_eq_true] at h
    exact h.1

theorem met_all_iff {current flags : UInt32} : (FlagWait.all flags).met current = true ↔
    ∀ b, hasFlag b flags = true → hasFlag b current = true := by
  rw [FlagWait.met, decide_eq_true_iff]
  constructor
  · intro h b hb
    rw [← h, hasFlag_and, Bool.and_eq_true] at hb
    exact hb.1
  · intro h
    refine eq_of_hasFlag fun b => ?_
    rw [hasFlag_and]
    cases hb : hasFlag b flags with
    | false => exact Bool.and_false _
    | true => rw [h b hb, Bool.and_self]

theorem met_any_iff {current flags : UInt32} : (FlagWait.any flags).met current = true ↔
    ∃ b, hasFlag b flags = true ∧ hasFlag b current = true := by
  rw [FlagWait.met, decide_eq_true_iff]
  constructor
  · intro h
    by_contra hnone
    refine h (eq_of_hasFlag fun b => ?_)
    rw [hasFlag_and, hasFlag_zero, Bool.and_eq_false_iff]
    cases hb : hasFlag b current with
    | false => exact Or.inl rfl
    | true => exact Or.inr (Bool.not_eq_true _ ▸ fun hflags => hnone ⟨b, hflags, hb⟩)
  · rintro ⟨b, hflags, hcurrent⟩ hzero
    have hb : hasFlag b (current &&& flags) = false := by rw [hzero, hasFlag_zero]
    rw [hasFlag_and, hcurrent, hflags] at hb
    exact absurd hb Bool.true_eq_false_eq_False

/-- A call that would go on with fewer flags would go on with more. -/
theorem met_mono {x y : UInt32} (h : ∀ b, hasFlag b x = true → hasFlag b y = true)
    {call : FlagWait} (hmet : call.met x = true) : call.met y = true := by
  cases call with
  | all flags =>
    rw [met_all_iff] at hmet ⊢
    exact fun b hb => h b (hmet b hb)
  | any flags =>
    rw [met_any_iff] at hmet ⊢
    obtain ⟨b, hflags, hx⟩ := hmet
    exact ⟨b, hflags, h b hx⟩

/-- All calls still wait when the flags have changed. -/
theorem perm_change (current : UInt32) :
    (s.change current).changedEvent.waiters.Perm s.changedEvent.waiters := by
  rw [change]
  split_ifs
  · exact CondVar.perm_notifyAll _
  · exact List.Perm.refl _

theorem look_of_met {call : FlagWait} (h : call.met s.current = true) : s.look call =
    { s with
      current := s.current &&& ~~~call.flags
      finished := s.finished ++ [(call, s.current)] } := if_pos h

theorem look_of_not_met {call : FlagWait} (h : ¬call.met s.current = true) :
    s.look call = { s with changedEvent := s.changedEvent.wait call } := if_neg h

/-! ### Runs -/

/-- The flags that a finished call took. -/
def taken (result : FlagWait × UInt32) : UInt32 := result.2 &&& result.1.flags

/-- No sleeping call could go on, the finished calls could, and each flag that was raised is still
set, or was lowered, or was taken by one call. -/
structure Sound (s : EventFlagThreads) : Prop where
  blocked : s.changedEvent.Blocked fun call => call.met s.current = true
  met : ∀ result ∈ s.finished, result.1.met result.2 = true
  counted : ∀ b, countFlag b s.raised = countFlag b (s.finished.map taken) +
    countFlag b s.cleared + (hasFlag b s.current).toNat

variable {s} {t : EventFlagThreads}

theorem sound_start : Sound {} :=
  ⟨fun _ hx => absurd hx List.not_mem_nil, fun _ hx => absurd hx List.not_mem_nil,
    fun b => by rw [hasFlag_zero]; rfl⟩

namespace Sound

/-- Flags that change wake up all calls. -/
theorem blocked_change (h : Sound s) (current : UInt32) :
    (s.change current).changedEvent.Blocked fun call => call.met current = true := by
  rw [change]
  split_ifs with hne
  · exact CondVar.blocked_notifyAll _ _
  · rw [not_ne_iff.mp hne]
    exact h.blocked

/-- A call that looks at the flags takes them or waits. -/
theorem look (h : Sound s) (call : FlagWait) : Sound (s.look call) := by
  by_cases hmet : call.met s.current = true
  · rw [look_of_met s hmet]
    refine ⟨h.blocked.mono fun other hother => met_mono (fun b hb => ?_) hother, ?_, fun b => ?_⟩
    · rw [hasFlag_and_not, Bool.and_eq_true] at hb
      exact hb.1
    · intro result hresult
      rcases List.mem_append.mp hresult with hold | hnew
      · exact h.met result hold
      · rwa [List.mem_singleton.mp hnew]
    · rw [List.map_append, List.map_singleton, countFlag_concat, hasFlag_and_not, taken,
        hasFlag_and, h.counted b]
      cases hasFlag b s.current <;> cases hasFlag b call.flags <;> simp only [Bool.and_true,
        Bool.and_false, Bool.not_true, Bool.not_false, Bool.toNat_true, Bool.toNat_false]
      all_goals omega
  · rw [look_of_not_met s hmet]
    exact ⟨h.blocked.wait hmet, h.met, h.counted⟩

theorem step (h : Sound s) (a : EventFlagAction) (hstep : s.step a = some t) : Sound t := by
  cases a with
  | set flags =>
    obtain rfl := Option.some.inj hstep
    refine ⟨h.blocked_change _, h.met, fun b => ?_⟩
    have hraised := toNat_and_not (hasFlag_set b s.current flags)
    simp only [change, countFlag_concat, hasFlag_and_not]
    rw [h.counted b, Nat.add_assoc, Nat.add_comm (hasFlag b s.current).toNat, hraised]
  | clear flags =>
    obtain rfl := Option.some.inj hstep
    refine ⟨h.blocked_change _, h.met, fun b => ?_⟩
    have hlowered := toNat_and_not (hasFlag_of_clear b s.current flags)
    simp only [change, countFlag_concat, hasFlag_and_not]
    rw [h.counted b, ← hlowered, Nat.add_assoc, Nat.add_assoc, Nat.add_assoc]
  | wait call =>
    obtain rfl := Option.some.inj hstep
    split_ifs
    · exact h
    · exact h.look call
  | resume j =>
    obtain ⟨⟨call, event⟩, hresume, rfl⟩ := Option.map_eq_some_iff.mp hstep
    exact Sound.look (s := { s with changedEvent := event })
      ⟨h.blocked.resume hresume, h.met, h.counted⟩ call
  | wake i =>
    obtain ⟨event, hevent, rfl⟩ := Option.map_eq_some_iff.mp hstep
    exact ⟨h.blocked.wake hevent, h.met, h.counted⟩

end Sound

theorem sound_run {actions : List EventFlagAction} (hrun : run step {} actions = some s) :
    Sound s :=
  invariant_visits_of_step (fun _ a _ h hstep => h.step a hstep) sound_start (visits_of_run hrun)

/-- **Event flags wake up who waits for them, and are taken once**, however the calls interleave and
whenever waits end by themselves: a call that has not returned though its flags are set is woken,
each call that returned found its flags set, and each flag was raised as often as it was taken by a
call and lowered by `clear`, and once more if it is set. -/
theorem wakes_run {actions : List EventFlagAction} (hrun : run step {} actions = some s) :
    (∀ call ∈ s.changedEvent.waiters, call.met s.current = true →
      call ∈ s.changedEvent.woken) ∧
    (∀ result ∈ s.finished, result.1.met result.2 = true) ∧
    ∀ b, countFlag b s.raised = countFlag b (s.finished.map taken) + countFlag b s.cleared +
      (hasFlag b s.current).toNat := by
  have h := sound_run hrun
  refine ⟨fun call hcall hmet => ?_, h.met, h.counted⟩
  rcases List.mem_append.mp hcall with hsleeping | hwoken
  · exact absurd hmet (h.blocked call hsleeping)
  · exact hwoken

/-- Two calls wait for the same flag, and one of them takes it. -/
theorem flags_of_two_waits :
    ∃ s, run step {} [.wait (.any 1), .wait (.any 3), .set 1, .resume 1, .resume 0] = some s ∧
      s.finished = [(.any 3, 1)] ∧ s.changedEvent.sleeping = [.any 1] ∧
      countFlag 0 s.raised = countFlag 0 (s.finished.map taken) + countFlag 0 s.cleared +
        (hasFlag 0 s.current).toNat := by
  have hrun : run step {} [.wait (.any 1), .wait (.any 3), .set 1, .resume 1, .resume 0] =
      some (_ : EventFlagThreads) := rfl
  exact ⟨_, rfl, by decide, by decide, (wakes_run hrun).2.2 0⟩

end EventFlagThreads

end TellerOBC
