import TellerOBC.Foundations.StepSystem

/-!
# The queues under supervision

`QueueRegistration` and `checkQueues` of `modules/supervisor.cpp`: a registration is meant to own a
slot of a table, through its token, while it is alive. `registerQueue` goes on after it has filled a
free slot, so that it fills all of them, and it never returns a token. The table then keeps the
queue that was registered first.

Queues are pointers of an arbitrary type. What they hold and their limits are given to each check.
The log messages are left out.

## Main definitions

* `TellerOBC.Supervisor.registerQueue`, `unregisterQueue`, `checkQueues`.
* `TellerOBC.Supervisor.QueueRegistry`, `TellerOBC.Supervisor.QueueRegistry.step`: the table with
  the registrations that are alive.
* `TellerOBC.Supervisor.QueueRegistry.Sound`: what the registrations are for.

## Main results

* `TellerOBC.Supervisor.QueueRegistry.checkQueues_run`: only the first queue is checked.
* `TellerOBC.Supervisor.QueueRegistry.sound_iff_no_registration`: when registrations do what they
  are for.
-/

namespace TellerOBC.Supervisor

/-! ### The table -/

/-- `MAX_QUEUES`. -/
def maxQueues : ℕ := 8

/-- `INVALID_TOKEN`. -/
def invalidToken : UInt8 := 255

/-- A slot: `queue_stats_t`. Null pointers are `none`. -/
structure QueueStats (Q : Type*) where
  name : Option String
  queue : Option Q
  highWaterMark : ℕ
  deriving DecidableEq, Repr

/-- `queue_stats`. -/
abbrev QueueTable (Q : Type*) := Vector (QueueStats Q) maxQueues

variable {Q : Type*}

namespace QueueStats

/-- A slot of zeros. -/
def free : QueueStats Q := ⟨none, none, 0⟩

/-- `isQueueValid`. -/
def isQueueValid (stats : QueueStats Q) : Bool := stats.name.isSome

end QueueStats

/-- `registerQueue`: the token, and the new table. -/
def registerQueue (table : QueueTable Q) : Option String → Option Q → UInt8 × QueueTable Q
  | some name, some queue =>
    -- The loop does not end at a free slot.
    (invalidToken, table.map fun stats =>
      if stats.isQueueValid then stats else { stats with name := some name, queue := some queue })
  | _, _ => (invalidToken, table)

/-- `unregisterQueue`, with `getQueueFromToken`. -/
def unregisterQueue (table : QueueTable Q) (token : UInt8) : QueueTable Q :=
  if h : token.toNat < maxQueues then table.set token.toNat .free h else table

/-- One slot in `checkQueues`: whether its queue is not full, and the new slot. The number of items
is truncated to eight bits. -/
def checkQueue (size limit : Q → ℕ) (stats : QueueStats Q) : Bool × QueueStats Q :=
  match stats.isQueueValid, stats.queue with
  | true, some queue =>
    let items := (UInt8.ofNat (size queue)).toNat
    (items < limit queue, { stats with highWaterMark := max stats.highWaterMark items })
  | _, _ => (true, stats)

/-- `checkQueues`: the result, and the new table. -/
def checkQueues (table : QueueTable Q) (size limit : Q → ℕ) : Bool × QueueTable Q :=
  (table.all fun stats => (checkQueue size limit stats).1,
    table.map fun stats => (checkQueue size limit stats).2)

/-! ### Runs -/

/-- A registration: its token, with the name and the queue it was constructed with. -/
structure QueueRegistration (Q : Type*) where
  token : UInt8
  name : Option String
  queue : Option Q
  deriving DecidableEq, Repr

/-- The registration is one of a queue under a name. -/
def QueueRegistration.Registers (r : QueueRegistration Q) (queue : Q) : Prop :=
  r.name.isSome = true ∧ r.queue = some queue

/-- The table, and the registrations that are alive. -/
structure QueueRegistry (Q : Type*) where
  table : QueueTable Q
  alive : List (QueueRegistration Q)
  deriving DecidableEq, Repr

namespace QueueRegistry

open StepSystem (run Visits invariant_history meets_true meets_iff_forall_mem
  forall_visits_iff_meets visits_of_run)

/-- What can happen: a registration is constructed, the registration at an index is destroyed, or
the queues are checked. -/
inductive Action (Q : Type*) where
  | construct (name : Option String) (queue : Option Q)
  | destroy (index : ℕ)
  | checkQueues (size limit : Q → ℕ)

/-- The name and the queue of a registration that is constructed with both. -/
def Action.registered : Action Q → Option (String × Q)
  | .construct (some name) (some queue) => some (name, queue)
  | _ => none

/-- The table of zeros. -/
def new : QueueRegistry Q := ⟨.replicate maxQueues .free, []⟩

/-- A step. At most eight registrations are alive. -/
def step (s : QueueRegistry Q) : Action Q → Option (QueueRegistry Q)
  | .construct name queue =>
    if s.alive.length < maxQueues then
      let registered := registerQueue s.table name queue
      some ⟨registered.2, ⟨registered.1, name, queue⟩ :: s.alive⟩
    else none
  | .destroy index =>
    s.alive[index]?.map fun r => ⟨unregisterQueue s.table r.token, s.alive.eraseIdx index⟩
  | .checkQueues size limit =>
    some { s with table := (Supervisor.checkQueues s.table size limit).2 }

/-- What the registrations are for: they own different slots, which hold their queues and are freed
with them, and a check fails exactly if one of their queues is full. -/
structure Sound (s : QueueRegistry Q) : Prop where
  token_ne : ∀ r ∈ s.alive, ∀ queue, r.Registers queue → r.token ≠ invalidToken
  distinct : s.alive.Pairwise fun r r' => ∀ queue queue', r.Registers queue →
    r'.Registers queue' → r.token ≠ r'.token
  owns : ∀ r ∈ s.alive, ∀ queue, r.Registers queue → ∃ stats,
    s.table[r.token.toNat]? = some stats ∧ stats.name = r.name ∧ stats.queue = some queue
  frees : ∀ r ∈ s.alive, ∀ queue, r.Registers queue → ∃ h : r.token.toNat < maxQueues,
    unregisterQueue s.table r.token = s.table.set r.token.toNat .free h
  checks : ∀ size limit : Q → ℕ,
    (∀ r ∈ s.alive, ∀ queue, r.Registers queue → limit queue ≤ 255) →
    ((Supervisor.checkQueues s.table size limit).1 = false ↔
      ∃ r ∈ s.alive, ∃ queue, r.Registers queue ∧ limit queue ≤ size queue)

/-! ### What the table holds -/

/-- All slots hold a name and a queue, or are free, and no registration has a token. -/
structure Filled (first : Option (String × Q)) (s : QueueRegistry Q) : Prop where
  table : ∀ stats ∈ s.table,
    stats.name = first.map Prod.fst ∧ stats.queue = first.map Prod.snd
  token_eq : ∀ r ∈ s.alive, r.token = invalidToken

section

variable {first : Option (String × Q)} {s t : QueueRegistry Q}

theorem filled_new : Filled none (new : QueueRegistry Q) := by
  refine ⟨fun stats hstats => ?_, nofun⟩
  rw [(Vector.mem_replicate.mp hstats).2]
  exact ⟨rfl, rfl⟩

/-- A registration fills the slots if they are free, and gets no token. -/
theorem Filled.construct (h : Filled first s) {name : Option String} {queue : Option Q}
    (hstep : step s (.construct name queue) = some t) :
    Filled (first.or (Action.construct name queue).registered) t := by
  rw [step, Option.ite_none_right_eq_some, Option.some.injEq] at hstep
  obtain ⟨-, rfl⟩ := hstep
  cases name with
  | none =>
    rw [show first.or (Action.construct none queue).registered = first from Option.or_none]
    exact ⟨h.table, List.forall_mem_cons.mpr ⟨rfl, h.token_eq⟩⟩
  | some name =>
    cases queue with
    | none =>
      rw [show first.or (Action.construct (some name) none).registered = first from Option.or_none]
      exact ⟨h.table, List.forall_mem_cons.mpr ⟨rfl, h.token_eq⟩⟩
    | some queue =>
      refine ⟨fun stats hstats => ?_, List.forall_mem_cons.mpr ⟨rfl, h.token_eq⟩⟩
      obtain ⟨before, hbefore, rfl⟩ := Vector.mem_map.mp hstats
      obtain ⟨hname, hqueue⟩ := h.table before hbefore
      rw [QueueStats.isQueueValid, hname]
      cases first with
      | none => exact ⟨rfl, rfl⟩
      | some registered => exact ⟨hname, hqueue⟩

/-- No slot is freed. -/
theorem Filled.destroy (h : Filled first s) {index : ℕ}
    (hstep : step s (.destroy index) = some t) : Filled first t := by
  obtain ⟨r, hr, rfl⟩ := Option.map_eq_some_iff.mp hstep
  rw [h.token_eq r (List.mem_of_getElem? hr)]
  exact ⟨h.table, fun r' hr' => h.token_eq r' (List.mem_of_mem_eraseIdx hr')⟩

/-- A check leaves the queues in their slots. -/
theorem Filled.checkQueues (h : Filled first s) (size limit : Q → ℕ) :
    Filled first { s with table := (Supervisor.checkQueues s.table size limit).2 } := by
  refine ⟨fun stats hstats => ?_, h.token_eq⟩
  obtain ⟨before, hbefore, rfl⟩ := Vector.mem_map.mp hstats
  rw [checkQueue]
  split <;> exact h.table before hbefore

theorem filled_step (h : Filled first s) {a : Action Q} (hstep : step s a = some t) :
    Filled (first.or a.registered) t := by
  cases a with
  | construct name queue => exact h.construct hstep
  | destroy index =>
    rw [show first.or (Action.destroy index).registered = first from Option.or_none]
    exact h.destroy hstep
  | checkQueues size limit =>
    obtain rfl := Option.some.inj hstep
    rw [show first.or (Action.checkQueues size limit).registered = first from Option.or_none]
    exact h.checkQueues size limit

/-- After every run, all slots hold the queue that was registered first, if there is one. -/
theorem filled_run {actions : List (Action Q)} (hrun : run step new actions = some s) :
    Filled (actions.findSome? Action.registered) s := by
  have hnew : Filled (List.findSome? Action.registered []) (new : QueueRegistry Q) := filled_new
  refine invariant_history
    (J := fun past (s : QueueRegistry Q) => Filled (past.findSome? Action.registered) s)
    (fun past _ a _ h _ hstep => ?_) hnew (meets_true _ actions) hrun
  rw [List.findSome?_append, List.findSome?_singleton]
  exact filled_step h hstep

/-- A check fails exactly if the queue that was registered first is full, in eight bits. -/
theorem Filled.checkQueues_eq_false (h : Filled first s) (size limit : Q → ℕ) :
    (Supervisor.checkQueues s.table size limit).1 = false ↔
      ∃ registered ∈ first, limit registered.2 ≤ (UInt8.ofNat (size registered.2)).toNat := by
  have hslot : ∀ stats ∈ s.table, (checkQueue size limit stats).1 = false ↔
      ∃ registered ∈ first, limit registered.2 ≤ (UInt8.ofNat (size registered.2)).toNat := by
    intro stats hstats
    obtain ⟨hname, hqueue⟩ := h.table stats hstats
    rw [checkQueue, QueueStats.isQueueValid, hname, hqueue]
    cases first <;> simp
  rw [Supervisor.checkQueues, Vector.all_eq_false']
  constructor
  · rintro ⟨stats, hstats, hfull⟩
    exact (hslot stats hstats).mp (Bool.not_eq_true _ ▸ hfull)
  · intro hfull
    have hmem : s.table[0] ∈ s.table := Vector.getElem_mem _
    exact ⟨_, hmem, Bool.not_eq_true _ ▸ (hslot _ hmem).mpr hfull⟩

/-- **A check fails exactly if the queue that was registered first is full**, whichever
registrations are alive. -/
theorem checkQueues_run {actions : List (Action Q)} (hrun : run step new actions = some s)
    (size limit : Q → ℕ) :
    (Supervisor.checkQueues s.table size limit).1 = false ↔
      ∃ registered ∈ actions.findSome? Action.registered,
        limit registered.2 ≤ (UInt8.ofNat (size registered.2)).toNat :=
  (filled_run hrun).checkQueues_eq_false size limit

/-! ### Registrations -/

/-- No queue was registered. -/
structure Unregistered (s : QueueRegistry Q) : Prop where
  filled : Filled none s
  not_registers : ∀ r ∈ s.alive, ∀ queue, ¬r.Registers queue

theorem Unregistered.sound (h : Unregistered s) : Sound s := by
  refine ⟨fun r hr queue hqueue => absurd hqueue (h.not_registers r hr queue), ?_,
    fun r hr queue hqueue => absurd hqueue (h.not_registers r hr queue),
    fun r hr queue hqueue => absurd hqueue (h.not_registers r hr queue), fun size limit _ => ?_⟩
  · exact List.pairwise_of_forall_mem_list fun r hr _ _ queue _ hqueue =>
      absurd hqueue (h.not_registers r hr queue)
  · rw [h.filled.checkQueues_eq_false]
    refine ⟨nofun, ?_⟩
    rintro ⟨r, hr, queue, hqueue, -⟩
    exact absurd hqueue (h.not_registers r hr queue)

theorem Unregistered.step (h : Unregistered s) {a : Action Q} (ha : a.registered = none)
    (hstep : QueueRegistry.step s a = some t) : Unregistered t := by
  have hfilled := filled_step h.filled hstep
  rw [ha, Option.or_none] at hfilled
  refine ⟨hfilled, ?_⟩
  cases a with
  | construct name queue =>
    rw [QueueRegistry.step, Option.ite_none_right_eq_some, Option.some.injEq] at hstep
    obtain ⟨-, rfl⟩ := hstep
    refine List.forall_mem_cons.mpr ⟨fun q hq => ?_, h.not_registers⟩
    obtain ⟨hname, hqueue⟩ := hq
    obtain ⟨name, rfl⟩ := Option.isSome_iff_exists.mp hname
    obtain rfl := hqueue
    exact nomatch ha
  | destroy index =>
    obtain ⟨r, hr, rfl⟩ := Option.map_eq_some_iff.mp hstep
    exact fun r' hr' => h.not_registers r' (List.mem_of_mem_eraseIdx hr')
  | checkQueues size limit =>
    obtain rfl := Option.some.inj hstep
    exact h.not_registers

/-- A queue that is registered gets no token. -/
theorem not_sound_of_registered {a : Action Q} (ha : a.registered ≠ none)
    (hstep : step s a = some t) : ¬Sound t := by
  obtain ⟨⟨name, queue⟩, ha⟩ := Option.ne_none_iff_exists'.mp ha
  cases a with
  | construct name' queue' =>
    rw [step, Option.ite_none_right_eq_some, Option.some.injEq] at hstep
    obtain ⟨-, rfl⟩ := hstep
    cases name' with
    | none => exact nomatch ha
    | some name' =>
      cases queue' with
      | none => exact nomatch ha
      | some queue' =>
        exact fun h => h.token_ne _ List.mem_cons_self queue' ⟨rfl, rfl⟩ rfl
  | destroy | checkQueues => exact nomatch ha

/-- **Registrations do what they are for** in all states of a run exactly if no queue is registered
in it. -/
theorem sound_iff_no_registration {actions : List (Action Q)}
    (hrun : run step new actions = some s) :
    (∀ t, Visits step new actions t → Sound t) ↔ ∀ a ∈ actions, a.registered = none := by
  refine Iff.trans (forall_visits_iff_meets (fun _ (h : Unregistered _) => h.sound)
    (fun _ _ _ h ha hstep => h.step ha hstep)
    (fun _ _ _ _ ha hstep => not_sound_of_registered ha hstep) ⟨filled_new, nofun⟩) ?_
  exact meets_iff_forall_mem hrun

end

/-- A registration without a queue, and a check. -/
theorem sound_of_no_registration :
    ∃ s : QueueRegistry ℕ, run step new [.construct (some "cmd") none, .checkQueues id id,
      .destroy 0] = some s ∧ Sound s := by
  have hrun : run step (new : QueueRegistry ℕ) [.construct (some "cmd") none,
      .checkQueues id id, .destroy 0] = some _ := rfl
  exact ⟨_, rfl, (sound_iff_no_registration hrun).mpr (by decide) _ (visits_of_run rfl)⟩

/-- Two queues have the same token, and no check finds that the second one is full. -/
theorem not_sound_of_two_registrations :
    ∃ s : QueueRegistry ℕ, run step new [.construct (some "cmd") (some 0),
        .construct (some "uartTx") (some 1)] = some s ∧
      s.alive.map QueueRegistration.token = [invalidToken, invalidToken] ∧
      (Supervisor.checkQueues s.table (fun queue => 8 * queue) fun _ => 8).1 = true ∧
      ¬Sound s := by
  refine ⟨_, rfl, rfl, by decide +kernel, fun h => ?_⟩
  exact h.token_ne _ List.mem_cons_self 1 ⟨rfl, rfl⟩ rfl

end QueueRegistry

end TellerOBC.Supervisor
