import Mathlib.Data.UInt
import TellerOBC.Lcl.ResetLimits

/-!
# The recovery of an LCL

The reset counter of an LCL is cleared when it is sampled in its nominal state and its last reset
lies ten seconds back. What was sampled in between does not count: a trigger while the LCL is not
inspected is not noticed, and one that goes away before the next reset leaves the time of the last
reset as it is.

## Main definitions

* `TellerOBC.Lcl.Recovers`: an update clears the counter of an LCL as recovered.
* `TellerOBC.Lcl.UntriggeredFor`: the samples before an update.
* `TellerOBC.Lcl.KeepsNominal`: an update that ignores no trigger.

## Main results

* `TellerOBC.Lcl.recovers_after_period`.
-/

namespace TellerOBC

namespace Lcl

open StepSystem (run Meets run_cons_eq_some invariant_history meets_true)

/-! ### Recoveries -/

/-- The update clears the reset counter of the LCL, together with the time of its last reset, and
finds it in its nominal state. -/
def Recovers (i : Lcl) (s : State) (input : Input) : Prop :=
  input.lo = true ∧ 0 < (s.autoReset i).lastResetAt ∧
    (updateAutoResetLogic s input).2.autoReset i = ⟨.on, 0, 0, 0⟩

/-- Every update after a time sampled the LCL as untriggered. -/
def UntriggeredSince (i : Lcl) (past : List Input) (since : ℕ) : Prop :=
  ∀ input ∈ past, since < input.now.toNat → input.lo = true ∧ input.triggered i = false

/-- Every update in the recovery period before the last one, and the last one itself, sampled the
LCL as untriggered. -/
def UntriggeredFor (i : Lcl) (past : List Input) (last : Input) : Prop :=
  ∀ input ∈ past ++ [last], last.now.toNat < input.now.toNat + 10000 →
    input.lo = true ∧ input.triggered i = false

/-- The update does not sample a trigger after the reset of an LCL that is not inspected yet, and
does not sample an LCL that waits for its next reset as untriggered within the recovery period after
the previous update. -/
def KeepsNominal (i : Lcl) (c : Clocked) (input : Input) : Prop :=
  input.lo = true →
    ((c.state.autoReset i).state = .triedRecently → input.triggered i = true →
      input.now = (c.state.autoReset i).lastResetAt) ∧
    ((c.state.autoReset i).state = .waiting → 0 < (c.state.autoReset i).lastResetAt →
      input.triggered i = false → c.now.toNat + 10000 ≤ input.now.toNat)

section

variable {i : Lcl} {c d : Clocked} {input : Input} {past : List Input}

/-- A recovery is the transition of that name. -/
theorem Recovers.elim (h : Recovers i c.state input) (hconsistent : Consistent i c)
    (hstep : step c input = some d) :
    (c.state.autoReset i).state = .on ∧ input.triggered i = false ∧
      (c.state.autoReset i).lastResetAt.toNat + 10000 ≤ input.now.toNat := by
  obtain ⟨hlo, hpos, hreset⟩ := h
  obtain ⟨-, hnow, -⟩ := step_eq_some hstep
  have hliftoff : c.state.lastLiftoffStartedAtMsec ≠ 0 := by
    intro hzero
    rw [hconsistent.cleared hzero] at hpos
    exact absurd hpos (by decide)
  obtain ⟨reset, -, -, hmove⟩ := update_of_takeoff i hlo hliftoff
  rw [hreset] at hmove
  generalize hb : (⟨.on, 0, 0, 0⟩ : AutoReset) = b at hmove
  cases hmove with
  | recover hstate htriggered _ hperiod =>
    exact ⟨hstate, htriggered,
      add_le_of_le_sub (UInt32.le_trans hconsistent.valid.lastResetAt_le hnow) hperiod⟩
  | giveUp | wait | reset => exact nomatch congrArg AutoReset.state hb
  | abandon | inspect | stay =>
    exact absurd hpos (by rw [← congrArg AutoReset.lastResetAt hb]; decide)

/-! ### Runs that ignore no trigger -/

theorem UntriggeredSince.concat {since : ℕ} (h : UntriggeredSince i past since)
    (hinput : since < input.now.toNat → input.lo = true ∧ input.triggered i = false) :
    UntriggeredSince i (past ++ [input]) since := by
  intro u hu
  rcases List.mem_append.mp hu with hu | hu
  · exact h u hu
  · rw [List.mem_singleton.mp hu]
    exact hinput

/-- What holds after a run that ignores no trigger. While the LCL is not inspected, it has been
untriggered since its reset. While it is in its nominal state after a reset, it has been untriggered
since the reset or for the recovery period. -/
structure Nominal (i : Lcl) (past : List Input) (c : Clocked) : Prop where
  consistent : Consistent i c
  now_le : ∀ input ∈ past, input.now ≤ c.now
  triedRecently : (c.state.autoReset i).state = .triedRecently →
    UntriggeredSince i past (c.state.autoReset i).lastResetAt.toNat
  on : (c.state.autoReset i).state = .on → 0 < (c.state.autoReset i).lastResetAt →
    ∃ since, UntriggeredSince i past since ∧
      (since ≤ (c.state.autoReset i).lastResetAt.toNat ∨ since + 10000 ≤ c.now.toNat)

theorem nominal_init (i : Lcl) : Nominal i [] .init :=
  ⟨consistent_init i, nofun, nofun, nofun⟩

/-- A transition after the detection of the liftoff. -/
theorem Nominal.moves {b : AutoReset} {reset : Bool} (h : Nominal i past c) (hlo : input.lo = true)
    (hnow : c.now ≤ input.now) (hkeeps : KeepsNominal i c input)
    (hmove : (c.state.autoReset i).Moves (input.triggered i) input.now reset b) :
    (b.state = .triedRecently → UntriggeredSince i (past ++ [input]) b.lastResetAt.toNat) ∧
      (b.state = .on → 0 < b.lastResetAt → ∃ since, UntriggeredSince i (past ++ [input]) since ∧
        (since ≤ b.lastResetAt.toNat ∨ since + 10000 ≤ input.now.toNat)) := by
  have htime := UInt32.le_iff_toNat_le.mp hnow
  have hpast : ∀ u ∈ past, u.now.toNat ≤ c.now.toNat :=
    fun u hu => UInt32.le_iff_toNat_le.mp (h.now_le u hu)
  obtain ⟨hignored, habandoned⟩ := hkeeps hlo
  cases hmove with
  | giveUp | wait | recover => exact ⟨nofun, nofun⟩
  | abandon hstate htriggered =>
    refine ⟨nofun, fun _ hpos => ⟨c.now.toNat, ?_, Or.inr (habandoned hstate hpos htriggered)⟩⟩
    refine UntriggeredSince.concat (fun u hu hlt => ?_) fun _ => ⟨hlo, htriggered⟩
    exact absurd (hpast u hu) (Nat.not_le.mpr hlt)
  | reset =>
    refine ⟨fun _ => UntriggeredSince.concat (fun u hu hlt => ?_) fun hlt => ?_, nofun⟩
    · exact absurd ((hpast u hu).trans htime) (Nat.not_le.mpr hlt)
    · exact absurd hlt (Nat.lt_irrefl _)
  | inspect hstate hdelay =>
    have hle := add_le_of_le_sub (UInt32.le_trans h.consistent.valid.lastResetAt_le hnow) hdelay
    change _ + 3000 ≤ _ at hle
    have huntriggered : input.triggered i = false := by
      cases htriggered : input.triggered i with
      | false => rfl
      | true =>
        rw [hignored hstate htriggered] at hle
        omega
    exact ⟨nofun, fun _ _ => ⟨_, (h.triedRecently hstate).concat fun _ => ⟨hlo, huntriggered⟩,
      Or.inl (Nat.le_refl _)⟩⟩
  | stay hon hwaiting =>
    refine ⟨fun hstate => (h.triedRecently hstate).concat fun hlt => ⟨hlo, ?_⟩,
      fun hstate hpos => ?_⟩
    · cases htriggered : input.triggered i with
      | false => rfl
      | true =>
        rw [hignored hstate htriggered] at hlt
        exact absurd hlt (Nat.lt_irrefl _)
    · obtain ⟨since, huntriggered, hsince⟩ := h.on hstate hpos
      exact ⟨since, huntriggered.concat fun _ => ⟨hlo, hon hstate⟩,
        hsince.imp id fun hle => hle.trans htime⟩

/-- An update that ignores no trigger. -/
theorem Nominal.step (h : Nominal i past c) (hkeeps : KeepsNominal i c input)
    (hstep : Lcl.step c input = some d) : Nominal i (past ++ [input]) d := by
  have hconsistent := h.consistent.step hstep
  obtain ⟨-, hnow, rfl⟩ := step_eq_some hstep
  have hpast : ∀ u ∈ past ++ [input], u.now ≤ input.now := by
    intro u hu
    rcases List.mem_append.mp hu with hu | hu
    · exact UInt32.le_trans (h.now_le u hu) hnow
    · rw [List.mem_singleton.mp hu]
      exact UInt32.le_refl _
  have hmoves : ((updateAutoResetLogic c.state input).2.autoReset i).lastResetAt = 0 ∧
      ((updateAutoResetLogic c.state input).2.autoReset i).state ≠ .triedRecently ∨
      input.lo = true ∧ c.state.lastLiftoffStartedAtMsec ≠ 0 := by
    cases hlo : input.lo with
    | false =>
      rw [(update_of_lo_eq_false i hlo h.consistent.cleared).2.2]
      exact Or.inl ⟨rfl, nofun⟩
    | true =>
      by_cases hliftoff : c.state.lastLiftoffStartedAtMsec = 0
      · rw [(update_of_detection i hlo hliftoff).2.2, AutoReset.atLiftoff]
        refine Or.inl ⟨rfl, ?_⟩
        dsimp only
        split_ifs <;> nofun
      · exact Or.inr ⟨rfl, hliftoff⟩
  rcases hmoves with ⟨hreset, hstate⟩ | ⟨hlo, hliftoff⟩
  · refine ⟨hconsistent, hpast, fun h => absurd h hstate, fun _ hpos => ?_⟩
    dsimp only at hpos
    rw [hreset] at hpos
    exact absurd hpos (by decide)
  · obtain ⟨reset, -, -, hmove⟩ := update_of_takeoff i hlo hliftoff
    obtain ⟨htried, hon⟩ := h.moves hlo hnow hkeeps hmove
    exact ⟨hconsistent, hpast, htried, hon⟩

theorem nominal_run {inputs : List Input} (h : Nominal i past c)
    (hkeeps : Meets step (KeepsNominal i) c inputs) (hrun : run step c inputs = some d) :
    Nominal i (past ++ inputs) d :=
  invariant_history (fun _ _ _ _ h hkeeps hstep => Nominal.step h hkeeps hstep) h hkeeps hrun

/-- A recovery after a run that ignores no trigger. -/
theorem Nominal.untriggeredFor (h : Nominal i past c) (hrecovers : Recovers i c.state input)
    (hstep : Lcl.step c input = some d) : UntriggeredFor i past input := by
  obtain ⟨hon, htriggered, hperiod⟩ := hrecovers.elim h.consistent hstep
  obtain ⟨since, huntriggered, hsince⟩ := h.on hon hrecovers.2.1
  obtain ⟨-, hnow, -⟩ := step_eq_some hstep
  have htime := UInt32.le_iff_toNat_le.mp hnow
  intro u hu hlt
  exact huntriggered.concat (fun _ => ⟨hrecovers.1, htriggered⟩) u hu (by omega)

/-! ### Triggers that are ignored -/

/-- What a state says about the updates before it, after any run. -/
structure Noted (i : Lcl) (past : List Input) (c : Clocked) : Prop where
  consistent : Consistent i c
  triedRecently : (c.state.autoReset i).state = .triedRecently →
    0 < (c.state.autoReset i).lastResetAt
  waiting : (c.state.autoReset i).state = .waiting →
    ∃ input ∈ past, input.now = c.now ∧ input.triggered i = true
  since : 0 < (c.state.autoReset i).lastResetAt →
    SinceReset (c.state.autoReset i).lastResetAt.toNat c.now (c.state.autoReset i)

theorem noted_init (i : Lcl) : Noted i [] .init :=
  ⟨consistent_init i, nofun, nofun, nofun⟩

theorem Noted.moves {b : AutoReset} {reset : Bool} (h : Noted i past c) (hpos : 0 < input.now)
    (hnow : c.now ≤ input.now)
    (hmove : (c.state.autoReset i).Moves (input.triggered i) input.now reset b) :
    (b.state = .triedRecently → 0 < b.lastResetAt) ∧
      (b.state = .waiting → input.triggered i = true) ∧
      (0 < b.lastResetAt → SinceReset b.lastResetAt.toNat input.now b) := by
  have hsince : ∀ {b : AutoReset}, b.lastResetAt = (c.state.autoReset i).lastResetAt →
      (c.state.autoReset i).Moves (input.triggered i) input.now false b →
      0 < b.lastResetAt → SinceReset b.lastResetAt.toNat input.now b := by
    intro b heq hmove hreset
    rw [heq] at hreset ⊢
    exact (h.since hreset).moves h.consistent.valid hnow hmove
  cases hmove with
  | giveUp h₁ h₂ h₃ => exact ⟨nofun, nofun, hsince rfl (.giveUp h₁ h₂ h₃)⟩
  | wait h₁ h₂ h₃ => exact ⟨nofun, fun _ => h₂, hsince rfl (.wait h₁ h₂ h₃)⟩
  | recover => exact ⟨nofun, nofun, fun hreset => absurd hreset (by decide)⟩
  | abandon h₁ h₂ => exact ⟨nofun, nofun, hsince rfl (.abandon h₁ h₂)⟩
  | reset h₁ h₂ h₃ => exact ⟨fun _ => hpos, nofun, fun _ => .of_reset (.reset h₁ h₂ h₃)⟩
  | inspect h₁ h₂ => exact ⟨nofun, nofun, hsince rfl (.inspect h₁ h₂)⟩
  | stay h₁ h₂ => exact ⟨h.triedRecently, h₂, hsince rfl (.stay h₁ h₂)⟩

theorem Noted.step (h : Noted i past c) (hstep : Lcl.step c input = some d) :
    Noted i (past ++ [input]) d := by
  have hconsistent := h.consistent.step hstep
  obtain ⟨hpos, hnow, rfl⟩ := step_eq_some hstep
  cases hlo : input.lo with
  | false =>
    obtain ⟨-, -, hreset⟩ := update_of_lo_eq_false i hlo h.consistent.cleared
    refine ⟨hconsistent, ?_, ?_, ?_⟩ <;> dsimp only <;> rw [hreset]
    · exact nofun
    · exact nofun
    · exact fun hpos => absurd hpos (by decide)
  | true =>
    by_cases hliftoff : c.state.lastLiftoffStartedAtMsec = 0
    · obtain ⟨-, -, hreset⟩ := update_of_detection i hlo hliftoff
      refine ⟨hconsistent, ?_, ?_, ?_⟩ <;> dsimp only <;> rw [hreset, AutoReset.atLiftoff]
      · split_ifs <;> exact nofun
      · split_ifs <;> exact nofun
      · exact fun hpos => absurd hpos (UInt32.lt_irrefl 0)
    · obtain ⟨reset, -, -, hmove⟩ := update_of_takeoff i hlo hliftoff
      obtain ⟨htried, hwaiting, hsince⟩ := h.moves hpos hnow hmove
      exact ⟨hconsistent, htried, fun hstate => ⟨input, List.mem_append_right _ List.mem_cons_self,
        rfl, hwaiting hstate⟩, hsince⟩

theorem noted_run {inputs : List Input} (h : Noted i past c)
    (hrun : run step c inputs = some d) : Noted i (past ++ inputs) d :=
  invariant_history (fun _ _ _ _ h _ hstep => Noted.step h hstep) h (meets_true c inputs) hrun

/-- An update after liftoff that samples all LCLs as untriggered, at the end of the recovery period
after a reset. -/
def recoveryUpdate (now resetAt : UInt32) : Input :=
  .uniform false (if now ≤ resetAt + 10000 then resetAt + 10000 else now)

theorem toNat_now_recoveryUpdate (now : UInt32) {resetAt : UInt32}
    (hroom : resetAt.toNat + 10000 < 2 ^ 32) :
    (recoveryUpdate now resetAt).now.toNat = max now.toNat (resetAt.toNat + 10000) := by
  have hsum : (resetAt + 10000).toNat = resetAt.toNat + 10000 := by
    rw [UInt32.toNat_add]
    exact Nat.mod_eq_of_lt hroom
  change (if now ≤ resetAt + 10000 then resetAt + 10000 else now).toNat = _
  by_cases hle : now ≤ resetAt + 10000
  · rw [if_pos hle, hsum]
    rw [UInt32.le_iff_toNat_le] at hle
    omega
  · rw [if_neg hle]
    rw [UInt32.le_iff_toNat_le] at hle
    omega

section

variable {resetAt : UInt32} (hliftoff : c.state.lastLiftoffStartedAtMsec ≠ 0)
  (hreset : (c.state.autoReset i).lastResetAt = resetAt) (hroom : resetAt.toNat + 10000 < 2 ^ 32)

include hliftoff hreset hroom

/-- An LCL in its nominal state that was reset is taken as recovered after the recovery period. -/
theorem recovers_recoveryUpdate (hstate : (c.state.autoReset i).state = .on) (hpos : 0 < resetAt)
    (now : UInt32) : Recovers i c.state (recoveryUpdate now resetAt) := by
  have hnow := toNat_now_recoveryUpdate now hroom
  have hperiod : recoveryPeriodMsec ≤ (recoveryUpdate now resetAt).now - resetAt := by
    have hle : resetAt ≤ (recoveryUpdate now resetAt).now := by
      rw [UInt32.le_iff_toNat_le]
      omega
    rw [UInt32.le_iff_toNat_le, UInt32.toNat_sub_of_le _ _ hle]
    change 10000 ≤ _
    omega
  refine ⟨rfl, hreset ▸ hpos, ?_⟩
  rw [(autoReset_update_of_takeoff i rfl hliftoff).2, AutoReset.afterTakeoff, hstate]
  dsimp only
  rw [hreset, if_neg (show ¬ (recoveryUpdate now resetAt).triggered i = true from
    Bool.false_ne_true), if_pos ⟨hpos, hperiod⟩]

/-- An LCL that is not inspected is inspected at that time. -/
theorem autoReset_recoveryUpdate (hstate : (c.state.autoReset i).state = .triedRecently)
    (now : UInt32) :
    ((updateAutoResetLogic c.state (recoveryUpdate now resetAt)).2.autoReset i).state = .on ∧
      ((updateAutoResetLogic c.state (recoveryUpdate now resetAt)).2.autoReset i).lastResetAt =
        resetAt := by
  have hnow := toNat_now_recoveryUpdate now hroom
  have hdelay : delayAfterAutoResetMsec ≤ (recoveryUpdate now resetAt).now - resetAt := by
    have hle : resetAt ≤ (recoveryUpdate now resetAt).now := by
      rw [UInt32.le_iff_toNat_le]
      omega
    rw [UInt32.le_iff_toNat_le, UInt32.toNat_sub_of_le _ _ hle]
    change 3000 ≤ _
    omega
  rw [(autoReset_update_of_takeoff i rfl hliftoff).2, AutoReset.afterTakeoff, hstate]
  dsimp only
  rw [hreset, if_pos hdelay]
  exact ⟨rfl, rfl⟩

/-- The run can go on to a recovery at the end of the recovery period after the reset. -/
theorem exists_recovers (hpos : 0 < resetAt)
    (hstate : (c.state.autoReset i).state = .on ∨
      (c.state.autoReset i).state = .triedRecently) :
    ∃ rest e last, run step c rest = some e ∧ (step e last).isSome ∧ Recovers i e.state last ∧
      last.now.toNat = max c.now.toNat (resetAt.toNat + 10000) := by
  have hnow := fun now => toNat_now_recoveryUpdate now hroom
  have henabled : ∀ e : Clocked, (step e (recoveryUpdate e.now resetAt)).isSome := by
    intro e
    rw [step, if_pos]
    · rfl
    · rw [UInt32.lt_iff_toNat_lt, UInt32.le_iff_toNat_le, hnow]
      change 0 < _ ∧ _
      omega
  rcases hstate with hstate | hstate
  · exact ⟨[], c, _, rfl, henabled c, recovers_recoveryUpdate hliftoff hreset hroom hstate hpos _,
      hnow c.now⟩
  · obtain ⟨e, he⟩ := Option.isSome_iff_exists.mp (henabled c)
    obtain ⟨hon, hreset'⟩ := autoReset_recoveryUpdate hliftoff hreset hroom hstate c.now
    have hliftoff' := (autoReset_update_of_takeoff i
      (show (recoveryUpdate c.now resetAt).lo = true from rfl) hliftoff).1.trans_ne hliftoff
    obtain ⟨-, -, rfl⟩ := step_eq_some he
    refine ⟨[recoveryUpdate c.now resetAt], _, _, run_cons_eq_some.mpr ⟨_, he, rfl⟩, henabled _,
      recovers_recoveryUpdate hliftoff' hreset' hroom hon hpos _, ?_⟩
    rw [hnow]
    dsimp only
    rw [hnow]
    omega

end

/-- A trigger that is ignored can be followed by a recovery within the recovery period. -/
theorem Noted.exists_recovers (h : Noted i past c) (hstep : Lcl.step c input = some d)
    (hkeeps : ¬ KeepsNominal i c input)
    (hroom : (c.state.autoReset i).lastResetAt.toNat + 10000 < 2 ^ 32) :
    ∃ rest e last, run Lcl.step c (input :: rest) = some e ∧ (Lcl.step e last).isSome ∧
      Recovers i e.state last ∧ ¬ UntriggeredFor i (past ++ input :: rest) last := by
  have hrun : ∀ rest e, run Lcl.step d rest = some e →
      run Lcl.step c (input :: rest) = some e :=
    fun rest e he => run_cons_eq_some.mpr ⟨d, hstep, he⟩
  obtain ⟨-, hnow, rfl⟩ := step_eq_some hstep
  have htime := UInt32.le_iff_toNat_le.mp hnow
  have hresetAt := UInt32.le_iff_toNat_le.mp h.consistent.valid.lastResetAt_le
  have hlo : input.lo = true := by
    by_contra hlow
    exact hkeeps fun hhigh => absurd hhigh hlow
  have hliftoff : c.state.lastLiftoffStartedAtMsec ≠ 0 := by
    intro hzero
    refine hkeeps fun _ => ?_
    rw [h.consistent.cleared hzero]
    exact ⟨nofun, nofun⟩
  obtain ⟨reset, -, hstarted, hmove⟩ := update_of_takeoff i hlo hliftoff
  have hliftoff' := hstarted.trans_ne hliftoff
  cases hstate : (c.state.autoReset i).state with
  | triedRecently =>
    obtain ⟨htriggered, hne⟩ : input.triggered i = true ∧
        input.now ≠ (c.state.autoReset i).lastResetAt := by
      simpa [KeepsNominal, hlo, hstate] using hkeeps
    have hlt : (c.state.autoReset i).lastResetAt.toNat ≠ input.now.toNat :=
      fun heq => hne (UInt32.toNat_inj.mp heq.symm)
    obtain ⟨hreset, hnext⟩ :
        ((updateAutoResetLogic c.state input).2.autoReset i).lastResetAt =
          (c.state.autoReset i).lastResetAt ∧
        (((updateAutoResetLogic c.state input).2.autoReset i).state = .on ∨
          ((updateAutoResetLogic c.state input).2.autoReset i).state = .triedRecently) := by
      generalize (updateAutoResetLogic c.state input).2.autoReset i = b at hmove
      cases hmove with
      | inspect => exact ⟨rfl, Or.inl rfl⟩
      | stay => exact ⟨rfl, Or.inr hstate⟩
      | giveUp h | wait h | recover h | abandon h | reset h => exact nomatch hstate.symm.trans h
    obtain ⟨rest, e, last, hrest, henabled, hrecovers, hlast⟩ :=
      Lcl.exists_recovers (i := i) (c := ⟨(updateAutoResetLogic c.state input).2, input.now⟩)
        hliftoff' hreset hroom (h.triedRecently hstate) hnext
    refine ⟨rest, e, last, hrun rest e hrest, henabled, hrecovers, fun hfor => ?_⟩
    have huntriggered := (hfor input (by simp) (by dsimp only at hlast; omega)).2
    exact nomatch htriggered.symm.trans huntriggered
  | waiting =>
    obtain ⟨hpos, huntriggered, hlt⟩ : 0 < (c.state.autoReset i).lastResetAt ∧
        input.triggered i = false ∧ input.now.toNat < c.now.toNat + 10000 := by
      simpa [KeepsNominal, hlo, hstate] using hkeeps
    obtain ⟨u, hu, hunow, htriggered⟩ := h.waiting hstate
    have htrigger := UInt32.le_iff_toNat_le.mp h.consistent.valid.lastTriggerAt_le
    have hdelay := (h.since hpos).waiting hstate
    obtain ⟨hreset, hnext⟩ :
        ((updateAutoResetLogic c.state input).2.autoReset i).lastResetAt =
          (c.state.autoReset i).lastResetAt ∧
        ((updateAutoResetLogic c.state input).2.autoReset i).state = .on := by
      generalize (updateAutoResetLogic c.state input).2.autoReset i = b at hmove
      cases hmove with
      | abandon => exact ⟨rfl, rfl⟩
      | stay _ hwaiting => exact nomatch huntriggered.symm.trans (hwaiting hstate)
      | reset _ h => exact nomatch huntriggered.symm.trans h
      | giveUp h | wait h | recover h | inspect h => exact nomatch hstate.symm.trans h
    obtain ⟨rest, e, last, hrest, henabled, hrecovers, hlast⟩ :=
      Lcl.exists_recovers (i := i) (c := ⟨(updateAutoResetLogic c.state input).2, input.now⟩)
        hliftoff' hreset hroom hpos (Or.inl hnext)
    refine ⟨rest, e, last, hrun rest e hrest, henabled, hrecovers, fun hfor => ?_⟩
    have huntriggered' := (hfor u (List.mem_append_left _ (List.mem_append_left _ hu))
      (by rw [hunow]; dsimp only at hlast; omega)).2
    exact nomatch htriggered.symm.trans huntriggered'
  | disabled | off | on | givenUp =>
    refine absurd (fun _ => ⟨fun h => ?_, fun h => ?_⟩) hkeeps
    all_goals exact nomatch hstate.symm.trans h

/-- **Recovery after the recovery period.** In a run whose updates ignore no trigger of an LCL, its
reset counter is cleared as recovered only if all samples in the recovery period before were
untriggered. This is sharp: after any run, an update that ignores a trigger can be followed by a
recovery with a triggered sample in the period, as long as the clock does not overflow. -/
theorem recovers_after_period (i : Lcl) (past : List Input) (c : Clocked) (input : Input)
    (hrun : run Lcl.step .init past = some c) (henabled : (Lcl.step c input).isSome) :
    (Meets Lcl.step (KeepsNominal i) .init past → Recovers i c.state input →
      UntriggeredFor i past input) ∧
    (¬ KeepsNominal i c input → (c.state.autoReset i).lastResetAt.toNat + 10000 < 2 ^ 32 →
      ∃ rest e last, run Lcl.step c (input :: rest) = some e ∧ (Lcl.step e last).isSome ∧
        Recovers i e.state last ∧ ¬ UntriggeredFor i (past ++ input :: rest) last) := by
  obtain ⟨d, hstep⟩ := Option.isSome_iff_exists.mp henabled
  refine ⟨fun hkeeps hrecovers => ?_, fun hkeeps hroom => ?_⟩
  · exact (nominal_run (nominal_init i) hkeeps hrun).untriggeredFor hrecovers hstep
  · exact (noted_run (noted_init i) hrun).exists_recovers hstep hkeeps hroom

end

instance (i : Lcl) (c : Clocked) (input : Input) : Decidable (KeepsNominal i c input) :=
  inferInstanceAs (Decidable (_ → _))

instance (i : Lcl) (s : State) (input : Input) : Decidable (Recovers i s input) :=
  inferInstanceAs (Decidable (_ ∧ _))

instance (i : Lcl) (past : List Input) (last : Input) : Decidable (UntriggeredFor i past last) :=
  List.decidableBAll ..

/-- An LCL that is untriggered after its reset recovers. -/
theorem recovers_after_period_of_untriggered :
    ∃ c, run step .init [.uniform false 1, .uniform true 1000, .uniform true 4000,
        .uniform false 7000, .uniform false 10000] = some c ∧
      Recovers .camLcl c.state (.uniform false 14000) ∧
      UntriggeredFor .camLcl [.uniform false 1, .uniform true 1000, .uniform true 4000,
        .uniform false 7000, .uniform false 10000] (.uniform false 14000) := by
  refine ⟨_, rfl, by decide, (recovers_after_period .camLcl _ _ _ rfl (by decide)).1 ?_ (by decide)⟩
  exact .cons (by decide) rfl <| .cons (by decide) rfl <| .cons (by decide) rfl <|
    .cons (by decide) rfl <| .cons (by decide) rfl trivial

/-- An LCL that is triggered one second before. -/
theorem recovers_despite_trigger :
    ∃ c, run step .init [.uniform false 1, .uniform true 1000, .uniform true 4000,
        .uniform false 7000, .uniform true 13000, .uniform false 13100] = some c ∧
      (step c (.uniform false 14000)).isSome ∧ (c.state.autoReset .camLcl).resetCounter = 1 ∧
      Recovers .camLcl c.state (.uniform false 14000) ∧
      ¬ UntriggeredFor .camLcl [.uniform false 1, .uniform true 1000, .uniform true 4000,
        .uniform false 7000, .uniform true 13000, .uniform false 13100] (.uniform false 14000) :=
  ⟨_, rfl, by decide, rfl, by decide, by decide⟩

end Lcl

end TellerOBC
