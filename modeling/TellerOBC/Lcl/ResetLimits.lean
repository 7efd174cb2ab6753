import TellerOBC.Lcl.AutoReset

/-!
# The limits of automatic resets

An LCL that was reset is not inspected for a while, and a triggered one is not reset for a while
either. Both delays lie between two resets. The reset counter goes up with every reset, and a reset
needs a counter below ten.

## Main definitions

* `TellerOBC.Lcl.SinceReset`: what the state of an LCL says about the time since its last reset.
* `TellerOBC.Lcl.KeepsCounter`: an update does not clear the reset counter.

## Main results

* `TellerOBC.Lcl.isChain_autoResetTimes`: the delay between two resets.
* `TellerOBC.Lcl.autoResetTimes_eq_nil`: an LCL that is not reset any more.
* `TellerOBC.Lcl.length_autoResetTimes_add_le`: the number of resets.
* `TellerOBC.Lcl.autoReset_limits`.
-/

namespace TellerOBC

namespace Lcl

open StepSystem (run Meets run_cons_eq_some)

/-- A reading that lies a period after another one. -/
theorem add_le_of_le_sub {period now since : UInt32} (hle : since ≤ now)
    (h : period ≤ now - since) : since.toNat + period.toNat ≤ now.toNat := by
  rw [UInt32.le_iff_toNat_le, UInt32.toNat_sub_of_le _ _ hle] at h
  rw [UInt32.le_iff_toNat_le] at hle
  omega

/-! ### The delay between two resets -/

/-- The LCL was reset last at some time. -/
structure SinceReset (resetAt : ℕ) (now : UInt32) (a : AutoReset) : Prop where
  triedRecently : a.state = .triedRecently → a.lastResetAt.toNat = resetAt
  on : a.state = .on → resetAt + 3000 ≤ now.toNat
  waiting : a.state = .waiting → resetAt + 3000 ≤ a.lastTriggerAt.toNat

namespace SinceReset

variable {a b : AutoReset} {triggered : Bool} {now now' : UInt32} {resetAt : ℕ}

/-- A transition without a reset. -/
theorem moves (h : SinceReset resetAt now a) (hvalid : a.Valid now) (hnow : now ≤ now')
    (hmove : a.Moves triggered now' false b) : SinceReset resetAt now' b := by
  have htime := UInt32.le_iff_toNat_le.mp hnow
  cases hmove with
  | giveUp => exact ⟨nofun, nofun, nofun⟩
  | wait hstate => exact ⟨nofun, nofun, fun _ => (h.on hstate).trans htime⟩
  | recover hstate => exact ⟨nofun, fun _ => (h.on hstate).trans htime, nofun⟩
  | abandon hstate =>
    refine ⟨nofun, fun _ => ?_, nofun⟩
    have htrigger := UInt32.le_iff_toNat_le.mp hvalid.lastTriggerAt_le
    have hwaiting := h.waiting hstate
    omega
  | inspect hstate hdelay =>
    refine ⟨nofun, fun _ => ?_, nofun⟩
    have hle := add_le_of_le_sub (UInt32.le_trans hvalid.lastResetAt_le hnow) hdelay
    rwa [h.triedRecently hstate] at hle
  | stay => exact ⟨h.triedRecently, fun hstate => (h.on hstate).trans htime, h.waiting⟩

/-- A reset comes after both delays. -/
theorem add_le_of_reset (h : SinceReset resetAt now a) (hvalid : a.Valid now) (hnow : now ≤ now')
    (hmove : a.Moves triggered now' true b) : resetAt + 6000 ≤ now'.toNat := by
  cases hmove with
  | reset hstate _ hdelay =>
    have hle := add_le_of_le_sub (UInt32.le_trans hvalid.lastTriggerAt_le hnow) hdelay
    have hwaiting := h.waiting hstate
    change a.lastTriggerAt.toNat + 3000 ≤ now'.toNat at hle
    omega

theorem of_reset (hmove : a.Moves triggered now' true b) : SinceReset now'.toNat now' b := by
  cases hmove with
  | reset => exact ⟨fun _ => rfl, nofun, nofun⟩

end SinceReset

section

variable {i : Lcl} {inputs : List Input} {c d : Clocked}

/-- After a reset, the next ones follow at a distance while the LO signal is high. -/
theorem isChain_cons_autoResetTimes (hconsistent : Consistent i c)
    (hliftoff : c.state.lastLiftoffStartedAtMsec ≠ 0) {resetAt : ℕ}
    (hsince : SinceReset resetAt c.now (c.state.autoReset i))
    (hlo : ∀ input ∈ inputs, input.lo = true) (hrun : run step c inputs = some d) :
    (resetAt :: autoResetTimes i c.state inputs).IsChain fun t u => t + 6000 ≤ u := by
  induction inputs generalizing c resetAt with
  | nil => exact .singleton _
  | cons input inputs ih =>
    obtain ⟨c', hstep, hrest⟩ := run_cons_eq_some.mp hrun
    have hconsistent' := hconsistent.step hstep
    obtain ⟨-, hnow, rfl⟩ := step_eq_some hstep
    obtain ⟨reset, hmem, hstarted, hmove⟩ :=
      update_of_takeoff i (hlo input List.mem_cons_self) hliftoff
    have hlo' : ∀ input ∈ inputs, input.lo = true :=
      fun input h => hlo input (List.mem_cons_of_mem _ h)
    have hliftoff' := hstarted.trans_ne hliftoff
    rw [autoResetTimes]
    cases reset with
    | false =>
      rw [if_neg (fun h => Bool.false_ne_true (hmem.mp h)), List.nil_append]
      exact ih hconsistent' hliftoff' (hsince.moves hconsistent.valid hnow hmove) hlo' hrest
    | true =>
      rw [if_pos (hmem.mpr rfl), List.singleton_append]
      exact .cons_cons (hsince.add_le_of_reset hconsistent.valid hnow hmove)
        (ih hconsistent' hliftoff' (SinceReset.of_reset hmove) hlo' hrest)

/-- **The delay between two resets.** -/
theorem isChain_autoResetTimes (hconsistent : Consistent i c)
    (hlo : ∀ input ∈ inputs, input.lo = true) (hrun : run step c inputs = some d) :
    (autoResetTimes i c.state inputs).IsChain fun t u => t + 6000 ≤ u := by
  induction inputs generalizing c with
  | nil => exact .nil
  | cons input inputs ih =>
    obtain ⟨c', hstep, hrest⟩ := run_cons_eq_some.mp hrun
    have hconsistent' := hconsistent.step hstep
    obtain ⟨-, hnow, rfl⟩ := step_eq_some hstep
    have hhigh := hlo input List.mem_cons_self
    have hlo' : ∀ input ∈ inputs, input.lo = true :=
      fun input h => hlo input (List.mem_cons_of_mem _ h)
    rw [autoResetTimes]
    by_cases hliftoff : c.state.lastLiftoffStartedAtMsec = 0
    · rw [if_neg (update_of_detection i hhigh hliftoff).1, List.nil_append]
      exact ih hconsistent' hlo' hrest
    · obtain ⟨reset, hmem, hstarted, hmove⟩ := update_of_takeoff i hhigh hliftoff
      cases reset with
      | false =>
        rw [if_neg (fun h => Bool.false_ne_true (hmem.mp h)), List.nil_append]
        exact ih hconsistent' hlo' hrest
      | true =>
        rw [if_pos (hmem.mpr rfl), List.singleton_append]
        exact isChain_cons_autoResetTimes hconsistent' (hstarted.trans_ne hliftoff)
          (SinceReset.of_reset hmove) hlo' hrest

/-! ### LCLs that are not reset any more -/

/-- An LCL that is off or given up stays so while the LO signal is high. -/
theorem autoResetTimes_eq_nil (hliftoff : c.state.lastLiftoffStartedAtMsec ≠ 0)
    (hstate : (c.state.autoReset i).state = .off ∨ (c.state.autoReset i).state = .givenUp)
    (hlo : ∀ input ∈ inputs, input.lo = true) (hrun : run step c inputs = some d) :
    autoResetTimes i c.state inputs = [] := by
  induction inputs generalizing c with
  | nil => rfl
  | cons input inputs ih =>
    obtain ⟨c', hstep, hrest⟩ := run_cons_eq_some.mp hrun
    obtain ⟨-, -, rfl⟩ := step_eq_some hstep
    obtain ⟨reset, hmem, hstarted, hmove⟩ :=
      update_of_takeoff i (hlo input List.mem_cons_self) hliftoff
    have hstay : reset = false ∧
        (updateAutoResetLogic c.state input).2.autoReset i = c.state.autoReset i := by
      generalize (updateAutoResetLogic c.state input).2.autoReset i = b at hmove
      cases hmove with
      | stay => exact ⟨rfl, rfl⟩
      | giveUp h | wait h | recover h | abandon h | reset h | inspect h =>
        rcases hstate with hstate | hstate <;> exact nomatch hstate.symm.trans h
    rw [autoResetTimes, if_neg (fun h => Bool.false_ne_true (hstay.1.symm.trans (hmem.mp h))),
      List.nil_append]
    exact ih (hstarted.trans_ne hliftoff) (by rwa [hstay.2])
      (fun input h => hlo input (List.mem_cons_of_mem _ h)) hrest

/-- An LCL that is triggered when the liftoff is detected is not reset. -/
theorem autoResetTimes_eq_nil_of_detection {input : Input}
    (hliftoff : c.state.lastLiftoffStartedAtMsec = 0) (htriggered : input.triggered i = true)
    (hbooted : input.wasBootedAfterLiftoff i = false)
    (hlo : ∀ input' ∈ input :: inputs, input'.lo = true)
    (hrun : run step c (input :: inputs) = some d) :
    autoResetTimes i c.state (input :: inputs) = [] := by
  obtain ⟨c', hstep, hrest⟩ := run_cons_eq_some.mp hrun
  obtain ⟨hpos, -, rfl⟩ := step_eq_some hstep
  obtain ⟨hnot, hstarted, hreset⟩ :=
    update_of_detection i (hlo input List.mem_cons_self) hliftoff
  rw [htriggered, hbooted] at hreset
  rw [autoResetTimes, if_neg hnot, List.nil_append]
  refine autoResetTimes_eq_nil (hstarted.trans_ne (UInt32.ne_of_lt hpos).symm) (Or.inl ?_)
    (fun input' h => hlo input' (List.mem_cons_of_mem _ h)) hrest
  dsimp only
  rw [hreset]
  rfl

/-! ### The number of resets -/

/-- The update does not clear the reset counter: it is not lower afterwards. -/
def KeepsCounter (i : Lcl) (c : Clocked) (input : Input) : Prop :=
  (c.state.autoReset i).resetCounter ≤
    ((updateAutoResetLogic c.state input).2.autoReset i).resetCounter

/-- The resets between two clearings of the counter are counted. -/
theorem length_autoResetTimes_add_le (hconsistent : Consistent i c)
    (hkeeps : Meets step (KeepsCounter i) c inputs) (hrun : run step c inputs = some d) :
    (autoResetTimes i c.state inputs).length + (c.state.autoReset i).resetCounter.toNat ≤
      (d.state.autoReset i).resetCounter.toNat := by
  induction inputs generalizing c with
  | nil =>
    obtain rfl := Option.some.inj hrun
    exact (Nat.zero_add _).le
  | cons input inputs ih =>
    obtain ⟨c', hstep, hrest⟩ := run_cons_eq_some.mp hrun
    have hle := ih (hconsistent.step hstep) (hkeeps.2 c' hstep) hrest
    have hkeep := UInt8.le_iff_toNat_le.mp hkeeps.1
    obtain ⟨-, hnow, rfl⟩ := step_eq_some hstep
    rw [autoResetTimes, List.length_append]
    suffices hcount : (if i ∈ (updateAutoResetLogic c.state input).1 then
        [input.now.toNat] else []).length + (c.state.autoReset i).resetCounter.toNat ≤
          ((updateAutoResetLogic c.state input).2.autoReset i).resetCounter.toNat by
      dsimp only at hle
      omega
    split_ifs with hmem
    · cases hlo : input.lo with
      | false => exact absurd hmem (update_of_lo_eq_false i hlo hconsistent.cleared).1
      | true =>
        by_cases hliftoff : c.state.lastLiftoffStartedAtMsec = 0
        · exact absurd hmem (update_of_detection i hlo hliftoff).1
        · obtain ⟨reset, hreset, -, hmove⟩ := update_of_takeoff i hlo hliftoff
          obtain rfl : reset = true := hreset.mp hmem
          generalize (updateAutoResetLogic c.state input).2.autoReset i = b at hmove
          cases hmove with
          | reset hstate =>
            have hlt := hconsistent.valid.resetCounter_lt hstate
            rw [List.length_singleton, UInt8.toNat_add]
            change 1 + _ ≤ ((c.state.autoReset i).resetCounter.toNat + 1) % 256
            omega
    · rw [List.length_nil, Nat.zero_add]
      exact hkeep

/-- **The limits of automatic resets.** After every run the reset counter of an LCL is at most ten,
and lower while a reset is pending. While the LO signal is high, two resets of the LCL are six
seconds apart, and an LCL that is given up, or was triggered when the liftoff was detected, is not
reset. Between two clearings of its counter, the LCL is reset at most ten times. The time of a reset
is the reading of the clock in its update; the pulse of 100 ms that follows is left out. -/
theorem autoReset_limits (i : Lcl) (before inputs : List Input) (c d : Clocked)
    (hc : run step .init before = some c) (hd : run step c inputs = some d) :
    ((d.state.autoReset i).resetCounter.toNat ≤ 10 ∧
      ((d.state.autoReset i).state = .waiting → (d.state.autoReset i).resetCounter.toNat < 10)) ∧
    ((∀ input ∈ inputs, input.lo = true) →
      (autoResetTimes i c.state inputs).IsChain (fun t u => t + 6000 ≤ u) ∧
      ((c.state.autoReset i).state = .givenUp → autoResetTimes i c.state inputs = []) ∧
      (∀ input ∈ inputs.head?, c.state.lastLiftoffStartedAtMsec = 0 →
        input.triggered i = true → input.wasBootedAfterLiftoff i = false →
          autoResetTimes i c.state inputs = [])) ∧
    (Meets step (KeepsCounter i) c inputs → (autoResetTimes i c.state inputs).length ≤ 10) := by
  have hconsistent := consistent_run i (consistent_init i) hc
  have hvalid := (consistent_run i hconsistent hd).valid
  refine ⟨⟨hvalid.resetCounter_le, hvalid.resetCounter_lt⟩, fun hlo => ⟨?_, ?_, ?_⟩, ?_⟩
  · exact isChain_autoResetTimes hconsistent hlo hd
  · intro hgivenUp
    refine autoResetTimes_eq_nil (fun hliftoff => ?_) (Or.inr hgivenUp) hlo hd
    rw [hconsistent.cleared hliftoff] at hgivenUp
    exact nomatch hgivenUp
  · intro input hinput hliftoff htriggered hbooted
    cases inputs with
    | nil => exact nomatch hinput
    | cons head inputs =>
      obtain rfl : head = input := Option.some.inj hinput
      exact autoResetTimes_eq_nil_of_detection hliftoff htriggered hbooted hlo hd
  · intro hkeeps
    have hle := length_autoResetTimes_add_le hconsistent hkeeps hd
    have hcounter := hvalid.resetCounter_le
    omega

end

/-- An update after liftoff in which all LCLs are sampled alike. -/
def Input.uniform (triggered : Bool) (now : UInt32) : Input where
  lo := true
  triggered := fun _ => triggered
  wasBootedAfterLiftoff := fun _ => false
  now := now

/-- An LCL that is triggered all the time is reset every six seconds. -/
theorem autoReset_limits_of_triggered :
    ∃ c d, run step .init [.uniform false 1] = some c ∧
      run step c [.uniform true 1000, .uniform true 4000, .uniform true 7000, .uniform true 7000,
        .uniform true 10000] = some d ∧
      (d.state.autoReset .camLcl).resetCounter = 2 ∧
      [4000, 10000].IsChain (fun t u => t + 6000 ≤ u) := by
  refine ⟨_, _, rfl, rfl, rfl, ?_⟩
  exact ((autoReset_limits .camLcl [.uniform false 1] [.uniform true 1000, .uniform true 4000,
    .uniform true 7000, .uniform true 7000, .uniform true 10000] _ _ rfl rfl).2.1 (by decide)).1

end Lcl

end TellerOBC
