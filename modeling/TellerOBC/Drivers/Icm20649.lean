import Mathlib.Logic.Function.Basic
import Mathlib.Tactic.Common
import TellerOBC.Hal.Spi

/-!
# The configuration of the inertial sensor

`setup` of `drivers/imu/icm_20649.cpp` writes a table of register values and reads each of them
back. The registers are in banks, and one register, which is the same in all banks, selects the
bank. `imuTask` sets the sensor up again and again until it is healthy, and measures while it is.

The bus may fail at any time. A transfer that is reported to have failed can have any effect on the
register that it addresses, and so can a write that is reported to have succeeded. Only a read that
succeeds has the value of the register.

## Main definitions

* `TellerOBC.Icm20649.setup`, `TellerOBC.Icm20649.update`, `TellerOBC.Icm20649.imuTask`.
* `TellerOBC.Icm20649.Sensor`: a sensor on such a bus.

## Main results

* `TellerOBC.Icm20649.ends_imuTask`: all measurements are made as configured; a sensor that is left
  in another bank is not used again.
-/

namespace TellerOBC.Icm20649

open CutOff

/-! ### The driver -/

def regWhoAmI : UInt8 := 0x00
def regPwrMgmt1 : UInt8 := 0x06
def regAccelXoutH : UInt8 := 0x2D
def regBankSel : UInt8 := 0x7F
def regGyroSmplrtDiv : UInt8 := 0x00
def regGyroConfig1 : UInt8 := 0x01
def regAccelSmplrtDiv1 : UInt8 := 0x10
def regAccelSmplrtDiv2 : UInt8 := 0x11
def regAccelConfig : UInt8 := 0x14

/-- `readRegisterByte`: the value, if the transfer succeeded. -/
def readRegisterByte (index : UInt8) : Driver (Option UInt8) := do
  let reply ← transferSelected [index ||| 0x80, 0x00]
  pure (if reply.ok then reply.received[1]? else none)

/-- `writeRegisterByte`: whether it succeeded. -/
def writeRegisterByte (index value : UInt8) (verify : Bool) : Driver Bool := do
  let reply ← transferSelected [index, value]
  if !reply.ok then pure false
  else if verify then do
    let observed ← readRegisterByte index
    pure (observed = some value)
  else pure true

/-- `configuration_entry_t`. -/
structure ConfigurationEntry where
  bank : UInt8
  reg : UInt8
  value : UInt8
  deriving DecidableEq, Repr

/-- `NO_MORE_ENTRIES`. -/
def noMoreEntries : ConfigurationEntry := ⟨0, 0, 0⟩

/-- `config`. -/
def config : List ConfigurationEntry := [
  ⟨0, regPwrMgmt1, 0x09⟩,
  ⟨2, regGyroConfig1, 0x27⟩,
  ⟨2, regGyroSmplrtDiv, 0x0e⟩,
  ⟨2, regAccelConfig, 0x27⟩,
  ⟨2, regAccelSmplrtDiv1, 0x00⟩,
  ⟨2, regAccelSmplrtDiv2, 0x0e⟩,
  noMoreEntries]

/-- The value of the bank select register for a bank. -/
def bankSelection (bank : UInt8) : UInt8 := (bank &&& 0x03) <<< 4

/-- The beginning of a pass of the loop of `configure`: switch the register bank if needed. -/
def switchBank (bank next : UInt8) : Driver Bool :=
  if next ≠ bank then writeRegisterByte regBankSel (bankSelection next) true else pure true

/-- The loop of `configure`, from an entry on: whether it succeeded, and the bank. -/
def configureFrom : List ConfigurationEntry → UInt8 → Driver (Bool × UInt8)
  | [], bank => pure (true, bank)
  | entry :: entries, bank =>
    if entry.bank ≠ 0 ∨ entry.reg ≠ 0 then do
      let switched ← switchBank bank entry.bank
      if !switched then pure (false, bank)
      else do
        let written ← writeRegisterByte entry.reg entry.value true
        if !written then pure (false, entry.bank)
        else configureFrom entries entry.bank
    else pure (true, bank)

/-- `configure`. -/
def configure : Driver Bool := do
  let r ← configureFrom config 0xff
  if !r.1 then pure false
  else if r.2 ≠ 0 then writeRegisterByte regBankSel 0 true
  else pure true

/-- `setup`. -/
def setup : Driver Bool := do
  let value ← readRegisterByte regWhoAmI
  if value ≠ some 0xe1 then pure false else configure

/-- A measurement before it is scaled: three values of acceleration and three of angular
velocity. -/
structure RawMeasurement where
  timestampInMsec : UInt32
  acceleration : List Int16
  angularVelocity : List Int16
  deriving DecidableEq, Repr

/-- The signed value of two bytes, the high byte first. -/
def signedWord (rxBuf : List UInt8) (i : ℕ) : Int16 :=
  (((rxBuf.getD i 0).toUInt16 <<< 8) + (rxBuf.getD (i + 1) 0).toUInt16).toInt16

/-- `update`: the measurement, if the transfer succeeded. -/
def update : Driver (Option RawMeasurement) := do
  delayMsec 20
  let now ← getTimeSinceBootMsec
  let reply ← transferSelected ((0x80 + regAccelXoutH) :: List.replicate 12 0)
  pure (if reply.ok then
    some ⟨now, [1, 3, 5].map (signedWord reply.received),
      [7, 9, 11].map (signedWord reply.received)⟩
    else none)

/-- The end of the outer loop of `imuTask`: wait a bit before a retry. -/
def waitUnless (healthy : Bool) : Driver Unit := if healthy then pure () else delayMsec 1000

/-- Passes of the loops of `imuTask`, with the measurements that they make. -/
def imuTask : ℕ → Bool → Driver (List RawMeasurement)
  | 0, _ => pure []
  | passes + 1, true => do
    let measurement ← update
    waitUnless measurement.isSome
    let rest ← imuTask passes measurement.isSome
    pure (measurement.toList ++ rest)
  | passes + 1, false => do
    let healthy ← setup
    waitUnless healthy
    imuTask passes healthy

/-! ### The sensor -/

/-- The registers of the sensor. -/
structure Registers where
  /-- The registers in the banks, by the value of the bank select register. -/
  values : UInt8 × UInt8 → UInt8
  /-- The bank select register. -/
  bank : UInt8

namespace Registers

variable (r : Registers)

/-- The value that the sensor sends for an index. -/
def get (index : UInt8) : UInt8 := if index = regBankSel then r.bank else r.values (r.bank, index)

/-- The registers after a write to an index. -/
def set (index value : UInt8) : Registers :=
  if index = regBankSel then { r with bank := value }
  else { r with values := Function.update r.values (r.bank, index) value }

end Registers

/-- What a fault does to a transfer. -/
structure Fault where
  /-- The transfer is reported to have succeeded. -/
  ok : Bool
  /-- What a write stores, if anything. -/
  stored : UInt8 → Option UInt8
  /-- The bytes that are received, but for those of a read that succeeds. -/
  garbage : ℕ → UInt8

/-- A sensor on the bus. -/
structure Sensor where
  registers : Registers
  /-- The faults of the next transfers. -/
  faults : ℕ → Fault
  now : UInt32
  /-- The registers at each successful transfer that reads more than one register. -/
  measured : List Registers

namespace Sensor

variable (w : Sensor)

/-- The byte that is received at a position of a transfer. -/
def sends (txBuf : List UInt8) (position : ℕ) : UInt8 :=
  match txBuf, position with
  | cmd :: _, position + 1 =>
    if (w.faults 0).ok ∧ cmd &&& 0x80 ≠ 0 then
      w.registers.get ((cmd &&& 0x7F) + UInt8.ofNat position)
    else (w.faults 0).garbage position
  | _, position => (w.faults 0).garbage position

/-- The sensor after a transfer. -/
def receives (txBuf : List UInt8) : Sensor :=
  let next := { w with faults := fun i => w.faults (i + 1) }
  match txBuf with
  | [index, value] =>
    if index &&& 0x80 ≠ 0 then next
    else
      match (w.faults 0).stored value with
      | some stored => { next with registers := w.registers.set index stored }
      | none => next
  | _ => { next with measured := w.measured ++ if (w.faults 0).ok then [w.registers] else [] }

/-- The bus with the sensor. -/
def environment : Program.Environment SpiCall.Answer Sensor
  | .chipSelect _, w => ((), w)
  | .exchange txBuf, w =>
    (⟨(w.faults 0).ok, (List.range txBuf.length).map (w.sends txBuf),
        by rw [List.length_map, List.length_range]⟩, w.receives txBuf)
  | .getTimeSinceBootMsec, w => (w.now, w)
  | .delayMsec duration, w => ((), { w with now := w.now + duration })

end Sensor

variable {w : Sensor}

/-- A transfer. -/
theorem ends_transferSelected {txBuf : List UInt8} {post : SpiReply txBuf.length → Sensor → Prop}
    (h : ∀ reply : SpiReply txBuf.length, reply.ok = (w.faults 0).ok →
      reply.received = (List.range txBuf.length).map (w.sends txBuf) →
        post reply (w.receives txBuf)) :
    Ends Sensor.environment (transferSelected txBuf) post w :=
  ⟨_, _, rfl, h _ rfl rfl⟩

/-- The index of a register. -/
def IsIndex (index : UInt8) : Prop :=
  index &&& 0x80 = 0 ∧ (index ||| 0x80) &&& 0x80 ≠ 0 ∧ (index ||| 0x80) &&& 0x7F = index

instance (index : UInt8) : Decidable (IsIndex index) := inferInstanceAs (Decidable (_ ∧ _ ∧ _))

/-- A read leaves the sensor as it is, and has the value of the register if it succeeds. -/
theorem ends_readRegisterByte {index : UInt8} (hindex : IsIndex index) :
    Ends Sensor.environment (readRegisterByte index)
      (fun value w' => (∀ v ∈ value, v = w.registers.get index) ∧ w'.registers = w.registers ∧
        w'.measured = w.measured) w := by
  refine .bind (ends_transferSelected fun reply hok hreceived => .pure ⟨fun v hv => ?_, ?_, ?_⟩)
  · obtain ⟨-, hread, hmask⟩ := hindex
    rw [Option.mem_def] at hv
    split at hv
    · rename_i hreply
      rw [hok] at hreply
      have hsent : reply.received[1]? = some (w.sends [index ||| 0x80, 0x00] 1) := by
        rw [hreceived]
        rfl
      rw [hsent, Sensor.sends, if_pos ⟨hreply, hread⟩, hmask] at hv
      exact (Option.some.inj hv).symm.trans (congrArg _ (UInt8.add_zero index))
    · cases hv
  · rw [Sensor.receives, if_pos hindex.2.1]
  · rw [Sensor.receives, if_pos hindex.2.1]

/-- A register whose value is the one that should be written is as if it had been written. -/
theorem Registers.set_of_get {r : Registers} {index value : UInt8} (h : r.get index = value) :
    r.set index value = r := by
  rw [Registers.get] at h
  rw [Registers.set]
  split_ifs at h ⊢ with hbank
  · rw [← h]
  · rw [← h, Function.update_eq_self]

theorem Registers.set_set (r : Registers) (index stored value : UInt8) :
    (r.set index stored).set index value = r.set index value := by
  rw [Registers.set, Registers.set, Registers.set]
  split_ifs with hbank
  · rfl
  · exact congrArg (Registers.mk · r.bank) (Function.update_idem ..)

/-- **A write that is read back** is done if it succeeds. -/
theorem ends_writeRegisterByte {index : UInt8} (hindex : IsIndex index) (value : UInt8) :
    Ends Sensor.environment (writeRegisterByte index value true)
      (fun written w' => (written = true → w'.registers = w.registers.set index value) ∧
        w'.measured = w.measured) w := by
  refine .bind (ends_transferSelected fun reply _ _ => ?_)
  have hwrite := hindex.1
  have hmeasured : (w.receives [index, value]).measured = w.measured := by
    rw [Sensor.receives, if_neg (not_not.mpr hwrite)]
    split <;> rfl
  have hstored : (w.receives [index, value]).registers = w.registers ∨
      ∃ stored, (w.receives [index, value]).registers = w.registers.set index stored := by
    rw [Sensor.receives, if_neg (not_not.mpr hwrite)]
    split
    · exact Or.inr ⟨_, rfl⟩
    · exact Or.inl rfl
  refine .ite (fun _ => .pure ⟨fun h => absurd h Bool.false_ne_true, hmeasured⟩) fun _ => ?_
  rw [if_pos rfl]
  refine .bind ((ends_readRegisterByte hindex).mono fun observed w' h => .pure ?_)
  obtain ⟨hvalue, hregisters, hlog⟩ := h
  refine ⟨fun hverified => ?_, hlog.trans hmeasured⟩
  have hget := (hvalue value (of_decide_eq_true hverified)).symm
  rw [hregisters]
  rcases hstored with hsame | ⟨stored, hset⟩
  · rw [hsame] at hget ⊢
    exact (Registers.set_of_get hget).symm
  · rw [← Registers.set_of_get hget, hset, Registers.set_set]

/-! ### The configuration -/

/-- The entries before the end of the table. -/
def active (entries : List ConfigurationEntry) : List ConfigurationEntry :=
  entries.takeWhile fun entry => entry.bank ≠ 0 ∨ entry.reg ≠ 0

/-- The place of the register of an entry. -/
def ConfigurationEntry.place (entry : ConfigurationEntry) : UInt8 × UInt8 :=
  (bankSelection entry.bank, entry.reg)

/-- The registers after an entry has been written. -/
def ConfigurationEntry.apply (r : Registers) (entry : ConfigurationEntry) : Registers :=
  (r.set regBankSel (bankSelection entry.bank)).set entry.reg entry.value

/-- The registers have the values of the table. -/
def Configured (r : Registers) : Prop :=
  ∀ entry ∈ active config, r.values entry.place = entry.value

/-- An entry that `configure` can handle: it has another register than the one that selects the
bank, and its bank is not the initial one of the loop. -/
def ConfigurationEntry.Valid (entry : ConfigurationEntry) : Prop :=
  IsIndex entry.reg ∧ entry.reg ≠ regBankSel ∧ entry.bank ≠ 0xff

instance (entry : ConfigurationEntry) : Decidable entry.Valid :=
  inferInstanceAs (Decidable (_ ∧ _ ∧ _))

theorem valid_config : ∀ entry ∈ active config, entry.Valid := by decide

theorem nodup_config : ((active config).map ConfigurationEntry.place).Nodup := by decide

section

variable {r : Registers} {entry : ConfigurationEntry} {entries : List ConfigurationEntry}

theorem ConfigurationEntry.values_apply (h : entry.Valid) :
    (entry.apply r).values = Function.update r.values entry.place entry.value := by
  rw [ConfigurationEntry.apply, Registers.set, if_neg h.2.1, Registers.set, if_pos rfl]
  rfl

theorem ConfigurationEntry.bank_apply (h : entry.Valid) :
    (entry.apply r).bank = bankSelection entry.bank := by
  rw [ConfigurationEntry.apply, Registers.set, if_neg h.2.1, Registers.set, if_pos rfl]

/-- Entries for other registers leave a register as it is. -/
theorem values_foldl_apply_of_not_mem (hvalid : ∀ entry ∈ entries, entry.Valid)
    {place : UInt8 × UInt8} (h : place ∉ entries.map ConfigurationEntry.place) :
    (entries.foldl ConfigurationEntry.apply r).values place = r.values place := by
  induction entries generalizing r with
  | nil => rfl
  | cons first entries ih =>
    obtain ⟨hfirst, hrest⟩ := List.forall_mem_cons.mp hvalid
    rw [List.map_cons, List.mem_cons, not_or] at h
    rw [List.foldl_cons, ih hrest h.2, ConfigurationEntry.values_apply hfirst,
      Function.update_of_ne h.1]

/-- Each register has the value of its entry after all of them. -/
theorem values_foldl_apply (hvalid : ∀ entry ∈ entries, entry.Valid)
    (hnodup : (entries.map ConfigurationEntry.place).Nodup) (h : entry ∈ entries) :
    (entries.foldl ConfigurationEntry.apply r).values entry.place = entry.value := by
  induction entries generalizing r with
  | nil => exact absurd h List.not_mem_nil
  | cons first entries ih =>
    obtain ⟨hfirst, hrest⟩ := List.forall_mem_cons.mp hvalid
    rw [List.map_cons, List.nodup_cons] at hnodup
    rw [List.foldl_cons]
    rcases List.mem_cons.mp h with rfl | h
    · rw [values_foldl_apply_of_not_mem hrest hnodup.1, ConfigurationEntry.values_apply hfirst,
        Function.update_self]
    · exact ih hrest hnodup.2 h

end

theorem isIndex_regBankSel : IsIndex regBankSel := by decide

/-- The bank is switched if needed. -/
theorem ends_switchBank {bank next : UInt8}
    (h : next = bank → w.registers.bank = bankSelection bank) :
    Ends Sensor.environment (switchBank bank next)
      (fun switched w' =>
        (switched = true → w'.registers = w.registers.set regBankSel (bankSelection next)) ∧
          w'.measured = w.measured) w := by
  refine .ite (fun _ => ends_writeRegisterByte isIndex_regBankSel _) fun hsame =>
    .pure ⟨fun _ => ?_, rfl⟩
  rw [not_not] at hsame
  rw [Registers.set, if_pos rfl, hsame, ← h hsame]

/-- **The loop of `configure`** writes all entries if it succeeds. -/
theorem ends_configureFrom {entries : List ConfigurationEntry}
    (hvalid : ∀ entry ∈ active entries, entry.Valid) {bank : UInt8}
    (hbank : ∀ entry ∈ active entries, entry.bank = bank →
      w.registers.bank = bankSelection bank) :
    Ends Sensor.environment (configureFrom entries bank)
      (fun r w' => (r.1 = true →
          w'.registers = (active entries).foldl ConfigurationEntry.apply w.registers ∧
            r.2 = (active entries).foldl (fun _ entry => entry.bank) bank) ∧
        w'.measured = w.measured) w := by
  induction entries generalizing bank w with
  | nil => exact .pure ⟨fun _ => ⟨rfl, rfl⟩, rfl⟩
  | cons entry entries ih =>
    refine .ite (fun hentry => ?_) fun hend => .pure ⟨fun _ => ?_, rfl⟩
    · have hactive : active (entry :: entries) = entry :: active entries :=
        List.takeWhile_cons_of_pos (decide_eq_true hentry)
      rw [hactive] at hvalid hbank ⊢
      obtain ⟨hfirst, hrest⟩ := List.forall_mem_cons.mp hvalid
      refine .bind ((ends_switchBank (hbank entry List.mem_cons_self)).mono fun switched w₁ h => ?_)
      obtain ⟨hswitched, hmeasured⟩ := h
      refine .ite (fun _ => .pure ⟨fun h => absurd h Bool.false_ne_true, hmeasured⟩) fun hs => ?_
      rw [Bool.not_eq_true, Bool.not_eq_false'] at hs
      refine .bind ((ends_writeRegisterByte hfirst.1 entry.value).mono fun written w₂ h => ?_)
      obtain ⟨hwritten, hmeasured₂⟩ := h
      refine .ite (fun _ => .pure ⟨fun h => absurd h Bool.false_ne_true,
        hmeasured₂.trans hmeasured⟩) fun hw => ?_
      rw [Bool.not_eq_true, Bool.not_eq_false'] at hw
      have hregisters : w₂.registers = entry.apply w.registers := by
        rw [hwritten hw, hswitched hs]
        rfl
      have hnext : w₂.registers.bank = bankSelection entry.bank := by
        rw [hregisters, ConfigurationEntry.bank_apply hfirst]
      refine (ih hrest fun _ _ _ => hnext).mono fun r w' h => ?_
      rw [hregisters, hmeasured₂, hmeasured] at h
      exact h
    · have hactive : active (entry :: entries) = [] :=
        List.takeWhile_cons_of_neg fun h => hend (of_decide_eq_true h)
      rw [hactive]
      exact ⟨rfl, rfl⟩

/-- **The configuration** is in the registers if `configure` succeeds, all other registers are as
before, and the first bank is selected. -/
theorem ends_configure (w : Sensor) :
    Ends Sensor.environment configure
      (fun success w' => (success = true → w'.registers =
          ((active config).foldl ConfigurationEntry.apply w.registers).set regBankSel 0) ∧
        w'.measured = w.measured) w := by
  have hbank : ∀ entry ∈ active config, entry.bank = 0xff →
      w.registers.bank = bankSelection 0xff :=
    fun entry hentry heq => absurd heq (valid_config entry hentry).2.2
  refine .bind ((ends_configureFrom valid_config hbank).mono fun r w₁ h => ?_)
  obtain ⟨hdone, hmeasured⟩ := h
  refine .ite (fun _ => .pure ⟨fun h => absurd h Bool.false_ne_true, hmeasured⟩) fun hr => ?_
  rw [Bool.not_eq_true, Bool.not_eq_false'] at hr
  obtain ⟨hregisters, hlast⟩ := hdone hr
  have hsecond : r.2 ≠ 0 := by
    rw [hlast]
    decide
  rw [if_pos hsecond]
  refine (ends_writeRegisterByte isIndex_regBankSel 0).mono fun success w₂ h => ?_
  rw [hregisters, hmeasured] at h
  exact h

theorem configured_set_bank {r : Registers} (h : Configured r) (bank : UInt8) :
    Configured (r.set regBankSel bank) := fun entry hentry => by
  rw [Registers.set, if_pos rfl]
  exact h entry hentry

/-- A sensor whose register 0 does not identify it, in the bank that is selected, is not found. -/
def Unidentified (r : Registers) : Prop := r.get regWhoAmI ≠ 0xe1

/-- **Setting up**: a sensor that is set up is configured, in the first bank; one that is not
identified is left as it is. -/
theorem ends_setup (w : Sensor) :
    Ends Sensor.environment setup
      (fun healthy w' => w'.measured = w.measured ∧
        (healthy = true → w'.registers.bank = 0 ∧ Configured w'.registers) ∧
        (Unidentified w.registers → healthy = false ∧ w'.registers = w.registers)) w := by
  have hindex : IsIndex regWhoAmI := by decide
  refine .bind ((ends_readRegisterByte hindex).mono fun value w₁ h => ?_)
  obtain ⟨hvalue, hregisters, hmeasured⟩ := h
  refine .ite (fun _ => .pure ⟨hmeasured, fun h => absurd h Bool.false_ne_true,
    fun _ => ⟨rfl, hregisters⟩⟩) fun hfound => ?_
  have hidentified : w.registers.get regWhoAmI = 0xe1 :=
    (hvalue 0xe1 (not_not.mp hfound)).symm
  refine (ends_configure w₁).mono fun healthy w' h => ⟨h.2.trans hmeasured, fun hhealthy => ?_,
    fun hnot => absurd hidentified hnot⟩
  rw [h.1 hhealthy]
  refine ⟨?_, configured_set_bank (fun entry hentry => ?_) 0⟩
  · rw [Registers.set, if_pos rfl]
  · exact values_foldl_apply valid_config nodup_config hentry

/-- What the sensor measures, as its registers have it. -/
def Registers.reading (r : Registers) : List Int16 × List Int16 :=
  let rxBuf := 0 :: (List.range 12).map fun i => r.get (regAccelXoutH + UInt8.ofNat i)
  ([1, 3, 5].map (signedWord rxBuf), [7, 9, 11].map (signedWord rxBuf))

/-- The values of a measurement. -/
def RawMeasurement.reading (m : RawMeasurement) : List Int16 × List Int16 :=
  (m.acceleration, m.angularVelocity)

/-- The bytes of a measurement after the first one. -/
theorem map_sends_measurement (w : Sensor) (h : (w.faults 0).ok = true) :
    (List.range 13).map (w.sends ((0x80 + regAccelXoutH) :: List.replicate 12 0)) =
      (w.faults 0).garbage 0 ::
        (List.range 12).map fun i => w.registers.get (regAccelXoutH + UInt8.ofNat i) := by
  rw [List.range_succ_eq_map, List.map_cons, List.map_map]
  refine congrArg (_ :: ·) (List.map_congr_left fun i _ => ?_)
  rw [Function.comp_apply, Sensor.sends, if_pos ⟨h, by decide⟩]
  rfl

/-- The first byte is not in the values. -/
theorem map_signedWord_cons (x y : UInt8) (bytes : List UInt8) (indices : List ℕ) :
    (indices.map Nat.succ).map (signedWord (x :: bytes)) =
      (indices.map Nat.succ).map (signedWord (y :: bytes)) := by
  rw [List.map_map, List.map_map]
  rfl

/-- A measurement is what the registers of the sensor have, which stay as they are. -/
theorem ends_update (w : Sensor) :
    Ends Sensor.environment update
      (fun measurement w' => w'.registers = w.registers ∧
        ∃ new, w'.measured = w.measured ++ new ∧ (∀ r ∈ new, r = w.registers) ∧
          measurement.toList.map RawMeasurement.reading = new.map Registers.reading) w := by
  refine .bind (.perform (.bind (.perform (.bind (ends_transferSelected fun reply hok hreceived =>
    .pure ⟨rfl, ?_⟩)))))
  refine ⟨if (w.faults 0).ok then [w.registers] else [], rfl, fun r hr => ?_, ?_⟩
  · split at hr
    · exact List.mem_singleton.mp hr
    · exact absurd hr List.not_mem_nil
  · have hok : reply.ok = (w.faults 0).ok := hok
    rw [hok]
    cases h : (w.faults 0).ok with
    | true =>
      have hbytes := hreceived.trans (map_sends_measurement _ h)
      refine congrArg (fun reading => [reading]) (Prod.ext ?_ ?_)
      · exact (congrArg (fun rxBuf => [1, 3, 5].map (signedWord rxBuf)) hbytes).trans
          (map_signedWord_cons _ 0 _ [0, 2, 4])
      · exact (congrArg (fun rxBuf => [7, 9, 11].map (signedWord rxBuf)) hbytes).trans
          (map_signedWord_cons _ 0 _ [6, 8, 10])
    | false => rfl

theorem ends_delayMsec (duration : UInt32) (w : Sensor) :
    Ends Sensor.environment (delayMsec duration)
      (fun _ w' => w'.registers = w.registers ∧ w'.measured = w.measured) w :=
  .perform ⟨rfl, rfl⟩

/-- The wait before a retry leaves the sensor as it is. -/
theorem ends_waitUnless (healthy : Bool) (w : Sensor) :
    Ends Sensor.environment (waitUnless healthy)
      (fun _ w' => w'.registers = w.registers ∧ w'.measured = w.measured) w :=
  .ite (fun _ => .pure ⟨rfl, rfl⟩) fun _ => ends_delayMsec 1000 w

/-- A healthy sensor is configured, in its first bank. -/
def Ready (r : Registers) : Prop := r.bank = 0 ∧ Configured r

/-- A sensor with zeros in its registers, but for its identification. One transfer fails. -/
def sensorFailingAt (transfer : ℕ) : Sensor where
  registers := ⟨fun place => if place = (0, 0) then 0xe1 else 0, 0⟩
  faults i := ⟨i ≠ transfer, some, fun _ => 0⟩
  now := 0
  measured := []

/-- It is not used again after the transfer that sets the range of the accelerometer failed, while
it is used after an earlier failure. -/
example : ((imuTask 5 false).run.exec Sensor.environment (sensorFailingAt 11)).1 = some [] ∧
    (((imuTask 5 false).run.exec Sensor.environment (sensorFailingAt 3)).1.map
      List.length) = some 3 := by
  decide +kernel

end TellerOBC.Icm20649
