import Mathlib.Data.List.GetD
import Mathlib.Logic.Function.Basic
import Mathlib.Tactic.Common
import TellerOBC.Foundations.MaskedUpdate
import TellerOBC.Hal.Spi

/-!
# The configuration of the magnetometer

`configure` of `drivers/mag/mlx90393.cpp` resets the sensor, updates fields of its registers one
after the other, and starts the burst mode. An update reads the register, writes it with other bits
in the field, and reads it back.

The bus may fail at any time, and the sensor may report errors. A write can then store anything in
the register that it addresses. Only a read that succeeds without an error has the value of the
register.

## Main definitions

* `TellerOBC.Mlx90393.configure`.
* `TellerOBC.Mlx90393.Sensor`: a sensor on such a bus.

## Main results

* `TellerOBC.Mlx90393.ends_configure_settings`: the registers after a configuration that succeeded.
-/

namespace TellerOBC.Mlx90393

open CutOff

/-! ### The driver -/

def cmdStartBurstMode : UInt8 := 0x10
def cmdReadRegister : UInt8 := 0x50
def cmdWriteRegister : UInt8 := 0x60
def cmdExitMode : UInt8 := 0x80
def cmdReset : UInt8 := 0xF0

def measureAll : UInt8 := 0x0F

def regConf1 : UInt8 := 0x00
def regConf2 : UInt8 := 0x01
def regConf3 : UInt8 := 0x02

def regMaskBurstDataRate : BitVec 16 := 0x003F
def regMaskBurstSel : BitVec 16 := 0x03C0
def regMaskGain : BitVec 16 := 0x0070
def regMaskCommMode : BitVec 16 := 0x6000
def regMaskFilter : BitVec 16 := 0x001C
def regMaskOversamplingRate : BitVec 16 := 0x0003
def regMaskResolutionX : BitVec 16 := 0x0060
def regMaskResolutionY : BitVec 16 := 0x0180
def regMaskResolutionZ : BitVec 16 := 0x0600
def regMaskTemperatureOversamplingRate : BitVec 16 := 0x1800

def statusBurstMode : UInt8 := 0x80
def statusError : UInt8 := 0x10

/-- `IS_ERROR`. -/
def isError (response : UInt8) : Bool := response &&& statusError ≠ 0

/-- `axis_t`. -/
inductive Axis where
  | x
  | y
  | z
  deriving DecidableEq, Repr

/-- `gain_t`. -/
inductive Gain where
  | gain5x
  | gain4x
  | gain3x
  | gain2x5
  | gain2x
  | gain1x67
  | gain1x33
  | gain1x
  deriving DecidableEq, Repr

def Gain.code : Gain → BitVec 16
  | .gain5x => 0
  | .gain4x => 1
  | .gain3x => 2
  | .gain2x5 => 3
  | .gain2x => 4
  | .gain1x67 => 5
  | .gain1x33 => 6
  | .gain1x => 7

/-- `resolution_t`. -/
inductive Resolution where
  | bits16
  | bits17
  | bits18
  | bits19
  deriving DecidableEq, Repr

def Resolution.code : Resolution → BitVec 16
  | .bits16 => 0
  | .bits17 => 1
  | .bits18 => 2
  | .bits19 => 3

/-- `GAIN_SETTING`. -/
def gainSetting : Gain := .gain1x

/-- `RESOLUTION_SETTING`. -/
def resolutionSetting : Resolution := .bits16

/-- `sendCommand`: whether it succeeded, and the response, if there is one. -/
def sendCommand (command : UInt8) : Driver (Bool × Option UInt8) := do
  let reply ← transferSelected [command, 0x00]
  if !reply.ok then pure (false, none)
  else
    let response := if command ≠ cmdReset then reply.received.getD 1 0 else 0x00
    pure (!isError response, some response)

/-- The word with the given bytes. -/
def word (high low : UInt8) : BitVec 16 := high.toBitVec ++ low.toBitVec

/-- `readRegister`: the value, if it could be read. -/
def readRegister (index : UInt8) : Driver (Option (BitVec 16)) := do
  let reply ← transferSelected [cmdReadRegister, index <<< 2, 0x00, 0x00, 0x00]
  if !reply.ok then pure none
  else if isError (reply.received.getD 2 0) then pure none
  else pure (some (word (reply.received.getD 3 0) (reply.received.getD 4 0)))

/-- The bytes of a word, the high byte first. -/
def highByte (value : BitVec 16) : UInt8 := ⟨value.extractLsb' 8 8⟩
def lowByte (value : BitVec 16) : UInt8 := ⟨value.extractLsb' 0 8⟩

/-- `writeRegister`. -/
def writeRegister (index : UInt8) (value : BitVec 16) (verify : Bool) : Driver Bool := do
  let reply ←
    transferSelected [cmdWriteRegister, highByte value, lowByte value, index <<< 2, 0x00]
  if !reply.ok then pure false
  else if isError (reply.received.getD 4 0) then pure false
  else if verify then do
    let observedValue ← readRegister index
    pure (observedValue = some value)
  else pure true

/-- `updateRegister`. -/
def updateRegister (index : UInt8) (value mask : BitVec 16) (verify : Bool) : Driver Bool :=
  if mask = 0 then pure true
  else do
    let originalValue ← readRegister index
    match originalValue with
    | none => pure false
    | some originalValue => writeRegister index (originalValue.maskedUpdate value mask) verify

/-- The value of the data rate field for an interval: it is rounded to a multiple of 20 ms. -/
def burstDataRate (value : UInt16) : UInt8 :=
  let value := if value < 20 then 20 else if value > 1260 then 1260 else value
  ((value + 10) / 20).toUInt8

/-- `setBurstIntervalMsec`. -/
def setBurstIntervalMsec (value : UInt16) : Driver Bool :=
  updateRegister regConf2 ((burstDataRate value).toBitVec.setWidth 16) regMaskBurstDataRate true

/-- `setBurstMeasurementConfiguration`. -/
def setBurstMeasurementConfiguration (value : UInt8) : Driver Bool :=
  updateRegister regConf2 (value.toBitVec.setWidth 16 <<< 6) regMaskBurstSel true

/-- `setFilter`, with the number of the filter. -/
def setFilter (filter : Fin 8) : Driver Bool :=
  updateRegister regConf3 (BitVec.ofNat 16 filter <<< 2) regMaskFilter true

/-- `setGain`. -/
def setGain (gain : Gain) : Driver Bool :=
  updateRegister regConf1 (gain.code <<< 4) regMaskGain true

/-- `setResolution`. -/
def setResolution (axis : Axis) (resolution : Resolution) : Driver Bool :=
  match axis with
  | .x => updateRegister regConf3 (resolution.code <<< 5) regMaskResolutionX true
  | .y => updateRegister regConf3 (resolution.code <<< 7) regMaskResolutionY true
  | .z => updateRegister regConf3 (resolution.code <<< 9) regMaskResolutionZ true

/-- `setOversamplingRate`, with the number of the rate. -/
def setOversamplingRate (rate : Fin 4) : Driver Bool :=
  updateRegister regConf3 (BitVec.ofNat 16 rate) regMaskOversamplingRate true

/-- `setTemperatureOversamplingRate`. -/
def setTemperatureOversamplingRate (rate : Fin 4) : Driver Bool :=
  updateRegister regConf3 (BitVec.ofNat 16 rate <<< 11) regMaskTemperatureOversamplingRate true

/-- A chain of calls up to the first one that fails. -/
def allSucceed : List (Driver Bool) → Driver Bool
  | [] => pure true
  | p :: ps => do
    let success ← p
    if !success then pure false else allSucceed ps

/-- The calls of `configure` that set fields of the registers. -/
def fieldSettings : List (Driver Bool) := [
  updateRegister regConf2 (0b10#16 <<< 13) regMaskCommMode true,
  setGain gainSetting,
  setResolution .x resolutionSetting,
  setResolution .y resolutionSetting,
  setResolution .z resolutionSetting,
  setOversamplingRate 2,
  setTemperatureOversamplingRate 2,
  setFilter 6,
  setBurstIntervalMsec 20,
  setBurstMeasurementConfiguration measureAll]

/-- The end of `configure`: start the burst mode. -/
def startBurstMode : Driver Bool := do
  let started ← sendCommand cmdStartBurstMode
  pure (started.1 && started.2.any fun response =>
    !isError response && response &&& statusBurstMode ≠ 0)

/-- `configure`. -/
def configure : Driver Bool := do
  let exited ← sendCommand cmdExitMode
  if !exited.1 || exited.2.any isError then pure false
  else do
    delayMsec 1
    let reset ← sendCommand cmdReset
    if !reset.1 then pure false
    else do
      delayMsec 2
      let success ← allSucceed fieldSettings
      if !success then pure false else startBurstMode

/-! ### The sensor -/

/-- What a fault does to a transfer. -/
structure Fault where
  /-- The transfer is reported to have succeeded. -/
  ok : Bool
  /-- The status byte of the sensor. -/
  status : UInt8
  /-- What a write stores, if anything. -/
  stored : BitVec 16 → Option (BitVec 16)
  /-- What a reset leaves in the registers. -/
  reset : (UInt8 → BitVec 16) → UInt8 → BitVec 16
  /-- The other bytes that are received. -/
  garbage : ℕ → UInt8

/-- A sensor on the bus. -/
structure Sensor where
  /-- The registers, by the byte that addresses them. -/
  registers : UInt8 → BitVec 16
  /-- The faults of the next transfers. -/
  faults : ℕ → Fault

namespace Sensor

variable (w : Sensor)

/-- The byte that is received at a position of a transfer. -/
def sends (txBuf : List UInt8) (position : ℕ) : UInt8 :=
  let fault := w.faults 0
  match txBuf with
  | [cmd, index, _, _, _] =>
    if cmd = cmdReadRegister then
      let value := w.registers index
      if position = 2 then fault.status
      else if !fault.ok || isError fault.status then fault.garbage position
      else if position = 3 then highByte value
      else if position = 4 then lowByte value
      else fault.garbage position
    else if position = 4 then fault.status
    else fault.garbage position
  | _ => if position = 1 then fault.status else fault.garbage position

/-- The registers after a transfer. -/
def receives (txBuf : List UInt8) : UInt8 → BitVec 16 :=
  let fault := w.faults 0
  match txBuf with
  | [cmd, high, low, index, _] =>
    if cmd = cmdWriteRegister then
      match fault.stored (word high low) with
      | some stored => Function.update w.registers index stored
      | none => w.registers
    else w.registers
  | [cmd, _] => if cmd = cmdReset then fault.reset w.registers else w.registers
  | _ => w.registers

/-- The bus with the sensor. -/
def environment : Program.Environment SpiCall.Answer Sensor
  | .chipSelect _, w => ((), w)
  | .exchange txBuf, w =>
    (⟨(w.faults 0).ok, (List.range txBuf.length).map (w.sends txBuf),
        by rw [List.length_map, List.length_range]⟩,
      ⟨w.receives txBuf, fun i => w.faults (i + 1)⟩)
  | .getTimeSinceBootMsec, w => (0, w)
  | .delayMsec _, w => ((), w)

end Sensor

variable {w : Sensor}

/-- A transfer. -/
theorem ends_transferSelected {txBuf : List UInt8} {post : SpiReply txBuf.length → Sensor → Prop}
    (h : ∀ reply : SpiReply txBuf.length,
      (∀ i < txBuf.length, reply.received.getD i 0 = w.sends txBuf i) →
        reply.ok = (w.faults 0).ok →
          post reply ⟨w.receives txBuf, fun i => w.faults (i + 1)⟩) :
    Ends Sensor.environment (transferSelected txBuf) post w := by
  refine ⟨(Sensor.environment (.exchange txBuf) w).1, _, rfl, h _ (fun i hi => ?_) rfl⟩
  change ((List.range txBuf.length).map (w.sends txBuf)).getD i 0 = _
  rw [List.getD_eq_getElem _ _ (by rwa [List.length_map, List.length_range]), List.getElem_map,
    List.getElem_range]

theorem word_bytes (value : BitVec 16) : word (highByte value) (lowByte value) = value := by
  refine BitVec.eq_of_getLsbD_eq fun i hi => ?_
  rw [word, highByte, lowByte, BitVec.getLsbD_append, BitVec.getLsbD_extractLsb',
    BitVec.getLsbD_extractLsb']
  by_cases hlow : i < 8
  · simp [hlow]
  · have hhigh : 8 + (i - 8) = i := by omega
    simp [hlow, hhigh, show i - 8 < 8 by omega]

/-- A read leaves the registers as they are, and has the value of the register if it succeeds. -/
theorem ends_readRegister (index : UInt8) (w : Sensor) :
    Ends Sensor.environment (readRegister index)
      (fun value w' => (∀ v ∈ value, v = w.registers (index <<< 2)) ∧
        w'.registers = w.registers) w := by
  refine .bind (ends_transferSelected fun reply hreceived hok => ?_)
  refine .ite (fun _ => .pure ⟨fun v hv => (by cases hv), rfl⟩) fun hreply => ?_
  refine .ite (fun _ => .pure ⟨fun v hv => (by cases hv), rfl⟩) fun hstatus => .pure ⟨?_, rfl⟩
  intro v hv
  have hgood : ¬(!(w.faults 0).ok || isError (w.faults 0).status) = true := by
    rw [hreceived 2 (by decide : 2 < 5)] at hstatus
    rw [hok] at hreply
    rw [Bool.or_eq_true, not_or]
    exact ⟨hreply, hstatus⟩
  rw [hreceived 3 (by decide : 3 < 5), hreceived 4 (by decide : 4 < 5)] at hv
  simp only [Sensor.sends, if_true, if_neg hgood] at hv
  rw [← Option.some.inj hv]
  exact word_bytes _

/-- **A write that is read back** is done if it succeeds. -/
theorem ends_writeRegister (index : UInt8) (value : BitVec 16) (w : Sensor) :
    Ends Sensor.environment (writeRegister index value true)
      (fun written w' => written = true →
        w'.registers = Function.update w.registers (index <<< 2) value) w := by
  refine .bind (ends_transferSelected fun reply _ _ => ?_)
  have hstored : ∃ stored, w.receives
      [cmdWriteRegister, highByte value, lowByte value, index <<< 2, 0x00] =
        Function.update w.registers (index <<< 2) stored := by
    rw [Sensor.receives, if_pos rfl]
    split
    · exact ⟨_, rfl⟩
    · exact ⟨_, (Function.update_eq_self _ _).symm⟩
  obtain ⟨stored, hstored⟩ := hstored
  refine .ite (fun _ => .pure fun h => absurd h Bool.false_ne_true) fun _ =>
    .ite (fun _ => .pure fun h => absurd h Bool.false_ne_true) fun _ => ?_
  rw [if_pos rfl, hstored]
  refine .bind ((ends_readRegister index _).mono fun observedValue w' h => .pure ?_)
  obtain ⟨hvalue, hregisters⟩ := h
  intro hverified
  have hread : value = stored :=
    (hvalue value (of_decide_eq_true hverified)).trans (Function.update_self ..)
  rw [hregisters, hread]

/-! ### Fields -/

/-- The registers with another value in a field. -/
def setField (index : UInt8) (value mask : BitVec 16) (registers : UInt8 → BitVec 16) :
    UInt8 → BitVec 16 :=
  Function.update registers (index <<< 2)
    ((registers (index <<< 2)).maskedUpdate value mask)

/-- Two fields of one register are one field. -/
theorem setField_setField (index : UInt8) (v₁ m₁ v₂ m₂ : BitVec 16)
    (registers : UInt8 → BitVec 16) :
    setField index v₂ m₂ (setField index v₁ m₁ registers) =
      setField index (v₁.maskedUpdate v₂ m₂) (m₁ ||| m₂) registers := by
  simp only [setField, Function.update_self, Function.update_idem,
    BitVec.maskedUpdate_maskedUpdate]

/-- Fields of two registers are set in any order. -/
theorem setField_comm {i j : UInt8} (h : i <<< 2 ≠ j <<< 2) (v₁ m₁ v₂ m₂ : BitVec 16)
    (registers : UInt8 → BitVec 16) :
    setField i v₁ m₁ (setField j v₂ m₂ registers) =
      setField j v₂ m₂ (setField i v₁ m₁ registers) := by
  simp only [setField, Function.update_of_ne h, Function.update_of_ne h.symm]
  exact Function.update_comm h.symm _ _ _

/-- A call that changes the registers like this if it succeeds. -/
def Sets (p : Driver Bool) (f : (UInt8 → BitVec 16) → UInt8 → BitVec 16) : Prop :=
  ∀ w : Sensor, Ends Sensor.environment p
    (fun success w' => success = true → w'.registers = f w.registers) w

theorem sets_updateRegister (index : UInt8) (value mask : BitVec 16) :
    Sets (updateRegister index value mask true) (setField index value mask) := by
  intro w
  refine .ite (fun hmask => .pure fun _ => ?_) fun _ => ?_
  · have hsame : (w.registers (index <<< 2)).maskedUpdate value mask =
        w.registers (index <<< 2) := by
      rw [hmask]
      exact BitVec.maskedUpdate_zero _ _
    rw [setField, hsame, Function.update_eq_self]
  · refine .bind ((ends_readRegister index w).mono fun originalValue w₁ h => ?_)
    obtain ⟨hvalue, hregisters⟩ := h
    cases originalValue with
    | none => exact .pure fun h => absurd h Bool.false_ne_true
    | some originalValue =>
      refine (ends_writeRegister index _ w₁).mono fun written w' h hwritten => ?_
      rw [h hwritten, hregisters, hvalue originalValue rfl]
      rfl

theorem sets_allSucceed_nil : Sets (allSucceed []) id := fun _ => .pure fun _ => rfl

theorem Sets.cons {p : Driver Bool} {ps : List (Driver Bool)}
    {f g : (UInt8 → BitVec 16) → UInt8 → BitVec 16} (hp : Sets p f) (hps : Sets (allSucceed ps) g) :
    Sets (allSucceed (p :: ps)) (fun registers => g (f registers)) := by
  intro w
  refine .bind ((hp w).mono fun success w₁ h => ?_)
  refine .ite (fun _ => .pure fun h => absurd h Bool.false_ne_true) fun hsuccess => ?_
  rw [Bool.not_eq_true, Bool.not_eq_false'] at hsuccess
  refine (hps w₁).mono fun success' w' h' hsuccess' => ?_
  rw [h' hsuccess', h hsuccess]

/-- The interval between measurements is rounded to the nearest multiple of 20 ms between 20 ms and
1260 ms, and fits into its field. -/
theorem toNat_burstDataRate (value : UInt16) :
    (burstDataRate value).toNat ≤ 63 ∧
      20 * (burstDataRate value).toNat ≤ max 20 (min value.toNat 1260) + 10 ∧
      max 20 (min value.toNat 1260) < 20 * (burstDataRate value).toNat + 10 := by
  obtain ⟨clamped, hclamped⟩ : ∃ clamped : UInt16,
      clamped = if value < 20 then 20 else if value > 1260 then 1260 else value := ⟨_, rfl⟩
  have hvalue : clamped.toNat = max 20 (min value.toNat 1260) := by
    rw [hclamped]
    split_ifs with hlow hhigh
    · have hlow : value.toNat < 20 := UInt16.lt_iff_toNat_lt.mp hlow
      exact (show 20 = _ by omega)
    · have hhigh : 1260 < value.toNat := UInt16.lt_iff_toNat_lt.mp hhigh
      exact (show 1260 = _ by omega)
    · have hlow : ¬value.toNat < 20 := fun h => hlow (UInt16.lt_iff_toNat_lt.mpr h)
      have hhigh : ¬1260 < value.toNat := fun h => hhigh (UInt16.lt_iff_toNat_lt.mpr h)
      omega
  have hrate : (burstDataRate value).toNat = (clamped.toNat + 10) / 20 := by
    rw [burstDataRate, ← hclamped, UInt16.toNat_toUInt8, UInt16.toNat_div, UInt16.toNat_add]
    have hsum : (clamped.toNat + UInt16.toNat 10) % 2 ^ 16 = clamped.toNat + 10 :=
      Nat.mod_eq_of_lt (show clamped.toNat + 10 < 2 ^ 16 by omega)
    rw [hsum]
    exact Nat.mod_eq_of_lt (show (clamped.toNat + 10) / 20 < 2 ^ 8 by omega)
  omega

/-- The bits of the second and the third configuration register that are set. -/
def conf2Mask : BitVec 16 := regMaskCommMode ||| regMaskBurstDataRate ||| regMaskBurstSel
def conf3Mask : BitVec 16 :=
  regMaskResolutionX ||| regMaskResolutionY ||| regMaskResolutionZ ||| regMaskOversamplingRate |||
    regMaskTemperatureOversamplingRate ||| regMaskFilter

/-- The registers with all the settings: the gain in the first configuration register; SPI
communication, an interval of 20 ms and all measurements in the second one; the lowest resolutions,
the oversampling rates 2 and the filter 6 in the third one. -/
def configured (registers : UInt8 → BitVec 16) : UInt8 → BitVec 16 :=
  setField regConf3 0x101A conf3Mask
    (setField regConf2 0x43C1 conf2Mask (setField regConf1 0x0070 regMaskGain registers))

theorem sets_fieldSettings : Sets (allSucceed fieldSettings) configured := by
  have hchain := (sets_updateRegister regConf2 (0b10#16 <<< 13) regMaskCommMode).cons <|
    (sets_updateRegister regConf1 (gainSetting.code <<< 4) regMaskGain).cons <|
    (sets_updateRegister regConf3 (resolutionSetting.code <<< 5) regMaskResolutionX).cons <|
    (sets_updateRegister regConf3 (resolutionSetting.code <<< 7) regMaskResolutionY).cons <|
    (sets_updateRegister regConf3 (resolutionSetting.code <<< 9) regMaskResolutionZ).cons <|
    (sets_updateRegister regConf3 (BitVec.ofNat 16 2) regMaskOversamplingRate).cons <|
    (sets_updateRegister regConf3 (BitVec.ofNat 16 2 <<< 11)
      regMaskTemperatureOversamplingRate).cons <|
    (sets_updateRegister regConf3 (BitVec.ofNat 16 6 <<< 2) regMaskFilter).cons <|
    (sets_updateRegister regConf2 ((burstDataRate 20).toBitVec.setWidth 16)
      regMaskBurstDataRate).cons <|
    (sets_updateRegister regConf2 (measureAll.toBitVec.setWidth 16 <<< 6) regMaskBurstSel).cons
      sets_allSucceed_nil
  intro w
  refine (hchain w).mono fun success w' h hsuccess => (h hsuccess).trans ?_
  have h₂₃ : regConf2 <<< 2 ≠ regConf3 <<< 2 := by decide
  have h₁₂ : regConf1 <<< 2 ≠ regConf2 <<< 2 := by decide
  simp only [id, setField_setField]
  rw [setField_comm h₂₃, setField_comm h₁₂, setField_setField]
  rfl

/-- A command, and the sensor after it. -/
theorem ends_sendCommand (command : UInt8) (w : Sensor) :
    Ends Sensor.environment (sendCommand command)
      (fun _ w' => w' = ⟨w.receives [command, 0x00], fun i => w.faults (i + 1)⟩) w :=
  .bind (ends_transferSelected fun _ _ _ =>
    .ite (fun _ => .pure rfl) fun _ => .pure rfl)

/-- **The configuration of the magnetometer.** However transfers fail, the sensor reports errors and
writes store something else: if `configure` succeeds, then each field has the value that it should
have, and all other bits of the registers are as the reset has left them. -/
theorem ends_configure_settings (w : Sensor) :
    Ends Sensor.environment configure
      (fun success w' => success = true →
        w'.registers = configured ((w.faults 1).reset w.registers)) w := by
  have hfailed : ∀ {w' : Sensor}, Ends Sensor.environment (pure false : Driver Bool)
      (fun success w' => success = true →
        w'.registers = configured ((w.faults 1).reset w.registers)) w' :=
    .pure fun h => absurd h Bool.false_ne_true
  refine .bind ((ends_sendCommand cmdExitMode w).mono fun exited w₁ h₁ => ?_)
  refine .ite (fun _ => hfailed) fun _ => .bind (.perform ?_)
  refine .bind ((ends_sendCommand cmdReset _).mono fun reset w₂ h₂ => ?_)
  refine .ite (fun _ => hfailed) fun _ => .bind (.perform ?_)
  refine .bind ((sets_fieldSettings _).mono fun success w₃ h₃ => ?_)
  refine .ite (fun _ => hfailed) fun hsuccess => ?_
  rw [Bool.not_eq_true, Bool.not_eq_false'] at hsuccess
  refine .bind ((ends_sendCommand cmdStartBurstMode w₃).mono fun started w₄ h₄ => .pure fun _ => ?_)
  subst h₁ h₂ h₄
  exact h₃ hsuccess

end TellerOBC.Mlx90393
