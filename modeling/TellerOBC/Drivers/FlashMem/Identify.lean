import TellerOBC.Drivers.Detection

/-!
# Identifying the flash memory

`identify` with its transfers. A chip with 512 blocks or more is set to addresses of four bytes: it
is sent the command for that, and then its status register 3 is read, which says whether it uses
them. `readStatusRegister` returns minus one if the transfer fails, and the caller takes the lowest
bit of what it returns.

## Main definitions

* `TellerOBC.FlashMem.Probe.readJEDECId`, `TellerOBC.FlashMem.Probe.readStatusRegister`,
  `TellerOBC.FlashMem.Probe.setFourByteAddressingMode`, `TellerOBC.FlashMem.Probe.identify`.
* `TellerOBC.FlashMem.Probe.FourByteModeRead`: the chip said that it uses addresses of four bytes.

## Main results

* `TellerOBC.FlashMem.Probe.exists_identify_eq`: what is returned is what `FlashMem.identify` says.
* `TellerOBC.FlashMem.Probe.fourByteModeRead_iff`: a large chip is only accepted after it said so
  exactly if its status register is not read without success.
-/

namespace TellerOBC.FlashMem.Probe

open CutOff

def cmdInvalid : UInt8 := 0x00
def cmdReadStatusRegister2 : UInt8 := 0x35
def cmdReadStatusRegister3 : UInt8 := 0x15
def cmdReadJedecId : UInt8 := 0x9F
def cmdEnter4ByteMode : UInt8 := 0xB7
def cmdExit4ByteMode : UInt8 := 0xE9

/-- `readJEDECId`: zero if the transfer fails. -/
def readJEDECId : Driver UInt32 := do
  let reply ← transferSelected [cmdReadJedecId, 0, 0, 0]
  let rxBuf (i : ℕ) : UInt32 := (reply.received.getD i 0).toUInt32
  pure (if reply.ok then (rxBuf 1 <<< 16) ||| (rxBuf 2 <<< 8) ||| rxBuf 3 else 0)

/-- The command that `readStatusRegister` sends. -/
def statusRegisterCommand (index : UInt8) : UInt8 :=
  if index = 1 then cmdReadStatusRegister1
  else if index = 2 then cmdReadStatusRegister2
  else if index = 3 then cmdReadStatusRegister3
  else cmdInvalid

/-- `readStatusRegister`: the register with the given index, or minus one. -/
def readStatusRegister (index : UInt8) : Driver Int16 :=
  if statusRegisterCommand index ≠ cmdInvalid then do
    let reply ← transferSelected [statusRegisterCommand index, 0]
    pure (if reply.ok then (reply.received.getD 1 0).toUInt16.toInt16 else -1)
  else pure (-1)

/-- `setFourByteAddressingMode`. -/
def setFourByteAddressingMode (enabled : Bool) : Driver Bool := do
  let response ← transferSelected [if enabled then cmdEnter4ByteMode else cmdExit4ByteMode]
  if !response.ok then pure false
  else do
    let reg ← readStatusRegister 3
    pure (reg &&& 0x01 ≠ 0)

/-- `identify`: the configuration of the chip. -/
def identify : Driver (Option Config) := do
  let jedecId ← readJEDECId
  if jedecId >>> 16 = 0xEF then
    match knownDevices.find? fun device => device.1.toUInt32 = jedecId &&& 0xFFFF with
    | none => pure none
    | some device =>
      if device.2.blockCount ≥ 512 then do
        let success ← setFourByteAddressingMode true
        pure (if !success then none else some device.2)
      else pure (some device.2)
  else pure none

/-- The chip got the command to use addresses of four bytes, and then its status register 3, with
the bit for that, was read. -/
def FourByteModeRead (es : List SpiEvent) : Prop :=
  ∃ before enter between status after,
    es = before ++ ⟨.exchange [cmdEnter4ByteMode], enter⟩ ::
      (between ++ ⟨.exchange [cmdReadStatusRegister3, 0], status⟩ :: after) ∧
    enter.ok = true ∧ status.ok = true ∧ status.received.getD 1 0 &&& 0x01 ≠ 0

/-- The transfer that reads status register 3, and whether it succeeds. -/
def StatusRead (ok : Bool) (e : SpiEvent) : Prop :=
  match e with
  | ⟨.exchange txBuf, reply⟩ => txBuf = [cmdReadStatusRegister3, 0] ∧ reply.ok = ok
  | _ => False

/-! ### The transfers -/

variable {es : List SpiEvent}

/-- The lowest bit of a register. -/
theorem toInt16_and_one (reg : UInt8) :
    reg.toUInt16.toInt16 &&& 0x01 ≠ 0 ↔ reg &&& 0x01 ≠ 0 := by
  have hwide : (reg.toUInt16.toInt16 &&& 0x01).toBitVec.toNat = reg.toNat % 2 := by
    rw [Int16.toBitVec_and, BitVec.toNat_and]
    exact Nat.and_one_is_mod _
  have hbyte : (reg &&& 0x01).toNat = reg.toNat % 2 := by
    rw [UInt8.toNat_and]
    exact Nat.and_one_is_mod _
  refine not_congr ⟨fun hzero => UInt8.toNat.inj ?_,
    fun hzero => Int16.toBitVec.inj (BitVec.eq_of_toNat_eq ?_)⟩
  · rw [hbyte, ← hwide, hzero]
    rfl
  · rw [hwide, ← hbyte, hzero]
    rfl

/-- A byte is not negative, and survives its way through a wider type. -/
theorem not_toInt16_neg (reg : UInt8) :
    ¬reg.toUInt16.toInt16 < 0 ∧ reg.toUInt16.toInt16.toUInt16.toUInt8 = reg := by
  have hlt : reg.toUInt16.toInt16.toBitVec.toNat < 2 ^ 8 := by
    change reg.toUInt16.toNat < 2 ^ 8
    rw [UInt8.toNat_toUInt16]
    exact reg.toNat_lt
  have hint : reg.toUInt16.toInt16.toInt = reg.toUInt16.toInt16.toBitVec.toNat :=
    BitVec.toInt_eq_toNat_of_lt (by omega)
  refine ⟨fun hneg => ?_, UInt8.toUInt8_toUInt16 reg⟩
  rw [Int16.lt_iff_toInt_lt, hint] at hneg
  exact absurd hneg (Int.not_lt.mpr (Int.natCast_nonneg _))

/-- The register with the first index is the one that the rest of the driver reads. -/
theorem readStatusRegister_one :
    (do
      let reg ← readStatusRegister 1
      pure (if reg < 0 then none else some reg.toUInt16.toUInt8)) =
        FlashMem.readStatusRegister := by
  have hread : ∀ reply : SpiReply [cmdReadStatusRegister1, 0].length,
      (let reg : Int16 := if reply.ok then (reply.received.getD 1 0).toUInt16.toInt16 else -1
        if reg < 0 then none else some reg.toUInt16.toUInt8) =
      if reply.ok then reply.received[1]? else none := by
    intro reply
    have hlength : 1 < reply.received.length := by
      rw [reply.length_received]
      decide
    dsimp only
    split_ifs with hok hneg hneg
    · exact absurd hneg (not_toInt16_neg _).1
    · rw [(not_toInt16_neg _).2, List.getD_eq_getElem?_getD, List.getElem?_eq_getElem hlength,
        Option.getD_some]
    · rfl
    · exact absurd (by decide) hneg
  refine congrArg OptionT.mk (congrArg (Program.call _) (funext fun _ => ?_))
  refine congrArg (Program.call _) (funext fun reply => ?_)
  refine congrArg (Program.call _) (funext fun _ => ?_)
  exact congrArg (Program.done ∘ some) (hread reply)

/-- What `readJEDECId` does on the bus. -/
theorem runs_readJEDECId {r : Option UInt32} (h : Runs readJEDECId es r) :
    ∃ reply jedecId, r = some jedecId ∧ es = [⟨.chipSelect true, ()⟩,
      ⟨.exchange [cmdReadJedecId, 0, 0, 0], reply⟩, ⟨.chipSelect false, ()⟩] := by
  obtain ⟨reply, rest, rfl, hend⟩ := runs_transferSelected_bind h
  obtain ⟨rfl, rfl⟩ := runs_pure.mp hend
  exact ⟨reply, _, rfl, rfl⟩

/-- What `readStatusRegister` does on the bus for the third register. -/
theorem runs_readStatusRegister_three {r : Option Int16} (h : Runs (readStatusRegister 3) es r) :
    ∃ status, es = [⟨.chipSelect true, ()⟩, ⟨.exchange [cmdReadStatusRegister3, 0], status⟩,
        ⟨.chipSelect false, ()⟩] ∧
      r = some (if status.ok then (status.received.getD 1 0).toUInt16.toInt16 else -1) := by
  obtain ⟨status, rest, rfl, hend⟩ := runs_transferSelected_bind h
  obtain ⟨rfl, rfl⟩ := runs_pure.mp hend
  exact ⟨status, rfl, rfl⟩

/-- What `setFourByteAddressingMode` does on the bus: the register is only read after the command
was sent, and if that fails, the result is the same as for a set bit. -/
theorem runs_setFourByteAddressingMode {r : Option Bool}
    (h : Runs (setFourByteAddressingMode true) es r) :
    ∃ enter rest, es = ⟨.chipSelect true, ()⟩ :: ⟨.exchange [cmdEnter4ByteMode], enter⟩ ::
        ⟨.chipSelect false, ()⟩ :: rest ∧
      (rest = [] ∧ r = some false ∨ enter.ok = true ∧ ∃ status,
        rest = [⟨.chipSelect true, ()⟩, ⟨.exchange [cmdReadStatusRegister3, 0], status⟩,
          ⟨.chipSelect false, ()⟩] ∧
        r = some (!status.ok || status.received.getD 1 0 &&& 0x01 ≠ 0)) := by
  obtain ⟨enter, rest, rfl, hrest⟩ := runs_transferSelected_bind h
  refine ⟨enter, rest, rfl, ?_⟩
  cases hok : enter.ok with
  | false =>
    simp only [hok, Bool.not_false, ↓reduceIte] at hrest
    exact .inl (runs_pure.mp hrest)
  | true =>
    simp only [hok, Bool.not_true, Bool.false_eq_true, ↓reduceIte] at hrest
    refine .inr ⟨rfl, ?_⟩
    rcases runs_bind.mp hrest with ⟨hcut, -⟩ | ⟨es₃, es₄, reg, rfl, hread, hend⟩
    · obtain ⟨_, -, hsome⟩ := runs_readStatusRegister_three hcut
      cases hsome
    obtain ⟨status, rfl, hreg⟩ := runs_readStatusRegister_three hread
    obtain ⟨rfl, rfl⟩ := runs_pure.mp hend
    refine ⟨status, rfl, congrArg some ?_⟩
    obtain rfl := Option.some.inj hreg
    cases status.ok with
    | false =>
      -- minus one has this bit, as all others
      exact decide_eq_true (show (-1 : Int16) &&& 0x01 ≠ 0 by decide)
    | true => exact decide_eq_decide.mpr (toInt16_and_one _)

/-- What `identify` does on the bus: the other transfers are made for a large chip. -/
theorem runs_identify {r : Option (Option Config)} (h : Runs identify es r) :
    ∃ reply rest, es = ⟨.chipSelect true, ()⟩ :: ⟨.exchange [cmdReadJedecId, 0, 0, 0], reply⟩ ::
        ⟨.chipSelect false, ()⟩ :: rest ∧
      (rest = [] ∧ (∀ cfg, r = some (some cfg) → cfg.blockCount < 512) ∨
        ∃ cfg mode, cfg.blockCount ≥ 512 ∧ Runs (setFourByteAddressingMode true) rest (some mode) ∧
          r = some (if !mode then none else some cfg)) := by
  rcases runs_bind.mp h with ⟨hcut, -⟩ | ⟨es₁, es₂, jedecId, rfl, hread, hrest⟩
  · obtain ⟨_, _, hnone, -⟩ := runs_readJEDECId hcut
    cases hnone
  obtain ⟨reply, _, -, rfl⟩ := runs_readJEDECId hread
  refine ⟨reply, es₂, rfl, ?_⟩
  split_ifs at hrest
  · split at hrest
    · obtain ⟨rfl, rfl⟩ := runs_pure.mp hrest
      exact .inl ⟨rfl, nofun⟩
    next device _ =>
    split_ifs at hrest with hlarge
    · rcases runs_bind.mp hrest with ⟨hcut, -⟩ | ⟨es₃, es₄, mode, rfl, hmode, hend⟩
      · obtain ⟨_, _, -, ⟨-, hnone⟩ | ⟨-, _, -, hnone⟩⟩ := runs_setFourByteAddressingMode hcut <;>
          cases hnone
      · obtain ⟨rfl, rfl⟩ := runs_pure.mp hend
        rw [List.append_nil]
        exact .inr ⟨device.2, mode, hlarge, hmode, rfl⟩
    · obtain ⟨rfl, rfl⟩ := runs_pure.mp hrest
      refine .inl ⟨rfl, fun cfg hcfg => ?_⟩
      obtain rfl := Option.some.inj (Option.some.inj hcfg)
      exact UInt32.not_le.mp hlarge
  · obtain ⟨rfl, rfl⟩ := runs_pure.mp hrest
    exact .inl ⟨rfl, nofun⟩

/-- What is returned is what the table says of some JEDEC ID. -/
theorem exists_identify_eq {cfg : Option Config} (h : Runs identify es (some cfg)) :
    ∃ jedecId mode, cfg = FlashMem.identify jedecId mode := by
  rcases runs_bind.mp h with ⟨-, hcut⟩ | ⟨es₁, es₂, jedecId, rfl, -, hrest⟩
  · cases hcut
  split_ifs at hrest with hwinbond
  · split at hrest
    · next hfind =>
      refine ⟨jedecId, true, ?_⟩
      rw [FlashMem.identify, if_pos hwinbond, hfind]
      exact Option.some.inj (runs_pure.mp hrest).2
    next device hfind =>
    split_ifs at hrest with hlarge
    · rcases runs_bind.mp hrest with ⟨-, hcut⟩ | ⟨es₃, es₄, mode, rfl, -, hend⟩
      · cases hcut
      refine ⟨jedecId, mode, ?_⟩
      rw [FlashMem.identify, if_pos hwinbond, hfind, Option.some.inj (runs_pure.mp hend).2]
      cases mode with
      | false => exact (if_pos ⟨hlarge, rfl⟩).symm
      | true => exact (if_neg fun hfailed => Bool.false_ne_true hfailed.2.symm).symm
    · refine ⟨jedecId, true, ?_⟩
      rw [FlashMem.identify, if_pos hwinbond, hfind, Option.some.inj (runs_pure.mp hrest).2]
      exact (if_neg fun hfailed => hlarge hfailed.1).symm
  · refine ⟨jedecId, true, ?_⟩
    rw [FlashMem.identify, if_neg hwinbond]
    exact Option.some.inj (runs_pure.mp hrest).2

theorem FourByteModeRead.exists_statusRead (h : FourByteModeRead es) :
    ∃ e ∈ es, StatusRead true e := by
  obtain ⟨before, enter, between, status, after, rfl, -, hok, -⟩ := h
  exact ⟨_, List.mem_append_right _ (.tail _ (List.mem_append_right _ (.head _))), rfl, hok⟩

/-- A selected transfer of other bytes does not read status register 3. -/
theorem not_statusRead_selection {ok : Bool} {txBuf : List UInt8} (reply : SpiReply txBuf.length)
    (htx : txBuf ≠ [cmdReadStatusRegister3, 0]) {rest : List SpiEvent} :
    (∀ e ∈ ⟨.chipSelect true, ()⟩ :: ⟨.exchange txBuf, reply⟩ :: ⟨.chipSelect false, ()⟩ :: rest,
      ¬StatusRead ok e) ↔ ∀ e ∈ rest, ¬StatusRead ok e := by
  simp only [List.forall_mem_cons]
  refine ⟨fun h => h.2.2.2, fun h => ⟨id, fun hread => htx hread.1, id, h⟩⟩

theorem statusRead_selection {ok : Bool}
    (status : SpiReply [cmdReadStatusRegister3, 0].length) :
    (∀ e ∈ [⟨.chipSelect true, ()⟩, ⟨.exchange [cmdReadStatusRegister3, 0], status⟩,
      ⟨.chipSelect false, ()⟩], ¬StatusRead ok e) ↔ status.ok ≠ ok := by
  simp only [List.forall_mem_cons, List.not_mem_nil, false_implies, implies_true, and_true]
  exact ⟨fun h hok => h.2.1 ⟨rfl, hok⟩, fun h => ⟨id, fun hread => h hread.2, id⟩⟩

/-- **What is known of a large chip.** In every run of `identify`, a configuration with 512 blocks
or more is only returned after the chip said that it uses addresses of four bytes, if and only if no
transfer fails that reads status register 3. -/
theorem fourByteModeRead_iff {r : Option (Option Config)} (h : Runs identify es r) :
    (∀ cfg, r = some (some cfg) → cfg.blockCount ≥ 512 → FourByteModeRead es) ↔
      ∀ e ∈ es, ¬StatusRead false e := by
  obtain ⟨jedecId, rest, rfl, ⟨rfl, hsmall⟩ | ⟨cfg, mode, hlarge, hmode, rfl⟩⟩ := runs_identify h
  · rw [not_statusRead_selection _ (by decide)]
    refine iff_of_true (fun cfg hcfg hlarge => ?_) nofun
    exact absurd (hsmall cfg hcfg) (UInt32.not_lt.mpr hlarge)
  obtain ⟨enter, rest, rfl, ⟨rfl, hfalse⟩ | ⟨henter, status, rfl, hresult⟩⟩ :=
    runs_setFourByteAddressingMode hmode
  · obtain rfl := Option.some.inj hfalse
    rw [not_statusRead_selection _ (by decide), not_statusRead_selection _ (by decide)]
    exact iff_of_true nofun nofun
  have hread : ∀ ok, (∀ e ∈ _, ¬StatusRead ok e) ↔ status.ok ≠ ok := fun ok =>
    (not_statusRead_selection jedecId (by decide)).trans
      ((not_statusRead_selection enter (by decide)).trans (statusRead_selection status))
  rw [hread, Option.some.inj hresult]
  cases hok : status.ok with
  | false =>
    -- the register is unknown, but its bit counts as set
    refine iff_of_false (fun hknown => ?_) (fun hne => hne rfl)
    obtain ⟨e, he, hstatus⟩ := (hknown cfg rfl hlarge).exists_statusRead
    exact (hread true).mpr (by rw [hok]; exact Bool.false_ne_true) e he hstatus
  | true =>
    refine iff_of_true (fun cfg' hcfg _ => ?_) nofun
    by_cases hbit : status.received.getD 1 0 &&& 0x01 ≠ 0
    · exact ⟨[_, _, _, _], enter, [_, _], status, [_], rfl, henter, hok, hbit⟩
    · rw [decide_eq_false hbit] at hcfg
      cases hcfg

/-! ### A large chip -/

/-- A bus with a chip of 512 blocks that sends the given status, where the transfer for that may
fail. -/
def largeChip (ok : Bool) (status : UInt8) : Program.Environment SpiCall.Answer Unit
  | .chipSelect _, _ => ((), ())
  | .exchange [_, _], _ => (⟨ok, [0, status], rfl⟩, ())
  | .exchange [_, _, _, _], _ => (⟨true, [0, 0xEF, 0x40, 0x19], rfl⟩, ())
  | .exchange txBuf, _ => (.ones true txBuf.length, ())
  | .getTimeSinceBootMsec, _ => (0, ())
  | .delayMsec _, _ => ((), ())

/-- The run of `identify` with this chip. -/
theorem runs_identify_largeChip (ok : Bool) (status : UInt8) :
    Runs identify (identify.run.trace (largeChip ok status) ())
      (identify.run.exec (largeChip ok status) ()).1 :=
  Program.runs_trace (largeChip ok status) identify.run ()

/-- The chip is accepted although its status register could not be read. -/
theorem not_fourByteModeRead : ∃ es cfg, Runs identify es (some (some cfg)) ∧
    cfg.blockCount ≥ 512 ∧ ¬FourByteModeRead es := by
  have hruns := runs_identify_largeChip false 0
  have hresult : (identify.run.exec (largeChip false 0) ()).1 = some (some ⟨512⟩) := rfl
  rw [hresult] at hruns
  refine ⟨_, ⟨512⟩, hruns, by decide, fun hknown => ?_⟩
  obtain ⟨e, he, hstatus⟩ := hknown.exists_statusRead
  exact (not_statusRead_selection _ (by decide)).mpr ((not_statusRead_selection _ (by decide)).mpr
    ((statusRead_selection _).mpr Bool.false_ne_true)) e he hstatus

/-- What the theorem says of a chip that uses addresses of four bytes. -/
theorem fourByteModeRead_iff_largeChip :
    (∀ cfg, (identify.run.exec (largeChip true 1) ()).1 = some (some cfg) → cfg.blockCount ≥ 512 →
        FourByteModeRead (identify.run.trace (largeChip true 1) ())) ↔
      ∀ e ∈ identify.run.trace (largeChip true 1) (), ¬StatusRead false e :=
  fourByteModeRead_iff (runs_identify_largeChip true 1)

end TellerOBC.FlashMem.Probe
