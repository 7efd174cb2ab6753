import TellerOBC.Drivers.FlashMem.PagePrograms
import TellerOBC.Foundations.NorMemory

/-!
# The flash memory chip

What the driver relies on in a W25Q chip. A chip takes the bytes that it receives while the chip
select line is low as one command, and does what the command says when the line is released. The
commands that write need writing to be enabled, which they undo, and keep the chip busy for a while;
a busy chip obeys no command but the one to read the status register. How long it is busy is counted
in readings of the status register.

All transfers succeed. Then each function of the driver that reads, programs or erases makes one
attempt, and its effect is that of a NOR memory.

## Main definitions

* `TellerOBC.FlashMem.Chip`, `TellerOBC.FlashMem.Chip.environment`.

## Main results

* `TellerOBC.FlashMem.exec_eraseSector`, `TellerOBC.FlashMem.exec_programFromBuffer`,
  `TellerOBC.FlashMem.exec_readIntoBuffer`.
-/

namespace TellerOBC.FlashMem

open CutOff NorMemory

/-! ### The chip -/

/-- A chip on the bus. -/
structure Chip where
  memory : ℕ → UInt8
  writeEnabled : Bool
  /-- The number of times that the status register will still tell that the chip is busy. -/
  busy : ℕ
  /-- How long the chip will be busy with the next writing commands. -/
  durations : ℕ → ℕ
  /-- The bytes received since the chip select line went low. -/
  received : List UInt8

namespace Chip

variable (cfg : Config) (w : Chip)

/-- The status register. -/
def status : UInt8 :=
  (if w.busy = 0 then 0x00 else 0x01) ||| (if w.writeEnabled then 0x02 else 0x00)

/-- The byte that the chip sends together with the byte at a position of the selection, where the
bytes of the selection are given. -/
def sends (bytes : List UInt8) (position : ℕ) : UInt8 :=
  match bytes with
  | [] => 0xFF
  | cmd :: rest =>
    if cmd = cmdReadStatusRegister1 then if position = 0 then 0xFF else w.status
    else if cmd = cmdReadData ∧ w.busy = 0 ∧ cfg.addressSize < position then
      w.memory (addressOf (rest.take cfg.addressSize) + (position - 1 - cfg.addressSize))
    else 0xFF

/-- A writing command begins. -/
def startWriting (memory : ℕ → UInt8) : Chip where
  memory := memory
  writeEnabled := false
  busy := w.durations 0
  durations := fun i => w.durations (i + 1)
  received := []

/-- Program a page: the addresses go on at the beginning of the page after its end, and only the
last bytes of too many count. -/
def programPage (address : ℕ) (data : List UInt8) : ℕ → UInt8 := fun a =>
  let last := data.drop (data.length - pageSize)
  let first := (address + (data.length - pageSize)) % pageSize
  if a / pageSize = address / pageSize then
    match last[(a % pageSize + pageSize - first) % pageSize]? with
    | some byte => w.memory a &&& byte
    | none => w.memory a
  else w.memory a

/-- The chip select line is released: the chip does what the bytes of the selection say. -/
def release : Chip :=
  let done := { w with received := [] }
  match w.received with
  | [] => done
  | cmd :: rest =>
    let address := addressOf (rest.take cfg.addressSize)
    if cmd = cmdReadStatusRegister1 then { done with busy := w.busy - 1 }
    else if w.busy ≠ 0 then done
    else if cmd = cmdWriteEnable then { done with writeEnabled := true }
    else if cmd = cmdWriteDisable then { done with writeEnabled := false }
    else if !w.writeEnabled then done
    else if cmd = cmdSectorErase4K ∧ rest.length = cfg.addressSize then
      w.startWriting (erase w.memory (address / 4096 * 4096) 4096)
    else if cmd = cmdPageProgram ∧ cfg.addressSize < rest.length then
      w.startWriting (w.programPage address (rest.drop cfg.addressSize))
    else done

/-- The bus with the chip: every transfer succeeds. -/
def environment : Program.Environment SpiCall.Answer Chip
  | .chipSelect true, w => ((), { w with received := [] })
  | .chipSelect false, w => ((), w.release cfg)
  | .exchange txBuf, w =>
    let bytes := w.received ++ txBuf
    (⟨true, (List.range txBuf.length).map fun i => w.sends cfg bytes (w.received.length + i),
        by rw [List.length_map, List.length_range]⟩,
      { w with received := bytes })
  | .getTimeSinceBootMsec, w => (0, w)
  | .delayMsec _, w => ((), w)

/-- The chip after a command in one selection. -/
def command (bytes : List UInt8) : Chip := { w with received := bytes }.release cfg

end Chip

variable {cfg : Config} {w : Chip} {passes : ℕ}

/-- A transfer in a selection of its own. -/
theorem exec_transferSelected (cfg : Config) (w : Chip) (txBuf : List UInt8) :
    ∃ reply : SpiReply txBuf.length, reply.ok = true ∧
      reply.received = (List.range txBuf.length).map (w.sends cfg txBuf) ∧
      (transferSelected txBuf).run.exec (Chip.environment cfg) w =
        (some reply, w.command cfg txBuf) := by
  refine ⟨(Chip.environment cfg (.exchange txBuf) { w with received := [] }).1, rfl, ?_, rfl⟩
  refine List.map_congr_left fun i _ => ?_
  rw [List.length_nil, Nat.zero_add]
  rfl

/-- The status register is read. -/
theorem exec_readStatusRegister (cfg : Config) (w : Chip) :
    readStatusRegister.run.exec (Chip.environment cfg) w =
      (some (some w.status), { w with busy := w.busy - 1, received := [] }) := by
  obtain ⟨reply, hok, hreceived, hexec⟩ :=
    exec_transferSelected cfg w [cmdReadStatusRegister1, 0]
  rw [readStatusRegister, exec_bind_of_some hexec, hok, hreceived]
  rfl

theorem status_and (w : Chip) :
    (w.status &&& 0x01 = 0 ↔ w.busy = 0) ∧ (w.status &&& 0x02 ≠ 0 ↔ w.writeEnabled = true) := by
  rw [Chip.status]
  by_cases hbusy : w.busy = 0 <;> cases w.writeEnabled <;> simp [hbusy] <;> decide

/-- Waiting ends when the chip is ready. -/
theorem exec_waitWhileBusy (cfg : Config) (w : Chip) (h : w.busy < passes) :
    (waitWhileBusy passes).run.exec (Chip.environment cfg) w =
      (some true, { w with busy := 0, received := [] }) := by
  induction passes generalizing w with
  | zero => exact absurd h (Nat.not_lt_zero _)
  | succ passes ih =>
    rw [waitWhileBusy, exec_bind_of_some (exec_readStatusRegister cfg w)]
    dsimp only
    by_cases hbusy : w.busy = 0
    · rw [if_pos ((status_and w).1.mpr hbusy), hbusy]
      rfl
    · rw [if_neg (mt (status_and w).1.mp hbusy)]
      have hdelay : (delayMsec 1).run.exec (Chip.environment cfg)
          { w with busy := w.busy - 1, received := [] } =
            (some (), { w with busy := w.busy - 1, received := [] }) := rfl
      rw [exec_bind_of_some hdelay]
      exact ih _ (show w.busy - 1 < passes by omega)

/-- Writing is enabled. -/
theorem exec_enableWriting (cfg : Config) (w : Chip) (h : w.busy = 0) :
    enableWriting.run.exec (Chip.environment cfg) w =
      (some true, { w with writeEnabled := true, received := [] }) := by
  obtain ⟨reply, hok, -, hexec⟩ := exec_transferSelected cfg w [cmdWriteEnable]
  have hcommand : w.command cfg [cmdWriteEnable] =
      { w with writeEnabled := true, received := [] } := by
    simp [Chip.command, Chip.release, h, cmdWriteEnable, cmdReadStatusRegister1]
  rw [enableWriting, exec_bind_of_some hexec, if_pos hok, hcommand, isWriteEnabled,
    exec_bind_of_some (exec_readStatusRegister cfg _)]
  have hstatus := (status_and { w with writeEnabled := true, received := [] }).2.mpr rfl
  change (some (decide _), _) = _
  rw [decide_eq_true hstatus, h]

/-- Writing is disabled. -/
theorem exec_disableWriting (cfg : Config) (w : Chip) (h : w.busy = 0) :
    (disableWriting true).run.exec (Chip.environment cfg) w =
      (some (), { w with writeEnabled := false, received := [] }) := by
  obtain ⟨reply, -, -, hexec⟩ := exec_transferSelected cfg w [cmdWriteDisable]
  have hcommand : w.command cfg [cmdWriteDisable] =
      { w with writeEnabled := false, received := [] } := by
    simp [Chip.command, Chip.release, h, cmdWriteEnable, cmdReadStatusRegister1, cmdWriteDisable]
  rw [disableWriting, if_pos rfl, exec_bind_of_some hexec, hcommand]
  rfl

/-! ### Commands with an address -/

/-- The address of the bytes that the driver sends is understood. -/
theorem addressOf_header {address : UInt32}
    (h : cfg.blockCount ≥ 512 ∨ address.toNat < 2 ^ 24) (data : List UInt8) :
    addressOf ((fillBufferWithAddress cfg address ++ data).take cfg.addressSize) =
      address.toNat := by
  rw [← length_fillBufferWithAddress cfg address, List.take_left,
    addressOf_fillBufferWithAddress]
  split_ifs with hlarge
  · rfl
  · exact Nat.mod_eq_of_lt (h.resolve_left hlarge)

/-- The chip after a writing command that has begun has ended. -/
def Chip.wrote (w : Chip) (memory : ℕ → UInt8) : Chip where
  memory := memory
  writeEnabled := false
  busy := 0
  durations := fun i => w.durations (i + 1)
  received := []

/-- The end of a writing command. -/
theorem exec_finishWriting {σ : Type} (cfg : Config) (w : Chip) (memory : ℕ → UInt8)
    (hpasses : w.durations 0 < passes) (buffers : σ) :
    (finishWriting passes true (true, buffers)).run.exec (Chip.environment cfg)
        (w.startWriting memory) = (some (true, buffers), w.wrote memory) := by
  rw [finishWriting, exec_bind_of_some (exec_waitWhileBusy cfg (w.startWriting memory) hpasses),
    exec_bind_of_some (exec_disableWriting cfg _ rfl)]
  rfl

/-- An attempt to erase. -/
theorem exec_eraseAttempt {σ : Type} {send : σ → Driver (Bool × σ)} {buffers buffers' : σ}
    (cfg : Config) (w : Chip) (hpasses : w.busy < passes) (hnext : w.durations 0 < passes)
    {memory : ℕ → UInt8}
    (hsend : (send buffers).run.exec (Chip.environment cfg)
        { w with busy := 0, writeEnabled := true, received := [] } =
      (some (true, buffers'), w.startWriting memory)) :
    (eraseAttempt passes send buffers).run.exec (Chip.environment cfg) w =
      (some (true, buffers'), w.wrote memory) := by
  rw [eraseAttempt, exec_bind_of_some (exec_waitWhileBusy cfg w hpasses)]
  simp only [Bool.not_true, Bool.false_eq_true, if_false]
  rw [exec_bind_of_some (exec_enableWriting cfg _ rfl), sendIfEnabled, if_pos rfl,
    exec_bind_of_some hsend]
  exact exec_finishWriting cfg w memory hnext buffers'

/-- An attempt to program. -/
theorem exec_programAttempt {σ : Type} {send : σ → Driver (Bool × σ)} {buffers buffers' : σ}
    (cfg : Config) (w : Chip) (hpasses : w.busy < passes) (hnext : w.durations 0 < passes)
    {memory : ℕ → UInt8}
    (hsend : (send buffers).run.exec (Chip.environment cfg)
        { w with busy := 0, writeEnabled := true, received := [] } =
      (some (true, buffers'), w.startWriting memory)) :
    (programAttempt passes send buffers).run.exec (Chip.environment cfg) w =
      (some (true, buffers'), w.wrote memory) := by
  rw [programAttempt, exec_bind_of_some (exec_waitWhileBusy cfg w hpasses)]
  simp only [Bool.not_true, Bool.false_eq_true, if_false]
  rw [exec_bind_of_some (exec_enableWriting cfg _ rfl)]
  simp only [Bool.not_true, Bool.false_eq_true, if_false]
  rw [exec_bind_of_some hsend]
  exact exec_finishWriting cfg w memory hnext buffers'

/-- An attempt to read. -/
theorem exec_readAttempt {σ : Type} {send : σ → Driver (Bool × σ)} {buffers buffers' : σ}
    {w' : Chip} (cfg : Config) (w : Chip) (hpasses : w.busy < passes)
    (hsend : (send buffers).run.exec (Chip.environment cfg) { w with busy := 0, received := [] } =
      (some (true, buffers'), w')) :
    (readAttempt passes send buffers).run.exec (Chip.environment cfg) w =
      (some (true, buffers'), w') := by
  rw [readAttempt, exec_bind_of_some (exec_waitWhileBusy cfg w hpasses), if_pos rfl]
  exact hsend

/-- One attempt that succeeds is enough. -/
theorem exec_retrying {σ : Type} {attempt : σ → Driver (Bool × σ)} {buffers buffers' : σ}
    {w w' : Chip}
    (h : (attempt buffers).run.exec (Chip.environment cfg) w = (some (true, buffers'), w'))
    (retries : ℕ) :
    (retrying attempt (retries + 1) buffers).run.exec (Chip.environment cfg) w =
      (some (true, buffers'), w') := by
  rw [retrying, exec_bind_of_some h]
  rfl

/-- The chip gets the command to erase a sector. -/
theorem command_erase {address : UInt32} (h : cfg.blockCount ≥ 512 ∨ address.toNat < 2 ^ 24)
    (hbusy : w.busy = 0) (henabled : w.writeEnabled = true) :
    w.command cfg (header cfg cmdSectorErase4K address) =
      w.startWriting (erase w.memory (address.toNat / 4096 * 4096) 4096) := by
  have haddress := addressOf_header h []
  rw [List.append_nil] at haddress
  simp [Chip.command, Chip.release, header, hbusy, henabled, haddress, Chip.startWriting,
    length_fillBufferWithAddress, cmdSectorErase4K, cmdReadStatusRegister1, cmdWriteEnable,
    cmdWriteDisable]

/-- **A sector is erased.** -/
theorem exec_eraseSector {sector : UInt32} (w : Chip) (hpasses : w.busy < passes)
    (hnext : w.durations 0 < passes)
    (hsize : 65536 * cfg.blockCount.toNat < 2 ^ 32 ∧
      (cfg.blockCount ≥ 512 ∨ 65536 * cfg.blockCount.toNat ≤ 2 ^ 24))
    (hsector : 4096 * sector.toNat < 65536 * cfg.blockCount.toNat) :
    ∃ buf, (eraseSector passes cfg sector).run.exec (Chip.environment cfg) w =
      (some (true, buf), w.wrote (erase w.memory (4096 * sector.toNat) 4096)) := by
  have hcount : (cfg.blockCount * sectorsInBlock).toNat = 16 * cfg.blockCount.toNat := by
    rw [UInt32.toNat_mul, show sectorsInBlock.toNat = 16 from rfl, Nat.mul_comm]
    exact Nat.mod_eq_of_lt (by omega)
  have hvalid : ¬sector ≥ cfg.blockCount * sectorsInBlock := by
    rw [ge_iff_le, UInt32.le_iff_toNat_le, hcount]
    omega
  have haddress : (sectorToAddress sector 0).toNat = 4096 * sector.toNat :=
    toNat_sectorToAddress (show 4096 * sector.toNat + 0 < 2 ^ 32 by omega)
  have hchip : cfg.blockCount ≥ 512 ∨ (sectorToAddress sector 0).toNat < 2 ^ 24 := by
    rw [haddress]
    exact hsize.2.imp_right (Nat.lt_of_lt_of_le hsector)
  obtain ⟨reply, hok, -, hexec⟩ := exec_transferSelected cfg
    { w with busy := 0, writeEnabled := true, received := [] }
    (header cfg cmdSectorErase4K (sectorToAddress sector 0))
  have hsend : (sendInPlace (header cfg cmdSectorErase4K (sectorToAddress sector 0))).run.exec
      (Chip.environment cfg) { w with busy := 0, writeEnabled := true, received := [] } =
        (some (true, reply.received),
          w.startWriting (erase w.memory (4096 * sector.toNat) 4096)) := by
    rw [sendInPlace, exec_bind_of_some hexec, hok, command_erase hchip rfl rfl, haddress,
      Nat.mul_div_cancel_left _ (by decide), Nat.mul_comm]
    rfl
  refine ⟨reply.received, ?_⟩
  rw [eraseSector, if_neg hvalid]
  exact exec_retrying (exec_eraseAttempt cfg w hpasses hnext hsend) 4

/-- What the chip sends during a transfer. -/
def Chip.reply (cfg : Config) (w : Chip) (txBuf : List UInt8) : List UInt8 :=
  (List.range txBuf.length).map fun i =>
    w.sends cfg (w.received ++ txBuf) (w.received.length + i)

/-- An entry of an array is transferred, and then the rest of the array. -/
theorem exec_transferEntries_cons {w w' : Chip} {t : SpiTransfer} (ht : t ≠ noMoreTransfers)
    {transfers transfers' : List SpiTransfer} {count : ℕ}
    (hrest : (transferEntries transfers count).run.exec (Chip.environment cfg)
      { w with received := w.received ++ t.source } = (some (true, transfers'), w')) :
    (transferEntries (t :: transfers) (count + 1)).run.exec (Chip.environment cfg) w =
      (some (true, t.store (w.reply cfg t.source) :: transfers'), w') := by
  have htransfer : (transfer t.source).run.exec (Chip.environment cfg) w =
      (some (Chip.environment cfg (.exchange t.source) w).1,
        { w with received := w.received ++ t.source }) := rfl
  have hok : (Chip.environment cfg (.exchange t.source) w).1.ok = true := rfl
  rw [transferEntries, if_neg ht, exec_bind_of_some htransfer, if_pos hok,
    exec_bind_of_some hrest]
  rfl

/-- Two transfers in one selection. -/
theorem exec_two_transfers (cfg : Config) (w : Chip) (t₁ t₂ : SpiTransfer)
    (h₁ : t₁ ≠ noMoreTransfers) (h₂ : t₂ ≠ noMoreTransfers) :
    (sendTransfers [t₁, t₂, noMoreTransfers]).run.exec (Chip.environment cfg) w =
      (some (true,
        [t₁.store (Chip.reply cfg { w with received := [] } t₁.source),
          t₂.store (Chip.reply cfg { w with received := t₁.source } t₂.source),
          noMoreTransfers]),
        w.command cfg (t₁.source ++ t₂.source)) := by
  have hselect : (select true).run.exec (Chip.environment cfg) w =
      (some (), { w with received := [] }) := rfl
  have hguard : (transferEntries [noMoreTransfers] (65532 + 1)).run.exec (Chip.environment cfg)
      { w with received := t₁.source ++ t₂.source } =
        (some (true, [noMoreTransfers]), { w with received := t₁.source ++ t₂.source }) := rfl
  have hsecond := exec_transferEntries_cons (w := { w with received := t₁.source }) h₂ hguard
  have hentries := exec_transferEntries_cons (w := { w with received := [] }) h₁ hsecond
  rw [sendTransfers, transferAll, withSelected, exec_bind_of_some hselect]
  exact exec_bind_of_some hentries _

/-- A program that is in one page. -/
theorem programPage_eq (w : Chip) {address : ℕ} {data : List UInt8}
    (h : address % pageSize + data.length ≤ pageSize) :
    w.programPage address data = program w.memory address data := by
  have hsize : pageSize = 256 := rfl
  have hshort : data.length - pageSize = 0 := by omega
  funext a
  rw [Chip.programPage, hshort, List.drop_zero, Nat.add_zero]
  by_cases hpage : a / pageSize = address / pageSize
  · rw [if_pos hpage, program]
    rw [hsize] at h hpage ⊢
    split_ifs with hle
    · have hindex : (a % 256 + 256 - address % 256) % 256 = a - address := by omega
      exact hindex ▸ rfl
    · rw [List.getElem?_eq_none (by omega)]
  · rw [if_neg hpage, program_of_not_mem]
    rw [hsize] at h hpage
    omega

/-- The chip gets the command to program a page. -/
theorem command_program {address : UInt32} {data : List UInt8}
    (h : cfg.blockCount ≥ 512 ∨ address.toNat < 2 ^ 24) (hpos : data ≠ [])
    (hpage : address.toNat % pageSize + data.length ≤ pageSize)
    (hbusy : w.busy = 0) (henabled : w.writeEnabled = true) :
    w.command cfg (header cfg cmdPageProgram address ++ data) =
      w.startWriting (program w.memory address.toNat data) := by
  have hdrop : (fillBufferWithAddress cfg address ++ data).drop cfg.addressSize = data := by
    rw [← length_fillBufferWithAddress cfg address, List.drop_left]
  have hlength : cfg.addressSize < (fillBufferWithAddress cfg address).length + data.length := by
    rw [length_fillBufferWithAddress]
    exact Nat.lt_add_of_pos_right (List.length_pos_of_ne_nil hpos)
  have hprogram : Chip.programPage { w with received := header cfg cmdPageProgram address ++ data }
      address.toNat data = program w.memory address.toNat data := programPage_eq _ hpage
  rw [← hprogram]
  simp [Chip.command, Chip.release, header, hbusy, henabled, hdrop, addressOf_header h data,
    Chip.startWriting, hlength, cmdPageProgram, cmdSectorErase4K, cmdReadStatusRegister1,
    cmdWriteEnable, cmdWriteDisable]

/-- The chip gets the command to read. -/
theorem command_read (address : UInt32) (data : List UInt8) :
    w.command cfg (header cfg cmdReadData address ++ data) = { w with received := [] } := by
  simp [Chip.command, Chip.release, header, cmdReadData, cmdPageProgram, cmdSectorErase4K,
    cmdReadStatusRegister1, cmdWriteEnable, cmdWriteDisable]

/-- The chip sends its memory after the header. -/
theorem reply_read {address : UInt32} (h : cfg.blockCount ≥ 512 ∨ address.toNat < 2 ^ 24)
    (hbusy : w.busy = 0) (buf : List UInt8) :
    Chip.reply cfg { w with received := header cfg cmdReadData address } buf =
      read w.memory address.toNat buf.length := by
  refine List.map_congr_left fun i _ => ?_
  have hlength : (header cfg cmdReadData address).length = cfg.addressSize + 1 :=
    congrArg Nat.succ (length_fillBufferWithAddress cfg address)
  have hposition : cfg.addressSize < (header cfg cmdReadData address).length + i := by omega
  have hoffset : (header cfg cmdReadData address).length + i - 1 - cfg.addressSize = i := by omega
  have haddress := addressOf_header h buf
  rw [hlength] at hposition hoffset ⊢
  simp only [Chip.sends, header, List.cons_append, hbusy, haddress, hposition, hoffset]
  rfl

/-- The array of transfers of a command with an address, for a chip that is ready. -/
theorem exec_sendCommand (cfg : Config) (w : Chip) (header : List UInt8) (t : SpiTransfer)
    (ht : t ≠ noMoreTransfers) :
    (sendTransfers [⟨some header, none⟩, t, noMoreTransfers]).run.exec (Chip.environment cfg) w =
      (some (true, [⟨some (Chip.reply cfg { w with received := [] } header), none⟩,
          t.store (Chip.reply cfg { w with received := header } t.source), noMoreTransfers]),
        w.command cfg (header ++ t.source)) :=
  exec_two_transfers cfg w ⟨some header, none⟩ t (fun h => by cases h) ht

/-- **Bytes are programmed in a page.** -/
theorem exec_programFromBuffer {address : UInt32} {data : List UInt8} (w : Chip)
    (hpasses : w.busy < passes) (hnext : w.durations 0 < passes)
    (h : cfg.blockCount ≥ 512 ∨ address.toNat < 2 ^ 24) (hpos : data ≠ [])
    (hpage : address.toNat % pageSize + data.length ≤ pageSize) (dummyRxBuf : List UInt8) :
    ∃ transfers, (programFromBuffer passes cfg address data dummyRxBuf).run.exec
        (Chip.environment cfg) w =
      (some (true, transfers), w.wrote (program w.memory address.toNat data)) := by
  obtain ⟨enabled, henabled⟩ :
      ∃ enabled : Chip, enabled = { w with busy := 0, writeEnabled := true, received := [] } :=
    ⟨_, rfl⟩
  have hsend := exec_sendCommand cfg enabled (header cfg cmdPageProgram address)
    ⟨some data, some dummyRxBuf⟩ (fun h => by cases h)
  have hcommand := command_program (w := enabled) h hpos hpage (by rw [henabled])
    (by rw [henabled])
  rw [show SpiTransfer.source ⟨some data, some dummyRxBuf⟩ = data from rfl, hcommand,
    henabled] at hsend
  exact ⟨_, exec_retrying (exec_programAttempt cfg w hpasses hnext hsend) 4⟩

/-- The buffer of the caller after a read. -/
def readBuffer (transfers : List SpiTransfer) : List UInt8 :=
  (transfers[1]?.bind SpiTransfer.rxBuf).getD []

/-- **The memory is read.** -/
theorem exec_readIntoBuffer {address : UInt32} (w : Chip) (hpasses : w.busy < passes)
    (h : cfg.blockCount ≥ 512 ∨ address.toNat < 2 ^ 24) (buf : List UInt8) :
    ∃ transfers, (readIntoBuffer passes cfg address buf).run.exec (Chip.environment cfg) w =
        (some (true, transfers), { w with busy := 0, received := [] }) ∧
      readBuffer transfers = read w.memory address.toNat buf.length := by
  have hsend := exec_sendCommand cfg { w with busy := 0, received := [] }
    (header cfg cmdReadData address) ⟨none, some buf⟩ (fun h => by cases h)
  have hreply := reply_read (w := { w with busy := 0, received := [] }) h rfl buf
  rw [show SpiTransfer.source ⟨none, some buf⟩ = buf from rfl, command_read, hreply] at hsend
  exact ⟨_, exec_retrying (exec_readAttempt cfg w hpasses hsend) 4, rfl⟩

end TellerOBC.FlashMem
