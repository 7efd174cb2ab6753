import TellerOBC.Drivers.FlashMem.Chip

/-!
# The flash memory behind littlefs

The functions that littlefs calls to read, write, erase and synchronize the flash memory. Reads and
writes are split into parts, of `uint16_t` lengths and of pages. With a chip on the bus these
functions together are a NOR memory: what they return and what is in the chip after any sequence of
operations follows from the sequence and from what was in the chip before it, however long the chip
is busy after each command.

## Main definitions

* `TellerOBC.FlashMem.flashmemRead`, `TellerOBC.FlashMem.flashmemSync`.
* `TellerOBC.FlashMem.FlashOp`: the operations, with their effects on a NOR memory.

## Main results

* `TellerOBC.FlashMem.FlashOp.exec_runAll`: the driver with a chip is a NOR memory.
* `TellerOBC.FlashMem.FlashOp.read_rewritten`: what is written to an erased sector is read back.
-/

namespace TellerOBC.FlashMem

open CutOff NorMemory

/-! ### The functions -/

/-- The largest length of a part of a read. -/
def maxToRead : ℕ := 65535

section

variable (passes : ℕ) (cfg : Config)

/-- The loop of `flashmem_read`, from an address on: whether there was no error, and the buffer of
the caller. -/
def readParts (address : UInt32) (buffer : List UInt8) : Driver (Bool × List UInt8) :=
  if _h : buffer = [] then pure (true, [])
  else do
    let toRead := if buffer.length > maxToRead then maxToRead else buffer.length
    let r ← readIntoBuffer passes cfg address (buffer.take toRead)
    if !r.1 then pure (false, readBuffer r.2 ++ buffer.drop toRead)
    else do
      let rest ← readParts (address + UInt32.ofNat toRead) (buffer.drop toRead)
      pure (rest.1, readBuffer r.2 ++ rest.2)
termination_by buffer.length
decreasing_by
  have hpos := List.length_pos_of_ne_nil _h
  rw [List.length_drop, maxToRead]
  split <;> omega

/-- `flashmem_read`. -/
def flashmemRead (sector off : UInt32) (buffer : List UInt8) : Driver (Bool × List UInt8) :=
  readParts passes cfg (sectorToAddress sector off) buffer

/-- `flashmem_erase`. -/
def flashmemErase (sector : UInt32) : Driver Bool := do
  let r ← eraseSector passes cfg sector
  pure r.1

/-- `flashmem_sync`. -/
def flashmemSync : Driver Bool := waitWhileBusy passes

end

/-- The calls of littlefs. -/
inductive FlashOp
  | read (sector off : UInt32) (buffer : List UInt8)
  | write (sector off : UInt32) (buffer : List UInt8)
  | erase (sector : UInt32)
  | sync
  deriving DecidableEq, Repr

namespace FlashOp

/-- A call: whether there was no error, and the buffer of the caller. -/
def run (passes : ℕ) (cfg : Config) (dummyRxBuf : List UInt8) :
    FlashOp → Driver (Bool × List UInt8)
  | .read sector off buffer => flashmemRead passes cfg sector off buffer
  | .write sector off buffer => do
    let success ← flashmemWrite passes cfg sector off buffer dummyRxBuf
    pure (success, buffer)
  | .erase sector => do
    let success ← flashmemErase passes cfg sector
    pure (success, [])
  | .sync => do
    let success ← flashmemSync passes
    pure (success, [])

/-- Calls one after the other. -/
def runAll (passes : ℕ) (cfg : Config) (dummyRxBuf : List UInt8) :
    List FlashOp → Driver (List (Bool × List UInt8))
  | [] => pure []
  | op :: ops => do
    let r ← op.run passes cfg dummyRxBuf
    let rs ← runAll passes cfg dummyRxBuf ops
    pure (r :: rs)

/-- The calls that littlefs makes: in the chip, and writes from the beginning of a page on. -/
def Valid (cfg : Config) : FlashOp → Prop
  | .read sector off buffer =>
    4096 * sector.toNat + off.toNat + buffer.length ≤ 65536 * cfg.blockCount.toNat
  | .write sector off buffer =>
    4096 * sector.toNat + off.toNat + buffer.length ≤ 65536 * cfg.blockCount.toNat ∧
      off.toNat % pageSize = 0
  | .erase sector => 4096 * sector.toNat < 65536 * cfg.blockCount.toNat
  | .sync => True

/-- What a call does to a NOR memory. -/
def effect (memory : ℕ → UInt8) : FlashOp → ℕ → UInt8
  | .write sector off buffer => program memory (4096 * sector.toNat + off.toNat) buffer
  | .erase sector => NorMemory.erase memory (4096 * sector.toNat) 4096
  | .read _ _ _ | .sync => memory

/-- What a call returns for a NOR memory. -/
def result (memory : ℕ → UInt8) : FlashOp → Bool × List UInt8
  | .read sector off buffer =>
    (true, NorMemory.read memory (4096 * sector.toNat + off.toNat) buffer.length)
  | .write _ _ buffer => (true, buffer)
  | .erase _ | .sync => (true, [])

/-- What calls return for a NOR memory. -/
def results (memory : ℕ → UInt8) : List FlashOp → List (Bool × List UInt8)
  | [] => []
  | op :: ops => op.result memory :: results (op.effect memory) ops

end FlashOp

/-! ### One operation -/

/-- The chip is done with each command before the driver gives up. -/
structure Chip.Responsive (w : Chip) (passes : ℕ) : Prop where
  busy : w.busy < passes
  durations : ∀ i, w.durations i < passes

variable {cfg : Config} {w : Chip} {passes : ℕ} {dummyRxBuf : List UInt8}

theorem Chip.Responsive.wrote (h : w.Responsive passes) (memory : ℕ → UInt8) :
    (w.wrote memory).Responsive passes where
  busy := Nat.lt_of_le_of_lt (Nat.zero_le _) h.busy
  durations i := h.durations (i + 1)

theorem Chip.Responsive.waited (h : w.Responsive passes) :
    Chip.Responsive { w with busy := 0, received := [] } passes where
  busy := Nat.lt_of_le_of_lt (Nat.zero_le _) h.busy
  durations := h.durations

/-- The state of the chip after a program that had the given value. -/
structure Performs {α : Type} (passes : ℕ) (cfg : Config) (w : Chip) (p : Driver α) (a : α)
    (memory : ℕ → UInt8) (w' : Chip) : Prop where
  exec : p.run.exec (Chip.environment cfg) w = (some a, w')
  memory : w'.memory = memory
  responsive : w'.Responsive passes
  writeEnabled : w'.writeEnabled = true → w.writeEnabled = true

theorem Performs.pure {α : Type} (hw : w.Responsive passes) (a : α) :
    Performs passes cfg w (pure a) a w.memory w where
  exec := rfl
  memory := rfl
  responsive := hw
  writeEnabled := id

theorem Performs.bind {α β : Type} {p : Driver α} {f : α → Driver β} {a : α} {b : β}
    {memory memory' : ℕ → UInt8} {w₁ w₂ : Chip} (hp : Performs passes cfg w p a memory w₁)
    (hf : Performs passes cfg w₁ (f a) b memory' w₂) :
    Performs passes cfg w (p >>= f) b memory' w₂ where
  exec := (exec_bind_of_some hp.exec f).trans hf.exec
  memory := hf.memory
  responsive := hf.responsive
  writeEnabled h := hp.writeEnabled (hf.writeEnabled h)

theorem Performs.map {α β : Type} {p : Driver α} {a : α} {memory : ℕ → UInt8} {w' : Chip}
    (hp : Performs passes cfg w p a memory w') (f : α → β) :
    Performs passes cfg w (p >>= fun a => Pure.pure (f a)) (f a) memory w' :=
  hp.memory ▸ hp.bind (.pure hp.responsive (f a))

/-- The addresses of a part and of the rest after it. -/
theorem toNat_add_ofNat {address : UInt32} {n size : ℕ} (hn : n ≤ size)
    (h : address.toNat + size < 2 ^ 32) :
    (address + UInt32.ofNat n).toNat = address.toNat + n := by
  rw [UInt32.toNat_add, UInt32.toNat_ofNat', Nat.mod_eq_of_lt (by omega : n < 2 ^ 32)]
  exact Nat.mod_eq_of_lt (by omega)

/-- **Reads.** All parts of a buffer are filled from the memory. -/
theorem performs_readParts {address : UInt32} {buffer : List UInt8} (hw : w.Responsive passes)
    (hend : address.toNat + buffer.length < 2 ^ 32)
    (hchip : cfg.blockCount ≥ 512 ∨ address.toNat + buffer.length ≤ 2 ^ 24) :
    ∃ w', Performs passes cfg w (readParts passes cfg address buffer)
      (true, read w.memory address.toNat buffer.length) w.memory w' := by
  induction hn : buffer.length using Nat.strongRecOn generalizing address buffer w with
  | ind n ih =>
    rw [readParts]
    by_cases hnil : buffer = []
    · rw [dif_pos hnil]
      subst hnil hn
      exact ⟨w, .pure hw _⟩
    rw [dif_neg hnil]
    dsimp only
    obtain ⟨toRead, hm⟩ :
        ∃ m, m = if buffer.length > maxToRead then maxToRead else buffer.length := ⟨_, rfl⟩
    rw [← hm]
    have hpos := List.length_pos_of_ne_nil hnil
    have hbounds : 0 < toRead ∧ toRead ≤ buffer.length := by
      rw [hm, maxToRead]
      split_ifs <;> omega
    have hnext := toNat_add_ofNat hbounds.2 hend
    have haddress : cfg.blockCount ≥ 512 ∨ address.toNat < 2 ^ 24 := hchip.imp_right (by omega)
    obtain ⟨transfers, hexec, hread⟩ :=
      exec_readIntoBuffer w hw.busy haddress (buffer.take toRead)
    rw [List.length_take_of_le hbounds.2] at hread
    have hfirst : Performs passes cfg w (readIntoBuffer passes cfg address (buffer.take toRead))
        (true, transfers) w.memory { w with busy := 0, received := [] } :=
      ⟨hexec, rfl, hw.waited, id⟩
    obtain ⟨w', hrest⟩ : ∃ w', Performs passes cfg { w with busy := 0, received := [] }
        (readParts passes cfg (address + UInt32.ofNat toRead) (buffer.drop toRead))
        (true, read w.memory (address.toNat + toRead) (buffer.length - toRead)) w.memory w' := by
      rw [← hnext]
      refine ih (buffer.length - toRead) (by omega) hw.waited ?_ ?_ List.length_drop
      · rw [hnext, List.length_drop]
        omega
      · rw [hnext, List.length_drop]
        exact hchip.imp_right (by omega)
    have hparts : read w.memory address.toNat n = readBuffer transfers ++
        read w.memory (address.toNat + toRead) (buffer.length - toRead) := by
      rw [hread, ← read_add, hn, Nat.add_sub_of_le (hn ▸ hbounds.2)]
    rw [hparts]
    exact ⟨w', hfirst.bind (hrest.map _)⟩

/-- **Writes.** All pages of a buffer are programmed. -/
theorem performs_writePages {address : UInt32} {buffer : List UInt8} (hw : w.Responsive passes)
    (hend : address.toNat + buffer.length < 2 ^ 32)
    (hchip : cfg.blockCount ≥ 512 ∨ address.toNat + buffer.length ≤ 2 ^ 24)
    (hpage : buffer ≠ [] → address.toNat % pageSize = 0) :
    ∃ w', Performs passes cfg w (writePages passes cfg dummyRxBuf address buffer) true
      (program w.memory address.toNat buffer) w' := by
  induction hn : buffer.length using Nat.strongRecOn generalizing address buffer w with
  | ind n ih =>
    rw [writePages]
    by_cases hnil : buffer = []
    · rw [dif_pos hnil, hnil, program_nil]
      exact ⟨w, .pure hw _⟩
    rw [dif_neg hnil]
    dsimp only
    obtain ⟨toWrite, hm⟩ :
        ∃ m, m = if buffer.length > pageSize then pageSize else buffer.length := ⟨_, rfl⟩
    rw [← hm]
    have hpos := List.length_pos_of_ne_nil hnil
    have hbounds : 0 < toWrite ∧ toWrite ≤ buffer.length ∧ toWrite ≤ pageSize ∧
        (toWrite = pageSize ∨ buffer.drop toWrite = []) := by
      rw [List.drop_eq_nil_iff, hm, pageSize]
      split_ifs <;> omega
    obtain ⟨hsome, hle, hsize, hlast⟩ := hbounds
    have hlength := List.length_take_of_le hle
    have hnext := toNat_add_ofNat hle hend
    have haddress : cfg.blockCount ≥ 512 ∨ address.toNat < 2 ^ 24 := hchip.imp_right (by omega)
    have hinpage : address.toNat % pageSize + (buffer.take toWrite).length ≤ pageSize := by
      rw [hpage hnil, hlength, Nat.zero_add]
      exact hsize
    obtain ⟨transfers, hexec⟩ := exec_programFromBuffer w hw.busy (hw.durations 0) haddress
      (List.ne_nil_of_length_pos (hlength.symm ▸ hsome)) hinpage dummyRxBuf
    obtain ⟨first, hmemory⟩ :
        ∃ first, first = program w.memory address.toNat (buffer.take toWrite) := ⟨_, rfl⟩
    have hfirst : Performs passes cfg w
        (programFromBuffer passes cfg address (buffer.take toWrite) dummyRxBuf) (true, transfers)
        first (w.wrote first) :=
      ⟨hmemory ▸ hexec, rfl, hw.wrote first, fun h => absurd h Bool.false_ne_true⟩
    have hparts : program w.memory address.toNat buffer =
        program first (address.toNat + toWrite) (buffer.drop toWrite) := by
      conv_lhs => rw [← List.take_append_drop toWrite buffer]
      rw [program_append, hlength, hmemory]
    rw [hparts]
    obtain ⟨w', hrest⟩ : ∃ w', Performs passes cfg (w.wrote first)
        (writePages passes cfg dummyRxBuf (address + UInt32.ofNat toWrite) (buffer.drop toWrite))
        true (program first (address.toNat + toWrite) (buffer.drop toWrite)) w' := by
      rw [← hnext]
      refine ih (buffer.length - toWrite) (by omega) (hw.wrote first) ?_ ?_ (fun hmore => ?_)
        List.length_drop
      · rw [hnext, List.length_drop]
        omega
      · rw [hnext, List.length_drop]
        exact hchip.imp_right (by omega)
      · rw [hnext, hlast.resolve_right hmore, Nat.add_mod_right, hpage hnil]
    exact ⟨w', hfirst.bind hrest⟩

/-- Each call of littlefs is an operation of a NOR memory. -/
theorem FlashOp.performs_run {jedecId : UInt16} (hknown : (jedecId, cfg) ∈ knownDevices)
    {op : FlashOp} (hvalid : op.Valid cfg) (hw : w.Responsive passes) :
    ∃ w', Performs passes cfg w (op.run passes cfg dummyRxBuf) (op.result w.memory)
      (op.effect w.memory) w' := by
  have hchip := knownDevices_size hknown
  have haddress : ∀ {sector off : UInt32} {n : ℕ},
      4096 * sector.toNat + off.toNat + n ≤ 65536 * cfg.blockCount.toNat →
        (sectorToAddress sector off).toNat = 4096 * sector.toNat + off.toNat := fun h =>
    toNat_sectorToAddress (Nat.lt_of_le_of_lt (Nat.le_of_add_right_le h) hchip.1)
  cases op with
  | read sector off buffer =>
    rw [FlashOp.run, FlashOp.result, flashmemRead, ← haddress hvalid]
    refine performs_readParts hw ?_ ?_
    · rw [haddress hvalid]
      exact Nat.lt_of_le_of_lt hvalid hchip.1
    · rw [haddress hvalid]
      exact hchip.2.imp_right (Nat.le_trans hvalid)
  | write sector off buffer =>
    obtain ⟨hvalid, hoff⟩ := hvalid
    rw [FlashOp.run, FlashOp.effect, flashmemWrite, ← haddress hvalid]
    have hwrite : ∃ w', Performs passes cfg w
        (writePages passes cfg dummyRxBuf (sectorToAddress sector off) buffer) true
        (program w.memory (sectorToAddress sector off).toNat buffer) w' := by
      refine performs_writePages hw ?_ ?_ fun _ => ?_
      · rw [haddress hvalid]
        exact Nat.lt_of_le_of_lt hvalid hchip.1
      · rw [haddress hvalid]
        exact hchip.2.imp_right (Nat.le_trans hvalid)
      · rw [haddress hvalid]
        rw [pageSize] at hoff ⊢
        omega
    exact hwrite.imp fun w' h => h.map fun success => (success, buffer)
  | erase sector =>
    obtain ⟨buf, hexec⟩ := exec_eraseSector w hw.busy (hw.durations 0) hchip hvalid
    have herase : Performs passes cfg w (eraseSector passes cfg sector) (true, buf)
        (NorMemory.erase w.memory (4096 * sector.toNat) 4096) _ :=
      ⟨hexec, rfl, hw.wrote _, fun h => absurd h Bool.false_ne_true⟩
    exact ⟨_, (herase.map Prod.fst).map fun success => (success, [])⟩
  | sync =>
    have hsync : Performs passes cfg w (waitWhileBusy passes) true w.memory _ :=
      ⟨exec_waitWhileBusy cfg w hw.busy, rfl, hw.waited, id⟩
    exact ⟨_, hsync.map fun success => (success, [])⟩

/-- **The driver with a chip is a NOR memory.** All transfers succeed, and the chip is done with
each command before the driver gives up. Then in every sequence of calls of littlefs each call
succeeds, reads have the bytes that the calls before them left in the memory, the memory in the
chip ends as that of the NOR memory, and the driver leaves no writing enabled. -/
theorem FlashOp.exec_runAll {jedecId : UInt16} (hknown : (jedecId, cfg) ∈ knownDevices)
    {ops : List FlashOp} (hvalid : ∀ op ∈ ops, op.Valid cfg) (hw : w.Responsive passes) :
    ∃ w', (runAll passes cfg dummyRxBuf ops).run.exec (Chip.environment cfg) w =
        (some (results w.memory ops), w') ∧
      w'.memory = ops.foldl effect w.memory ∧
      (w'.writeEnabled = true → w.writeEnabled = true) := by
  have hperforms : ∃ w', Performs passes cfg w (runAll passes cfg dummyRxBuf ops)
      (results w.memory ops) (ops.foldl effect w.memory) w' := by
    induction ops generalizing w with
    | nil => exact ⟨w, .pure hw _⟩
    | cons op ops ih =>
      obtain ⟨hop, hops⟩ := List.forall_mem_cons.mp hvalid
      obtain ⟨w₁, hfirst⟩ := FlashOp.performs_run hknown hop hw
      obtain ⟨w₂, hrest⟩ := ih hops hfirst.responsive
      rw [hfirst.memory] at hrest
      exact ⟨w₂, hfirst.bind (hrest.map (op.result w.memory :: ·))⟩
  obtain ⟨w', h⟩ := hperforms
  exact ⟨w', h.exec, h.memory, h.writeEnabled⟩

/-- **A sector that is rewritten**: what is written into an erased sector is read back, and nothing
outside of the sector has changed. -/
theorem FlashOp.read_rewritten (memory : ℕ → UInt8) (sector off : UInt32) {data : List UInt8}
    (hfits : off.toNat + data.length ≤ 4096) :
    let after := [.erase sector, .write sector off data].foldl effect memory
    NorMemory.read after (4096 * sector.toNat + off.toNat) data.length = data ∧
      ∀ other n, other + n ≤ 4096 * sector.toNat ∨ 4096 * sector.toNat + 4096 ≤ other →
        NorMemory.read after other n = NorMemory.read memory other n := by
  refine ⟨read_program_of_erased fun i hi => erase_of_mem (by omega), fun other n h => ?_⟩
  rw [List.foldl_cons, List.foldl_cons, List.foldl_nil, effect, effect,
    read_program_of_disjoint (by omega), read_erase_of_disjoint h]

/-- A chip with zeros in it that is busy, and takes up to two readings of its status for a
command. -/
def slowChip : Chip where
  memory _ := 0x00
  writeEnabled := false
  busy := 2
  durations i := i % 3
  received := []

/-- A sector is erased, and two bytes are written and read. -/
def rewriteSector : List FlashOp :=
  [.erase 1, .write 1 256 [0x55, 0xAA], .sync, .read 1 255 [0, 0, 0, 0]]

/-- The calls return what a NOR memory says. -/
theorem FlashOp.exec_runAll_rewriteSector :
    ∃ w', (runAll 3 ⟨512⟩ [] rewriteSector).run.exec (Chip.environment ⟨512⟩) slowChip =
        (some [(true, []), (true, [0x55, 0xAA]), (true, []), (true, [0xFF, 0x55, 0xAA, 0xFF])],
          w') ∧
      w'.memory = rewriteSector.foldl effect slowChip.memory ∧
      (w'.writeEnabled = true → slowChip.writeEnabled = true) := by
  have hknown : ((0x4019 : UInt16), (⟨512⟩ : Config)) ∈ knownDevices :=
    List.mem_of_getElem? (i := 8) rfl
  have hvalid : ∀ op ∈ rewriteSector, op.Valid ⟨512⟩ := by
    simp [rewriteSector, FlashOp.Valid, pageSize]
  have hw : slowChip.Responsive 3 := ⟨by decide, fun i => Nat.mod_lt i (by decide)⟩
  have hresults : results slowChip.memory rewriteSector =
      [(true, []), (true, [0x55, 0xAA]), (true, []), (true, [0xFF, 0x55, 0xAA, 0xFF])] := by
    decide +kernel
  exact hresults ▸ FlashOp.exec_runAll hknown hvalid hw

end TellerOBC.FlashMem
