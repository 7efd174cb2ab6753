import Mathlib.Tactic.Common
import TellerOBC.Core.BlockCache
import TellerOBC.Drivers.SdCard.Commands

/-!
# Block operations of the SD card

The upper half of `drivers/sdcard/spi.cpp`: reading, programming and erasing blocks, reading at
byte addresses through the block cache, and the functions that littlefs calls. The statistics and
the current operation, which nothing here reads, are left out.

The state of the driver is the block cache and the write buffer. A function that uses them takes
the state and returns it.

## Main definitions

* `TellerOBC.SdCard.State`: the state of the driver.
* `TellerOBC.SdCard.readBlockIntoBuffer`, `TellerOBC.SdCard.programBlockFromBuffer`,
  `TellerOBC.SdCard.eraseSectorFromBlock`.
* `TellerOBC.SdCard.readData`, `TellerOBC.SdCard.sdcardSpiWrite`,
  `TellerOBC.SdCard.sdcardSpiErase`.
-/

namespace TellerOBC.SdCard

/-- The static variables of the driver. -/
structure State where
  blockCache : BlockCache
  writeBuf : List UInt8
  deriving DecidableEq, Repr

section

variable (passes : ℕ)

/-! ### Blocks -/

/-- The attempts of `readBlockIntoBuffer` to read the data block. -/
def readDataBlockRetrying : ℕ → List UInt8 → Driver (Bool × List UInt8)
  | 0, buf => pure (false, buf)
  | retries + 1, buf => do
    let r ← readDataBlock passes buf blockSize defaultTimeout
    if r.1 then pure r else readDataBlockRetrying retries r.2

/-- `readBlockIntoBuffer`: whether the block was read, and the buffer after it. Only the data
block is read again when something fails, the command is not repeated. -/
def readBlockIntoBuffer (block : UInt32) (buf : List UInt8) : Driver (Bool × List UInt8) :=
  withSelected do
    let accepted ← accepts passes cmdReadSingleBlock block
    if !accepted then pure (false, buf) else readDataBlockRetrying passes maxRetries buf

/-- The attempts of `programBlockFromBuffer`. -/
def programBlockRetrying (block : UInt32) : ℕ → List UInt8 → Driver (Bool × List UInt8)
  | 0, buf => pure (false, buf)
  | retries + 1, buf => do
    let accepted ← accepts passes cmdWriteSingleBlock block
    if !accepted then programBlockRetrying block retries buf
    else do
      let sent ← sendDataBlock buf
      if !sent.1 then programBlockRetrying block retries sent.2
      else do
        let response ← waitForDataTokenResponse passes
        if response = dataTokenResponseOk then do
          let success ← waitWhileBusy passes defaultWriteTimeout
          pure (success, sent.2)
        else if response = dataTokenResponseCrcError then
          programBlockRetrying block retries sent.2
        else pure (false, sent.2)

/-- `programBlockFromBuffer` on a buffer: whether the block was written, and the buffer after it.
The eviction of the block from the cache is in `programBlock`. -/
def programBlockFromBuffer (block : UInt32) (buf : List UInt8) : Driver (Bool × List UInt8) :=
  withSelected (programBlockRetrying passes block maxRetries buf)

/-- The attempts of `eraseSectorFromBlock`. -/
def eraseSectorRetrying (block : UInt32) : ℕ → Driver Bool
  | 0 => pure false
  | retries + 1 => do
    let start ← accepts passes cmdEraseWrBlkStartAddr block
    if !start then eraseSectorRetrying block retries
    else do
      let stop ← accepts passes cmdEraseWrBlkEndAddr (block + sectorsInBlock - 1)
      if !stop then eraseSectorRetrying block retries
      else do
        let erased ← accepts passes cmdErase 0
        if !erased then eraseSectorRetrying block retries else pure true

/-- `eraseSectorFromBlock`, less the eviction: whether the sector was erased. The card may still be
busy when it returns. -/
def eraseSectorFromBlock (block : UInt32) : Driver Bool :=
  withSelected do
    let success ← eraseSectorRetrying passes block maxRetries
    if success then do
      let _ ← waitWhileBusy passes defaultWriteTimeout
      pure true
    else pure false

/-! ### The block cache -/

variable (s : State)

/-- `ensureBlockIsCached`: the cached block, or nothing if it could not be read. -/
def ensureBlockIsCached (block : UInt32) : Driver (Option (List UInt8) × State) :=
  let cached := s.blockCache.getBlock block
  match cached.1 with
  | some data => pure (some data, { s with blockCache := cached.2 })
  | none => do
    let scratch := cached.2.getScratchArea
    let r ← readBlockIntoBuffer passes block scratch.1
    if r.1 then
      let committed := scratch.2.commit block r.2
      pure (some committed.1, { s with blockCache := committed.2 })
    else pure (none, { s with blockCache := { scratch.2 with block := r.2 } })

/-- `programBlockFromBuffer` with the write buffer: evict the block and write it. -/
def programBlock (block : UInt32) : Driver (Bool × State) := do
  let r ← programBlockFromBuffer passes block s.writeBuf
  pure (r.1, { blockCache := s.blockCache.evict block, writeBuf := r.2 })

/-- `eraseSectorFromBlock` with its eviction. -/
def eraseSector (block : UInt32) : Driver (Bool × State) := do
  let success ← eraseSectorFromBlock passes block
  pure (success, { s with blockCache := s.blockCache.evict block })

/-- The loop of `readData`: from the offset in the block on. The result is the bytes that were
copied to the buffer and whether all were. -/
def readBlocks (s : State) (block : UInt32) (offset length : ℕ) :
    Driver ((Bool × List UInt8) × State) :=
  if _hlength : length = 0 then pure ((true, []), s)
  else if _hoffset : offset < blockSize then do
    let toReadNow := min (blockSize - offset) length
    let r ← ensureBlockIsCached passes s block
    match r.1 with
    | none => pure ((false, []), r.2)
    | some data => do
      let rest ← readBlocks r.2 (block + 1) 0 (length - toReadNow)
      pure ((rest.1.1, (data.drop offset).take toReadNow ++ rest.1.2), rest.2)
  -- not reached: the offset is a remainder
  else pure ((true, []), s)
termination_by length
decreasing_by omega

/-- `readData` at a byte address. -/
def readData (address : UInt64) (length : ℕ) : Driver ((Bool × List UInt8) × State) :=
  readBlocks passes s (address / 512).toUInt32 (address.toNat % blockSize) length

/-! ### The functions for littlefs -/

/-- `sdcard_spi_read`. -/
def sdcardSpiRead (sector off : UInt32) (size : ℕ) : Driver ((Bool × List UInt8) × State) :=
  readData passes s (sector.toUInt64 * 65536 + off.toUInt64) size

/-- `sdcard_spi_write` of a block: it is copied to the write buffer first, because the transfer
modifies it. -/
def sdcardSpiWrite (sector off : UInt32) (buffer : List UInt8) : Driver (Bool × State) :=
  programBlock passes { s with writeBuf := buffer } (sector * sectorsInBlock + off / 512)

/-- `sdcard_spi_erase`. -/
def sdcardSpiErase (sector : UInt32) : Driver (Bool × State) :=
  eraseSector passes s (sector * sectorsInBlock)

end

end TellerOBC.SdCard
