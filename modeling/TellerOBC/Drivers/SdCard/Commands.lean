import TellerOBC.Core.Crc
import TellerOBC.Hal.Spi

/-!
# Commands and data blocks of the SD card

The lower half of `drivers/sdcard/spi.cpp`: waiting for the card, commands with their responses, and
data blocks with their tokens and checksums. All transfers leave the chip select line alone; the
functions that use these ones have selected the card.

The polling loops end when the card answers, when a transfer fails or when the deadline has
passed. They take the maximum number of their passes as an argument.

## Main definitions

* `TellerOBC.SdCard.sendCommand`: a command and its response.
* `TellerOBC.SdCard.readDataBlock`, `TellerOBC.SdCard.sendDataBlock`.

## Main results

* `TellerOBC.SdCard.emits_sendCommand`, `TellerOBC.SdCard.emits_waitForToken`: commands and polls
  exchange few bytes at a time.
-/

namespace TellerOBC.SdCard

/-! ### Constants -/

/-- `MAX_RETRIES`: attempts at read, write and erase operations. -/
def maxRetries : ℕ := 5

/-- `DEFAULT_SD_CARD_TIMEOUT`, in milliseconds. -/
def defaultTimeout : UInt32 := 100

/-- `DEFAULT_SD_CARD_WRITE_TIMEOUT`, in milliseconds. -/
def defaultWriteTimeout : UInt32 := 250

/-- `BLOCK_SIZE`. -/
def blockSize : ℕ := 512

/-- `SECTORS_IN_BLOCK`: the number of blocks in a sector. -/
def sectorsInBlock : UInt32 := 128

def cmdReadSingleBlock : UInt8 := 17
def cmdWriteSingleBlock : UInt8 := 24
def cmdEraseWrBlkStartAddr : UInt8 := 32
def cmdEraseWrBlkEndAddr : UInt8 := 33
def cmdErase : UInt8 := 38

def responseOk : UInt8 := 0x00
def responseBusy : UInt8 := 0xFF

def dataToken : UInt8 := 0xfe
def dataTokenResponseOk : UInt8 := 0x05
def dataTokenResponseCrcError : UInt8 := 0x0B

/-! ### Waiting for the card -/

/-- The time at which a function with the given timeout gives up. -/
def deadline (now timeout : UInt32) : UInt32 :=
  if timeout < 0xFFFFFFFF then now + timeout else 0xFFFFFFFF

/-- Read a byte, sending ones. -/
def readByte : Driver (Bool × UInt8) := do
  let reply ← transfer [0xff]
  pure (reply.ok, reply.received.headD 0)

/-- The loop of `waitForToken`. -/
def waitForTokenUntil (deadline : UInt32) : ℕ → Driver UInt8
  | 0 => CutOff.stop
  | passes + 1 => do
    let data ← readByte
    if !data.1 then pure 0
    else if data.2 ≠ 0xff then pure data.2
    else do
      let now ← getTimeSinceBootMsec
      if now < deadline then do
        delayMsec 1
        waitForTokenUntil deadline passes
      else pure data.2

/-- `waitForToken`: read until a byte is not idle. A failed transfer gives `false`, which is the
token zero. -/
def waitForToken (passes : ℕ) (timeout : UInt32) : Driver UInt8 := do
  let now ← getTimeSinceBootMsec
  waitForTokenUntil (deadline now timeout) passes

/-- `waitForDataToken`. -/
def waitForDataToken (passes : ℕ) (timeout : UInt32) : Driver Bool := do
  let token ← waitForToken passes timeout
  pure (token = dataToken)

/-- `waitForDataTokenResponse`. -/
def waitForDataTokenResponse (passes : ℕ) : Driver UInt8 := do
  let token ← waitForToken passes defaultWriteTimeout
  pure (token &&& 0b00011111)

/-- The loop of `waitWhileBusy`. -/
def waitWhileBusyUntil (deadline : UInt32) : ℕ → Driver Bool
  | 0 => CutOff.stop
  | passes + 1 => do
    let busy ← readByte
    if !busy.1 then pure false
    else if busy.2 = 0xff then pure true
    else do
      let now ← getTimeSinceBootMsec
      if now < deadline then do
        delayMsec 1
        waitWhileBusyUntil deadline passes
      else pure false

/-- `waitWhileBusy`: read until the card sends ones; whether it does. -/
def waitWhileBusy (passes : ℕ) (timeout : UInt32) : Driver Bool := do
  let now ← getTimeSinceBootMsec
  waitWhileBusyUntil (deadline now timeout) passes

/-! ### Commands -/

/-- `prepareCommand`: the six bytes of a command. -/
def prepareCommand (cmd : UInt8) (arg : UInt32) : List UInt8 :=
  let buf := [(cmd &&& 0x3F) ||| 0x40, (arg >>> 24).toUInt8, (arg >>> 16).toUInt8,
    (arg >>> 8).toUInt8, arg.toUInt8]
  buf ++ [(crc7Sd 0 buf <<< 1) ||| 0x01]

/-- How the wait for the response to a command ends. -/
inductive Awaited where
  | failed
  | silent
  | response (byte : UInt8)
  deriving DecidableEq, Repr

/-- Read at most the given number of bytes until one of them has the most significant bit
clear. -/
def awaitResponse : ℕ → Driver Awaited
  | 0 => pure .silent
  | i + 1 => do
    let byte ← readByte
    if !byte.1 then pure .failed
    else if byte.2 &&& 0x80 = 0 then pure (.response byte.2)
    else awaitResponse i

/-- Send the command at most the given number of times until the card responds. -/
def tryCommand (cmd : UInt8) (arg : UInt32) : ℕ → Driver Awaited
  | 0 => pure .silent
  | tries + 1 => do
    let reply ← transfer (prepareCommand cmd arg)
    if !reply.ok then pure .failed
    else do
      let awaited ← awaitResponse 8
      if awaited = .silent then tryCommand cmd arg tries else pure awaited

/-- `sendCommandAssumingNotBusy`: the response byte, `0xFF` if the command failed, and the given
number of additional bytes. -/
def sendCommandAssumingNotBusy (cmd : UInt8) (arg : UInt32) (size : ℕ) :
    Driver (UInt8 × List UInt8) := do
  let awaited ← tryCommand cmd arg 5
  match awaited with
  | .response byte =>
    if size = 0 then pure (byte, [])
    else do
      let reply ← transfer (List.replicate (min size 10) 0xff)
      pure (if reply.ok then byte else 0xff, reply.received)
  | .failed | .silent => pure (0xff, [])

/-- `sendCommand`: wait until the card is not busy, then send the command. -/
def sendCommand (passes : ℕ) (cmd : UInt8) (arg : UInt32) (size : ℕ) (timeout : UInt32) :
    Driver (UInt8 × List UInt8) := do
  let ready ← waitWhileBusy passes timeout
  if ready then sendCommandAssumingNotBusy cmd arg size else pure (responseBusy, [])

/-- A command without additional bytes and with the default timeout: whether it is accepted. -/
def accepts (passes : ℕ) (cmd : UInt8) (arg : UInt32) : Driver Bool := do
  let response ← sendCommand passes cmd arg 0 defaultTimeout
  pure (response.1 = responseOk)

/-! ### Data blocks -/

/-- The two bytes of a checksum, the high byte first. -/
def crcBytes (crc : UInt16) : List UInt8 := [(crc >>> 8).toUInt8, (crc &&& 0xff).toUInt8]

/-- The checksum that two bytes spell. -/
def crcOfBytes (bytes : List UInt8) : UInt16 :=
  ((bytes.getD 0 0).toUInt16 <<< 8) ||| (bytes.getD 1 0).toUInt16

/-- `readDataBlock`: whether a block came with its checksum, and the buffer after it. -/
def readDataBlock (passes : ℕ) (buf : List UInt8) (size : ℕ) (timeout : UInt32) :
    Driver (Bool × List UInt8) := do
  let found ← waitForDataToken passes timeout
  if !found then pure (false, buf)
  else do
    let block ← transfer (List.replicate size 0xff)
    if !block.ok then pure (false, block.received)
    else do
      let crc ← transfer [0xff, 0xff]
      pure (crc.ok && crcOfBytes crc.received = crcXmodem 0 block.received, block.received)

/-- `sendDataBlock`: whether the block was sent, and the buffer after it. The block is sent from
the buffer that the received bytes are stored in, and the checksum is computed after that. -/
def sendDataBlock (buf : List UInt8) : Driver (Bool × List UInt8) := do
  let token ← transfer [dataToken]
  if !token.ok then pure (false, buf)
  else do
    let block ← transfer buf
    if !block.ok then pure (false, block.received)
    else do
      let crc ← transfer (crcBytes (crcXmodem 0 block.received))
      pure (crc.ok, block.received)

/-! ### Few bytes at a time -/

/-- An event that exchanges at most one byte. -/
def Poll (e : SpiEvent) : Prop :=
  match e.1 with
  | .exchange txBuf => txBuf.length = 1
  | _ => True

/-- An event that does not exchange a whole block. -/
def Small (e : SpiEvent) : Prop :=
  match e.1 with
  | .exchange txBuf => txBuf.length < blockSize
  | _ => True

theorem Poll.small {e : SpiEvent} (h : Poll e) : Small e := by
  obtain ⟨c, _⟩ := e
  cases c with
  | exchange txBuf => exact lt_of_eq_of_lt h (show 1 < blockSize by decide)
  | _ => trivial

variable {passes : ℕ}

theorem emits_readByte : CutOff.Emits Poll readByte :=
  .bind (emits_transfer fun _ => rfl) fun _ => .pure _

/-- A pass of a polling loop: read a byte, and go on after a while if it is not the one that the
loop waits for and there is time. -/
theorem emits_pass {α : Type} {next : Driver α} (hnext : CutOff.Emits Poll next)
    (limit : UInt32) (failed : α) (found : UInt8 → Prop) [DecidablePred found]
    (onFound onTimeout : UInt8 → α) :
    CutOff.Emits Poll (do
      let data ← readByte
      if !data.1 then pure failed
      else if found data.2 then pure (onFound data.2)
      else do
        let now ← getTimeSinceBootMsec
        if now < limit then do
          delayMsec 1
          next
        else pure (onTimeout data.2)) :=
  .bind emits_readByte fun _ => .ite (fun _ => .pure _) fun _ => .ite (fun _ => .pure _) fun _ =>
    .bind (emits_getTimeSinceBootMsec fun _ => trivial) fun _ =>
      .ite (fun _ => .bind (emits_delayMsec trivial) fun _ => hnext) fun _ => .pure _

theorem emits_waitForToken (timeout : UInt32) :
    CutOff.Emits Poll (waitForToken passes timeout) := by
  refine .bind (emits_getTimeSinceBootMsec fun _ => trivial) fun now => ?_
  generalize deadline now timeout = limit
  induction passes with
  | zero => exact .stop
  | succ passes ih => exact emits_pass ih limit 0 (· ≠ 0xff) id id

theorem emits_waitForDataTokenResponse :
    CutOff.Emits Poll (waitForDataTokenResponse passes) :=
  .bind (emits_waitForToken _) fun _ => .pure _

theorem emits_waitWhileBusy (timeout : UInt32) :
    CutOff.Emits Poll (waitWhileBusy passes timeout) := by
  refine .bind (emits_getTimeSinceBootMsec fun _ => trivial) fun now => ?_
  generalize deadline now timeout = limit
  induction passes with
  | zero => exact .stop
  | succ passes ih =>
    exact emits_pass ih limit false (· = 0xff) (fun _ => true) fun _ => false

theorem emits_awaitResponse (i : ℕ) : CutOff.Emits Poll (awaitResponse i) := by
  induction i with
  | zero => exact .pure _
  | succ i ih =>
    exact .bind emits_readByte fun byte => .ite (fun _ => .pure _) fun _ =>
      .ite (fun _ => .pure _) fun _ => ih

theorem emits_tryCommand (cmd : UInt8) (arg : UInt32) (tries : ℕ) :
    CutOff.Emits Small (tryCommand cmd arg tries) := by
  induction tries with
  | zero => exact .pure _
  | succ tries ih =>
    refine .bind (emits_transfer fun _ => ?_) fun reply => .ite (fun _ => .pure _) fun _ =>
      .bind ((emits_awaitResponse 8).mono fun _ => Poll.small) fun awaited =>
        .ite (fun _ => ih) fun _ => .pure _
    exact show 6 < blockSize by decide

/-- A command exchanges few bytes at a time. -/
theorem emits_sendCommand (cmd : UInt8) (arg : UInt32) (size : ℕ) (timeout : UInt32) :
    CutOff.Emits Small (sendCommand passes cmd arg size timeout) := by
  refine .bind ((emits_waitWhileBusy timeout).mono fun _ => Poll.small) fun ready =>
    .ite (fun _ => ?_) fun _ => .pure _
  refine .bind (emits_tryCommand cmd arg 5) fun awaited => ?_
  cases awaited with
  | failed => exact .pure _
  | silent => exact .pure _
  | response byte =>
    refine .ite (fun _ => .pure _) fun _ => .bind (emits_transfer fun _ => ?_) fun _ => .pure _
    change (List.replicate (min size 10) (0xff : UInt8)).length < 512
    rw [List.length_replicate]
    omega

theorem emits_accepts (cmd : UInt8) (arg : UInt32) :
    CutOff.Emits Small (accepts passes cmd arg) :=
  .bind (emits_sendCommand cmd arg 0 _) fun _ => .pure _

end TellerOBC.SdCard
