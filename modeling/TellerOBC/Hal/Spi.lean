import TellerOBC.Foundations.CutOff

/-!
# The SPI interface of the drivers

`hal/spi.h` and the transfer functions of `hal/stm32/spi.cpp` as the drivers of the storage devices
use them. A driver is a program that moves the chip select line, exchanges bytes with the device,
asks for the time and waits. What the hardware does to the bytes of an exchange is in the answer:
whether the transfer succeeded, and the contents of the receive buffer after it, which are
arbitrary where the transfer failed.

The address of the device is a constant of the board and valid.

## Main definitions

* `TellerOBC.SpiCall`, `TellerOBC.SpiReply`, `TellerOBC.Driver`.
* `TellerOBC.transfer`: a transfer with two buffers, or in place.
* `TellerOBC.SpiTransfer`, `TellerOBC.transferAll`: the form with several transactions.
* `TellerOBC.withSelected`: the scope of a device selector.
-/

namespace TellerOBC

/-- The calls of a driver to its surroundings. -/
inductive SpiCall where
  /-- Pull the chip select line low, or release it. -/
  | chipSelect (low : Bool)
  /-- Send the bytes and receive as many. -/
  | exchange (txBuf : List UInt8)
  | getTimeSinceBootMsec
  | delayMsec (duration : UInt32)
  deriving DecidableEq, Repr

/-- The outcome of a transfer: whether it succeeded, and the receive buffer after it. -/
structure SpiReply (size : ℕ) where
  ok : Bool
  received : List UInt8
  length_received : received.length = size

/-- The outcome of a transfer with a device that sends ones. -/
def SpiReply.ones (ok : Bool) (size : ℕ) : SpiReply size :=
  ⟨ok, List.replicate size 0xff, List.length_replicate⟩

/-- The answers to the calls. -/
abbrev SpiCall.Answer : SpiCall → Type
  | .chipSelect _ => Unit
  | .exchange txBuf => SpiReply txBuf.length
  | .getTimeSinceBootMsec => UInt32
  | .delayMsec _ => Unit

/-- A call with its answer. -/
abbrev SpiEvent : Type := Program.Event SpiCall.Answer

/-- A transfer fails. -/
def TransferFailed (e : SpiEvent) : Prop :=
  match e with
  | ⟨.exchange _, reply⟩ => reply.ok = false
  | _ => False

/-- Driver functions. Their polling loops may be cut off. -/
abbrev Driver (α : Type) : Type := CutOff SpiCall.Answer α

/-- `transfer` with `NO_CHIP_SELECT`, with the contents of the transmit buffer. In the form with
one buffer that buffer is also the receive buffer, so the received bytes replace its contents. -/
def transfer (txBuf : List UInt8) : Driver (SpiReply txBuf.length) :=
  @CutOff.perform _ SpiCall.Answer (.exchange txBuf)

/-- `select` and `unselect`. -/
def select (value : Bool) : Driver Unit :=
  @CutOff.perform _ SpiCall.Answer (.chipSelect value)

/-- `getTimeSinceBootMsec`. -/
def getTimeSinceBootMsec : Driver UInt32 :=
  @CutOff.perform _ SpiCall.Answer .getTimeSinceBootMsec

/-- `delayMsec`. -/
def delayMsec (duration : UInt32) : Driver Unit :=
  @CutOff.perform _ SpiCall.Answer (.delayMsec duration)

/-- A function with a device selector that it selects first; the destructor of the selector
unselects the device. -/
def withSelected {α : Type} (body : Driver α) : Driver α := do
  select true
  let r ← body
  select false
  pure r

/-- `transfer` without flags: the chip select line is low during the transfer. -/
def transferSelected (txBuf : List UInt8) : Driver (SpiReply txBuf.length) :=
  withSelected (transfer txBuf)

/-! ### Several transactions -/

/-- An entry of the array of transfers, `transfer_t`, with the contents of its buffers; `none` is
a null pointer. -/
structure SpiTransfer where
  txBuf : Option (List UInt8)
  rxBuf : Option (List UInt8)
  deriving DecidableEq, Repr

/-- `NO_MORE_TRANSFERS`. -/
def noMoreTransfers : SpiTransfer := ⟨none, none⟩

/-- The bytes that an entry sends: those of the receive buffer if there is no transmit buffer. -/
def SpiTransfer.source (t : SpiTransfer) : List UInt8 := (t.txBuf <|> t.rxBuf).getD []

/-- The entry after its transfer: the received bytes are in the receive buffer, or in the
transmit buffer if there is none. -/
def SpiTransfer.store (t : SpiTransfer) (received : List UInt8) : SpiTransfer :=
  if t.rxBuf.isSome then { t with rxBuf := some received } else { t with txBuf := some received }

/-- The loop over the array; it returns the array with the buffers after the transfers. The
arrays of the drivers end with the guard element. -/
def transferEntries : List SpiTransfer → ℕ → Driver (Bool × List SpiTransfer)
  | transfers, 0 => pure (false, transfers)
  | [], _ + 1 => pure (false, [])
  | t :: transfers, count + 1 =>
    if t = noMoreTransfers then pure (true, t :: transfers)
    else do
      let reply ← transfer t.source
      if reply.ok then
        let rest ← transferEntries transfers count
        pure (rest.1, t.store reply.received :: rest.2)
      else pure (false, t.store reply.received :: transfers)

/-- `transfer` with an array of transfers, without flags. A maximum number of zero means the largest
one. -/
def transferAll (transfers : List SpiTransfer) (count : ℕ) : Driver (Bool × List SpiTransfer) :=
  withSelected (transferEntries transfers (if count = 0 then 65535 else count))

/-! ### Runs -/

theorem runs_transfer_bind {α : Type} {txBuf : List UInt8}
    {f : SpiReply txBuf.length → Driver α} {es : List SpiEvent} {r : Option α} :
    CutOff.Runs (transfer txBuf >>= f) es r ↔
      ∃ reply rest, es = ⟨.exchange txBuf, reply⟩ :: rest ∧ CutOff.Runs (f reply) rest r :=
  CutOff.runs_perform_bind

/-- A function with a selector runs its body between the two moves of the chip select line. -/
theorem runs_withSelected {α : Type} {body : Driver α} {es : List SpiEvent} {r : Option α}
    (h : CutOff.Runs (withSelected body) es r) :
    ∃ es', CutOff.Runs body es' r ∧
      (es = ⟨.chipSelect true, ()⟩ :: es' ∨
        es = ⟨.chipSelect true, ()⟩ :: (es' ++ [⟨.chipSelect false, ()⟩])) := by
  obtain ⟨_, rest, rfl, hrest⟩ := CutOff.runs_perform_bind.mp h
  rcases CutOff.runs_bind.mp hrest with ⟨hcut, rfl⟩ | ⟨es₁, es₂, a, rfl, hbody, hend⟩
  · exact ⟨rest, hcut, Or.inl rfl⟩
  · obtain ⟨_, es₃, rfl, hpure⟩ := CutOff.runs_perform_bind.mp hend
    obtain ⟨rfl, rfl⟩ := CutOff.runs_pure.mp hpure
    exact ⟨es₁, hbody, Or.inr rfl⟩

/-! ### Properties of all events -/

section Emits

variable {P : SpiEvent → Prop} {α : Type}

theorem emits_transfer {txBuf : List UInt8}
    (h : ∀ reply : SpiReply txBuf.length, P ⟨.exchange txBuf, reply⟩) :
    CutOff.Emits P (transfer txBuf) :=
  CutOff.Emits.perform h

theorem emits_getTimeSinceBootMsec (h : ∀ now : UInt32, P ⟨.getTimeSinceBootMsec, now⟩) :
    CutOff.Emits P getTimeSinceBootMsec :=
  CutOff.Emits.perform h

theorem emits_delayMsec {duration : UInt32} (h : P ⟨.delayMsec duration, ()⟩) :
    CutOff.Emits P (delayMsec duration) :=
  CutOff.Emits.perform fun _ => h

end Emits

end TellerOBC
