import TellerOBC.Foundations.Observation
import TellerOBC.Hal.Spi

/-!
# The flash memory driver

`eraseSector`, `readIntoBuffer` and `programFromBuffer` of the driver for the W25Q chips,
`drivers/flashmem/w25qxx.cpp`, with the functions that they use. Logging and statistics are left
out.

A function prepares the header of its command, the opcode and the address, once and makes up to
five attempts with it. The header is sent from a buffer without a receive buffer of its own, so
the received bytes replace it: the next attempt sends what was received.

The header of an attempt is found in the events of a run as the first transfer after the chip
select line went low; the other commands are shorter than a header.

## Main definitions

* `TellerOBC.FlashMem.eraseSector`, `TellerOBC.FlashMem.readIntoBuffer`,
  `TellerOBC.FlashMem.programFromBuffer`.
* `TellerOBC.FlashMem.headerTransfers`: the headers that were sent, with what was received.

## Main results

* `TellerOBC.FlashMem.sameHeader_iff_headerEchoed`: all attempts send the same header exactly if
  the chip sends it back to all attempts but the last one.
-/

namespace TellerOBC.FlashMem

/-! ### Constants -/

/-- `MAX_RETRIES`. -/
def maxRetries : ℕ := 5

/-- `SECTORS_IN_BLOCK`. -/
def sectorsInBlock : UInt32 := 16

/-- `SECTOR_SIZE`. -/
def sectorSize : UInt32 := 4096

def cmdPageProgram : UInt8 := 0x02
def cmdReadData : UInt8 := 0x03
def cmdWriteDisable : UInt8 := 0x04
def cmdReadStatusRegister1 : UInt8 := 0x05
def cmdWriteEnable : UInt8 := 0x06
def cmdSectorErase4K : UInt8 := 0x20

/-- The configuration of the chip, as far as it is used here. -/
structure Config where
  blockCount : UInt32

section

variable (passes : ℕ) (cfg : Config)

/-! ### Status and write protection -/

/-- `readStatusRegister` for the first register; nothing if the transfer failed. -/
def readStatusRegister : Driver (Option UInt8) := do
  let reply ← transferSelected [cmdReadStatusRegister1, 0]
  pure (if reply.ok then reply.received[1]? else none)

/-- `isWriteEnabled`. -/
def isWriteEnabled : Driver Bool := do
  let reg ← readStatusRegister
  pure (reg.any fun reg => reg &&& 0x02 ≠ 0)

/-- `waitWhileBusy`, with at most the given number of passes: whether the status could be read
until the chip was ready. -/
def waitWhileBusy : ℕ → Driver Bool
  | 0 => CutOff.stop
  | passes + 1 => do
    let reg ← readStatusRegister
    match reg with
    | none => pure false
    | some reg =>
      if reg &&& 0x01 = 0 then pure true
      else do
        delayMsec 1
        waitWhileBusy passes

/-- `WriteEnabledContext::enable`. -/
def enableWriting : Driver Bool := do
  let reply ← transferSelected [cmdWriteEnable]
  if reply.ok then isWriteEnabled else pure false

/-- The destructor of `WriteEnabledContext`. -/
def disableWriting (enabled : Bool) : Driver Unit :=
  if enabled then do
    let _ ← transferSelected [cmdWriteDisable]
    pure ()
  else pure ()

/-! ### Headers -/

/-- `sectorToAddress`. -/
def sectorToAddress (sector off : UInt32) : UInt32 := sector * sectorSize + off

/-- `fillBufferWithAddress`: the address in big endian order, in four bytes for the large chips
and in three for the others. -/
def fillBufferWithAddress (address : UInt32) : List UInt8 :=
  (if cfg.blockCount ≥ 512 then [(address >>> 24).toUInt8] else []) ++
    [(address >>> 16).toUInt8, (address >>> 8).toUInt8, address.toUInt8]

/-- The header of a command: its opcode and the address. -/
def header (cmd : UInt8) (address : UInt32) : List UInt8 :=
  cmd :: fillBufferWithAddress cfg address

/-! ### Attempts -/

section

variable {σ : Type}

/-- Attempts that hand their buffers on to the next one, until one succeeds. -/
def retrying (attempt : σ → Driver (Bool × σ)) : ℕ → σ → Driver (Bool × σ)
  | 0, buffers => pure (false, buffers)
  | retries + 1, buffers => do
    let r ← attempt buffers
    if r.1 then pure r else retrying attempt retries r.2

/-- The command of an erase, if writing could be enabled. -/
def sendIfEnabled (send : σ → Driver (Bool × σ)) (enabled : Bool) (buffers : σ) :
    Driver (Bool × σ) :=
  if enabled then send buffers else pure (false, buffers)

/-- The end of an attempt that writes: wait until the command is done, and disable writing. -/
def finishWriting (enabled : Bool) (r : Bool × σ) : Driver (Bool × σ) := do
  let done ← waitWhileBusy passes
  disableWriting enabled
  pure (r.1 && done, r.2)

/-- An attempt of `eraseSector`. -/
def eraseAttempt (send : σ → Driver (Bool × σ)) (buffers : σ) : Driver (Bool × σ) := do
  let ready ← waitWhileBusy passes
  if !ready then pure (false, buffers)
  else do
    let enabled ← enableWriting
    let r ← sendIfEnabled send enabled buffers
    finishWriting passes enabled r

/-- An attempt of `programFromBuffer`, which does not wait after writing could not be enabled. -/
def programAttempt (send : σ → Driver (Bool × σ)) (buffers : σ) : Driver (Bool × σ) := do
  let ready ← waitWhileBusy passes
  if !ready then pure (false, buffers)
  else do
    let enabled ← enableWriting
    if !enabled then pure (false, buffers)
    else do
      let r ← send buffers
      finishWriting passes enabled r

/-- An attempt of `readIntoBuffer`. -/
def readAttempt (send : σ → Driver (Bool × σ)) (buffers : σ) : Driver (Bool × σ) := do
  let ready ← waitWhileBusy passes
  if ready then send buffers else pure (false, buffers)

end

/-- A transfer from and to one buffer. -/
def sendInPlace (buf : List UInt8) : Driver (Bool × List UInt8) := do
  let reply ← transferSelected buf
  pure (reply.ok, reply.received)

/-- A transfer with an array that ends with its guard element. -/
def sendTransfers (transfers : List SpiTransfer) : Driver (Bool × List SpiTransfer) :=
  transferAll transfers 0

/-- `eraseSector` with a configuration: whether the sector was erased, and the command buffer after
it. -/
def eraseSector (sector : UInt32) : Driver (Bool × List UInt8) :=
  if sector ≥ cfg.blockCount * sectorsInBlock then pure (false, [])
  else
    retrying (eraseAttempt passes sendInPlace) maxRetries
      (header cfg cmdSectorErase4K (sectorToAddress sector 0))

/-- `readIntoBuffer`: whether the bytes were read, and the array of transfers with the buffer of
the caller, `buf`. -/
def readIntoBuffer (offset : UInt32) (buf : List UInt8) : Driver (Bool × List SpiTransfer) :=
  retrying (readAttempt passes sendTransfers) maxRetries
    [⟨some (header cfg cmdReadData offset), none⟩, ⟨none, some buf⟩, noMoreTransfers]

/-- `programFromBuffer`. What is received while the data is sent goes to a dummy buffer that is
never read. -/
def programFromBuffer (offset : UInt32) (buf dummyRxBuf : List UInt8) :
    Driver (Bool × List SpiTransfer) :=
  retrying (programAttempt passes sendTransfers) maxRetries
    [⟨some (header cfg cmdPageProgram offset), none⟩, ⟨some buf, some dummyRxBuf⟩,
      noMoreTransfers]

end

/-! ### The headers of a run -/

/-- A header that was sent, with the bytes that were received at the same time. -/
structure HeaderTransfer where
  sent : List UInt8
  received : List UInt8
  deriving DecidableEq, Repr

/-- The headers among the events: transfers of four or more bytes right after the chip select
line went low. -/
def headerTransfers : List SpiEvent → List HeaderTransfer
  | [] => []
  | ⟨.chipSelect true, _⟩ :: ⟨.exchange txBuf, reply⟩ :: es =>
    if 4 ≤ txBuf.length then ⟨txBuf, reply.received⟩ :: headerTransfers es
    else headerTransfers es
  | _ :: es => headerTransfers es

/-- All headers are the same, the one with the opcode and the address of the call. -/
def SameHeader (header : List UInt8) (es : List SpiEvent) : Prop :=
  ∀ t ∈ headerTransfers es, t.sent = header

/-- The chip sends back all headers but the last one. -/
def HeaderEchoed (header : List UInt8) (es : List SpiEvent) : Prop :=
  ∀ t ∈ (headerTransfers es).dropLast, t.received = header

open CutOff

/-- The events have these headers, whatever comes after them. -/
def HasHeaders (es : List SpiEvent) (ts : List HeaderTransfer) : Prop :=
  ∀ rest, headerTransfers (es ++ rest) = ts ++ headerTransfers rest

/-- Each header sends what was received with the one before, the first one the given bytes. -/
def Linked (header : List UInt8) : List HeaderTransfer → Prop
  | [] => True
  | t :: ts => t.sent = header ∧ Linked t.received ts

variable {es es' : List SpiEvent} {ts ts' : List HeaderTransfer} {passes : ℕ} {α : Type}

theorem HasHeaders.headerTransfers_eq (h : HasHeaders es ts) : headerTransfers es = ts :=
  Observation.Shows.eq h rfl

theorem HasHeaders.nil : HasHeaders [] [] := Observation.Shows.nil

theorem HasHeaders.append (h : HasHeaders es ts) (h' : HasHeaders es' ts') :
    HasHeaders (es ++ es') (ts ++ ts') := Observation.Shows.append h h'

/-- A transfer that is not the first one of its selection. -/
theorem HasHeaders.cons_exchange {txBuf : List UInt8} (reply : SpiReply txBuf.length)
    (h : HasHeaders es ts) : HasHeaders (⟨.exchange txBuf, reply⟩ :: es) ts := h

/-- A selection with a short first transfer. -/
theorem hasHeaders_short {txBuf : List UInt8} (hlen : txBuf.length < 4)
    (reply : SpiReply txBuf.length) (h : HasHeaders es ts) :
    HasHeaders (⟨.chipSelect true, ()⟩ :: ⟨.exchange txBuf, reply⟩ :: es) ts := by
  intro rest
  rw [← h rest]
  exact if_neg (Nat.not_le.mpr hlen)

/-- A selection with a header as its first transfer. -/
theorem hasHeaders_header {txBuf : List UInt8} (hlen : 4 ≤ txBuf.length)
    (reply : SpiReply txBuf.length) (h : HasHeaders es ts) :
    HasHeaders (⟨.chipSelect true, ()⟩ :: ⟨.exchange txBuf, reply⟩ :: es)
      (⟨txBuf, reply.received⟩ :: ts) := by
  intro rest
  refine (if_pos hlen).trans ?_
  exact congrArg (List.cons _) (h rest)

theorem hasHeaders_unselect : HasHeaders [⟨.chipSelect false, ()⟩] [] := fun _ => rfl

theorem HasHeaders.cons_delayMsec (duration : UInt32) (h : HasHeaders es ts) :
    HasHeaders (⟨.delayMsec duration, ()⟩ :: es) ts := h

/-! ### Commands without a header -/

/-- A function all of whose runs have no headers. -/
def Silent (p : Driver α) : Prop := ∀ es r, Runs p es r → HasHeaders es []

theorem Silent.pure (a : α) : Silent (pure a : Driver α) := Observation.Hidden.pure a

theorem Silent.bind {β : Type} {p : Driver α} {f : α → Driver β} (hp : Silent p)
    (hf : ∀ a, Silent (f a)) : Silent (p >>= f) := Observation.Hidden.bind hp hf

theorem Silent.ite {c : Prop} [Decidable c] {p q : Driver α} (hp : Silent p) (hq : Silent q) :
    Silent (if c then p else q) := Observation.Hidden.ite hp hq

/-- The events of a selected transfer. -/
theorem runs_transferSelected {txBuf : List UInt8} {r : Option (SpiReply txBuf.length)}
    (h : Runs (transferSelected txBuf) es r) :
    ∃ reply, r = some reply ∧ es = [⟨.chipSelect true, ()⟩, ⟨.exchange txBuf, reply⟩,
      ⟨.chipSelect false, ()⟩] := by
  obtain ⟨_, es₁, rfl, h₁⟩ := runs_perform_bind.mp h
  obtain ⟨reply, es₂, rfl, h₂⟩ := runs_transfer_bind.mp h₁
  obtain ⟨_, es₃, rfl, h₃⟩ := runs_perform_bind.mp h₂
  obtain ⟨rfl, rfl⟩ := runs_pure.mp h₃
  exact ⟨reply, rfl, rfl⟩

/-- A selected transfer, and what comes after it. -/
theorem runs_transferSelected_bind {txBuf : List UInt8} {f : SpiReply txBuf.length → Driver α}
    {r : Option α} (h : Runs (transferSelected txBuf >>= f) es r) :
    ∃ reply rest, es = ⟨.chipSelect true, ()⟩ :: ⟨.exchange txBuf, reply⟩ ::
      ⟨.chipSelect false, ()⟩ :: rest ∧ Runs (f reply) rest r := by
  rcases runs_bind.mp h with ⟨hcut, -⟩ | ⟨es₁, es₂, reply, rfl, htransfer, hrest⟩
  · obtain ⟨_, hnone, -⟩ := runs_transferSelected hcut
    cases hnone
  · obtain ⟨_, hsome, rfl⟩ := runs_transferSelected htransfer
    cases hsome
    exact ⟨reply, es₂, rfl, hrest⟩

theorem silent_transferSelected {txBuf : List UInt8} (hlen : txBuf.length < 4) :
    Silent (transferSelected txBuf) := by
  intro es r h
  obtain ⟨reply, -, rfl⟩ := runs_transferSelected h
  exact hasHeaders_short hlen reply hasHeaders_unselect

theorem silent_readStatusRegister : Silent readStatusRegister :=
  .bind (silent_transferSelected (by decide)) fun _ => .pure _

theorem silent_waitWhileBusy : Silent (waitWhileBusy passes) := by
  induction passes with
  | zero =>
    rintro es r ⟨rfl, -⟩
    exact .nil
  | succ passes ih =>
    refine .bind silent_readStatusRegister fun reg => ?_
    cases reg with
    | none => exact .pure _
    | some reg =>
      refine .ite (.pure _) fun es r h => ?_
      obtain ⟨_, es', rfl, h'⟩ := runs_perform_bind.mp h
      exact (ih es' r h').cons_delayMsec 1

theorem silent_enableWriting : Silent enableWriting :=
  .bind (silent_transferSelected (by decide)) fun _ =>
    .ite (.bind silent_readStatusRegister fun _ => .pure _) (.pure _)

theorem silent_disableWriting (enabled : Bool) : Silent (disableWriting enabled) :=
  .ite (.bind (silent_transferSelected (by decide)) fun _ => .pure _) (.pure _)

/-! ### Attempts -/

section

variable {σ : Type} (headerOf : σ → List UInt8)

/-- A function that sends at most one header, the given one, and leaves what it received in its
place. -/
def SendsOnce (header : List UInt8) (p : Driver (Bool × σ)) : Prop :=
  ∀ es r, Runs p es r →
    (HasHeaders es [] ∧ ∀ ok buffers, r = some (ok, buffers) → headerOf buffers = header) ∨
    ∃ received, received.length = header.length ∧ HasHeaders es [⟨header, received⟩] ∧
      ∀ ok buffers, r = some (ok, buffers) → headerOf buffers = received

variable {headerOf} {header : List UInt8} {p : Driver (Bool × σ)}

theorem SendsOnce.pure (ok : Bool) {buffers : σ} (h : headerOf buffers = header) :
    SendsOnce headerOf header (pure (ok, buffers)) := by
  rintro es r ⟨rfl, rfl⟩
  refine Or.inl ⟨.nil, ?_⟩
  rintro ok' buffers' ⟨⟩
  exact h

theorem SendsOnce.ite {c : Prop} [Decidable c] {q : Driver (Bool × σ)}
    (hp : SendsOnce headerOf header p) (hq : SendsOnce headerOf header q) :
    SendsOnce headerOf header (if c then p else q) := by
  split
  · exact hp
  · exact hq

/-- Events without headers before do not matter. -/
theorem Silent.bind_sendsOnce {q : Driver α} {f : α → Driver (Bool × σ)} (hq : Silent q)
    (hf : ∀ a, SendsOnce headerOf header (f a)) : SendsOnce headerOf header (q >>= f) := by
  intro es r h
  rcases runs_bind.mp h with ⟨hcut, rfl⟩ | ⟨es₁, es₂, a, rfl, h₁, h₂⟩
  · exact Or.inl ⟨hq es none hcut, nofun⟩
  · have hsilent := hq es₁ _ h₁
    rcases hf a es₂ r h₂ with ⟨hnone, hkept⟩ | ⟨received, hlen, hone, hstored⟩
    · exact Or.inl ⟨hsilent.append hnone, hkept⟩
    · exact Or.inr ⟨received, hlen, hsilent.append hone, hstored⟩

/-- Neither do events after that keep the buffers. -/
theorem SendsOnce.bind {f : Bool × σ → Driver (Bool × σ)} (hp : SendsOnce headerOf header p)
    (hf : ∀ a, Silent (f a))
    (hkeeps : ∀ a es ok buffers, Runs (f a) es (some (ok, buffers)) → buffers = a.2) :
    SendsOnce headerOf header (p >>= f) := by
  intro es r h
  rcases runs_bind.mp h with ⟨hcut, rfl⟩ | ⟨es₁, es₂, ⟨ok₁, buffers₁⟩, rfl, h₁, h₂⟩
  · rcases hp es none hcut with ⟨hnone, -⟩ | ⟨received, hlen, hone, -⟩
    · exact Or.inl ⟨hnone, nofun⟩
    · exact Or.inr ⟨received, hlen, hone, nofun⟩
  · have hsilent := hf _ es₂ r h₂
    rcases hp es₁ _ h₁ with ⟨hnone, hkept⟩ | ⟨received, hlen, hone, hstored⟩
    · refine Or.inl ⟨hnone.append hsilent, fun ok buffers hr => ?_⟩
      rw [hkeeps _ es₂ ok buffers (hr ▸ h₂)]
      exact hkept ok₁ buffers₁ rfl
    · refine Or.inr ⟨received, hlen, hone.append hsilent, fun ok buffers hr => ?_⟩
      rw [hkeeps _ es₂ ok buffers (hr ▸ h₂)]
      exact hstored ok₁ buffers₁ rfl

theorem sendsOnce_readAttempt {send : σ → Driver (Bool × σ)} {buffers : σ}
    (hsend : SendsOnce headerOf (headerOf buffers) (send buffers)) :
    SendsOnce headerOf (headerOf buffers) (readAttempt passes send buffers) :=
  silent_waitWhileBusy.bind_sendsOnce fun _ => .ite hsend (.pure _ rfl)

theorem SendsOnce.bind_finishWriting (hp : SendsOnce headerOf header p) (enabled : Bool) :
    SendsOnce headerOf header (p >>= finishWriting passes enabled) := by
  refine hp.bind (fun a => ?_) ?_
  · exact silent_waitWhileBusy.bind fun _ => (silent_disableWriting _).bind fun _ => .pure _
  · intro a es ok buffers h
    rcases runs_bind.mp h with ⟨-, hcut⟩ | ⟨es₁, es₂, done, rfl, -, h₂⟩
    · cases hcut
    rcases runs_bind.mp h₂ with ⟨-, hcut⟩ | ⟨es₃, es₄, _, rfl, -, h₄⟩
    · cases hcut
    obtain ⟨-, heq⟩ := runs_pure.mp h₄
    cases heq
    rfl

theorem sendsOnce_eraseAttempt {send : σ → Driver (Bool × σ)} {buffers : σ}
    (hsend : SendsOnce headerOf (headerOf buffers) (send buffers)) :
    SendsOnce headerOf (headerOf buffers) (eraseAttempt passes send buffers) := by
  refine silent_waitWhileBusy.bind_sendsOnce fun ready => .ite (.pure _ rfl) ?_
  refine silent_enableWriting.bind_sendsOnce fun enabled => ?_
  have hbody : SendsOnce headerOf (headerOf buffers) (sendIfEnabled send enabled buffers) :=
    .ite hsend (.pure _ rfl)
  exact hbody.bind_finishWriting enabled

theorem sendsOnce_programAttempt {send : σ → Driver (Bool × σ)} {buffers : σ}
    (hsend : SendsOnce headerOf (headerOf buffers) (send buffers)) :
    SendsOnce headerOf (headerOf buffers) (programAttempt passes send buffers) := by
  refine silent_waitWhileBusy.bind_sendsOnce fun ready => .ite (.pure _ rfl) ?_
  refine silent_enableWriting.bind_sendsOnce fun enabled => .ite (.pure _ rfl) ?_
  exact hsend.bind_finishWriting enabled

/-- The attempts of an operation send linked headers. -/
theorem linked_retrying {attempt : σ → Driver (Bool × σ)}
    (hattempt : ∀ buffers, 4 ≤ (headerOf buffers).length →
      SendsOnce headerOf (headerOf buffers) (attempt buffers))
    (retries : ℕ) {buffers : σ} (hlen : 4 ≤ (headerOf buffers).length) {r : Option (Bool × σ)}
    (h : Runs (retrying attempt retries buffers) es r) :
    ∃ ts, HasHeaders es ts ∧ Linked (headerOf buffers) ts := by
  induction retries generalizing buffers es r with
  | zero =>
    obtain ⟨rfl, -⟩ := runs_pure.mp h
    exact ⟨[], .nil, trivial⟩
  | succ retries ih =>
    rcases runs_bind.mp h with ⟨hcut, -⟩ | ⟨es₁, es₂, ⟨ok, buffers'⟩, rfl, h₁, h₂⟩
    · rcases hattempt buffers hlen es none hcut with ⟨hnone, -⟩ | ⟨received, -, hone, -⟩
      · exact ⟨[], hnone, trivial⟩
      · exact ⟨_, hone, rfl, trivial⟩
    · have hnext : 4 ≤ (headerOf buffers').length →
          ∃ ts, HasHeaders es₂ ts ∧ Linked (headerOf buffers') ts := by
        intro hlen'
        dsimp only at h₂
        split_ifs at h₂
        · obtain ⟨rfl, -⟩ := runs_pure.mp h₂
          exact ⟨[], .nil, trivial⟩
        · exact ih hlen' h₂
      rcases hattempt buffers hlen es₁ _ h₁ with ⟨hnone, hkept⟩ | ⟨received, hlen', hone, hstored⟩
      · have hheader := hkept ok buffers' rfl
        rw [hheader] at hnext
        obtain ⟨ts, hts, hlinked⟩ := hnext hlen
        exact ⟨ts, hnone.append hts, hlinked⟩
      · have hheader := hstored ok buffers' rfl
        rw [hheader] at hnext
        obtain ⟨ts, hts, hlinked⟩ := hnext (hlen'.symm ▸ hlen)
        exact ⟨_, hone.append hts, rfl, hlinked⟩

end

/-! ### Commands with a header -/

theorem sendsOnce_sendInPlace {buf : List UInt8} (hlen : 4 ≤ buf.length) :
    SendsOnce id buf (sendInPlace buf) := by
  intro es r h
  obtain ⟨reply, rest, rfl, hend⟩ := runs_transferSelected_bind h
  obtain ⟨rfl, rfl⟩ := runs_pure.mp hend
  refine Or.inr ⟨reply.received, reply.length_received,
    hasHeaders_header hlen reply hasHeaders_unselect, ?_⟩
  rintro ok buffers ⟨⟩
  rfl

/-- The header in an array of transfers: the transmit buffer of its first entry. -/
def headerOfTransfers : List SpiTransfer → List UInt8
  | ⟨some header, none⟩ :: _ => header
  | _ => []

/-- The transfers of an array after the first one do not follow a move of the chip select line. -/
theorem hasHeaders_transferEntries {transfers : List SpiTransfer} {count : ℕ}
    {r : Option (Bool × List SpiTransfer)} (h : Runs (transferEntries transfers count) es r) :
    HasHeaders es [] ∧ ∃ ok transfers', r = some (ok, transfers') := by
  induction transfers generalizing count es r with
  | nil =>
    cases count with
    | zero =>
      obtain ⟨rfl, rfl⟩ := runs_pure.mp h
      exact ⟨.nil, _, _, rfl⟩
    | succ count =>
      obtain ⟨rfl, rfl⟩ := runs_pure.mp h
      exact ⟨.nil, _, _, rfl⟩
  | cons t transfers ih =>
    cases count with
    | zero =>
      obtain ⟨rfl, rfl⟩ := runs_pure.mp h
      exact ⟨.nil, _, _, rfl⟩
    | succ count =>
      rw [transferEntries] at h
      split_ifs at h with hguard
      · obtain ⟨rfl, rfl⟩ := runs_pure.mp h
        exact ⟨.nil, _, _, rfl⟩
      · obtain ⟨reply, es', rfl, hrest⟩ := runs_transfer_bind.mp h
        split_ifs at hrest with hok
        · rcases runs_bind.mp hrest with ⟨hcut, -⟩ | ⟨es₁, es₂, rest, rfl, h₁, h₂⟩
          · obtain ⟨-, _, _, hsome⟩ := ih hcut
            cases hsome
          · obtain ⟨rfl, rfl⟩ := runs_pure.mp h₂
            exact ⟨((ih h₁).1.append .nil).cons_exchange reply, _, _, rfl⟩
        · obtain ⟨rfl, rfl⟩ := runs_pure.mp hrest
          exact ⟨HasHeaders.nil.cons_exchange reply, _, _, rfl⟩

theorem sendsOnce_sendTransfers {header : List UInt8} (hlen : 4 ≤ header.length)
    (transfers : List SpiTransfer) :
    SendsOnce headerOfTransfers header (sendTransfers (⟨some header, none⟩ :: transfers)) := by
  intro es r h
  obtain ⟨es', hentries, hes⟩ := runs_withSelected h
  have hnotGuard : (⟨some header, none⟩ : SpiTransfer) ≠ noMoreTransfers := by
    rw [noMoreTransfers, ne_eq, SpiTransfer.mk.injEq]
    exact fun hnull => Option.some_ne_none _ hnull.1
  change Runs (transferEntries _ (65534 + 1)) es' r at hentries
  rw [transferEntries, if_neg hnotGuard] at hentries
  obtain ⟨reply, es₁, rfl, hrest⟩ := runs_transfer_bind.mp hentries
  have hdone : HasHeaders es₁ [] ∧ ∀ ok transfers', r = some (ok, transfers') →
      headerOfTransfers transfers' = reply.received := by
    split_ifs at hrest
    · rcases runs_bind.mp hrest with ⟨hcut, rfl⟩ | ⟨es₂, es₃, rest, rfl, h₂, h₃⟩
      · exact ⟨(hasHeaders_transferEntries hcut).1, nofun⟩
      · obtain ⟨rfl, rfl⟩ := runs_pure.mp h₃
        refine ⟨(hasHeaders_transferEntries h₂).1.append .nil, ?_⟩
        rintro ok transfers' ⟨⟩
        rfl
    · obtain ⟨rfl, rfl⟩ := runs_pure.mp hrest
      refine ⟨.nil, ?_⟩
      rintro ok transfers' ⟨⟩
      rfl
  refine Or.inr ⟨reply.received, reply.length_received, ?_, hdone.2⟩
  rcases hes with rfl | rfl
  · exact hasHeaders_header hlen reply hdone.1
  · exact hasHeaders_header hlen reply (hdone.1.append hasHeaders_unselect)

/-! ### Whole operations -/

theorem four_le_length_header (cfg : Config) (cmd : UInt8) (address : UInt32) :
    4 ≤ (header cfg cmd address).length := by
  simp only [header, fillBufferWithAddress, List.length_cons, List.length_append, List.length_nil]
  omega

/-- Linked headers are all the same exactly if all but the last one were sent back. -/
theorem same_iff_echoed {header : List UInt8} {ts : List HeaderTransfer} (h : Linked header ts) :
    (∀ t ∈ ts, t.sent = header) ↔ ∀ t ∈ ts.dropLast, t.received = header := by
  induction ts with
  | nil => exact ⟨fun _ => nofun, fun _ => nofun⟩
  | cons t ts ih =>
    obtain ⟨hsent, hnext⟩ := h
    cases ts with
    | nil =>
      refine ⟨fun _ => nofun, fun _ t' ht' => ?_⟩
      rw [List.mem_singleton.mp ht', hsent]
    | cons t' ts =>
      rw [List.dropLast_cons_cons]
      constructor
      · intro hall
        have hsame : ∀ t ∈ t' :: ts, t.sent = header := (List.forall_mem_cons.mp hall).2
        have hreceived : t.received = header :=
          hnext.1.symm.trans (hsame t' List.mem_cons_self)
        exact List.forall_mem_cons.mpr ⟨hreceived, (ih (hreceived ▸ hnext)).mp hsame⟩
      · intro hall
        obtain ⟨hreceived, hechoed⟩ := List.forall_mem_cons.mp hall
        exact List.forall_mem_cons.mpr ⟨hsent, (ih (hreceived ▸ hnext)).mpr hechoed⟩

theorem sameHeader_iff_of_retrying {σ : Type} {headerOf : σ → List UInt8}
    {attempt : σ → Driver (Bool × σ)}
    (hattempt : ∀ buffers, 4 ≤ (headerOf buffers).length →
      SendsOnce headerOf (headerOf buffers) (attempt buffers))
    {retries : ℕ} {buffers : σ} (hlen : 4 ≤ (headerOf buffers).length) {r : Option (Bool × σ)}
    (h : Runs (retrying attempt retries buffers) es r) :
    SameHeader (headerOf buffers) es ↔ HeaderEchoed (headerOf buffers) es := by
  obtain ⟨ts, hts, hlinked⟩ := linked_retrying hattempt retries hlen h
  rw [SameHeader, HeaderEchoed, hts.headerTransfers_eq]
  exact same_iff_echoed hlinked

/-- An array of transfers with a header is one whose first entry has a transmit buffer and no
receive buffer. -/
theorem sendsOnce_of_header {transfers : List SpiTransfer}
    (hlen : 4 ≤ (headerOfTransfers transfers).length) :
    SendsOnce headerOfTransfers (headerOfTransfers transfers) (sendTransfers transfers) := by
  match transfers, hlen with
  | ⟨some _, none⟩ :: transfers, hlen => exact sendsOnce_sendTransfers hlen transfers

/-- **When all attempts send the same header.** In every run of `eraseSector`, `readIntoBuffer`
and `programFromBuffer` all headers that are sent have the opcode and the address of the call if
and only if the header is sent back by the chip in all of its transfers but the last one. -/
theorem sameHeader_iff_headerEchoed (passes : ℕ) (cfg : Config) :
    (∀ sector es r, Runs (eraseSector passes cfg sector) es r →
      (SameHeader (header cfg cmdSectorErase4K (sectorToAddress sector 0)) es ↔
        HeaderEchoed (header cfg cmdSectorErase4K (sectorToAddress sector 0)) es)) ∧
    (∀ offset buf es r, Runs (readIntoBuffer passes cfg offset buf) es r →
      (SameHeader (header cfg cmdReadData offset) es ↔
        HeaderEchoed (header cfg cmdReadData offset) es)) ∧
    ∀ offset buf dummyRxBuf es r,
      Runs (programFromBuffer passes cfg offset buf dummyRxBuf) es r →
      (SameHeader (header cfg cmdPageProgram offset) es ↔
        HeaderEchoed (header cfg cmdPageProgram offset) es) := by
  refine ⟨fun sector es r h => ?_, fun offset buf es r h => ?_,
    fun offset buf dummyRxBuf es r h => ?_⟩
  · rw [eraseSector] at h
    split_ifs at h
    · obtain ⟨rfl, -⟩ := runs_pure.mp h
      exact ⟨fun _ => nofun, fun _ => nofun⟩
    · exact sameHeader_iff_of_retrying
        (fun buffers hlen => sendsOnce_eraseAttempt (sendsOnce_sendInPlace hlen))
        (four_le_length_header _ _ _) h
  · have hlen : 4 ≤ (headerOfTransfers [⟨some (header cfg cmdReadData offset), none⟩,
        ⟨none, some buf⟩, noMoreTransfers]).length := four_le_length_header _ _ _
    exact sameHeader_iff_of_retrying
      (fun transfers hlen => sendsOnce_readAttempt (sendsOnce_of_header hlen)) hlen h
  · have hlen : 4 ≤ (headerOfTransfers [⟨some (header cfg cmdPageProgram offset), none⟩,
        ⟨some buf, some dummyRxBuf⟩, noMoreTransfers]).length := four_le_length_header _ _ _
    exact sameHeader_iff_of_retrying
      (fun transfers hlen => sendsOnce_programAttempt (sendsOnce_of_header hlen)) hlen h

/-! ### A chip that sends ones -/

/-- A bus with a chip that is ready and sends ones while it receives longer commands. The list
says which transfers succeed. -/
def scriptedChip : Program.Environment SpiCall.Answer (List Bool)
  | .chipSelect _, oks => ((), oks)
  | .exchange [_, _], oks => (⟨oks.headD true, [0, 0], rfl⟩, oks.tail)
  | .exchange txBuf, oks => (.ones (oks.headD true) txBuf.length, oks.tail)
  | .getTimeSinceBootMsec, oks => (0, oks)
  | .delayMsec _, oks => ((), oks)

/-- A read of four bytes on a chip with 256 blocks; the first transfer of data fails. -/
def readWithRetry : Driver (Bool × List SpiTransfer) := readIntoBuffer 1 ⟨256⟩ 0x1234 [0, 0, 0, 0]

/-- The second attempt sends ones in the place of the opcode and the address, and succeeds. -/
theorem ones_sent_for_header :
    Runs readWithRetry (readWithRetry.run.trace scriptedChip [true, true, false])
      (readWithRetry.run.exec scriptedChip [true, true, false]).1 ∧
    headerTransfers (readWithRetry.run.trace scriptedChip [true, true, false]) =
      [⟨[0x03, 0x00, 0x12, 0x34], [0xff, 0xff, 0xff, 0xff]⟩,
        ⟨[0xff, 0xff, 0xff, 0xff], [0xff, 0xff, 0xff, 0xff]⟩] ∧
    ¬ SameHeader (header ⟨256⟩ cmdReadData 0x1234)
      (readWithRetry.run.trace scriptedChip [true, true, false]) := by
  have hheaders : headerTransfers (readWithRetry.run.trace scriptedChip [true, true, false]) =
      [⟨[0x03, 0x00, 0x12, 0x34], [0xff, 0xff, 0xff, 0xff]⟩,
        ⟨[0xff, 0xff, 0xff, 0xff], [0xff, 0xff, 0xff, 0xff]⟩] := by decide +kernel
  refine ⟨Program.runs_trace _ _ _, hheaders, fun hsame => ?_⟩
  rw [SameHeader, hheaders, List.forall_mem_cons, List.forall_mem_cons] at hsame
  exact absurd hsame.2.1 (by decide)

/-- What the theorem says of the read in which ones are sent for the header. -/
theorem sameHeader_iff_headerEchoed_readWithRetry :
    SameHeader (header ⟨256⟩ cmdReadData 0x1234)
        (readWithRetry.run.trace scriptedChip [true, true, false]) ↔
      HeaderEchoed (header ⟨256⟩ cmdReadData 0x1234)
        (readWithRetry.run.trace scriptedChip [true, true, false]) :=
  (sameHeader_iff_headerEchoed 1 ⟨256⟩).2.1 0x1234 [0, 0, 0, 0] _ _
    (Program.runs_trace scriptedChip readWithRetry.run _)

end TellerOBC.FlashMem
