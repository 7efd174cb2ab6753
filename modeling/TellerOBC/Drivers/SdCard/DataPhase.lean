import TellerOBC.Drivers.SdCard.Blocks

/-!
# What a write transmits

`sdcard_spi_write` copies the block of its caller to the write buffer and hands the buffer to
`programBlockFromBuffer`. An attempt that reaches the data phase sends the buffer with the in-place
form of `transfer`, which replaces its contents by the received bytes; then it computes the
checksum of the buffer and sends it; and the next attempt sends the buffer again. So the checksum
and all further attempts are about the bytes that were received.

A data phase is found in the events of a run by its block: no other transfer is that long.

## Main definitions

* `TellerOBC.SdCard.DataPhase`, `TellerOBC.SdCard.dataPhases`: the data phases of a run.
* `TellerOBC.SdCard.Linked`: each data phase sends what was received in the one before.
* `TellerOBC.SdCard.Echoes`: the card sends back what it receives, as far as it matters.

## Main results

* `TellerOBC.SdCard.linked_sdcardSpiWrite`: the data phases of a write are linked.
* `TellerOBC.SdCard.dataPhases_correct_iff`: they are correct exactly if the card echoes.
-/

namespace TellerOBC.SdCard

open CutOff

/-- A data phase: the block that was sent, whether the transfer succeeded, what was received, and
the checksum that was sent if it did. -/
structure DataPhase where
  sent : List UInt8
  ok : Bool
  received : List UInt8
  checksum : Option (List UInt8)
  deriving DecidableEq, Repr

/-- The bytes of an exchange at the head of the events. -/
def firstExchanged : List SpiEvent → Option (List UInt8)
  | ⟨.exchange txBuf, _⟩ :: _ => some txBuf
  | _ => none

/-- The data phases among the events. -/
def dataPhases : List SpiEvent → List DataPhase
  | [] => []
  | ⟨.exchange txBuf, reply⟩ :: es =>
    if txBuf.length < blockSize then dataPhases es
    else
      { sent := txBuf
        ok := reply.ok
        received := reply.received
        checksum := if reply.ok then firstExchanged es else none } :: dataPhases es
  | ⟨.chipSelect _, _⟩ :: es => dataPhases es
  | ⟨.getTimeSinceBootMsec, _⟩ :: es => dataPhases es
  | ⟨.delayMsec _, _⟩ :: es => dataPhases es

/-- The data phase transmits the data and, if that succeeds, the checksum of the data. -/
structure DataPhase.Correct (phase : DataPhase) (data : List UInt8) : Prop where
  sent_eq : phase.sent = data
  checksum_eq : phase.checksum = if phase.ok then some (crcBytes (crcXmodem 0 data)) else none

/-- Each data phase sends the contents of the buffer, the received bytes replace them, and their
checksum is sent. -/
def Linked (buf : List UInt8) : List DataPhase → Prop
  | [] => True
  | phase :: phases =>
    phase.sent = buf ∧
      phase.checksum = (if phase.ok then some (crcBytes (crcXmodem 0 phase.received)) else none) ∧
      Linked phase.received phases

/-- In each data phase but the last one exactly the data was received, and in the last one, if its
block was transferred, something with the checksum of the data. -/
def Echoes (data : List UInt8) (phases : List DataPhase) : Prop :=
  (∀ phase ∈ phases.dropLast, phase.received = data) ∧
    ∀ phase ∈ phases.getLast?, phase.ok = true →
      crcXmodem 0 phase.received = crcXmodem 0 data

/-! ### Data phases of a run -/

/-- An event that exchanges few bytes is not part of a data phase. -/
theorem dataPhases_cons_of_small {e : SpiEvent} (h : Small e) (es : List SpiEvent) :
    dataPhases (e :: es) = dataPhases es := by
  match e, h with
  | ⟨.exchange txBuf, reply⟩, hsmall => exact if_pos hsmall
  | ⟨.chipSelect _, _⟩, _ => rfl
  | ⟨.getTimeSinceBootMsec, _⟩, _ => rfl
  | ⟨.delayMsec _, _⟩, _ => rfl

theorem dataPhases_append_of_small {es : List SpiEvent} (h : ∀ e ∈ es, Small e)
    (rest : List SpiEvent) : dataPhases (es ++ rest) = dataPhases rest := by
  induction es with
  | nil => rfl
  | cons e es ih =>
    rw [List.cons_append, dataPhases_cons_of_small (h e List.mem_cons_self),
      ih fun e he => h e (List.mem_cons_of_mem _ he)]

theorem dataPhases_of_small {es : List SpiEvent} (h : ∀ e ∈ es, Small e) :
    dataPhases es = [] := by
  rw [← List.append_nil es, dataPhases_append_of_small h]
  rfl

theorem firstExchanged_concat_chipSelect (es : List SpiEvent) (value : Bool) :
    firstExchanged (es ++ [⟨.chipSelect value, ()⟩]) = firstExchanged es := by
  cases es with
  | nil => rfl
  | cons e es =>
    match e with
    | ⟨.exchange _, _⟩ => rfl
    | ⟨.chipSelect _, _⟩ => rfl
    | ⟨.getTimeSinceBootMsec, _⟩ => rfl
    | ⟨.delayMsec _, _⟩ => rfl

/-- The release of the chip select line at the end does not matter. -/
theorem dataPhases_concat_chipSelect (es : List SpiEvent) (value : Bool) :
    dataPhases (es ++ [⟨.chipSelect value, ()⟩]) = dataPhases es := by
  induction es with
  | nil => rfl
  | cons e es ih =>
    match e with
    | ⟨.exchange txBuf, reply⟩ =>
      simp only [List.cons_append, dataPhases, ih, firstExchanged_concat_chipSelect]
    | ⟨.chipSelect _, _⟩ => exact ih
    | ⟨.getTimeSinceBootMsec, _⟩ => exact ih
    | ⟨.delayMsec _, _⟩ => exact ih

/-- A transfer of a whole block is a data phase. -/
theorem dataPhases_cons_block {txBuf : List UInt8} (hlen : txBuf.length = blockSize)
    (reply : SpiReply txBuf.length) (es : List SpiEvent) :
    dataPhases (⟨.exchange txBuf, reply⟩ :: es) =
      ⟨txBuf, reply.ok, reply.received, if reply.ok then firstExchanged es else none⟩ ::
        dataPhases es :=
  if_neg (by rw [hlen]; exact Nat.lt_irrefl _)

/-- `sendDataBlock` on a full buffer is one data phase or none, and the buffer stays full. -/
theorem linked_sendDataBlock {buf : List UInt8} (hlen : buf.length = blockSize)
    {es : List SpiEvent} {r : Option (Bool × List UInt8)} (h : Runs (sendDataBlock buf) es r) :
    ∃ ok buf', r = some (ok, buf') ∧ buf'.length = blockSize ∧
      ∀ rest, Linked buf' (dataPhases rest) → Linked buf (dataPhases (es ++ rest)) := by
  obtain ⟨token, es, rfl, hblock⟩ := runs_transfer_bind.mp h
  have htoken : Small ⟨.exchange [dataToken], token⟩ := show 1 < blockSize by decide
  cases htok : token.ok with
  | false =>
    simp only [htok, Bool.not_false, ↓reduceIte] at hblock
    obtain ⟨rfl, rfl⟩ := runs_pure.mp hblock
    refine ⟨false, buf, rfl, hlen, fun rest hrest => ?_⟩
    rwa [List.singleton_append, dataPhases_cons_of_small htoken]
  | true =>
    simp only [htok, Bool.not_true, Bool.false_eq_true, ↓reduceIte] at hblock
    obtain ⟨block, es, rfl, hsum⟩ := runs_transfer_bind.mp hblock
    have hlen' : block.received.length = blockSize := block.length_received.trans hlen
    cases hok : block.ok with
    | false =>
      simp only [hok, Bool.not_false, ↓reduceIte] at hsum
      obtain ⟨rfl, rfl⟩ := runs_pure.mp hsum
      refine ⟨false, block.received, rfl, hlen', fun rest hrest => ?_⟩
      rw [List.cons_append, dataPhases_cons_of_small htoken, List.cons_append,
        dataPhases_cons_block hlen, hok]
      exact ⟨rfl, rfl, hrest⟩
    | true =>
      simp only [hok, Bool.not_true, Bool.false_eq_true, ↓reduceIte] at hsum
      obtain ⟨crc, es, rfl, hend⟩ := runs_transfer_bind.mp hsum
      obtain ⟨rfl, rfl⟩ := runs_pure.mp hend
      have hcrc : Small ⟨.exchange (crcBytes (crcXmodem 0 block.received)), crc⟩ :=
        show 2 < blockSize by decide
      refine ⟨crc.ok, block.received, rfl, hlen', fun rest hrest => ?_⟩
      rw [List.cons_append, dataPhases_cons_of_small htoken, List.cons_append,
        dataPhases_cons_block hlen, hok, List.cons_append]
      refine ⟨rfl, rfl, ?_⟩
      rwa [dataPhases_cons_of_small hcrc]

/-- The attempts of a write, on a full buffer. -/
theorem linked_programBlockRetrying {passes : ℕ} {block : UInt32} (retries : ℕ)
    {buf : List UInt8} (hlen : buf.length = blockSize) {es : List SpiEvent}
    {r : Option (Bool × List UInt8)}
    (h : Runs (programBlockRetrying passes block retries buf) es r) :
    Linked buf (dataPhases es) := by
  induction retries generalizing buf es r with
  | zero =>
    obtain ⟨rfl, -⟩ := runs_pure.mp h
    trivial
  | succ retries ih =>
    rcases runs_bind.mp h with ⟨hcut, -⟩ | ⟨es₁, es₂, accepted, rfl, haccepts, hrest⟩
    · rw [dataPhases_of_small (emits_accepts _ _ es none hcut)]
      trivial
    rw [dataPhases_append_of_small (emits_accepts _ _ es₁ _ haccepts)]
    cases accepted with
    | false => exact ih hlen hrest
    | true =>
      rcases runs_bind.mp hrest with ⟨hcut, -⟩ | ⟨es₃, es₄, sent, rfl, hsend, hrest⟩
      · obtain ⟨_, _, hsome, -⟩ := linked_sendDataBlock hlen hcut
        cases hsome
      obtain ⟨ok, buf', hsome, hlen', hlinked⟩ := linked_sendDataBlock hlen hsend
      obtain rfl := Option.some.inj hsome
      refine hlinked es₄ ?_
      cases ok with
      | false => exact ih hlen' hrest
      | true =>
        rcases runs_bind.mp hrest with ⟨hcut, -⟩ | ⟨es₅, es₆, response, rfl, hwait, hanswer⟩
        · rw [dataPhases_of_small fun e he =>
            (emits_waitForDataTokenResponse es₄ none hcut e he).small]
          trivial
        rw [dataPhases_append_of_small fun e he =>
          (emits_waitForDataTokenResponse es₅ _ hwait e he).small]
        dsimp only at hanswer
        split_ifs at hanswer
        · have hsmall : ∀ e ∈ es₆, Small e :=
            (Emits.bind ((emits_waitWhileBusy _).mono fun _ => Poll.small) fun _ => .pure _)
              es₆ r hanswer
          rw [dataPhases_of_small hsmall]
          trivial
        · exact ih hlen' hanswer
        · obtain ⟨rfl, -⟩ := runs_pure.mp hanswer
          trivial

/-- **The data phases of a write are linked.** The first one sends the block of the caller, each
further one the bytes that were received in the one before, and each sends the checksum of the
bytes that it received. -/
theorem linked_sdcardSpiWrite {passes : ℕ} {s : State} {sector off : UInt32}
    {buffer : List UInt8} (hlen : buffer.length = blockSize) {es : List SpiEvent}
    {r : Option (Bool × State)} (h : Runs (sdcardSpiWrite passes s sector off buffer) es r) :
    Linked buffer (dataPhases es) := by
  have hprogram : ∃ r', Runs (programBlockFromBuffer passes
      (sector * sectorsInBlock + off / 512) buffer) es r' := by
    rcases runs_bind.mp h with ⟨hcut, -⟩ | ⟨es₁, es₂, a, rfl, hrun, hpure⟩
    · exact ⟨none, hcut⟩
    · obtain ⟨rfl, -⟩ := runs_pure.mp hpure
      rw [List.append_nil]
      exact ⟨_, hrun⟩
  obtain ⟨r', hprogram⟩ := hprogram
  obtain ⟨es', hattempts, hes⟩ := runs_withSelected hprogram
  have hlinked := linked_programBlockRetrying maxRetries hlen hattempts
  rcases hes with rfl | rfl
  · exact hlinked
  · change Linked buffer (dataPhases (es' ++ [_]))
    rwa [dataPhases_concat_chipSelect]

theorem crcBytes_injective {a b : UInt16} (h : crcBytes a = crcBytes b) : a = b := by
  simp only [crcBytes, List.cons.injEq, and_true] at h
  have hhigh := congrArg UInt8.toNat h.1
  have hlow := congrArg UInt8.toNat h.2
  simp only [UInt16.toNat_toUInt8, UInt16.toNat_shiftRight, toNat_and_ff, UInt16.toNat_ofNat,
    Nat.shiftRight_eq_div_pow, Nat.reduceMod, Nat.reducePow] at hhigh hlow
  apply UInt16.toNat_inj.mp
  have ha := a.toNat_lt
  have hb := b.toNat_lt
  omega

/-- Linked data phases that begin with the data are correct exactly if the card echoes. -/
theorem correct_iff_echoes {data : List UInt8} {phases : List DataPhase}
    (h : Linked data phases) : (∀ phase ∈ phases, phase.Correct data) ↔ Echoes data phases := by
  induction phases with
  | nil => exact ⟨fun _ => ⟨nofun, nofun⟩, fun _ => nofun⟩
  | cons phase phases ih =>
    obtain ⟨hsent, hchecksum, hnext⟩ := h
    cases phases with
    | nil =>
      simp only [List.forall_mem_cons, List.not_mem_nil, false_implies, implies_true, and_true]
      constructor
      · intro hcorrect
        refine ⟨nofun, fun p hp hok => ?_⟩
        obtain rfl : phase = p := Option.some.inj hp
        have heq := hchecksum.symm.trans hcorrect.checksum_eq
        rw [if_pos hok, if_pos hok] at heq
        exact crcBytes_injective (Option.some.inj heq)
      · intro hechoes
        refine ⟨hsent, hchecksum.trans ?_⟩
        split_ifs with hok
        · rw [hechoes.2 phase rfl hok]
        · rfl
    | cons next phases =>
      have hreceived : (∀ p ∈ next :: phases, p.Correct data) → phase.received = data :=
        fun hcorrect => hnext.1.symm.trans (hcorrect next List.mem_cons_self).sent_eq
      have hsplit : Echoes data (phase :: next :: phases) ↔
          phase.received = data ∧ Echoes data (next :: phases) := by
        rw [Echoes, List.dropLast_cons_cons, List.forall_mem_cons, and_assoc]
        rfl
      rw [List.forall_mem_cons, hsplit]
      constructor
      · rintro ⟨-, hcorrect⟩
        have heq := hreceived hcorrect
        exact ⟨heq, (ih (heq ▸ hnext)).mp hcorrect⟩
      · rintro ⟨heq, hechoes⟩
        refine ⟨⟨hsent, hchecksum.trans (by rw [heq])⟩, (ih (heq ▸ hnext)).mpr hechoes⟩

/-- **When a write transmits the block of its caller.** In every run of `sdcard_spi_write` with a
block of 512 bytes, all data phases transmit the block and its checksum if and only if in each
data phase but the last one the received bytes are those of the block, and in the last one, if the
transfer of its block succeeded, they have the checksum of the block. -/
theorem dataPhases_correct_iff {passes : ℕ} {s : State} {sector off : UInt32}
    {buffer : List UInt8} (hlen : buffer.length = blockSize) {es : List SpiEvent}
    {r : Option (Bool × State)} (h : Runs (sdcardSpiWrite passes s sector off buffer) es r) :
    (∀ phase ∈ dataPhases es, phase.Correct buffer) ↔ Echoes buffer (dataPhases es) :=
  correct_iff_echoes (linked_sdcardSpiWrite hlen h)

/-! ### A card that sends ones -/

/-- A bus with a card that sends ones while it receives and answers single bytes with those of a
list. -/
def scriptedCard : Program.Environment SpiCall.Answer (List UInt8)
  | .chipSelect _, answers => ((), answers)
  | .exchange [_], answers => (⟨true, [answers.headD 0xff], rfl⟩, answers.tail)
  | .exchange txBuf, answers => (.ones true txBuf.length, answers)
  | .getTimeSinceBootMsec, answers => (0, answers)
  | .delayMsec _, answers => ((), answers)

/-- The driver after its start, with nothing in its buffers. -/
def State.start : State := ⟨.create [], []⟩

/-- The run of a write of zeros. The answers are ready, command accepted, the byte received with
the token, and checksum error; then the same with block accepted, and ready. -/
def rejectedOnce : List SpiEvent :=
  (sdcardSpiWrite 1 .start 0 0 (List.replicate 512 0)).run.trace scriptedCard
    [0xff, 0x00, 0xff, 0xeb, 0xff, 0x00, 0xff, 0xe5, 0xff]

/-- After a rejected attempt the card is sent the ones that it sent itself, with a checksum that
matches, and accepts them. -/
theorem ones_written_for_zeros :
    Runs (sdcardSpiWrite 1 .start 0 0 (List.replicate 512 0)) rejectedOnce
        (some (true, ⟨⟨0, [], false, 0, 0⟩, List.replicate 512 0xff⟩)) ∧
      ¬ ∀ phase ∈ dataPhases rejectedOnce, phase.Correct (List.replicate 512 0) := by
  have hruns := Program.runs_trace scriptedCard
    (sdcardSpiWrite 1 .start 0 0 (List.replicate 512 0)).run
    [0xff, 0x00, 0xff, 0xeb, 0xff, 0x00, 0xff, 0xe5, 0xff]
  have hresult : ((sdcardSpiWrite 1 .start 0 0 (List.replicate 512 0)).run.exec scriptedCard
      [0xff, 0x00, 0xff, 0xeb, 0xff, 0x00, 0xff, 0xe5, 0xff]).1 =
        some (true, ⟨⟨0, [], false, 0, 0⟩, List.replicate 512 0xff⟩) := by
    decide +kernel
  have hphases : dataPhases rejectedOnce =
      [⟨List.replicate 512 0, true, List.replicate 512 0xff, some [0x7f, 0xa1]⟩,
        ⟨List.replicate 512 0xff, true, List.replicate 512 0xff, some [0x7f, 0xa1]⟩] := by
    decide +kernel
  refine ⟨hresult ▸ hruns, fun hcorrect => ?_⟩
  rw [hphases, List.forall_mem_cons, List.forall_mem_cons] at hcorrect
  exact absurd (congrArg List.head? hcorrect.2.1.sent_eq) (by decide)

/-- What the theorem says of the run in which ones are written for zeros. -/
theorem dataPhases_correct_iff_rejectedOnce :
    (∀ phase ∈ dataPhases rejectedOnce, phase.Correct (List.replicate 512 0)) ↔
      Echoes (List.replicate 512 0) (dataPhases rejectedOnce) :=
  dataPhases_correct_iff List.length_replicate (Program.runs_trace scriptedCard
    (sdcardSpiWrite 1 .start 0 0 (List.replicate 512 0)).run _)

end TellerOBC.SdCard
