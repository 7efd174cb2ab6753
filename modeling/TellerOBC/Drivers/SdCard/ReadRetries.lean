import TellerOBC.Drivers.SdCard.Card
import TellerOBC.Drivers.SdCard.DataPhase
import TellerOBC.Foundations.MarkedProgram

/-!
# The attempts to read a block

`readBlockIntoBuffer` sends the command to read a block once, and then tries up to five times to
read the data block. A card sends one data block for each command. So an attempt after the first one
waits for a data block that nobody has asked for.

What is on the bus does not tell where an attempt begins, so the function is given with marks: one
where the card has accepted the command, and one at the beginning of each attempt.

## Main definitions

* `TellerOBC.SdCard.readBlockIntoBufferMarked`: the function with marks.
* `TellerOBC.SdCard.OwnCommand`: each attempt has a command of its own.
* `TellerOBC.SdCard.Verified`: the bytes arrived with their checksum.
* `TellerOBC.SdCard.Refused`: the answers by which an attempt fails.

## Main results

* `TellerOBC.SdCard.erase_readBlockIntoBufferMarked`: without its marks, it is the function.
* `TellerOBC.SdCard.readBlockIntoBuffer_ownCommand_iff`: each attempt has a command of its own
  exactly if the first attempt does not fail.
-/

namespace TellerOBC.SdCard

open CutOff MarkedProgram

/-! ### The function with marks -/

/-- The marks. -/
inductive ReadMark where
  /-- The card has accepted the command to read the block. -/
  | accepted
  /-- An attempt to read the data block begins. -/
  | attempt
  deriving DecidableEq, Repr

/-- Driver functions with marks. -/
abbrev MarkedDriver (α : Type) : Type := CutOff (Answers SpiCall.Answer ReadMark) α

/-- An event of a driver function with marks. -/
abbrev MarkedEvent : Type := Program.Event (Answers SpiCall.Answer ReadMark)

section

variable (passes : ℕ)

/-- The attempts of `readBlockIntoBuffer` to read the data block, with their marks. -/
def readDataBlockRetryingMarked : ℕ → List UInt8 → MarkedDriver (Bool × List UInt8)
  | 0, buf => pure (false, buf)
  | retries + 1, buf => do
    mark .attempt
    let r ← unmarked (readDataBlock passes buf blockSize defaultTimeout)
    if r.1 then pure r else readDataBlockRetryingMarked retries r.2

/-- `readBlockIntoBuffer` with marks. -/
def readBlockIntoBufferMarked (block : UInt32) (buf : List UInt8) :
    MarkedDriver (Bool × List UInt8) := do
  unmarked (select true)
  let r ← (do
    let accepted ← unmarked (accepts passes cmdReadSingleBlock block)
    if !accepted then pure (false, buf)
    else do
      mark .accepted
      readDataBlockRetryingMarked passes maxRetries buf)
  unmarked (select false)
  pure r

theorem erase_readDataBlockRetryingMarked (retries : ℕ) (buf : List UInt8) :
    erase (readDataBlockRetryingMarked passes retries buf) =
      readDataBlockRetrying passes retries buf := by
  induction retries generalizing buf with
  | zero => rfl
  | succ retries ih =>
    simp only [readDataBlockRetryingMarked, readDataBlockRetrying, erase_mark_bind, erase_bind,
      erase_unmarked, erase_ite, erase_pure, ih]

/-- Without its marks, it is the function of the driver. -/
theorem erase_readBlockIntoBufferMarked (block : UInt32) (buf : List UInt8) :
    erase (readBlockIntoBufferMarked passes block buf) =
      readBlockIntoBuffer passes block buf := by
  simp only [readBlockIntoBufferMarked, readBlockIntoBuffer, withSelected, erase_bind,
    erase_unmarked, erase_ite, erase_pure, erase_mark_bind, erase_readDataBlockRetryingMarked]

/-- Every run of the driver function can be given its marks. -/
theorem exists_runs_readBlockIntoBufferMarked {block : UInt32} {buf : List UInt8}
    {es : List SpiEvent} {r : Option (Bool × List UInt8)}
    (h : Runs (readBlockIntoBuffer passes block buf) es r) :
    ∃ mes, calls mes = es ∧ Runs (readBlockIntoBufferMarked passes block buf) mes r :=
  exists_runs_of_erase (by rwa [erase_readBlockIntoBufferMarked])

end

/-! ### What the function should do -/

/-- Each attempt comes after a command that was accepted since the attempt before; `pending` says
whether such a command is there already. -/
def OwnCommand : Bool → List ReadMark → Prop
  | _, [] => True
  | _, .accepted :: marks => OwnCommand true marks
  | pending, .attempt :: marks => pending = true ∧ OwnCommand false marks

/-- The bytes arrived, and their checksum behind them. -/
def Verified (data : List UInt8) (es : List SpiEvent) : Prop :=
  ∃ before block crc after,
    es = before ++ ⟨.exchange (List.replicate blockSize 0xff), block⟩ ::
      ⟨.exchange [0xff, 0xff], crc⟩ :: after ∧
    block.ok = true ∧ crc.ok = true ∧ block.received = data ∧
    crcOfBytes crc.received = crcXmodem 0 data

/-! ### The answers by which an attempt fails -/

/-- A byte arrives that is neither idle nor the data token. -/
def UnexpectedByte (e : SpiEvent) : Prop :=
  match e with
  | ⟨.exchange txBuf, reply⟩ =>
    txBuf.length = 1 ∧ reply.received.headD 0 ≠ 0xff ∧ reply.received.headD 0 ≠ dataToken
  | _ => False

/-- A block and two bytes that are not its checksum. -/
def ChecksumDiffers (block crc : SpiEvent) : Prop :=
  match block, crc with
  | ⟨.exchange txBuf, block⟩, ⟨.exchange txBuf', crc⟩ =>
    txBuf.length = blockSize ∧ txBuf'.length = 2 ∧
      crcOfBytes crc.received ≠ crcXmodem 0 block.received
  | _, _ => False

/-- The times that the driver is told. -/
def times (es : List SpiEvent) : List UInt32 :=
  es.filterMap fun
    | ⟨.getTimeSinceBootMsec, now⟩ => some now
    | _ => none

/-- The timeout is over before the data token arrives. -/
def TimeIsUp (es : List SpiEvent) : Prop :=
  ∃ start ∈ (times es).head?, ∃ now ∈ (times es).tail, ¬now < deadline start defaultTimeout

/-- The answers to an attempt by which it fails. -/
def Refused (es : List SpiEvent) : Prop :=
  (∃ e ∈ es, TransferFailed e ∨ UnexpectedByte e) ∨ TimeIsUp es ∨
    ∃ block ∈ es, ∃ crc ∈ es, ChecksumDiffers block crc

/-! ### The runs of an attempt -/

variable {passes : ℕ} {es : List SpiEvent}

theorem runs_readByte_bind {α : Type} {f : Bool × UInt8 → Driver α} {r : Option α} :
    Runs (readByte >>= f) es r ↔ ∃ reply : SpiReply 1, ∃ rest,
      es = ⟨.exchange [0xff], reply⟩ :: rest ∧
        Runs (f (reply.ok, reply.received.headD 0)) rest r := Iff.rfl

/-- Polls that are neither refused nor too late. -/
structure Polled (limit : UInt32) (es : List SpiEvent) : Prop where
  poll : ∀ e ∈ es, Poll e
  not_failed : ∀ e ∈ es, ¬TransferFailed e
  expected : ∀ e ∈ es, ¬UnexpectedByte e
  in_time : ∀ now ∈ times es, now < limit

theorem Polled.nil (limit : UInt32) : Polled limit [] := ⟨nofun, nofun, nofun, nofun⟩

/-- An idle byte or the token, and what comes after it. -/
theorem Polled.cons_byte {limit : UInt32} {reply : SpiReply 1} (hok : reply.ok = true)
    (hbyte : reply.received.headD 0 = 0xff ∨ reply.received.headD 0 = dataToken)
    (h : Polled limit es) : Polled limit (⟨.exchange [0xff], reply⟩ :: es) where
  poll := List.forall_mem_cons.mpr ⟨rfl, h.poll⟩
  not_failed := by
    refine List.forall_mem_cons.mpr ⟨fun hfailed => ?_, h.not_failed⟩
    exact absurd (hok.symm.trans hfailed) (by decide)
  expected := by
    refine List.forall_mem_cons.mpr ⟨fun hother => ?_, h.expected⟩
    rcases hbyte with hbyte | hbyte
    · exact hother.2.1 hbyte
    · exact hother.2.2 hbyte
  in_time := h.in_time

/-- The wait for the token goes on. -/
theorem Polled.cons_wait {limit now : UInt32} (hnow : now < limit) (h : Polled limit es) :
    Polled limit (⟨.getTimeSinceBootMsec, now⟩ :: ⟨.delayMsec 1, ()⟩ :: es) where
  poll := List.forall_mem_cons.mpr ⟨trivial, List.forall_mem_cons.mpr ⟨trivial, h.poll⟩⟩
  not_failed := List.forall_mem_cons.mpr ⟨id, List.forall_mem_cons.mpr ⟨id, h.not_failed⟩⟩
  expected := List.forall_mem_cons.mpr ⟨id, List.forall_mem_cons.mpr ⟨id, h.expected⟩⟩
  in_time := List.forall_mem_cons.mpr ⟨hnow, h.in_time⟩

/-- The polls before a token, or before a cut, are in order; before something else one is not. -/
theorem runs_waitForTokenUntil {limit : UInt32} {r : Option UInt8}
    (h : Runs (waitForTokenUntil limit passes) es r) :
    ((∀ token ∈ r, token = dataToken) → Polled limit es) ∧
      ∀ token ∈ r, token ≠ dataToken →
        (∃ e ∈ es, TransferFailed e ∨ UnexpectedByte e) ∨ ∃ now ∈ times es, ¬now < limit := by
  induction passes generalizing es r with
  | zero =>
    obtain ⟨rfl, rfl⟩ := h
    exact ⟨fun _ => .nil limit, nofun⟩
  | succ passes ih =>
    obtain ⟨reply, rest, rfl, hpass⟩ := runs_readByte_bind.mp h
    split_ifs at hpass with hfailed hbyte
    · -- the transfer fails
      obtain ⟨rfl, rfl⟩ := runs_pure.mp hpass
      refine ⟨fun htoken => absurd (htoken 0 rfl) (by decide),
        fun _ _ _ => .inl ⟨_, .head _, .inl ?_⟩⟩
      change reply.ok = false
      simpa using hfailed
    · -- a byte arrives
      obtain ⟨rfl, rfl⟩ := runs_pure.mp hpass
      have hok : reply.ok = true := by simpa using hfailed
      refine ⟨fun htoken => ?_, fun token htoken hne => .inl ⟨_, .head _, .inr ?_⟩⟩
      · exact .cons_byte hok (.inr (htoken _ rfl)) (.nil limit)
      · obtain rfl := Option.some.inj htoken
        exact ⟨rfl, hbyte, hne⟩
    · have hok : reply.ok = true := by simpa using hfailed
      have hidle : reply.received.headD 0 = 0xff := not_not.mp hbyte
      obtain ⟨now, rest, rfl, hwait⟩ := runs_perform_bind.mp hpass
      split_ifs at hwait with hnow
      · -- the wait goes on
        obtain ⟨_, rest, rfl, hrest⟩ := runs_perform_bind.mp hwait
        obtain ⟨hpolled, hrefused⟩ := ih hrest
        refine ⟨fun htoken => .cons_byte hok (.inl hidle) (.cons_wait hnow (hpolled htoken)),
          fun token htoken hne => ?_⟩
        rcases hrefused token htoken hne with ⟨e, he, hbad⟩ | ⟨late, hlate, hup⟩
        · exact .inl ⟨e, .tail _ (.tail _ (.tail _ he)), hbad⟩
        · exact .inr ⟨late, .tail _ hlate, hup⟩
      · -- the time is up
        obtain ⟨rfl, rfl⟩ := runs_pure.mp hwait
        refine ⟨fun htoken => absurd (hidle.symm.trans (htoken _ rfl)) (by decide),
          fun _ _ _ => .inr ⟨now, .head _, hnow⟩⟩

/-- The wait for the data token, from the time at which it begins on. -/
theorem runs_waitForDataToken {r : Option Bool}
    (h : Runs (waitForDataToken passes defaultTimeout) es r) :
    ∃ start polls, es = ⟨.getTimeSinceBootMsec, start⟩ :: polls ∧
      ((∀ found ∈ r, found = true) → Polled (deadline start defaultTimeout) polls) ∧
      ((∃ found ∈ r, found = false) → (∃ e ∈ polls, TransferFailed e ∨ UnexpectedByte e) ∨
        ∃ now ∈ times polls, ¬now < deadline start defaultTimeout) := by
  rcases runs_bind.mp h with ⟨hcut, rfl⟩ | ⟨es₁, es₂, token, rfl, htoken, hend⟩
  · obtain ⟨start, polls, rfl, hpolls⟩ := runs_perform_bind.mp hcut
    exact ⟨start, polls, rfl, fun _ => (runs_waitForTokenUntil hpolls).1 nofun, nofun⟩
  · obtain ⟨rfl, rfl⟩ := runs_pure.mp hend
    obtain ⟨start, polls, rfl, hpolls⟩ := runs_perform_bind.mp htoken
    obtain ⟨hpolled, hrefused⟩ := runs_waitForTokenUntil hpolls
    refine ⟨start, polls, List.append_nil _, fun hfound => hpolled fun token' htoken' => ?_, ?_⟩
    · obtain rfl := Option.some.inj htoken'
      exact of_decide_eq_true (hfound _ rfl)
    · rintro ⟨found, hfound, hnot⟩
      obtain rfl := Option.some.inj hfound
      exact hrefused token rfl (of_decide_eq_false hnot)

theorem ChecksumDiffers.not_poll {block crc : SpiEvent} (h : ChecksumDiffers block crc) :
    ¬Poll block ∧ ¬Poll crc := by
  match block, crc, h with
  | ⟨.exchange txBuf, _⟩, ⟨.exchange txBuf', _⟩, ⟨hblock, hcrc, _⟩ =>
    exact ⟨fun hpoll => absurd (hblock.symm.trans hpoll) (by decide),
      fun hpoll => absurd (hcrc.symm.trans hpoll) (by decide)⟩

/-- An attempt that waits in order, and does not fail after that. -/
theorem Polled.not_refused {start : UInt32} {polls more : List SpiEvent}
    (h : Polled (deadline start defaultTimeout) polls)
    (hmore : ∀ e ∈ more, ¬TransferFailed e ∧ ¬UnexpectedByte e) (htimes : times more = [])
    (hsum : ∀ block ∈ more, ∀ crc ∈ more, ¬ChecksumDiffers block crc) :
    ¬Refused (⟨.getTimeSinceBootMsec, start⟩ :: (polls ++ more)) := by
  rintro (⟨e, he, hbad⟩ | ⟨start', hstart, now, hnow, hup⟩ | ⟨block, hblock, crc, hcrc, hdiffers⟩)
  · rcases List.mem_cons.mp he with rfl | he
    · rcases hbad with hbad | hbad <;> exact hbad
    rcases List.mem_append.mp he with he | he
    · exact hbad.elim (h.not_failed e he) (h.expected e he)
    · exact hbad.elim (hmore e he).1 (hmore e he).2
  · obtain rfl : start = start' := Option.some.inj hstart
    refine hup (h.in_time now ?_)
    have heq : times (polls ++ more) = times polls := by
      rw [times, List.filterMap_append]
      exact (congrArg (times polls ++ ·) htimes).trans (List.append_nil _)
    rw [← heq]
    exact hnow
  · obtain ⟨hnotBlock, hnotCrc⟩ := hdiffers.not_poll
    have hin : ∀ e, ¬Poll e → e ∈ (⟨.getTimeSinceBootMsec, start⟩ : SpiEvent) :: (polls ++ more) →
        e ∈ more := by
      intro e hnot he
      rcases List.mem_cons.mp he with rfl | he
      · exact absurd trivial hnot
      · exact (List.mem_append.mp he).resolve_left fun hpoll => hnot (h.poll e hpoll)
    exact hsum block (hin block hnotBlock hblock) crc (hin crc hnotCrc hcrc) hdiffers

/-- A wait that is refused or too late. -/
theorem refused_of_polls {start : UInt32} {polls : List SpiEvent}
    (h : (∃ e ∈ polls, TransferFailed e ∨ UnexpectedByte e) ∨
      ∃ now ∈ times polls, ¬now < deadline start defaultTimeout) (more : List SpiEvent) :
    Refused (⟨.getTimeSinceBootMsec, start⟩ :: (polls ++ more)) := by
  rcases h with ⟨e, he, hbad⟩ | ⟨now, hnow, hup⟩
  · exact .inl ⟨e, .tail _ (List.mem_append_left _ he), hbad⟩
  · refine .inr (.inl ⟨start, rfl, now, ?_, hup⟩)
    change now ∈ times (polls ++ more)
    rw [times, List.filterMap_append]
    exact List.mem_append_left _ hnow

theorem refused_of_transferFailed {txBuf : List UInt8} {reply : SpiReply txBuf.length}
    (hmem : (⟨.exchange txBuf, reply⟩ : SpiEvent) ∈ es) (hfailed : reply.ok = false) :
    Refused es := .inl ⟨_, hmem, .inl hfailed⟩

/-- The transfers of a block and of its checksum. -/
abbrev dataBlock (block : SpiReply (List.replicate blockSize (0xff : UInt8)).length)
    (crc : SpiReply [(0xff : UInt8), 0xff].length) : List SpiEvent :=
  [⟨.exchange (List.replicate blockSize 0xff), block⟩, ⟨.exchange [0xff, 0xff], crc⟩]

variable {block : SpiReply (List.replicate blockSize (0xff : UInt8)).length}
  {crc : SpiReply [(0xff : UInt8), 0xff].length}

/-- A block with its checksum does not make an attempt fail. -/
theorem not_refused_dataBlock {start : UInt32} {polls : List SpiEvent}
    (h : Polled (deadline start defaultTimeout) polls) (hblock : block.ok = true)
    (hcrc : crc.ok = true) (hsum : crcOfBytes crc.received = crcXmodem 0 block.received) :
    ¬Refused (⟨.getTimeSinceBootMsec, start⟩ :: (polls ++ dataBlock block crc)) := by
  refine h.not_refused ?_ rfl ?_
  · simp only [List.forall_mem_cons, List.not_mem_nil, false_implies, implies_true, and_true]
    refine ⟨⟨fun hfailed => ?_, fun hbyte => ?_⟩, fun hfailed => ?_, fun hbyte => ?_⟩
    · exact Bool.false_ne_true (hfailed.symm.trans hblock)
    · exact absurd (List.length_replicate.symm.trans hbyte.1) (show blockSize ≠ 1 by decide)
    · exact Bool.false_ne_true (hfailed.symm.trans hcrc)
    · exact absurd hbyte.1 (by decide)
  · simp only [List.forall_mem_cons, List.not_mem_nil, false_implies, implies_true, and_true]
    refine ⟨⟨fun hdiffers => ?_, fun hdiffers => hdiffers.2.2 hsum⟩, fun hdiffers => ?_,
      fun hdiffers => ?_⟩
    · exact absurd (List.length_replicate.symm.trans hdiffers.2.1) (show blockSize ≠ 2 by decide)
    · exact absurd hdiffers.1 (by decide)
    · exact absurd hdiffers.1 (by decide)

/-- A block without its checksum does. -/
theorem refused_dataBlock (before : List SpiEvent)
    (h : ¬(crc.ok = true ∧ crcOfBytes crc.received = crcXmodem 0 block.received)) :
    Refused (before ++ dataBlock block crc) := by
  have hmem : ∀ e ∈ dataBlock block crc, e ∈ before ++ dataBlock block crc :=
    fun e he => List.mem_append_right _ he
  by_cases hcrc : crc.ok = true
  · refine .inr (.inr ⟨_, hmem _ (.head _), _, hmem _ (.tail _ (.head _)), ?_⟩)
    exact ⟨List.length_replicate, rfl, fun hsum => h ⟨hcrc, hsum⟩⟩
  · exact refused_of_transferFailed (hmem _ (.tail _ (.head _))) (Bool.eq_false_iff.mpr hcrc)

/-- **An attempt** either gives a block that arrived with its checksum, or fails by its answers. -/
theorem runs_readDataBlock {buf : List UInt8} {r : Option (Bool × List UInt8)}
    (h : Runs (readDataBlock passes buf blockSize defaultTimeout) es r) :
    (∀ data, r = some (true, data) → Verified data es) ∧
      (Refused es ↔ ∃ data, r = some (false, data)) := by
  rcases runs_bind.mp h with ⟨hcut, rfl⟩ | ⟨es₁, es₂, found, rfl, hwait, hblock⟩
  · obtain ⟨start, polls, rfl, hpolled, -⟩ := runs_waitForDataToken hcut
    have hnot : ¬Refused (⟨.getTimeSinceBootMsec, start⟩ :: (polls ++ [])) :=
      (hpolled nofun).not_refused nofun rfl nofun
    rw [List.append_nil] at hnot
    exact ⟨nofun, fun hrefused => absurd hrefused hnot, nofun⟩
  obtain ⟨start, polls, rfl, hpolled, hrefused⟩ := runs_waitForDataToken hwait
  cases found with
  | false =>
    obtain ⟨rfl, rfl⟩ := runs_pure.mp hblock
    refine ⟨nofun, fun _ => ⟨buf, rfl⟩, fun _ => ?_⟩
    exact refused_of_polls (hrefused ⟨false, rfl, rfl⟩) []
  | true =>
    have hpolled := hpolled fun _ hfound => (Option.some.inj hfound).symm
    obtain ⟨block, es₃, rfl, hcrc⟩ := runs_transfer_bind.mp hblock
    split_ifs at hcrc with hfailed
    · -- the transfer of the block fails
      obtain ⟨rfl, rfl⟩ := runs_pure.mp hcrc
      refine ⟨nofun, fun _ => ⟨_, rfl⟩, fun _ => ?_⟩
      exact refused_of_transferFailed (List.mem_append_right _ (.head _)) (by simpa using hfailed)
    have hblockOk : block.ok = true := by simpa using hfailed
    obtain ⟨crc, es₄, rfl, hend⟩ := runs_transfer_bind.mp hcrc
    obtain ⟨rfl, rfl⟩ := runs_pure.mp hend
    by_cases hsum : crc.ok = true ∧ crcOfBytes crc.received = crcXmodem 0 block.received
    · have hnot := not_refused_dataBlock hpolled hblockOk hsum.1 hsum.2
      rw [hsum.1, hsum.2, decide_eq_true rfl]
      refine ⟨fun data hdata => ?_, fun hrefused => absurd hrefused hnot, nofun⟩
      obtain rfl : block.received = data := congrArg Prod.snd (Option.some.inj hdata)
      exact ⟨_, block, crc, [], rfl, hblockOk, hsum.1, rfl, hsum.2⟩
    · have hfalse : (crc.ok && crcOfBytes crc.received = crcXmodem 0 block.received) = false := by
        simpa using hsum
      rw [hfalse]
      exact ⟨nofun, fun _ => ⟨_, rfl⟩, fun _ => refused_dataBlock _ hsum⟩

/-! ### The runs of the function -/

theorem Verified.append {data : List UInt8} (h : Verified data es) (before after : List SpiEvent) :
    Verified data (before ++ es ++ after) := by
  obtain ⟨first, block, crc, last, rfl, hverified⟩ := h
  refine ⟨before ++ first, block, crc, last ++ after, ?_, hverified⟩
  simp only [List.append_assoc, List.cons_append]

theorem verified_readDataBlockRetrying {retries : ℕ} {buf data : List UInt8}
    (h : Runs (readDataBlockRetrying passes retries buf) es (some (true, data))) :
    Verified data es := by
  induction retries generalizing buf es with
  | zero => cases (runs_pure.mp h).2
  | succ retries ih =>
    rcases runs_bind.mp h with ⟨-, hcut⟩ | ⟨es₁, es₂, a, rfl, hattempt, hrest⟩
    · cases hcut
    split_ifs at hrest
    · obtain ⟨rfl, hr⟩ := runs_pure.mp hrest
      rw [← hr] at hattempt
      exact ((runs_readDataBlock hattempt).1 data rfl).append [] []
    · have hverified := (ih hrest).append es₁ []
      rwa [List.append_nil] at hverified

/-- A block is returned only if it arrived with its checksum. -/
theorem verified_readBlockIntoBuffer {block : UInt32} {buf data : List UInt8}
    (h : Runs (readBlockIntoBuffer passes block buf) es (some (true, data))) :
    Verified data es := by
  obtain ⟨es', hbody, hes⟩ := runs_withSelected h
  have hverified : Verified data es' := by
    rcases runs_bind.mp hbody with ⟨-, hcut⟩ | ⟨es₁, es₂, accepted, rfl, -, hrest⟩
    · cases hcut
    split_ifs at hrest
    · cases (runs_pure.mp hrest).2
    · have hverified := (verified_readDataBlockRetrying hrest).append es₁ []
      rwa [List.append_nil] at hverified
  rcases hes with rfl | rfl
  · have hverified := hverified.append [⟨.chipSelect true, ()⟩] []
    rwa [List.append_nil] at hverified
  · exact hverified.append [⟨.chipSelect true, ()⟩] [⟨.chipSelect false, ()⟩]

/-- Of two or more attempts, the first one fails, or there is no other one. -/
theorem runs_readDataBlockRetryingMarked {retries : ℕ} {buf : List UInt8} {mes : List MarkedEvent}
    {r : Option (Bool × List UInt8)}
    (h : Runs (readDataBlockRetryingMarked passes (retries + 2) buf) mes r) :
    ∃ attempt rest, mes = markEvent .attempt :: (attempt.map event ++ rest) ∧
      (¬Refused attempt ∧ rest = [] ∨
        Refused attempt ∧ ∃ rest', rest = markEvent .attempt :: rest') := by
  obtain ⟨rest, rfl, hrest⟩ := runs_mark_bind.mp h
  rcases runs_bind.mp hrest with ⟨hcut, rfl⟩ | ⟨es₁, es₂, a, rfl, hattempt, hnext⟩
  · obtain ⟨attempt, rfl, hattempt⟩ := runs_unmarked.mp hcut
    refine ⟨attempt, [], by rw [List.append_nil], .inl ⟨fun hrefused => ?_, rfl⟩⟩
    obtain ⟨_, hr⟩ := (runs_readDataBlock hattempt).2.mp hrefused
    cases hr
  obtain ⟨attempt, rfl, hrun⟩ := runs_unmarked.mp hattempt
  have hrefused := (runs_readDataBlock hrun).2
  split_ifs at hnext with hok
  · obtain ⟨rfl, -⟩ := runs_pure.mp hnext
    refine ⟨attempt, [], rfl, .inl ⟨fun hbad => ?_, rfl⟩⟩
    obtain ⟨data, hr⟩ := hrefused.mp hbad
    obtain rfl := Option.some.inj hr
    exact absurd hok Bool.false_ne_true
  · obtain ⟨rest', rfl, -⟩ := runs_mark_bind.mp hnext
    refine ⟨attempt, _, rfl, .inr ⟨hrefused.mpr ⟨a.2, ?_⟩, rest', rfl⟩⟩
    rw [← Bool.eq_false_iff.mpr hok]

theorem refused_concat_chipSelect (low : Bool) :
    Refused (es ++ [⟨.chipSelect low, ()⟩]) ↔ Refused es := by
  have hevent : ¬(TransferFailed ⟨.chipSelect low, ()⟩ ∨ UnexpectedByte ⟨.chipSelect low, ()⟩) :=
    fun h => h.elim id id
  have htimes : times (es ++ [⟨.chipSelect low, ()⟩]) = times es := by
    rw [times, List.filterMap_append]
    exact List.append_nil _
  have hblock : ∀ crc, ¬ChecksumDiffers ⟨.chipSelect low, ()⟩ crc := fun _ => id
  have hcrc : ∀ block, ¬ChecksumDiffers block ⟨.chipSelect low, ()⟩ := by
    rintro ⟨_ | _ | _ | _, _⟩ h <;> exact h
  simp only [Refused, TimeIsUp, htimes, List.mem_append, List.mem_singleton, or_and_right,
    exists_or, exists_eq_left, hevent, hblock, hcrc, or_false, and_false, exists_false]

/-- What comes after the attempts: nothing, or the release of the chip select line. -/
def Ending (after : List SpiEvent) : Prop := after = [] ∨ after = [⟨.chipSelect false, ()⟩]

theorem Ending.refused_iff {after : List SpiEvent} (h : Ending after) :
    Refused (es ++ after) ↔ Refused es := by
  rcases h with rfl | rfl
  · rw [List.append_nil]
  · exact refused_concat_chipSelect false

/-- The body of the function makes no attempt, or has its attempts after the command. -/
theorem runs_body {block : UInt32} {buf : List UInt8} {mes : List MarkedEvent}
    {r : Option (Bool × List UInt8)}
    (h : Runs (do
      let accepted ← unmarked (accepts passes cmdReadSingleBlock block)
      if !accepted then pure (false, buf)
      else do
        mark ReadMark.accepted
        readDataBlockRetryingMarked passes maxRetries buf) mes r) :
    (∃ es : List SpiEvent, mes = es.map event) ∨
      ∃ (before : List SpiEvent) (attempts : List MarkedEvent),
        mes = before.map event ++ markEvent .accepted :: attempts ∧
        Runs (readDataBlockRetryingMarked passes maxRetries buf) attempts r := by
  rcases runs_bind.mp h with ⟨hcut, rfl⟩ | ⟨es₁, es₂, accepted, rfl, haccepts, hrest⟩
  · obtain ⟨es, rfl, -⟩ := runs_unmarked.mp hcut
    exact .inl ⟨es, rfl⟩
  obtain ⟨before, rfl, -⟩ := runs_unmarked.mp haccepts
  split_ifs at hrest
  · obtain ⟨rfl, -⟩ := runs_pure.mp hrest
    exact .inl ⟨before, List.append_nil _⟩
  · obtain ⟨attempts, rfl, hattempts⟩ := runs_mark_bind.mp hrest
    exact .inr ⟨before, attempts, rfl, hattempts⟩

/-- So does the function, between the moves of the chip select line. -/
theorem runs_readBlockIntoBufferMarked {block : UInt32} {buf : List UInt8} {mes : List MarkedEvent}
    {r : Option (Bool × List UInt8)} (h : Runs (readBlockIntoBufferMarked passes block buf) mes r) :
    (∃ es : List SpiEvent, mes = es.map event) ∨
      ∃ (before after : List SpiEvent) (attempts : List MarkedEvent)
        (r' : Option (Bool × List UInt8)), Ending after ∧
        mes = before.map event ++ markEvent .accepted :: (attempts ++ after.map event) ∧
        Runs (readDataBlockRetryingMarked passes maxRetries buf) attempts r' := by
  obtain ⟨_, rest, rfl, hrest⟩ := runs_perform_bind.mp h
  obtain ⟨body, r', after, hbody, hafter, rfl⟩ : ∃ body r' after, Runs _ body r' ∧
      Ending after ∧ rest = body ++ after.map event := by
    rcases runs_bind.mp hrest with ⟨hcut, rfl⟩ | ⟨es₁, es₂, a, rfl, hbody, hend⟩
    · exact ⟨rest, none, [], hcut, .inl rfl, (List.append_nil _).symm⟩
    · obtain ⟨_, es₃, rfl, hpure⟩ := runs_perform_bind.mp hend
      obtain ⟨rfl, -⟩ := runs_pure.mp hpure
      exact ⟨es₁, some a, [⟨.chipSelect false, ()⟩], hbody, .inr rfl, rfl⟩
  rcases runs_body hbody with ⟨es, rfl⟩ | ⟨before, attempts, rfl, hattempts⟩
  · refine .inl ⟨⟨.chipSelect true, ()⟩ :: (es ++ after), ?_⟩
    rw [List.map_cons, List.map_append]
    rfl
  · refine .inr ⟨⟨.chipSelect true, ()⟩ :: before, after, attempts, r', hafter, ?_, hattempts⟩
    rw [List.append_assoc]
    rfl

/-- The first attempt has the command, and there must not be another one. -/
theorem ownCommand_attempts {before after : List SpiEvent} {retries : ℕ}
    {attempts : List MarkedEvent} {buf : List UInt8} {r : Option (Bool × List UInt8)}
    (h : Runs (readDataBlockRetryingMarked passes (retries + 2) buf) attempts r)
    (hafter : Ending after) :
    let mes := before.map event ++ markEvent .accepted :: (attempts ++ after.map event)
    OwnCommand false (marks mes) ↔ ¬Refused (callsAfter .attempt mes) := by
  obtain ⟨attempt, rest, rfl, hrest⟩ := runs_readDataBlockRetryingMarked h
  intro mes
  have hmarks : marks mes = .accepted :: .attempt :: marks rest := by
    simp only [mes, marks_append, marks_map_event, List.nil_append, List.append_nil,
      List.cons_append, marks_markEvent]
  have hcalls : callsAfter .attempt mes =
      attempt ++ callsUntilMark (rest ++ after.map event) := by
    rw [← callsUntilMark_append, ← List.append_assoc]
    exact callsAfter_append ..
  rw [hmarks, hcalls]
  rcases hrest with ⟨hnot, rfl⟩ | ⟨hrefused, rest', rfl⟩
  · have hend : callsUntilMark (after.map event ++ ([] : List MarkedEvent)) = after :=
      (callsUntilMark_append ..).trans (List.append_nil _)
    rw [List.append_nil] at hend
    rw [List.nil_append, hend, hafter.refused_iff]
    exact ⟨fun _ => hnot, fun _ => ⟨rfl, trivial⟩⟩
  · have hend : callsUntilMark (markEvent .attempt :: rest' ++ after.map event) = [] := rfl
    rw [hend, List.append_nil]
    exact ⟨fun hown => absurd hown.2.1 Bool.false_ne_true, fun hnot => absurd hrefused hnot⟩

theorem ownCommand_iff {block : UInt32} {buf : List UInt8} {mes : List MarkedEvent}
    {r : Option (Bool × List UInt8)} (h : Runs (readBlockIntoBufferMarked passes block buf) mes r) :
    OwnCommand false (marks mes) ↔ ¬Refused (callsAfter .attempt mes) := by
  rcases runs_readBlockIntoBufferMarked h with
    ⟨es, rfl⟩ | ⟨before, after, attempts, r', hafter, rfl, hattempts⟩
  · have hcalls : callsAfter ReadMark.attempt (es.map event ++ ([] : List MarkedEvent)) = [] :=
      callsAfter_append ..
    rw [List.append_nil] at hcalls
    rw [marks_map_event, hcalls]
    refine iff_of_true trivial ?_
    rintro (⟨e, he, -⟩ | ⟨start, hstart, -⟩ | ⟨e, he, -⟩)
    · exact List.not_mem_nil he
    · cases hstart
    · exact List.not_mem_nil he
  · exact ownCommand_attempts hattempts hafter

/-- **When each attempt has its own command.** In every run of `readBlockIntoBuffer`, it returns a
block only if the block arrived with its checksum and each attempt to read the data block comes
after a command of its own, if and only if the answers to the first attempt do not make it fail. -/
theorem readBlockIntoBuffer_ownCommand_iff {block : UInt32} {buf : List UInt8}
    {mes : List MarkedEvent} {r : Option (Bool × List UInt8)}
    (h : Runs (readBlockIntoBufferMarked passes block buf) mes r) :
    ((∀ data, r = some (true, data) → Verified data (calls mes)) ∧ OwnCommand false (marks mes)) ↔
      ¬Refused (callsAfter .attempt mes) := by
  have hruns := runs_erase h
  rw [erase_readBlockIntoBufferMarked] at hruns
  have hverified : ∀ data, r = some (true, data) → Verified data (calls mes) := by
    rintro data rfl
    exact verified_readBlockIntoBuffer hruns
  rw [and_iff_right hverified]
  exact ownCommand_iff h

/-! ### A card that answers with an error, and one that does not -/

/-- The run of a read where the card is ready, accepts the command and answers that the block is out
of range, as often as it is asked. -/
def outOfRange : List MarkedEvent :=
  (readBlockIntoBufferMarked 1 0 []).run.trace (environment scriptedCard)
    (0xff :: 0x00 :: List.replicate 5 0x08)

/-- The card gets one command, but the driver makes five attempts to read the block. -/
theorem not_readBlockIntoBuffer_ownCommand :
    ∃ mes r, Runs (readBlockIntoBufferMarked 1 0 []) mes r ∧
      ¬((∀ data, r = some (true, data) → Verified data (calls mes)) ∧
        OwnCommand false (marks mes)) := by
  have hmarks : marks outOfRange = .accepted :: List.replicate 5 .attempt := by
    decide +kernel
  refine ⟨outOfRange, _, Program.runs_trace _ _ _, fun ⟨_, hown⟩ => ?_⟩
  rw [hmarks] at hown
  exact absurd hown.2.1 Bool.false_ne_true

/-- The run of a read from a card that has the block. -/
def readAtOnce : List MarkedEvent :=
  (readBlockIntoBufferMarked 1 0 []).run.trace (environment ErasableCard.environment) .start

/-- What the theorem says of the run in which the block is read at once. -/
theorem readBlockIntoBuffer_ownCommand_iff_readAtOnce :
    ((∀ data, ((readBlockIntoBufferMarked 1 0 []).run.exec (environment ErasableCard.environment)
        .start).1 = some (true, data) → Verified data (calls readAtOnce)) ∧
      OwnCommand false (marks readAtOnce)) ↔ ¬Refused (callsAfter .attempt readAtOnce) :=
  readBlockIntoBuffer_ownCommand_iff (Program.runs_trace (environment ErasableCard.environment)
    (readBlockIntoBufferMarked 1 0 []).run .start)

end TellerOBC.SdCard
