import Mathlib.Algebra.Group.Nat.Defs
import TellerOBC.Drivers.SdCard.Blocks

/-!
# A card on the bus

What the driver can rely on when it talks to a card. A monitor follows the transfers on the bus: it
knows the last command, the range that was set for the next erase and how far the transfer of a
data block has come. It also knows which blocks the card may be changing: those that write and erase
commands have named since a data block arrived the last time. A command counts as soon as it is
sent, whether or not the card accepts it or the driver learns of it.

A card changes no other blocks, and a data block that arrives with its checksum after a read
command is the content of the block that the command named.

## Main definitions

* `TellerOBC.SdCard.Command`, `TellerOBC.SdCard.commandOf`: the commands in the transfers.
* `TellerOBC.SdCard.Monitor`: the monitor, with `TellerOBC.SdCard.Monitor.next`.
* `TellerOBC.SdCard.Card`: a card in an environment of the driver.
* `TellerOBC.SdCard.Card.Fresh`: a block has some content and is not being changed.
* `TellerOBC.SdCard.ErasableCard`: a card that answers all commands.

## Main results

* `TellerOBC.SdCard.commandOf_prepareCommand`: the driver sends the commands that it means.
* `TellerOBC.SdCard.triple_accepts`: the rule for an accepted command.
-/

namespace TellerOBC.SdCard

open CutOff

/-! ### Commands on the bus -/

/-- A command with its argument. -/
structure Command where
  cmd : UInt8
  arg : UInt32
  deriving DecidableEq, Repr

/-- The command that the bytes of a transfer spell, if there are six and the first one is that of
a command. -/
def commandOf : List UInt8 → Option Command
  | [cmd, a₃, a₂, a₁, a₀, _] =>
    if cmd &&& 0xC0 = 0x40 then
      some ⟨cmd &&& 0x3F, UInt32.ofNat
        (a₃.toNat * 2 ^ 24 + a₂.toNat * 2 ^ 16 + a₁.toNat * 2 ^ 8 + a₀.toNat)⟩
    else none
  | _ => none

theorem commandOf_of_length {txBuf : List UInt8} (h : txBuf.length ≠ 6) :
    commandOf txBuf = none := by
  rw [commandOf.eq_def]
  split
  · exact absurd rfl h
  · rfl

theorem opcode_of_lt {cmd : UInt8} (h : cmd < 64) :
    (cmd &&& 0x3F ||| 0x40) &&& 0xC0 = 0x40 ∧ (cmd &&& 0x3F ||| 0x40) &&& 0x3F = cmd := by
  have hall : ∀ i : Fin 64, (UInt8.ofNat i &&& 0x3F ||| 0x40) &&& 0xC0 = 0x40 ∧
      (UInt8.ofNat i &&& 0x3F ||| 0x40) &&& 0x3F = UInt8.ofNat i := by decide +kernel
  have hcmd := hall ⟨cmd.toNat, UInt8.lt_iff_toNat_lt.mp h⟩
  rwa [UInt8.ofNat_toNat] at hcmd

/-- The argument is sent in big endian order. -/
theorem ofNat_argument (arg : UInt32) :
    UInt32.ofNat ((arg >>> 24).toUInt8.toNat * 2 ^ 24 + (arg >>> 16).toUInt8.toNat * 2 ^ 16 +
      (arg >>> 8).toUInt8.toNat * 2 ^ 8 + arg.toUInt8.toNat) = arg := by
  have hlt := arg.toNat_lt
  apply UInt32.toNat.inj
  simp only [UInt32.toNat_ofNat', UInt32.toNat_toUInt8, UInt32.toNat_shiftRight,
    Nat.shiftRight_eq_div_pow, UInt32.reduceToNat, Nat.reduceMod, Nat.reducePow]
  omega

theorem commandOf_prepareCommand {cmd : UInt8} (hcmd : cmd < 64) (arg : UInt32) :
    commandOf (prepareCommand cmd arg) = some ⟨cmd, arg⟩ := by
  obtain ⟨hkind, hopcode⟩ := opcode_of_lt hcmd
  change (if (cmd &&& 0x3F ||| 0x40) &&& 0xC0 = 0x40 then _ else _) = _
  rw [if_pos hkind, hopcode, ofNat_argument]

/-! ### The monitor -/

/-- How far the transfer of a data block has come. -/
inductive Phase where
  | idle
  | token
  | block (data : List UInt8)
  | complete
  deriving DecidableEq, Repr

/-- The phase after a transfer that is not a command: a data token, the block itself and its
checksum have to follow each other. -/
def Phase.next (phase : Phase) (ok : Bool) (received : List UInt8) : Phase :=
  if !ok then .idle
  else
    match phase, received with
    | _, [byte] => if byte = dataToken then .token else .idle
    | .token, data => .block data
    | .block data, crc => if crcOfBytes crc = crcXmodem 0 data then .complete else .idle
    | _, _ => .idle

/-- What the transfers so far tell about the card. -/
structure Monitor where
  command : Option Command
  eraseStart : Option UInt32
  eraseEnd : Option UInt32
  phase : Phase
  /-- The first and the last blocks of the ranges that the card may be changing. -/
  changing : List (UInt32 × UInt32)
  deriving DecidableEq, Repr

namespace Monitor

variable (m : Monitor)

/-- The card may be changing the block. -/
def MayChange (b : UInt32) : Prop := ∃ range ∈ m.changing, range.1 ≤ b ∧ b ≤ range.2

/-- The ranges of blocks that a command changes. -/
def changedBy (command : Command) : List (UInt32 × UInt32) :=
  if command.cmd = cmdWriteSingleBlock then [(command.arg, command.arg)]
  else if command.cmd = cmdErase then
    match m.eraseStart, m.eraseEnd with
    | some first, some last => [(first, last)]
    | _, _ => []
  else []

/-- A command is sent. -/
def sent (command : Command) : Monitor where
  command := some command
  eraseStart := if command.cmd = cmdEraseWrBlkStartAddr then some command.arg else m.eraseStart
  eraseEnd := if command.cmd = cmdEraseWrBlkEndAddr then some command.arg else m.eraseEnd
  phase := .idle
  changing := m.changedBy command ++ m.changing

/-- Other bytes are exchanged. When a data block is complete, the card has finished what it did
before. -/
def exchanged (ok : Bool) (received : List UInt8) : Monitor :=
  { m with
    phase := m.phase.next ok received
    changing := if m.phase.next ok received = .complete then [] else m.changing }

/-- What is known after an event. -/
def next : SpiEvent → Monitor
  | ⟨.exchange txBuf, reply⟩ =>
    match commandOf txBuf with
    | some command => m.sent command
    | none => m.exchanged reply.ok reply.received
  | _ => m

variable {m} {b : UInt32}

theorem mayChange_sent {command : Command} :
    (m.sent command).MayChange b ↔
      (∃ range ∈ m.changedBy command, range.1 ≤ b ∧ b ≤ range.2) ∨ m.MayChange b := by
  simp only [MayChange, sent, List.mem_append, or_and_right, exists_or]

/-- A transfer that is not a command starts no change. -/
theorem MayChange.of_exchanged {ok : Bool} {received : List UInt8}
    (h : (m.exchanged ok received).MayChange b) : m.MayChange b := by
  obtain ⟨range, hmem, hrange⟩ := h
  simp only [exchanged] at hmem
  split_ifs at hmem
  · exact absurd hmem List.not_mem_nil
  · exact ⟨range, hmem, hrange⟩

theorem changedBy_write (block : UInt32) :
    m.changedBy ⟨cmdWriteSingleBlock, block⟩ = [(block, block)] := rfl

theorem changedBy_erase {arg first last : UInt32} (hstart : m.eraseStart = some first)
    (hend : m.eraseEnd = some last) : m.changedBy ⟨cmdErase, arg⟩ = [(first, last)] := by
  simp only [changedBy, hstart, hend, show cmdErase ≠ cmdWriteSingleBlock by decide, ↓reduceIte]

end Monitor

/-! ### The card -/

variable {W : Type}

/-- A card in an environment of the driver: the content of its blocks and the monitor of the bus as
functions of the state. The card changes only blocks that it may be changing, and what arrives
with a matching checksum is what the card holds. -/
structure Card (env : Program.Environment SpiCall.Answer W) where
  contents : W → UInt32 → List UInt8
  monitor : W → Monitor
  monitor_next : ∀ c w, monitor (env c w).2 = (monitor w).next ⟨c, (env c w).1⟩
  contents_next : ∀ c w b, ¬ (monitor w).MayChange b → ¬ (monitor (env c w).2).MayChange b →
    contents (env c w).2 b = contents w b
  contents_arrived : ∀ w b, (monitor w).phase = .token →
    (monitor w).command = some ⟨cmdReadSingleBlock, b⟩ →
    let data := env (.exchange (List.replicate blockSize 0xff)) w
    let crc := env (.exchange [0xff, 0xff]) data.2
    data.1.ok = true → crc.1.ok = true →
    crcOfBytes crc.1.received = crcXmodem 0 data.1.received →
    data.1.received = contents crc.2 b

namespace Card

variable {env : Program.Environment SpiCall.Answer W} (card : Card env)

/-- The block has this content, and the card is not changing it. -/
def Fresh (b : UInt32) (data : List UInt8) (w : W) : Prop :=
  card.contents w b = data ∧ ¬ (card.monitor w).MayChange b

variable {card} {b : UInt32} {data : List UInt8} {w : W}

theorem Fresh.next {c : SpiCall} (h : card.Fresh b data w)
    (hnot : ¬ (card.monitor (env c w).2).MayChange b) : card.Fresh b data (env c w).2 :=
  ⟨(card.contents_next c w b h.2 hnot).trans h.1, hnot⟩

theorem monitor_sent {cmd : UInt8} (hcmd : cmd < 64) (arg : UInt32) (w : W) :
    card.monitor (env (.exchange (prepareCommand cmd arg)) w).2 =
      (card.monitor w).sent ⟨cmd, arg⟩ := by
  rw [card.monitor_next, Monitor.next, commandOf_prepareCommand hcmd]

theorem monitor_exchanged {txBuf : List UInt8} (h : txBuf.length ≠ 6) (w : W) :
    card.monitor (env (.exchange txBuf) w).2 =
      (card.monitor w).exchanged (env (.exchange txBuf) w).1.ok
        (env (.exchange txBuf) w).1.received := by
  rw [card.monitor_next, Monitor.next, commandOf_of_length h]

/-- A transfer that is not a command does not disturb a block. -/
theorem Fresh.exchanged {txBuf : List UInt8} (h : card.Fresh b data w) (hlen : txBuf.length ≠ 6) :
    card.Fresh b data (env (.exchange txBuf) w).2 := by
  refine h.next fun hmay => h.2 ?_
  rw [monitor_exchanged hlen] at hmay
  exact hmay.of_exchanged

theorem Fresh.sent {cmd : UInt8} {arg : UInt32} (h : card.Fresh b data w) (hcmd : cmd < 64)
    (hnot : ∀ range ∈ (card.monitor w).changedBy ⟨cmd, arg⟩, ¬ (range.1 ≤ b ∧ b ≤ range.2)) :
    card.Fresh b data (env (.exchange (prepareCommand cmd arg)) w).2 := by
  refine h.next fun hmay => ?_
  rw [monitor_sent hcmd, Monitor.mayChange_sent] at hmay
  rcases hmay with ⟨range, hmem, hrange⟩ | hmay
  · exact hnot range hmem hrange
  · exact h.2 hmay

end Card

/-! ### Polls and commands -/

variable {env : Program.Environment SpiCall.Answer W} {I J : W → Prop}

/-- An assertion that the polling loops keep. -/
def KeptByPolls (env : Program.Environment SpiCall.Answer W) (I : W → Prop) : Prop :=
  ∀ c w, Poll ⟨c, (env c w).1⟩ → I w → I (env c w).2

theorem KeptByPolls.and (hI : KeptByPolls env I) (hJ : KeptByPolls env J) :
    KeptByPolls env fun w => I w ∧ J w :=
  fun c w hpoll h => ⟨hI c w hpoll h.1, hJ c w hpoll h.2⟩

/-- Polls leave alone what the monitor knows of the commands. -/
theorem keptByPolls_monitor (card : Card env) {P : Option Command → Option UInt32 →
    Option UInt32 → Prop} :
    KeptByPolls env fun w => P (card.monitor w).command (card.monitor w).eraseStart
      (card.monitor w).eraseEnd := by
  intro c w hpoll h
  cases c with
  | exchange txBuf =>
    have hlen : txBuf.length ≠ 6 := fun h6 => absurd (h6.symm.trans hpoll) (by decide)
    rwa [Card.monitor_exchanged hlen]
  | _ => rwa [card.monitor_next]

theorem keptByPolls_fresh (card : Card env) (b : UInt32) (data : List UInt8) :
    KeptByPolls env (card.Fresh b data) := by
  intro c w hpoll h
  cases c with
  | exchange txBuf => exact h.exchanged fun h6 => absurd (h6.symm.trans hpoll) (by decide)
  | _ => exact h.next (by rw [card.monitor_next]; exact h.2)

variable {passes : ℕ} (cmd : UInt8) (arg : UInt32)

theorem triple_tryCommand (hI : KeptByPolls env I) (hJ : KeptByPolls env J)
    (hsent : ∀ w, I w → I (env (.exchange (prepareCommand cmd arg)) w).2 ∧
      J (env (.exchange (prepareCommand cmd arg)) w).2) (tries : ℕ) :
    Triple env I (tryCommand cmd arg tries) fun awaited w =>
      I w ∧ ∀ byte, awaited = .response byte → J w := by
  induction tries with
  | zero => exact .pure fun w hw => ⟨hw, nofun⟩
  | succ tries ih =>
    refine .bind (Q := fun _ w => I w ∧ J w) (.perform hsent) fun reply =>
      .ite (fun _ => .pure fun w hw => ⟨hw.1, nofun⟩) fun _ => ?_
    refine .bind ((emits_awaitResponse 8).triple (hI.and hJ)) fun awaited => .ite (fun _ => ?_)
      fun _ => .pure fun w hw => ⟨hw.1, fun _ _ => hw.2⟩
    exact ih.weaken (fun w hw => hw.1) fun _ _ => id

/-- **Accepted commands.** A command keeps what its transfer and polls keep, and if it is accepted
what its transfer achieves holds. -/
theorem triple_accepts (hI : KeptByPolls env I) (hJ : KeptByPolls env J)
    (hsent : ∀ w, I w → I (env (.exchange (prepareCommand cmd arg)) w).2 ∧
      J (env (.exchange (prepareCommand cmd arg)) w).2) :
    Triple env I (accepts passes cmd arg) fun accepted w => I w ∧ (accepted = true → J w) := by
  have hcommand : Triple env I (sendCommand passes cmd arg 0 defaultTimeout) fun response w =>
      I w ∧ (response.1 = responseOk → J w) := by
    refine .bind ((emits_waitWhileBusy defaultTimeout).triple hI) fun ready =>
      .ite (fun _ => ?_) fun _ => .pure fun w hw => ⟨hw, fun h => absurd h (by decide)⟩
    refine .bind (triple_tryCommand cmd arg hI hJ hsent 5) fun awaited => ?_
    cases awaited with
    | failed => exact .pure fun w hw => ⟨hw.1, fun h => absurd h (by decide)⟩
    | silent => exact .pure fun w hw => ⟨hw.1, fun h => absurd h (by decide)⟩
    | response byte => exact .pure fun w hw => ⟨hw.1, fun _ => hw.2 byte rfl⟩
  refine hcommand.bind fun response => .pure fun w hw => ⟨hw.1, fun h => hw.2 ?_⟩
  exact of_decide_eq_true h

/-! ### A card with erased blocks -/

/-- The state of a card that answers all commands: the monitor, the bytes that it sends next and the
ranges that were erased. -/
structure ErasableCard where
  monitor : Monitor
  answers : List UInt8
  erased : List (UInt32 × UInt32)

namespace ErasableCard

/-- Erased blocks consist of zeros. -/
def contents (w : ErasableCard) (b : UInt32) : List UInt8 :=
  List.replicate blockSize
    (if w.erased.any fun range => range.1 ≤ b && b ≤ range.2 then 0 else 0x5a)

/-- The block that was asked for. -/
def requested (w : ErasableCard) : List UInt8 :=
  w.contents ((w.monitor.command.map Command.arg).getD 0)

/-- The bytes that the card sends: a response or a token, a checksum, or a block. -/
def reply (w : ErasableCard) (size : ℕ) : List UInt8 :=
  if size = 1 then [w.answers.headD 0xff]
  else if size = 2 then crcBytes (crcXmodem 0 w.requested)
  else if size = blockSize then w.requested
  else List.replicate size 0xff

theorem length_reply (w : ErasableCard) (size : ℕ) : (w.reply size).length = size := by
  rw [reply]
  split_ifs with h₁ h₂ h₃
  · exact h₁.symm
  · exact h₂.symm
  · exact List.length_replicate.trans h₃.symm
  · exact List.length_replicate

/-- The card on the bus. -/
def environment : Program.Environment SpiCall.Answer ErasableCard
  | .exchange txBuf, w =>
    let reply : SpiReply txBuf.length := ⟨true, w.reply txBuf.length, w.length_reply _⟩
    let monitor := w.monitor.next ⟨.exchange txBuf, reply⟩
    match commandOf txBuf with
    | some command =>
      (reply, {
        monitor
        answers := if command.cmd = cmdReadSingleBlock then [responseOk, dataToken]
          else [responseOk]
        erased := (if command.cmd = cmdErase then w.monitor.changedBy command else []) ++
          w.erased })
    | none => (reply, { w with monitor, answers := w.answers.tail })
  | .chipSelect _, w => ((), w)
  | .getTimeSinceBootMsec, w => (0, w)
  | .delayMsec _, w => ((), w)

theorem environment_exchange {txBuf : List UInt8} (h : commandOf txBuf = none)
    (w : ErasableCard) : environment (.exchange txBuf) w =
      (⟨true, w.reply txBuf.length, w.length_reply _⟩,
        ⟨w.monitor.exchanged true (w.reply txBuf.length), w.answers.tail, w.erased⟩) := by
  simp only [environment, h, Monitor.next]

theorem contents_eq_of_not_changed {w w' : ErasableCard} {b : UInt32}
    {ranges : List (UInt32 × UInt32)} (herased : w'.erased = ranges ++ w.erased)
    (h : ∀ range ∈ ranges, ¬ (range.1 ≤ b ∧ b ≤ range.2)) : w'.contents b = w.contents b := by
  have hnone : (ranges.any fun range => range.1 ≤ b && b ≤ range.2) = false := by
    rw [List.any_eq_false]
    intro range hmem hrange
    exact h range hmem (by simpa using hrange)
  rw [contents, contents, herased, List.any_append, hnone, Bool.false_or]

theorem contents_mk (w : ErasableCard) (monitor : Monitor) (answers : List UInt8) (b : UInt32) :
    contents ⟨monitor, answers, w.erased⟩ b = w.contents b := rfl

theorem requested_of_command {w : ErasableCard} {cmd : UInt8} {b : UInt32}
    (h : w.monitor.command = some ⟨cmd, b⟩) : w.requested = w.contents b := by
  rw [requested, h, Option.map_some, Option.getD_some]

theorem reply_blockSize (w : ErasableCard) : w.reply blockSize = w.requested := by
  rw [reply, if_neg (by decide), if_neg (by decide), if_pos rfl]

/-- The card on the bus is a card. -/
def card : Card environment where
  contents := contents
  monitor := monitor
  monitor_next := by
    rintro (_ | txBuf | _ | _) w
    case exchange =>
      cases h : commandOf txBuf with
      | none => simp only [environment, h]
      | some command => simp only [environment, h]
    all_goals rfl
  contents_next := by
    rintro (_ | txBuf | _ | _) w b - hnot
    case exchange =>
      cases h : commandOf txBuf with
      | none => rw [environment_exchange h]; rfl
      | some command =>
        simp only [environment, h, Monitor.next, Monitor.mayChange_sent, not_or] at hnot ⊢
        refine contents_eq_of_not_changed rfl fun range hmem hrange => ?_
        split_ifs at hmem
        · exact hnot.1 ⟨range, hmem, hrange⟩
        · exact absurd hmem List.not_mem_nil
    all_goals rfl
  contents_arrived := by
    intro w b _ hcommand
    have hblock : commandOf (List.replicate blockSize 0xff) = none :=
      commandOf_of_length (by rw [List.length_replicate]; decide)
    dsimp only
    rw [environment_exchange hblock, environment_exchange (by decide)]
    dsimp only
    intro _ _ _
    have hreply : w.reply (List.replicate blockSize (0xff : UInt8)).length = w.contents b := by
      rw [List.length_replicate, reply_blockSize, requested_of_command hcommand]
    rw [hreply]
    exact (contents_mk w _ _ b).symm

/-- The card before the first command. -/
def start : ErasableCard := ⟨⟨none, none, none, .idle, []⟩, [], []⟩

end ErasableCard

end TellerOBC.SdCard
