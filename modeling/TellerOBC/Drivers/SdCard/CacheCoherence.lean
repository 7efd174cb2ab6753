import TellerOBC.Drivers.SdCard.Card
import TellerOBC.Foundations.StepSystem

/-!
# The block cache and the card

Runs of `readData`, `sdcard_spi_write` and `sdcard_spi_erase` in any order, each of which may fail
at any transfer. The block in the cache is the content of its block on the card as long as no
sector is erased that the cached block is in, unless it is the first one of the sector: an erase
evicts only that one.

## Main definitions

* `TellerOBC.SdCard.Operation`, `TellerOBC.SdCard.step`: the operations on the driver and the card.
* `TellerOBC.SdCard.CacheCoherent`: the cache has the content of the block that it is valid for.
* `TellerOBC.SdCard.EvictsErased`: an operation does not erase a block that stays in the cache.

## Main results

* `TellerOBC.SdCard.cacheCoherent_of_evictsErased`: the cache is coherent along runs of operations
  that do not erase a block that stays in the cache.
-/

namespace TellerOBC.SdCard

open CutOff

variable {W : Type} {env : Program.Environment SpiCall.Answer W} {card : Card env} {passes : ℕ}
  {α : Type} {b : UInt32} {data : List UInt8}

/-- A selector keeps what polls keep. -/
theorem triple_withSelected {body : Driver α} {pre : W → Prop} {post : α → W → Prop}
    (hpre : KeptByPolls env pre) (hpost : ∀ a, KeptByPolls env (post a))
    (h : Triple env pre body post) : Triple env pre (withSelected body) post := by
  refine .bind (Q := fun _ => pre) (.perform fun w hw => hpre (.chipSelect true) w trivial hw)
    fun _ => h.bind fun a => ?_
  exact .bind (Q := fun _ => post a)
    (.perform fun w hw => hpost a (.chipSelect false) w trivial hw) fun _ => .pure fun _ => id

/-! ### Reading a block -/

/-- The last command was to read the block. -/
def Reading (card : Card env) (b : UInt32) (w : W) : Prop :=
  (card.monitor w).command = some ⟨cmdReadSingleBlock, b⟩

theorem keptByPolls_reading (card : Card env) (b : UInt32) : KeptByPolls env (Reading card b) :=
  keptByPolls_monitor card (P := fun command _ _ => command = some ⟨cmdReadSingleBlock, b⟩)

theorem Reading.exchanged {txBuf : List UInt8} {w : W} (h : Reading card b w)
    (hlen : txBuf.length ≠ 6) : Reading card b (env (.exchange txBuf) w).2 := by
  rwa [Reading, Card.monitor_exchanged hlen]

theorem Phase.next_token {received : List UInt8} (hlen : received.length ≠ 1) :
    Phase.token.next true received = .block received := by
  match received, hlen with
  | [], _ => rfl
  | _ :: _ :: _, _ => rfl

theorem Phase.next_block {crc : List UInt8} (hlen : crc.length ≠ 1)
    (hcrc : crcOfBytes crc = crcXmodem 0 data) : (Phase.block data).next true crc = .complete := by
  match crc, hlen with
  | [], _ => exact if_pos hcrc
  | _ :: _ :: _, _ => exact if_pos hcrc

/-- A byte that is read is a data token for the monitor too. -/
theorem triple_readByte : Triple env (Reading card b) readByte fun byte w =>
    Reading card b w ∧ (byte.1 = true → byte.2 = dataToken → (card.monitor w).phase = .token) := by
  have hreply : Triple env (Reading card b) (transfer [0xff]) fun reply w => Reading card b w ∧
      (reply.ok = true → reply.received.headD 0 = dataToken →
        (card.monitor w).phase = .token) := by
    refine .perform fun w hw => ⟨hw.exchanged (by decide), fun hok htoken => ?_⟩
    rw [Card.monitor_exchanged (by decide)]
    obtain ⟨byte, hbyte⟩ := List.length_eq_one_iff.mp (env (.exchange [0xff]) w).1.length_received
    rw [hbyte] at htoken
    rw [Monitor.exchanged, hok, hbyte]
    exact if_pos htoken
  exact hreply.bind fun reply => .pure fun w hw => hw

theorem triple_waitForTokenUntil (limit : UInt32) :
    Triple env (Reading card b) (waitForTokenUntil limit passes) fun token w =>
      Reading card b w ∧ (token = dataToken → (card.monitor w).phase = .token) := by
  induction passes with
  | zero => exact .stop
  | succ passes ih =>
    refine triple_readByte.bind fun byte => .ite (fun _ => ?_) fun hok => .ite (fun _ => ?_)
      fun hidle => ?_
    · exact .pure fun w hw => ⟨hw.1, fun h => absurd h (by decide)⟩
    · exact .pure fun w hw => ⟨hw.1, hw.2 (by simpa using hok)⟩
    · refine .bind (Q := fun _ => Reading card b)
        (.perform fun w hw => keptByPolls_reading card b .getTimeSinceBootMsec w trivial hw.1)
        fun now => .ite (fun _ => ?_) fun _ => ?_
      · exact .bind (Q := fun _ => Reading card b)
          (.perform fun w hw => keptByPolls_reading card b (.delayMsec 1) w trivial hw) fun _ => ih
      · refine .pure fun w hw => ⟨hw, fun htoken => absurd ?_ hidle⟩
        rw [htoken]
        decide

theorem triple_waitForDataToken (timeout : UInt32) :
    Triple env (Reading card b) (waitForDataToken passes timeout) fun found w =>
      Reading card b w ∧ (found = true → (card.monitor w).phase = .token) := by
  refine .bind (Q := fun token w => Reading card b w ∧
    (token = dataToken → (card.monitor w).phase = .token)) ?_ fun token => .pure fun w hw =>
      ⟨hw.1, fun h => hw.2 (of_decide_eq_true h)⟩
  exact .bind (Q := fun _ => Reading card b)
    (.perform fun w hw => keptByPolls_reading card b .getTimeSinceBootMsec w trivial hw)
    fun now => triple_waitForTokenUntil _

/-- A data block that arrives with its checksum is the content of the block that was asked for, and
the card is not changing any block. -/
theorem fresh_of_arrived {w : W} (hreading : Reading card b w)
    (htoken : (card.monitor w).phase = .token) :
    let block := env (.exchange (List.replicate blockSize 0xff)) w
    let crc := env (.exchange [0xff, 0xff]) block.2
    block.1.ok = true → crc.1.ok = true →
    crcOfBytes crc.1.received = crcXmodem 0 block.1.received →
    card.Fresh b block.1.received crc.2 := by
  intro block crc hblock hok hcrc
  have hlen : block.1.received.length ≠ 1 := by
    rw [block.1.length_received, List.length_replicate]
    decide
  have hlen' : crc.1.received.length ≠ 1 := by
    rw [crc.1.length_received]
    decide
  have hphase : (card.monitor block.2).phase = .block block.1.received := by
    rw [Card.monitor_exchanged (by rw [List.length_replicate]; decide), Monitor.exchanged, htoken,
      ← Phase.next_token hlen, ← hblock]
  have hdone : (card.monitor crc.2).changing = [] := by
    rw [Card.monitor_exchanged (by decide), Monitor.exchanged, hphase]
    refine if_pos ?_
    rw [← Phase.next_block hlen' hcrc, ← hok]
  refine ⟨(card.contents_arrived w b htoken hreading hblock hok hcrc).symm, ?_⟩
  rintro ⟨range, hmem, -⟩
  rw [hdone] at hmem
  exact absurd hmem List.not_mem_nil

theorem triple_readDataBlock (buf : List UInt8) (timeout : UInt32) :
    Triple env (Reading card b) (readDataBlock passes buf blockSize timeout) fun r w =>
      Reading card b w ∧ (r.1 = true → card.Fresh b r.2 w) := by
  refine (triple_waitForDataToken timeout).bind fun found => .ite (fun _ => ?_) fun hfound => ?_
  · exact .pure fun w hw => ⟨hw.1, nofun⟩
  refine .bind (Q := fun block w' => Reading card b w' ∧ ∃ w, Reading card b w ∧
    (card.monitor w).phase = .token ∧
    env (.exchange (List.replicate blockSize 0xff)) w = (block, w')) ?_ fun block => ?_
  · refine .perform fun w hw => ⟨hw.1.exchanged ?_, w, hw.1, hw.2 (by simpa using hfound), rfl⟩
    rw [List.length_replicate]
    decide
  refine .ite (fun _ => .pure fun w hw => ⟨hw.1, nofun⟩) fun hblock => ?_
  refine .bind (Q := fun crc w => Reading card b w ∧ (crc.ok = true →
    crcOfBytes crc.received = crcXmodem 0 block.received → card.Fresh b block.received w))
    (.perform ?_) fun crc => .pure fun w hw => ⟨hw.1, fun h => ?_⟩
  · rintro w' ⟨hreading', w, hreading, htoken, hexchange⟩
    refine ⟨hreading'.exchanged (by decide), fun hok hcrc => ?_⟩
    have harrived := fresh_of_arrived hreading htoken
    rw [hexchange] at harrived
    exact harrived (by simpa using hblock) hok hcrc
  · rw [Bool.and_eq_true, decide_eq_true_eq] at h
    exact hw.2 h.1 h.2

theorem triple_readDataBlockRetrying (retries : ℕ) (buf : List UInt8) :
    Triple env (Reading card b) (readDataBlockRetrying passes retries buf) fun r w =>
      r.1 = true → card.Fresh b r.2 w := by
  induction retries generalizing buf with
  | zero => exact .pure fun w _ => nofun
  | succ retries ih =>
    refine (triple_readDataBlock buf defaultTimeout).bind fun r => .ite (fun _ => ?_) fun _ => ?_
    · exact .pure fun w hw => hw.2
    · exact (ih r.2).weaken (fun w hw => hw.1) fun _ _ => id

/-- A block that was read is what the card holds. -/
theorem triple_readBlockIntoBuffer (card : Card env) (b : UInt32) (buf : List UInt8) :
    Triple env (fun _ => True) (readBlockIntoBuffer passes b buf) fun r w =>
      r.1 = true → card.Fresh b r.2 w := by
  refine triple_withSelected (fun _ _ _ _ => trivial)
    (fun r c w hpoll h hok => keptByPolls_fresh card b r.2 c w hpoll (h hok)) ?_
  refine (triple_accepts cmdReadSingleBlock b (fun _ _ _ _ => trivial) (keptByPolls_reading card b)
    fun w _ => ⟨trivial, ?_⟩).bind fun accepted => .ite (fun _ => ?_) fun haccepted => ?_
  · rw [Reading, Card.monitor_sent (by decide)]
    rfl
  · exact .pure fun w _ => nofun
  · exact (triple_readDataBlockRetrying maxRetries buf).weaken
      (fun w hw => hw.2 (by simpa using haccepted)) fun _ _ => id

/-! ### Writing a block -/

variable {block : UInt32}

theorem triple_sendDataBlock {buf : List UInt8} (hlen : buf.length = blockSize) :
    Triple env (card.Fresh b data) (sendDataBlock buf) fun r w =>
      card.Fresh b data w ∧ r.2.length = blockSize := by
  have hlong : buf.length ≠ 6 := fun h6 => absurd (h6.symm.trans hlen) (by decide)
  refine .bind (Q := fun _ => card.Fresh b data)
    (.perform fun w hw => hw.exchanged (by decide)) fun token => .ite (fun _ => ?_) fun _ => ?_
  · exact .pure fun w hw => ⟨hw, hlen⟩
  refine .bind (Q := fun _ => card.Fresh b data) (.perform fun w hw => hw.exchanged hlong)
    fun sent => .ite (fun _ => ?_) fun _ => ?_
  · exact .pure fun w hw => ⟨hw, sent.length_received.trans hlen⟩
  · exact .bind (Q := fun _ => card.Fresh b data)
      (.perform fun w hw => hw.exchanged (show 2 ≠ 6 by decide)) fun crc =>
        .pure fun w hw => ⟨hw, sent.length_received.trans hlen⟩

/-- A write does not disturb the other blocks. -/
theorem triple_programBlockRetrying (hne : b ≠ block) (retries : ℕ) {buf : List UInt8}
    (hlen : buf.length = blockSize) :
    Triple env (card.Fresh b data) (programBlockRetrying passes block retries buf)
      fun _ => card.Fresh b data := by
  induction retries generalizing buf with
  | zero => exact .pure fun _ => id
  | succ retries ih =>
    have hsent : ∀ w, card.Fresh b data w → card.Fresh b data
        (env (.exchange (prepareCommand cmdWriteSingleBlock block)) w).2 := by
      refine fun w hw => hw.sent (by decide) fun range hmem => ?_
      rw [Monitor.changedBy_write, List.mem_singleton] at hmem
      rintro ⟨hfirst, hlast⟩
      rw [hmem] at hfirst hlast
      exact hne (UInt32.le_antisymm hlast hfirst)
    refine (triple_accepts cmdWriteSingleBlock block (keptByPolls_fresh card b data)
      (J := fun _ => True) (fun _ _ _ _ => trivial)
      fun w hw => ⟨hsent w hw, trivial⟩).bind fun accepted => .ite (fun _ => ?_) fun _ => ?_
    · exact (ih hlen).weaken (fun w hw => hw.1) fun _ _ => id
    have hkept := keptByPolls_fresh card b data
    refine ((triple_sendDataBlock hlen).weaken (fun w hw => hw.1) fun _ _ => id).bind
      fun sent => .of_and fun hlen' => .ite (fun _ => ih hlen') fun _ => ?_
    refine (emits_waitForDataTokenResponse.triple hkept).bind fun response =>
      .ite (fun _ => ?_) fun _ => .ite (fun _ => ih hlen') fun _ => .pure fun _ => id
    exact ((emits_waitWhileBusy _).triple hkept).bind fun _ => .pure fun _ => id

theorem triple_programBlockFromBuffer (hne : b ≠ block) {buf : List UInt8}
    (hlen : buf.length = blockSize) :
    Triple env (card.Fresh b data) (programBlockFromBuffer passes block buf)
      fun _ => card.Fresh b data :=
  triple_withSelected (keptByPolls_fresh card b data) (fun _ => keptByPolls_fresh card b data)
    (triple_programBlockRetrying hne maxRetries hlen)

/-! ### Erasing a sector -/

/-- The range that an erase command erases. -/
def RangeSet (card : Card env) (first last : UInt32) (w : W) : Prop :=
  (card.monitor w).eraseStart = some first ∧ (card.monitor w).eraseEnd = some last

/-- An erase does not disturb the blocks outside the sector. -/
theorem triple_eraseSectorRetrying (hout : ¬ (block ≤ b ∧ b ≤ block + sectorsInBlock - 1))
    (retries : ℕ) :
    Triple env (card.Fresh b data) (eraseSectorRetrying passes block retries)
      fun _ => card.Fresh b data := by
  have hkept := keptByPolls_fresh card b data
  induction retries with
  | zero => exact .pure fun _ => id
  | succ retries ih =>
    have hstart : KeptByPolls env fun w => (card.monitor w).eraseStart = some block :=
      keptByPolls_monitor card (P := fun _ first _ => first = some block)
    have hrange : KeptByPolls env (RangeSet card block (block + sectorsInBlock - 1)) :=
      keptByPolls_monitor card
        (P := fun _ first last => first = some block ∧ last = some (block + sectorsInBlock - 1))
    refine (triple_accepts cmdEraseWrBlkStartAddr block hkept hstart
      fun w hw => ⟨hw.sent (by decide) nofun, ?_⟩).bind fun start =>
        .ite (fun _ => ih.weaken (fun w hw => hw.1) fun _ _ => id) fun hsome => ?_
    · rw [Card.monitor_sent (by decide)]
      rfl
    refine ((triple_accepts cmdEraseWrBlkEndAddr (block + sectorsInBlock - 1)
      (hkept.and hstart) hrange ?_).weaken (fun w hw => ⟨hw.1, hw.2 (by simpa using hsome)⟩)
        fun _ _ => id).bind fun stop =>
          .ite (fun _ => ih.weaken (fun w hw => hw.1.1) fun _ _ => id) fun hsome => ?_
    · rintro w ⟨hfresh, hfirst⟩
      refine ⟨⟨hfresh.sent (by decide) nofun, ?_⟩, ?_, ?_⟩
      all_goals rw [Card.monitor_sent (by decide)]
      · exact hfirst
      · exact hfirst
      · rfl
    refine ((triple_accepts cmdErase 0 (hkept.and hrange) (J := fun _ => True)
      (fun _ _ _ _ => trivial) ?_).weaken (fun w hw => ⟨hw.1.1, hw.2 (by simpa using hsome)⟩)
        fun _ _ => id).bind fun erased =>
          .ite (fun _ => ih.weaken (fun w hw => hw.1.1) fun _ _ => id) fun _ =>
            .pure fun w hw => hw.1.1
    rintro w ⟨hfresh, hfirst, hlast⟩
    refine ⟨⟨hfresh.sent (by decide) fun range hmem => ?_, ?_⟩, trivial⟩
    · rw [Monitor.changedBy_erase hfirst hlast, List.mem_singleton] at hmem
      rwa [hmem]
    · rw [RangeSet, Card.monitor_sent (by decide)]
      exact ⟨hfirst, hlast⟩

theorem triple_eraseSectorFromBlock (hout : ¬ (block ≤ b ∧ b ≤ block + sectorsInBlock - 1)) :
    Triple env (card.Fresh b data) (eraseSectorFromBlock passes block)
      fun _ => card.Fresh b data := by
  have hkept := keptByPolls_fresh card b data
  refine triple_withSelected hkept (fun _ => hkept)
    ((triple_eraseSectorRetrying hout maxRetries).bind fun success => .ite (fun _ => ?_)
      fun _ => .pure fun _ => id)
  exact ((emits_waitWhileBusy _).triple hkept).bind fun _ => .pure fun _ => id

/-! ### The cache -/

/-- The block in the cache is the content of its block, and the card is not changing it. -/
def CacheFresh (card : Card env) (cache : BlockCache) (w : W) : Prop :=
  ∀ b, cache.Holds b → card.Fresh b cache.block w

/-- Looking a block up does not change what the cache holds. -/
theorem CacheFresh.getBlock {cache : BlockCache} {w : W} (h : CacheFresh card cache w)
    (block : UInt32) : CacheFresh card (cache.getBlock block).2 w := by
  obtain ⟨hblock, hindex, hvalid⟩ := cache.getBlock_snd block
  rintro b ⟨hv, hi⟩
  rw [hblock]
  exact h b ⟨hvalid ▸ hv, hindex ▸ hi⟩

theorem triple_ensureBlockIsCached (s : State) (block : UInt32) :
    Triple env (CacheFresh card s.blockCache) (ensureBlockIsCached passes s block)
      fun r w => CacheFresh card r.2.blockCache w := by
  rw [ensureBlockIsCached]
  dsimp only
  split
  · exact .pure fun w hw => hw.getBlock block
  · refine ((triple_readBlockIntoBuffer card block _).weaken (fun _ _ => trivial)
      fun _ _ => id).bind fun r => .ite (fun hread => ?_) fun _ => ?_
    · refine .pure fun w hw b hb => ?_
      obtain rfl : block = b := hb.2
      exact hw hread
    · exact .pure fun w _ b hb => absurd hb.1 Bool.false_ne_true

theorem triple_readBlocks (s : State) (block : UInt32) (offset length : ℕ) :
    Triple env (CacheFresh card s.blockCache) (readBlocks passes s block offset length)
      fun r w => CacheFresh card r.2.blockCache w := by
  induction length using Nat.strong_induction_on generalizing s block offset with
  | h length ih =>
    rw [readBlocks]
    split_ifs with hlength hoffset
    · exact .pure fun _ => id
    · refine (triple_ensureBlockIsCached s block).bind fun r => ?_
      split
      · exact .pure fun _ => id
      · exact (ih _ (by omega) r.2 (block + 1) 0).bind fun rest => .pure fun _ => id
    · exact .pure fun _ => id

/-- An operation that does not disturb the blocks that the cache holds after an eviction. -/
theorem triple_evict {p : Driver α} {cache : BlockCache}
    (h : ∀ b, (cache.evict block).Holds b →
      Triple env (card.Fresh b cache.block) p fun _ => card.Fresh b cache.block) :
    Triple env (CacheFresh card cache) p fun _ => CacheFresh card (cache.evict block) := by
  intro w hw a ha b hb
  obtain ⟨hold, -, hblock⟩ := BlockCache.holds_evict hb
  rw [hblock]
  exact h b hb w (hw b hold) a ha

/-! ### Runs -/

/-- The operations on the card. A write has a block of data. -/
inductive Operation where
  | read (address : UInt64) (length : ℕ)
  | write (sector off : UInt32) (buffer : { buffer : List UInt8 // buffer.length = blockSize })
  | erase (sector : UInt32)

/-- The driver after an operation. -/
def Operation.perform (passes : ℕ) (s : State) : Operation → Driver State
  | .read address length => do
    let r ← readData passes s address length
    pure r.2
  | .write sector off buffer => do
    let r ← sdcardSpiWrite passes s sector off buffer
    pure r.2
  | .erase sector => do
    let r ← sdcardSpiErase passes s sector
    pure r.2

/-- An operation on the driver and its surroundings. There is no next state if a polling loop was
cut off. -/
def step (env : Program.Environment SpiCall.Answer W) (passes : ℕ) (s : State × W)
    (op : Operation) : Option (State × W) :=
  let r := (op.perform passes s.1).run.exec env s.2
  r.1.map fun next => (next, r.2)

/-- The cache has the content of the block that it is valid for. -/
def CacheCoherent (card : Card env) (s : State × W) : Prop :=
  ∀ b, s.1.blockCache.Holds b → s.1.blockCache.block = card.contents s.2 b

/-- The cache is not valid for a block of a sector to erase, other than the first one. -/
def EvictsErased (s : State) : Operation → Prop
  | .erase sector => ∀ b, s.blockCache.Holds b →
    ¬ (sector * sectorsInBlock < b ∧ b ≤ sector * sectorsInBlock + sectorsInBlock - 1)
  | _ => True

theorem triple_perform {s : State} {op : Operation} (hop : EvictsErased s op) :
    Triple env (CacheFresh card s.blockCache) (op.perform passes s)
      fun next w => CacheFresh card next.blockCache w := by
  cases op with
  | read address length => exact (triple_readBlocks s _ _ length).bind fun r => .pure fun _ => id
  | write sector off buffer =>
    refine .bind (Q := fun r w => CacheFresh card r.2.blockCache w) ?_ fun r => .pure fun _ => id
    refine (triple_evict fun b hb => ?_).bind fun r => .pure fun _ => id
    exact triple_programBlockFromBuffer (BlockCache.holds_evict hb).2.1 buffer.2
  | erase sector =>
    refine .bind (Q := fun r w => CacheFresh card r.2.blockCache w) ?_ fun r => .pure fun _ => id
    refine (triple_evict fun b hb => ?_).bind fun r => .pure fun _ => id
    obtain ⟨hold, hne, -⟩ := BlockCache.holds_evict hb
    -- the first block of the sector is the one that is evicted
    refine triple_eraseSectorFromBlock fun ⟨hfirst, hlast⟩ => hop b hold ⟨?_, hlast⟩
    exact UInt32.lt_of_le_of_ne hfirst (Ne.symm hne)

/-- An operation keeps the cache fresh. -/
theorem cacheFresh_step {s t : State × W} {op : Operation}
    (hs : CacheFresh card s.1.blockCache s.2) (hop : EvictsErased s.1 op)
    (h : step env passes s op = some t) : CacheFresh card t.1.blockCache t.2 := by
  obtain ⟨next, hnext, rfl⟩ := Option.map_eq_some_iff.mp h
  exact triple_perform hop s.2 hs next hnext

/-- **Coherence of the block cache.** Along every run of reads, writes and erases on a card, which
starts with nothing in the cache and in which no sector is erased while the cache is valid for
one of its blocks other than the first, the cache has the content of the block that it is valid
for. -/
theorem cacheCoherent_of_evictsErased (card : Card env) (passes : ℕ) {s : State × W}
    (hs : s.1.blockCache.isValid = false) {ops : List Operation}
    (hok : StepSystem.Meets (step env passes) (fun s op => EvictsErased s.1 op) s ops)
    {t : State × W} (ht : StepSystem.Visits (step env passes) s ops t) : CacheCoherent card t := by
  have hfresh : CacheFresh card s.1.blockCache s.2 :=
    fun b hb => absurd (hs.symm.trans hb.1) Bool.false_ne_true
  have hinv : CacheFresh card t.1.blockCache t.2 :=
    StepSystem.invariant_visits (I := fun s => CacheFresh card s.1.blockCache s.2)
      (fun _ _ _ hI hop => cacheFresh_step hI hop) hfresh hok ht
  exact fun b hb => (hinv b hb).1.symm

/-! ### A block that stays in the cache -/

/-- The driver after its start, and a card. -/
def atStart : State × ErasableCard := (⟨.create [], []⟩, .start)

/-- After block 1 was read and the first sector was erased, the cache is valid for block 1 and has
what was there before. -/
theorem stale_block_after_erase :
    (StepSystem.run (step ErasableCard.environment 1) atStart
        [.read 512 4, .erase 0]).map (fun t => (t.1.blockCache.isValid,
          t.1.blockCache.blockIndex, t.1.blockCache.block, ErasableCard.card.contents t.2 1)) =
      some (true, 1, List.replicate 512 0x5a, List.replicate 512 0) ∧
    ¬ ∀ t, StepSystem.Visits (step ErasableCard.environment 1) atStart
      [.read 512 4, .erase 0] t → CacheCoherent ErasableCard.card t := by
  have hrun : (StepSystem.run (step ErasableCard.environment 1) atStart
      [.read 512 4, .erase 0]).map (fun t => (t.1.blockCache.isValid, t.1.blockCache.blockIndex,
        t.1.blockCache.block, ErasableCard.card.contents t.2 1)) =
      some (true, 1, List.replicate 512 0x5a, List.replicate 512 0) := by
    decide +kernel
  refine ⟨hrun, fun hcoherent => ?_⟩
  obtain ⟨t, ht, heq⟩ := Option.map_eq_some_iff.mp hrun
  obtain ⟨hvalid, hindex, hblock, hcontents⟩ : t.1.blockCache.isValid = true ∧
      t.1.blockCache.blockIndex = 1 ∧ t.1.blockCache.block = List.replicate 512 0x5a ∧
      ErasableCard.card.contents t.2 1 = List.replicate 512 0 := by
    simpa only [Prod.mk.injEq] using heq
  have hstale := hcoherent t (StepSystem.visits_of_run ht) 1 ⟨hvalid, hindex⟩
  rw [hblock, hcontents] at hstale
  exact absurd (congrArg List.head? hstale) (by decide)

/-- What the theorem says of a run in which another sector is erased. -/
theorem cacheCoherent_after_erase :
    ∃ t, StepSystem.run (step ErasableCard.environment 1) atStart [.read 512 4, .erase 1] = some t ∧
      CacheCoherent ErasableCard.card t := by
  have hrun : ((step ErasableCard.environment 1 atStart (.read 512 4)).bind fun u =>
      (step ErasableCard.environment 1 u (.erase 1)).map fun _ => u.1.blockCache.blockIndex) =
        some 1 := by decide +kernel
  obtain ⟨u, hread, herase⟩ := Option.bind_eq_some_iff.mp hrun
  obtain ⟨t, ht, hindex⟩ := Option.map_eq_some_iff.mp herase
  have hvisit : StepSystem.run (step ErasableCard.environment 1) atStart
      [.read 512 4, .erase 1] = some t := by
    rw [StepSystem.run_cons, hread, Option.bind_some, StepSystem.run_cons, ht]
    rfl
  have hok : StepSystem.Meets (step ErasableCard.environment 1)
      (fun s op => EvictsErased s.1 op) atStart [.read 512 4, .erase 1] := by
    refine ⟨trivial, fun u' hu' => ⟨fun b hb hrange => ?_, fun _ _ => trivial⟩⟩
    obtain rfl : u = u' := Option.some.inj (hread.symm.trans hu')
    obtain rfl : b = 1 := hb.2.symm.trans hindex
    exact absurd hrange.1 (by decide)
  exact ⟨t, hvisit, cacheCoherent_of_evictsErased ErasableCard.card 1 rfl hok
    (StepSystem.visits_of_run hvisit)⟩

end TellerOBC.SdCard
