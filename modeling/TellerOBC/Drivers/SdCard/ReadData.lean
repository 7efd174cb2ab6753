import TellerOBC.Drivers.SdCard.CacheCoherence
import TellerOBC.Foundations.BlockMemory

/-!
# Reading at byte addresses

`readData` of the SD card returns what is on the card between two byte addresses, provided that
reading a block returns what is in the block, and that the cache is coherent when it begins.

The first block is read from an offset on and the last one up to one. The number of bytes to read
from a block is computed in 16 bits and the index of a block in 32 bits; neither is too narrow for
a read that ends on the card.

## Main definitions

* `TellerOBC.SdCard.toReadNow`: the number of bytes to read from a block, in the types of the
  source.
* `TellerOBC.SdCard.Delivers`: reading a block returns what is in the block.
* `TellerOBC.SdCard.cardBytes`: the bytes of the card from an address on.

## Main results

* `TellerOBC.SdCard.readData_cardBytes`: `readData` returns what is on the card.
* `TellerOBC.SdCard.delivers_of_card`: a card that is not changing any blocks delivers them.
-/

namespace TellerOBC.SdCard

open CutOff

variable {W : Type} {env : Program.Environment SpiCall.Answer W} {passes : ℕ}

/-! ### The number of bytes to read from a block -/

/-- The number of bytes to read from an offset in a block on, as `readData` computes it in
`uint16_t`. -/
def toReadNow (offset : UInt32) (length : ℕ) : UInt16 :=
  let toReadNow := (512 - offset).toUInt16
  if length < toReadNow.toNat then UInt16.ofNat length else toReadNow

/-- No bits are lost, so that the loop reads up to the end of the block or of the region. -/
theorem toNat_toReadNow {offset : UInt32} (hoffset : offset.toNat < blockSize) (length : ℕ) :
    (toReadNow offset length).toNat = min (blockSize - offset.toNat) length := by
  have hlt : offset.toNat < 512 := hoffset
  have hle : offset ≤ 512 := UInt32.le_iff_toNat_le.mpr hlt.le
  have hsub : (512 - offset).toUInt16.toNat = 512 - offset.toNat := by
    rw [UInt32.toNat_toUInt16, UInt32.toNat_sub_of_le _ _ hle]
    exact Nat.mod_eq_of_lt (lt_of_le_of_lt (Nat.sub_le ..) (by decide))
  simp only [toReadNow, hsub, blockSize]
  split_ifs with hshort
  · rw [UInt16.toNat_ofNat', Nat.mod_eq_of_lt (by omega), Nat.min_eq_right hshort.le]
  · rw [hsub, Nat.min_eq_left (Nat.le_of_not_lt hshort)]

/-- The loop of `readData` with the number of bytes in the types of the source. -/
theorem readBlocks_eq (s : State) (block : UInt32) {offset : UInt32}
    (hoffset : offset.toNat < blockSize) (length : ℕ) :
    readBlocks passes s block offset.toNat length =
      if length = 0 then pure ((true, []), s)
      else (do
        let r ← ensureBlockIsCached passes s block
        match r.1 with
        | none => pure ((false, []), r.2)
        | some data => do
          let rest ← readBlocks passes r.2 (block + 1) 0 (length - (toReadNow offset length).toNat)
          pure ((rest.1.1, (data.drop offset.toNat).take (toReadNow offset length).toNat ++
            rest.1.2), rest.2)) := by
  rw [readBlocks, toNat_toReadNow hoffset, dif_pos hoffset]
  split_ifs <;> rfl

/-! ### What is on the card -/

/-- The bytes of a card with these blocks from an address on. -/
def cardBytes (contents : UInt32 → Vector UInt8 blockSize) (first count : ℕ) : List UInt8 :=
  BlockMemory.elementsFrom 0 (fun b => (contents (UInt32.ofNat b)).toList) blockSize first count

/-- The cache has what is on the card. -/
def CoherentWith (contents : UInt32 → Vector UInt8 blockSize) (cache : BlockCache) : Prop :=
  ∀ b, cache.Holds b → cache.block = (contents b).toList

/-- Reading one of the blocks of the card returns what is in the block if it succeeds. Reading keeps
the invariant under which it does. -/
def Delivers (env : Program.Environment SpiCall.Answer W) (inv : W → Prop)
    (contents : UInt32 → Vector UInt8 blockSize) (blockCount : UInt32) (passes : ℕ) : Prop :=
  ∀ block < blockCount, ∀ buf, Triple env inv (readBlockIntoBuffer passes block buf) fun r w =>
    inv w ∧ (r.1 = true → r.2 = (contents block).toList)

variable {inv : W → Prop} {contents : UInt32 → Vector UInt8 blockSize} {blockCount : UInt32}

/-- A part of a block and what follows in the next blocks. -/
theorem cardBytes_block {block : UInt32} {offset m : ℕ} (hend : offset + m ≤ blockSize) (n : ℕ) :
    cardBytes contents (block.toNat * blockSize + offset) (m + n) =
      ((contents block).toList.drop offset).take m ++
        cardBytes contents (block.toNat * blockSize + offset + m) n := by
  rw [cardBytes, BlockMemory.elementsFrom_add,
    BlockMemory.elementsFrom_block (Vector.length_toList ..) hend, UInt32.ofNat_toNat]
  rfl

/-- Looking a block up does not change what the cache holds. -/
theorem CoherentWith.getBlock {cache : BlockCache} (h : CoherentWith contents cache)
    (block : UInt32) : CoherentWith contents (cache.getBlock block).2 := by
  obtain ⟨hblock, hindex, hvalid⟩ := cache.getBlock_snd block
  rintro b ⟨hv, hi⟩
  rw [hblock]
  exact h b ⟨hvalid ▸ hv, hindex ▸ hi⟩

/-- The block in the cache is what is on the card. -/
theorem CoherentWith.of_getBlock {cache : BlockCache} (h : CoherentWith contents cache)
    {block : UInt32} {data : List UInt8} (hdata : (cache.getBlock block).1 = some data) :
    data = (contents block).toList := by
  rw [BlockCache.getBlock] at hdata
  split at hdata
  · next hhit =>
    obtain rfl := Option.some.inj hdata
    exact h block ⟨hhit.1, hhit.2.symm⟩
  · cases hdata

/-- A block that is in the cache after this is what is on the card, whether it was there before or
was read. -/
theorem triple_ensureBlockIsCached_delivers
    (hdelivers : Delivers env inv contents blockCount passes) {s : State}
    (hcoherent : CoherentWith contents s.blockCache) {block : UInt32}
    (hblock : block < blockCount) :
    Triple env inv (ensureBlockIsCached passes s block) fun r w => inv w ∧
      CoherentWith contents r.2.blockCache ∧ ∀ data ∈ r.1, data = (contents block).toList := by
  rw [ensureBlockIsCached]
  cases hlookup : (s.blockCache.getBlock block).1 with
  | some data =>
    refine .pure fun w hw => ⟨hw, hcoherent.getBlock block, fun data' hdata' => ?_⟩
    obtain rfl := Option.some.inj hdata'
    exact hcoherent.of_getBlock hlookup
  | none =>
    refine (hdelivers block hblock _).bind fun r => .ite (fun hread => ?_) fun _ => ?_
    · refine .pure fun w hw => ⟨hw.1, fun b hb => ?_, fun data hdata => ?_⟩
      · obtain rfl : block = b := hb.2
        exact hw.2 hread
      · obtain rfl := Option.some.inj hdata
        exact hw.2 hread
    · refine .pure fun w hw => ⟨hw.1, fun b hb => ?_, fun data hdata => ?_⟩
      · exact absurd hb.1 Bool.false_ne_true
      · exact absurd hdata (Option.not_mem_none data)

/-- The address at which the next block begins, if it is on the card too. -/
theorem toNat_succ_block {block : UInt32}
    (h : block.toNat * blockSize + blockSize < blockCount.toNat * blockSize) :
    (block + 1).toNat * blockSize + UInt32.toNat 0 = block.toNat * blockSize + blockSize := by
  have hlt := blockCount.toNat_lt
  have htoNat : (block + 1).toNat = block.toNat + 1 := by
    rw [UInt32.toNat_add]
    refine Nat.mod_eq_of_lt ?_
    simp only [blockSize] at h
    change block.toNat + 1 < 2 ^ 32
    omega
  rw [htoNat, Nat.succ_mul, UInt32.toNat_zero, Nat.add_zero]

/-- The loop of `readData`, for a region that ends on the card. -/
theorem triple_readBlocks_delivers (hdelivers : Delivers env inv contents blockCount passes)
    {s : State} (hcoherent : CoherentWith contents s.blockCache) {block : UInt32}
    {offset : UInt32} {length : ℕ} (hoffset : offset.toNat < blockSize)
    (hcard : ∀ i < length,
      block.toNat * blockSize + offset.toNat + i < blockCount.toNat * blockSize) :
    Triple env inv (readBlocks passes s block offset.toNat length) fun r _ =>
      r.1.1 = true →
        r.1.2 = cardBytes contents (block.toNat * blockSize + offset.toNat) length := by
  induction length using Nat.strong_induction_on generalizing s block offset with
  | h length ih =>
    rw [readBlocks_eq s block hoffset]
    refine .ite (fun hlength => .pure fun w _ _ => by rw [hlength]; rfl) fun hlength => ?_
    have hblock : block.toNat < blockCount.toNat := by
      have hfirst := hcard 0 (Nat.pos_of_ne_zero hlength)
      simp only [blockSize] at hfirst hoffset
      omega
    obtain ⟨m, hm⟩ : ∃ m, m = (toReadNow offset length).toNat := ⟨_, rfl⟩
    have hmin := hm.trans (toNat_toReadNow hoffset length)
    have hend : offset.toNat + m ≤ blockSize := by omega
    rw [← hm]
    refine (triple_ensureBlockIsCached_delivers hdelivers hcoherent
      (UInt32.lt_iff_toNat_lt.mpr hblock)).bind fun r => .of_and fun hr => ?_
    obtain ⟨hcoherent', hcached⟩ := hr
    cases hdata : r.1 with
    | none => exact .pure fun _ _ => nofun
    | some data =>
      obtain rfl := hcached data hdata
      obtain ⟨rest, hrest⟩ : ∃ rest, rest = length - m := ⟨_, rfl⟩
      have hlengthEq : length = m + rest := by omega
      rw [← hrest, hlengthEq, cardBytes_block hend rest]
      have hnext : Triple env inv (readBlocks passes r.2 (block + 1) 0 rest) fun rest' _ =>
          rest'.1.1 = true → rest'.1.2 =
            cardBytes contents (block.toNat * blockSize + offset.toNat + m) rest := by
        by_cases hzero : rest = 0
        · rw [hzero, readBlocks, dif_pos rfl]
          exact .pure fun _ _ _ => rfl
        -- the block was read to its end, and the next one is on the card too
        have hfull : offset.toNat + m = blockSize := by omega
        have hafter := hcard m (by omega)
        rw [Nat.add_assoc, hfull] at hafter ⊢
        rw [← toNat_succ_block hafter]
        refine ih rest (by omega) hcoherent' (show UInt32.toNat 0 < blockSize by decide)
          fun i hi => ?_
        have hnextCard := hcard (m + i) (by omega)
        rwa [← Nat.add_assoc, Nat.add_assoc _ offset.toNat m, hfull,
          ← toNat_succ_block hafter] at hnextCard
      refine hnext.bind fun rest' => .pure fun w hw hok => ?_
      rw [hw hok]

/-- The offset in the first block, in the type of the source. -/
theorem toNat_offsetInBlock (address : UInt64) :
    (address % 512).toUInt32.toNat = address.toNat % blockSize := by
  have hsize : UInt64.toNat 512 = blockSize := rfl
  rw [UInt64.toNat_toUInt32, UInt64.toNat_mod, hsize]
  simp only [blockSize]
  omega

/-- The index of the first block, which is not too large for the type of the source. -/
theorem toNat_blockOfAddress {address : UInt64}
    (h : address.toNat + 0 < blockCount.toNat * blockSize) :
    (address / 512).toUInt32.toNat = address.toNat / blockSize := by
  have hlt := blockCount.toNat_lt
  have hsize : UInt64.toNat 512 = blockSize := rfl
  rw [UInt64.toNat_toUInt32, UInt64.toNat_div, hsize]
  simp only [blockSize] at h ⊢
  omega

/-- **Reading at byte addresses.** If reading a block returns what is on the card and the cache is
coherent, `readData` returns the bytes of the card, for all regions that end on the card. -/
theorem readData_cardBytes (hdelivers : Delivers env inv contents blockCount passes) {s : State}
    (hcoherent : CoherentWith contents s.blockCache) {address : UInt64} {length : ℕ}
    (hcard : ∀ i < length, address.toNat + i < blockCount.toNat * blockSize) {w : W} (hw : inv w)
    {bytes : List UInt8} {t : State}
    (hread : ((readData passes s address length).run.exec env w).1 = some ((true, bytes), t)) :
    bytes = cardBytes contents address.toNat length := by
  have hmod := toNat_offsetInBlock address
  have hoffset : (address % 512).toUInt32.toNat < blockSize :=
    hmod ▸ Nat.mod_lt _ (by decide)
  by_cases hzero : length = 0
  · rw [hzero, readData, readBlocks, dif_pos rfl] at hread
    obtain rfl : ([] : List UInt8) = bytes :=
      congrArg (fun r => r.1.2) (Option.some.inj hread)
    rw [hzero]
    rfl
  have hblock := toNat_blockOfAddress (hcard 0 (Nat.pos_of_ne_zero hzero))
  have haddress : (address / 512).toUInt32.toNat * blockSize + (address % 512).toUInt32.toNat =
      address.toNat := by
    rw [hblock, hmod, Nat.mul_comm, Nat.div_add_mod]
  rw [← haddress] at hcard
  have htriple := triple_readBlocks_delivers hdelivers hcoherent hoffset hcard
  rw [haddress, hmod] at htriple
  exact htriple w hw _ hread rfl

/-! ### A card -/

variable {card : Card env} {b : UInt32} {data : List UInt8}

/-- An event that is no command. -/
def NoCommand (e : SpiEvent) : Prop :=
  match e.1 with
  | .exchange txBuf => txBuf.length ≠ 6
  | _ => True

theorem Poll.noCommand {e : SpiEvent} (h : Poll e) : NoCommand e := by
  obtain ⟨c, _⟩ := e
  cases c with
  | exchange txBuf => exact fun h6 => absurd (h6.symm.trans h) (by decide)
  | _ => trivial

theorem emits_readDataBlock (buf : List UInt8) (timeout : UInt32) :
    Emits NoCommand (readDataBlock passes buf blockSize timeout) := by
  refine .bind ?_ fun found => .ite (fun _ => .pure _) fun _ => ?_
  · exact .bind ((emits_waitForToken timeout).mono fun _ => Poll.noCommand) fun _ => .pure _
  refine .bind (emits_transfer fun _ => ?_) fun block => .ite (fun _ => .pure _) fun _ =>
    .bind (emits_transfer fun _ => ?_) fun _ => .pure _
  · change (List.replicate blockSize (0xff : UInt8)).length ≠ 6
    rw [List.length_replicate]
    decide
  · exact show 2 ≠ 6 by decide

theorem emits_readDataBlockRetrying (retries : ℕ) (buf : List UInt8) :
    Emits NoCommand (readDataBlockRetrying passes retries buf) := by
  induction retries generalizing buf with
  | zero => exact .pure _
  | succ retries ih =>
    exact .bind (emits_readDataBlock buf _) fun r => .ite (fun _ => .pure _) fun _ => ih r.2

/-- Reading does not disturb any block. -/
theorem triple_readBlockIntoBuffer_fresh (block : UInt32) (buf : List UInt8) :
    Triple env (card.Fresh b data) (readBlockIntoBuffer passes block buf)
      fun _ => card.Fresh b data := by
  have hkept := keptByPolls_fresh card b data
  refine triple_withSelected hkept (fun _ => hkept) ?_
  refine ((triple_accepts cmdReadSingleBlock block hkept (J := fun _ => True)
    (fun _ _ _ _ => trivial) fun w hw => ⟨hw.sent (by decide) nofun, trivial⟩).weaken
      (fun _ => id) fun _ _ hw => hw.1).bind fun accepted => .ite (fun _ => .pure fun _ => id)
        fun _ => ?_
  refine (emits_readDataBlockRetrying maxRetries buf).triple fun c w hno hw => ?_
  cases c with
  | exchange txBuf => exact hw.exchanged hno
  | _ => exact hw.next (by rw [card.monitor_next]; exact hw.2)

/-- **A card delivers its blocks** as long as it is not changing them. -/
theorem delivers_of_card (card : Card env) (contents : UInt32 → Vector UInt8 blockSize)
    (blockCount : UInt32) (passes : ℕ) :
    Delivers env (fun w => ∀ b < blockCount, card.Fresh b (contents b).toList w) contents
      blockCount passes := by
  intro block hblock buf w hw r hr
  have hkept : ∀ b < blockCount, card.Fresh b (contents b).toList _ :=
    fun b hb => triple_readBlockIntoBuffer_fresh block buf w (hw b hb) r hr
  refine ⟨hkept, fun hok => ?_⟩
  have hread := triple_readBlockIntoBuffer card block buf w trivial r hr hok
  exact hread.1.symm.trans (hkept block hblock).1

theorem fresh_start {b : UInt32} :
    ErasableCard.card.Fresh b (Vector.replicate blockSize 0x5a).toList .start :=
  ⟨rfl, fun ⟨_, hmem, _⟩ => absurd hmem List.not_mem_nil⟩

/-- What the theorem says of a read that ends in another block than it begins in. -/
theorem readData_cardBytes_twoBlocks : ∃ bytes t,
    ((readData 1 atStart.1 500 30).run.exec ErasableCard.environment .start).1 =
      some ((true, bytes), t) ∧
    bytes = cardBytes (fun _ => .replicate blockSize 0x5a) 500 30 := by
  have hrun : ((readData 1 atStart.1 500 30).run.exec ErasableCard.environment .start).1.map
      (fun r => r.1.1) = some true := by decide +kernel
  obtain ⟨⟨⟨ok, bytes⟩, t⟩, hread, rfl⟩ := Option.map_eq_some_iff.mp hrun
  have hcoherent : CoherentWith (fun _ => .replicate blockSize 0x5a) atStart.1.blockCache :=
    fun b hb => absurd hb.1 Bool.false_ne_true
  exact ⟨bytes, t, hread, readData_cardBytes (delivers_of_card ErasableCard.card _ 2 1) hcoherent
    (fun i hi => Nat.lt_of_lt_of_le (Nat.add_lt_add_left hi 500) (by decide))
    (fun b _ => fresh_start) hread⟩

end TellerOBC.SdCard
