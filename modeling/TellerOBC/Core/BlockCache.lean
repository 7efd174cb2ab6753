import Mathlib.Data.Nat.Notation

/-!
# The block cache

The cache for one block of `core/utils/block_cache.{h,cpp}`. The memory of the cached block is also
the scratch area that a new block is read into, so handing out the scratch area invalidates the
cache until the block is committed. `BlockIndex` is a 32-bit number on the target.

## Main definitions

* `TellerOBC.BlockCache` with `getBlock`, `getScratchArea`, `commit` and `evict`.
* `TellerOBC.BlockCache.Holds`: the cache is valid for a block.
-/

namespace TellerOBC

/-- A cache for one block. -/
structure BlockCache where
  blockIndex : UInt32
  /-- The memory area of the cached block. -/
  block : List UInt8
  isValid : Bool
  hitCounter : UInt32
  missCounter : UInt32
  deriving DecidableEq, Repr

namespace BlockCache

variable (cache : BlockCache) (blockIndex : UInt32)

/-- The constructor. The memory area is not initialised. -/
def create (block : List UInt8) : BlockCache := ⟨0, block, false, 0, 0⟩

/-- `getBlock`: the block if it is cached. -/
def getBlock : Option (List UInt8) × BlockCache :=
  if cache.isValid = true ∧ blockIndex = cache.blockIndex then
    (some cache.block, { cache with hitCounter := cache.hitCounter + 1 })
  else (none, { cache with missCounter := cache.missCounter + 1 })

/-- `getScratchArea`: the memory area may be overwritten from now on. -/
def getScratchArea : List UInt8 × BlockCache := (cache.block, { cache with isValid := false })

/-- `commit` after the scratch area was filled. -/
def commit (block : List UInt8) : List UInt8 × BlockCache :=
  (block, { cache with block := block, blockIndex := blockIndex, isValid := true })

/-- `evict`. -/
def evict : BlockCache :=
  if cache.blockIndex = blockIndex then { cache with isValid := false } else cache

/-- The cache is valid for the block. -/
def Holds : Prop := cache.isValid = true ∧ cache.blockIndex = blockIndex

variable {cache blockIndex}

/-- Looking a block up does not change what the cache holds. -/
theorem getBlock_snd (b : UInt32) : (cache.getBlock b).2.block = cache.block ∧
    (cache.getBlock b).2.blockIndex = cache.blockIndex ∧
    (cache.getBlock b).2.isValid = cache.isValid := by
  rw [getBlock]
  split <;> exact ⟨rfl, rfl, rfl⟩

/-- After an eviction the cache holds what it held before, but not the evicted block. -/
theorem holds_evict {b : UInt32} (h : (cache.evict b).Holds blockIndex) :
    cache.Holds blockIndex ∧ blockIndex ≠ b ∧ (cache.evict b).block = cache.block := by
  by_cases heq : cache.blockIndex = b
  · rw [evict, if_pos heq] at h
    exact absurd h.1 Bool.false_ne_true
  · rw [evict, if_neg heq] at h ⊢
    exact ⟨h, fun hb => heq (h.2.trans hb), rfl⟩

end BlockCache

end TellerOBC
