import TellerOBC.Drivers.FlashMem
import TellerOBC.Drivers.SdCard.Commands

/-!
# Detection of the storage devices

What the drivers of the flash memory and of the SD card know about their devices after a boot.

The flash memory driver asks the chip for its JEDEC ID and looks it up in the table of known chips.
Its global variable `cfg` points to the entry that was found and is a null pointer otherwise; here
it is an optional `Config`. `setup` and `eraseSector` test the pointer, `getTotalSize` and
`fillBufferWithAddress` do not. A function that would read a member through the null pointer has no
result.

The SD card driver has no such pointer, only the number of blocks, which is zero without a card.

## Main definitions

* `TellerOBC.FlashMem.identify`, `TellerOBC.FlashMem.setup`: the chip that was found.
* `TellerOBC.FlashMem.getTotalSize`, `TellerOBC.FlashMem.readDataHeader`: through `cfg`.
* `TellerOBC.SdCard.setup`, `TellerOBC.SdCard.getTotalSize`.

## Main results

* `TellerOBC.FlashMem.getTotalSize_of_identify`: the size of an identified chip is positive and
  fits into an `int`.
-/

namespace TellerOBC

/-! ### The flash memory -/

namespace FlashMem

/-- `BLOCK_SIZE`. -/
def blockSize : UInt32 := 65536

/-- `known_devices` before its last entry: the JEDEC IDs with the configurations. -/
def knownDevices : List (UInt16 × Config) :=
  [(0x4011, ⟨2⟩), (0x4012, ⟨4⟩), (0x4013, ⟨8⟩), (0x4014, ⟨16⟩), (0x4015, ⟨32⟩), (0x4016, ⟨64⟩),
    (0x4017, ⟨128⟩), (0x4018, ⟨256⟩), (0x4019, ⟨512⟩), (0x4020, ⟨1024⟩), (0x4021, ⟨2048⟩)]

/-- `identify`, given what `readJEDECId` returns and whether the chip could be set to addresses of
four bytes: the value of `cfg`. -/
def identify (jedecId : UInt32) (fourByteAddressing : Bool) : Option Config :=
  if jedecId >>> 16 = 0xEF then
    match knownDevices.find? fun device => device.1.toUInt32 = jedecId &&& 0xFFFF with
    | none => none
    | some device =>
      if device.2.blockCount ≥ 512 ∧ fourByteAddressing = false then none else some device.2
  else none

variable (cfg : Option Config)

/-- Whether `setup` returns a configuration for littlefs. -/
def setup : Bool := cfg.isSome

/-- `getTotalSize`. -/
def getTotalSize : Option UInt64 := cfg.map fun cfg => (cfg.blockCount * blockSize).toUInt64

/-- What `readData` does first: the header of its transfer, with the address that
`fillBufferWithAddress` puts into it. -/
def readDataHeader (address : UInt64) : Option (List UInt8) :=
  cfg.map fun cfg => header cfg cmdReadData address.toUInt32

variable {cfg}

theorem mem_knownDevices_of_identify {jedecId : UInt32} {fourByteAddressing : Bool} {c : Config}
    (h : identify jedecId fourByteAddressing = some c) : ∃ id, (id, c) ∈ knownDevices := by
  rw [identify] at h
  split_ifs at h
  split at h
  · cases h
  · next device hfind =>
    split_ifs at h
    rw [← Option.some.inj h]
    exact ⟨device.1, List.mem_of_find?_eq_some hfind⟩

/-- **The size of an identified chip** is positive and does not wrap around in an `int`, so that a
size of zero can stand for a chip that was not found. -/
theorem getTotalSize_of_identify {jedecId : UInt32} {fourByteAddressing : Bool} {c : Config}
    (h : identify jedecId fourByteAddressing = some c) :
    ∃ size, getTotalSize (some c) = some size ∧ 0 < size.toNat ∧ size.toNat < 2 ^ 31 := by
  have hsizes : ∀ device ∈ knownDevices,
      0 < (device.2.blockCount * blockSize).toUInt64.toNat ∧
        (device.2.blockCount * blockSize).toUInt64.toNat < 2 ^ 31 := by decide +kernel
  obtain ⟨id, hmem⟩ := mem_knownDevices_of_identify h
  exact ⟨(c.blockCount * blockSize).toUInt64, rfl, hsizes (id, c) hmem⟩

theorem isSome_readDataHeader (address : UInt64) :
    (readDataHeader cfg address).isSome = cfg.isSome := Option.isSome_map

end FlashMem

/-! ### The SD card -/

namespace SdCard

/-- `BLOCK_BIT_SHIFT_TO_MB`. -/
def blockBitShiftToMB : UInt32 := 11

/-- `setup`, given the number of blocks that `tryInitialization` returns: the number of blocks that
are used, if a card was found. A card of more than 1 GB is used as one of 1 GB. -/
def setup (blockCount : UInt32) : Option UInt32 :=
  if blockCount = 0 then none
  else if blockCount >>> blockBitShiftToMB > 1024 then some (1024 <<< blockBitShiftToMB)
  else some blockCount

/-- `getTotalSize`, given the blocks that `setup` found. -/
def getTotalSize (blockCount : Option UInt32) : UInt64 :=
  (blockCount.getD 0 * UInt32.ofNat blockSize).toUInt64

end SdCard

end TellerOBC
