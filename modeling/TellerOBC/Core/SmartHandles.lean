import TellerOBC.Lib.LittleFS

/-!
# Smart file and directory handles

`SmartFileHandle` and `SmartDirHandle` of `core/utils`. A handle remembers the file system it
was opened on, and its destructor closes it. Handles are never closed in another way and never
moved from here, so their `_inited` and `_closed` flags are left out.

## Main definitions

* `TellerOBC.SmartFileHandle`: an open file.
* `TellerOBC.SmartDirHandle` with `read`, `rewind` and `seek`: an open directory.
-/

namespace TellerOBC

variable {W : Type} (lfs : LittleFS W)

/-- An open file: the file system it was opened on and its descriptor. -/
structure SmartFileHandle where
  fs : StorageArea
  fd : ℕ
  deriving DecidableEq, Repr

namespace SmartFileHandle

variable (file : SmartFileHandle) (w : W)

/-- The conversion of an unsigned offset to the `int` parameter of `seek`. -/
def toIntOffset (offset : ℕ) : ℤ := Int.bmod offset (2 ^ 32)

/-- An offset below `2 ^ 31` is kept by the conversion. -/
theorem toIntOffset_of_lt {offset : ℕ} (h : offset < 2 ^ 31) : toIntOffset offset = offset :=
  Int.bmod_eq_of_le_mul_two (by omega) (by omega)

/-- An unsigned offset from `2 ^ 31` on becomes negative. -/
theorem toIntOffset_neg {offset : ℕ} (h : 2 ^ 31 ≤ offset) (h32 : offset < 2 ^ 32) :
    toIntOffset offset < 0 := by
  have hbmod : toIntOffset offset =
      if (offset : ℤ) % 4294967296 < 2147483648 then (offset : ℤ) % 4294967296
      else (offset : ℤ) % 4294967296 - 4294967296 := rfl
  rw [hbmod]
  split <;> omega

/-- Set the position of the file, counted from its start. -/
def seek (offset : ℕ) : Except LfsError ℕ × W := lfs.seek file.fs file.fd (toIntOffset offset) w

/-- Read at most the given number of bytes. -/
def read (n : ℕ) : Except LfsError (List UInt8) × W := lfs.read file.fs file.fd n w

/-- Write bytes to the file. -/
def write (bytes : List UInt8) : Except LfsError ℕ × W := lfs.write file.fs file.fd bytes w

/-- The position of the file. -/
def tell : Except LfsError ℕ × W := lfs.tell file.fs file.fd w

/-- The size of the file. -/
def size : Except LfsError ℕ × W := lfs.size file.fs file.fd w

/-- Sync the file. -/
def sync : Option LfsError × W := lfs.sync file.fs file.fd w

/-- The destructor: close the file and ignore the result. -/
def destroy : W := (lfs.close file.fs file.fd w).2

end SmartFileHandle

/-- An open directory: the file system, the descriptor, whether its end was seen, and the
index of the source. -/
structure SmartDirHandle where
  fs : StorageArea
  dd : ℕ
  ended : Bool := false
  index : ℕ := 0
  deriving DecidableEq, Repr

namespace SmartDirHandle

variable (dir : SmartDirHandle) (w : W)

/-- Whether there are more entries to read. -/
def hasMoreEntries : Bool := !dir.ended

/-- Read the next entry; its end is remembered. -/
def read : Except LfsError DirInfo × SmartDirHandle × W :=
  match lfs.dirRead dir.fs dir.dd w with
  | (.error e, w) => (.error e, if e = .noent then { dir with ended := true } else dir, w)
  | (.ok info, w) => (.ok info, dir, w)

/-- Rewind to the first entry. -/
def rewind : Option LfsError × SmartDirHandle × W :=
  match lfs.dirRewind dir.fs dir.dd w with
  | (some e, w) => (some e, dir, w)
  | (none, w) => (none, { dir with index := 0, ended := false }, w)

/-- The reading loop of `seek`, `while (index < _index)`, with fuel. The index of the source
counts up in a `size_t`, which bounds the number of passes. -/
def seekLoop (index : ℕ) : ℕ → SmartDirHandle → W → Option LfsError × SmartDirHandle × W
  | 0, dir, w => (none, dir, w)
  | fuel + 1, dir, w =>
    if index < dir.index then
      match dir.read lfs w with
      | (.error e, dir, w) => (some e, dir, w)
      | (.ok _, dir, w) => seekLoop index fuel { dir with index := (dir.index + 1) % 2 ^ 32 } w
    else (none, dir, w)

/-- Seek to the entry with the given index, as the source does it: a target beyond the stored
index rewinds, and entries are read while the target is below the stored index. -/
def seek (index : ℕ) : Option LfsError × SmartDirHandle × W :=
  if dir.index < index then
    match dir.rewind lfs w with
    | (some e, dir, w) => (some e, dir, w)
    | (none, dir, w) => seekLoop lfs index (2 ^ 32) dir w
  else seekLoop lfs index (2 ^ 32) dir w

/-- The destructor: close the directory and ignore the result. -/
def destroy : W := (lfs.dirClose dir.fs dir.dd w).2

/-- Nothing is read on the way to an index that is not below the one of the handle. -/
theorem seekLoop_of_le {index : ℕ} (h : dir.index ≤ index) (fuel : ℕ) :
    seekLoop lfs index fuel dir w = (none, dir, w) := by
  cases fuel with
  | zero => rfl
  | succ fuel => rw [seekLoop, if_neg (Nat.not_lt.mpr h)]

/-- A handle at index zero is not moved by seeking to index zero. -/
theorem seek_zero (h : dir.index = 0) : dir.seek lfs w 0 = (none, dir, w) := by
  rw [seek, if_neg (by omega), seekLoop_of_le lfs dir w (Nat.le_of_eq h)]

/-- A handle at index zero is rewound by seeking to any other index. -/
theorem seek_of_pos (h : dir.index = 0) {index : ℕ} (hpos : 0 < index) :
    dir.seek lfs w index = dir.rewind lfs w := by
  rw [seek, if_pos (by omega), rewind]
  rcases lfs.dirRewind dir.fs dir.dd w with ⟨_ | e, w'⟩
  · exact seekLoop_of_le lfs _ w' (Nat.zero_le index) _
  · rfl

end SmartDirHandle

end TellerOBC
