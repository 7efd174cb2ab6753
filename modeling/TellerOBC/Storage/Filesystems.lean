import TellerOBC.Lib.LittleFS

/-!
# File system states and the storage commands

`FilesystemState` and `Filesystems` of `modules/storage.cpp`, with the functions of the storage
module that mount, unmount and erase storage areas. The flags of a file system are Booleans
instead of the bits of `_flags`; the events that wake up tasks waiting for a mount and the log
messages of `markErrored` are left out.

Functions return the value of the source together with the new states of the file systems and
of the world below littlefs.

## Main definitions

* `TellerOBC.FilesystemState` with `ensureMounted`, `ensureUnmounted`, `format`, `markErrored`,
  `clearErrors`.
* `TellerOBC.Filesystems`, `TellerOBC.mountStorage`, `TellerOBC.unmountStorage`,
  `TellerOBC.eraseStorage`.

## Main results

* `TellerOBC.mountStorage_cases`, `TellerOBC.unmountStorage_cases`,
  `TellerOBC.eraseStorage_cases`: everything that a storage command can do.
-/

namespace TellerOBC

variable {W : Type} (lfs : LittleFS W)

/-- The state of a single file system in the storage module. -/
structure FilesystemState where
  /-- Whether `_fs` points to a littlefs object. -/
  fs : Bool
  configured : Bool
  mounted : Bool
  errored : Bool
  deriving DecidableEq, Repr

namespace FilesystemState

variable (area : StorageArea) (s : FilesystemState) (w : W)

/-- Mount the file system if it is not mounted yet. -/
def ensureMounted : Bool × FilesystemState × W :=
  if s.mounted then (true, s, w)
  else if !s.fs then (false, s, w)
  else if s.errored then (false, s, w)
  else match lfs.mount area w with
    | (some _, w) => (false, s, w)
    | (none, w) => (true, { s with mounted := true }, w)

/-- Unmount the file system if it is mounted. -/
def ensureUnmounted : Bool × FilesystemState × W :=
  if !s.mounted then (true, s, w)
  else if !s.fs then (true, s, w)
  else match lfs.unmount area w with
    | (some _, w) => (false, s, w)
    | (none, w) => (true, { s with mounted := false }, w)

/-- Format the file system. -/
def format : Option LfsError × W :=
  if s.fs then lfs.format area w else (some .inval, w)

/-- Mounting does nothing, or calls littlefs for a file system that was not mounted. -/
theorem ensureMounted_cases :
    s.ensureMounted lfs area w = (s.mounted, s, w) ∨
      (s.mounted = false ∧ s.errored = false ∧ s.ensureMounted lfs area w =
        match lfs.mount area w with
        | (some _, w) => (false, s, w)
        | (none, w) => (true, { s with mounted := true }, w)) := by
  rw [ensureMounted]
  cases hm : s.mounted with
  | true => exact Or.inl rfl
  | false =>
    cases hf : s.fs with
    | false => exact Or.inl rfl
    | true =>
      cases he : s.errored with
      | true => exact Or.inl rfl
      | false => exact Or.inr ⟨rfl, rfl, rfl⟩

/-- Unmounting does nothing, or calls littlefs. -/
theorem ensureUnmounted_cases :
    s.ensureUnmounted lfs area w = (true, s, w) ∨
      s.ensureUnmounted lfs area w =
        match lfs.unmount area w with
        | (some _, w) => (false, s, w)
        | (none, w) => (true, { s with mounted := false }, w) := by
  rw [ensureUnmounted]
  cases hm : s.mounted with
  | false => exact Or.inl rfl
  | true =>
    cases hf : s.fs with
    | false => exact Or.inl rfl
    | true => exact Or.inr rfl

/-- Where `getFilesystemIfMounted` gives a littlefs object, the file system is mounted. -/
theorem mounted_of_not {s : FilesystemState} (h : ¬(!(s.mounted && s.fs)) = true) :
    s.mounted = true := by
  simp only [Bool.not_eq_true', Bool.and_eq_false_iff, not_or, Bool.not_eq_false] at h
  exact h.1

/-- Mark the file system as having encountered an error. -/
def markErrored : FilesystemState := { s with errored := true }

/-- Clear the error flag of the file system. -/
def clearErrors : FilesystemState := { s with errored := false }

end FilesystemState

/-- The file systems of the storage areas; `none` where there is no state object, as for the
unknown area. -/
def Filesystems : Type := StorageArea → Option FilesystemState

namespace Filesystems

/-- `getState` without mounting: the state object of an area. -/
def getState (fs : Filesystems) (area : StorageArea) : Option FilesystemState := fs area

/-- Replace the state object of an area. -/
def set (fs : Filesystems) (area : StorageArea) (s : FilesystemState) : Filesystems :=
  Function.update fs area (some s)

/-- The state objects after a boot that mounted both real areas. -/
def mountedAtBoot : Filesystems := fun area =>
  match area with
  | .unknown => none
  | .flashMemory | .sdCard =>
    some { fs := true, configured := true, mounted := true, errored := false }

/-- `isStorageMounted`. -/
def isMounted (fs : Filesystems) (area : StorageArea) : Bool :=
  (fs.getState area).any fun s => s.mounted

@[simp] theorem getState_set_self (fs : Filesystems) (area : StorageArea)
    (s : FilesystemState) : (fs.set area s).getState area = some s :=
  Function.update_self ..

theorem getState_set_of_ne (fs : Filesystems) {area area' : StorageArea} (s : FilesystemState)
    (h : area' ≠ area) : (fs.set area s).getState area' = fs.getState area' :=
  Function.update_of_ne h ..

/-- What holds of the new state object and of those of the other areas holds of all. -/
theorem forall_getState_set {fs : Filesystems} {area : StorageArea} {s : FilesystemState}
    {P : StorageArea → FilesystemState → Prop} (hs : P area s)
    (hothers : ∀ area' t, area' ≠ area → fs.getState area' = some t → P area' t)
    (area' : StorageArea) (t : FilesystemState) (ht : (fs.set area s).getState area' = some t) :
    P area' t := by
  by_cases heq : area' = area
  · subst heq
    rw [getState_set_self] at ht
    exact Option.some.inj ht ▸ hs
  · rw [getState_set_of_ne fs s heq] at ht
    exact hothers area' t heq ht

/-- Putting back the state object that is there changes nothing. -/
theorem set_of_getState {fs : Filesystems} {area : StorageArea} {s : FilesystemState}
    (hs : fs.getState area = some s) : fs.set area s = fs :=
  Function.update_eq_self_iff.mpr hs.symm

/-- Whether the areas are mounted after the state object of one of them was replaced. -/
theorem isMounted_set (fs : Filesystems) (area : StorageArea) (s : FilesystemState) :
    (fs.set area s).isMounted = Function.update fs.isMounted area s.mounted := by
  funext a
  by_cases ha : a = area
  · subst ha
    rw [Function.update_self, isMounted, getState_set_self, Option.any_some]
  · rw [Function.update_of_ne ha, isMounted, isMounted, getState_set_of_ne fs s ha]

/-- Replacing a state object by one with the same mount flag changes no mount flag. -/
theorem isMounted_set_of_eq {fs : Filesystems} {area : StorageArea} {s t : FilesystemState}
    (hs : fs.getState area = some s) (h : t.mounted = s.mounted) :
    (fs.set area t).isMounted = fs.isMounted := by
  have hmounted : t.mounted = fs.isMounted area := by
    rw [isMounted, hs, Option.any_some, h]
  rw [isMounted_set, hmounted, Function.update_eq_self]

end Filesystems

variable (area : StorageArea) (fs : Filesystems) (w : W)

/-- `mountStorage`: mount an area, after clearing its error flag if forced. -/
def mountStorage (force : Bool) : Option Errno × Filesystems × W :=
  match fs.getState area with
  | none => (some .inval, fs, w)
  | some s =>
    let s := if force then s.clearErrors else s
    match s.ensureMounted lfs area w with
    | (true, s, w) => (none, fs.set area s, w)
    | (false, s, w) => (some .io, fs.set area s.markErrored, w)

/-- `unmountStorage`. -/
def unmountStorage : Option Errno × Filesystems × W :=
  match fs.getState area with
  | none => (some .inval, fs, w)
  | some s =>
    match s.ensureUnmounted lfs area w with
    | (true, s, w) => (none, fs.set area s, w)
    | (false, s, w) => (some .io, fs.set area s.markErrored, w)

/-- `eraseStorage`: format an area that is not mounted. -/
def eraseStorage : Option Errno × Filesystems × W :=
  match fs.getState area with
  | none => (some .inval, fs, w)
  | some s =>
    if s.mounted then (some .io, fs, w)
    else match s.format lfs area w with
      | (some e, w) => (some (convertLittleFSErrorCode e), fs.set area s.markErrored, w)
      | (none, w) => (none, fs, w)

/-! ### What the commands can do -/

/-- Mounting an area calls littlefs at most once, and the mount flags record a success. -/
theorem mountStorage_cases (force : Bool) :
    ((mountStorage lfs area fs w force).2.2 = w ∧
        (mountStorage lfs area fs w force).2.1.isMounted = fs.isMounted) ∨
      ((mountStorage lfs area fs w force).2.2 = (lfs.mount area w).2 ∧
        (mountStorage lfs area fs w force).2.1.isMounted =
          if (lfs.mount area w).1 = none then Function.update fs.isMounted area true
          else fs.isMounted) := by
  rw [mountStorage]
  split
  · exact Or.inl ⟨rfl, rfl⟩
  next s hs =>
  dsimp only
  have hflag {t : FilesystemState} (ht : t.mounted = s.mounted) :
      (fs.set area t).isMounted = fs.isMounted := Filesystems.isMounted_set_of_eq hs ht
  have hclear : (if force = true then s.clearErrors else s).mounted = s.mounted := by
    split <;> rfl
  generalize (if force = true then s.clearErrors else s) = s' at hclear ⊢
  rcases s'.ensureMounted_cases lfs area w with heq | ⟨-, -, heq⟩
  · rw [heq]
    cases s'.mounted with
    | true => exact Or.inl ⟨rfl, hflag hclear⟩
    | false => exact Or.inl ⟨rfl, hflag hclear⟩
  · rw [heq]
    rcases lfs.mount area w with ⟨_ | e, w'⟩
    · exact Or.inr ⟨rfl, Filesystems.isMounted_set ..⟩
    · exact Or.inr ⟨rfl, hflag hclear⟩

/-- Unmounting an area calls littlefs at most once, and the mount flags record a success. -/
theorem unmountStorage_cases :
    ((unmountStorage lfs area fs w).2.2 = w ∧
        (unmountStorage lfs area fs w).2.1.isMounted = fs.isMounted) ∨
      ((unmountStorage lfs area fs w).2.2 = (lfs.unmount area w).2 ∧
        (unmountStorage lfs area fs w).2.1.isMounted =
          if (lfs.unmount area w).1 = none then Function.update fs.isMounted area false
          else fs.isMounted) := by
  rw [unmountStorage]
  split
  · exact Or.inl ⟨rfl, rfl⟩
  next s hs =>
  rcases s.ensureUnmounted_cases lfs area w with heq | heq
  · rw [heq]
    exact Or.inl ⟨rfl, Filesystems.isMounted_set_of_eq hs rfl⟩
  · rw [heq]
    rcases lfs.unmount area w with ⟨_ | e, w'⟩
    · exact Or.inr ⟨rfl, Filesystems.isMounted_set ..⟩
    · exact Or.inr ⟨rfl, Filesystems.isMounted_set_of_eq hs rfl⟩

/-- Erasing an area formats it at most once, and changes no mount flag. -/
theorem eraseStorage_cases :
    (eraseStorage lfs area fs w).2.1.isMounted = fs.isMounted ∧
      ((eraseStorage lfs area fs w).2.2 = w ∨
        (eraseStorage lfs area fs w).2.2 = (lfs.format area w).2) := by
  rw [eraseStorage]
  split
  · exact ⟨rfl, Or.inl rfl⟩
  next s hs =>
  split
  · exact ⟨rfl, Or.inl rfl⟩
  rw [FilesystemState.format]
  cases s.fs with
  | false => exact ⟨Filesystems.isMounted_set_of_eq hs rfl, Or.inl rfl⟩
  | true =>
    simp only [↓reduceIte]
    rcases lfs.format area w with ⟨_ | e, w'⟩
    · exact ⟨rfl, Or.inr rfl⟩
    · exact ⟨Filesystems.isMounted_set_of_eq hs rfl, Or.inr rfl⟩

/-! ### What the commands do to an area in a given state -/

section States

variable {lfs area fs w} {s : FilesystemState}

/-- An errored area is not mounted without force, and littlefs is not called. -/
theorem mountStorage_of_errored (hs : fs.getState area = some s) (hmounted : s.mounted = false)
    (herrored : s.errored = true) : mountStorage lfs area fs w false = (some .io, fs, w) := by
  have hmark : s.markErrored = s := by rw [FilesystemState.markErrored, ← herrored]
  simp only [mountStorage, hs, FilesystemState.ensureMounted, hmounted, herrored,
    Bool.false_eq_true, ↓reduceIte, ite_self, hmark, Filesystems.set_of_getState hs]

/-- Mounting an area without errors calls littlefs; a failure marks the area as errored. -/
theorem mountStorage_of_not_errored (hs : fs.getState area = some s) (hfs : s.fs = true)
    (hmounted : s.mounted = false) (herrored : s.errored = false) :
    mountStorage lfs area fs w false =
      match lfs.mount area w with
      | (some _, w) => (some .io, fs.set area s.markErrored, w)
      | (none, w) => (none, fs.set area { s with mounted := true }, w) := by
  simp only [mountStorage, hs, FilesystemState.ensureMounted, hfs, hmounted, herrored,
    Bool.false_eq_true, Bool.not_true, ↓reduceIte]
  rcases lfs.mount area w with ⟨_ | e, w'⟩ <;> rfl

/-- After a successful unmount the area is not mounted, and littlefs was called at most once. -/
theorem unmountStorage_eq_none (hs : fs.getState area = some s) (hfs : s.fs = true)
    (h : (unmountStorage lfs area fs w).1 = none) :
    ∃ w', (w' = w ∨ w' = (lfs.unmount area w).2) ∧
      unmountStorage lfs area fs w = (none, fs.set area { s with mounted := false }, w') := by
  cases hmounted : s.mounted with
  | false =>
    refine ⟨w, Or.inl rfl, ?_⟩
    simp only [unmountStorage, hs, FilesystemState.ensureUnmounted, hmounted, Bool.not_false,
      ↓reduceIte]
    rw [← hmounted]
  | true =>
    refine ⟨(lfs.unmount area w).2, Or.inr rfl, ?_⟩
    simp only [unmountStorage, hs, FilesystemState.ensureUnmounted, hmounted, hfs, Bool.not_true,
      Bool.false_eq_true, ↓reduceIte] at h ⊢
    rcases hlfs : lfs.unmount area w with ⟨_ | e, w'⟩
    · rfl
    · simp [hlfs] at h

end States

end TellerOBC
