import TellerOBC.Storage.Medium

/-!
# The manage loop of the experiment data recorders

The loop of `manage` in `modules/edr.cpp`, from the end of a recorder run to the next wait for
the file system: the storage area is unmounted, and after an I/O error it is mounted again with
at most `MAX_REMOUNTS` attempts. The log messages and delays are left out.

A failed attempt marks the area as errored, and an errored area is not mounted without force, so
that all attempts after a failed first one fail without a call of littlefs.

## Main definitions

* `TellerOBC.RecorderManager`, `TellerOBC.RecorderManager.remountLoop`,
  `TellerOBC.RecorderManager.afterRun`.
* `TellerOBC.LittleFS.scripted`: littlefs with given outcomes of the mount calls, which are
  counted.
* `TellerOBC.Retries`: every attempt calls littlefs, and a success mounts the area.

## Main results

* `TellerOBC.RecorderManager.remountLoop_of_errored`,
  `TellerOBC.RecorderManager.remountLoop_of_not_errored`: what the attempts do.
* `TellerOBC.RecorderManager.retries_afterRun_iff`: when the attempts retry anything.
-/

namespace TellerOBC

/-- `MAX_REMOUNTS`. -/
def maxRemounts : ℕ := 5

/-- What the manage loop of an area keeps between its passes, over the storage module and the
world below littlefs. -/
structure RecorderManager (W : Type) where
  filesystems : Filesystems
  remountCounter : ℕ := 0
  world : W

namespace RecorderManager

variable {W : Type} (lfs : LittleFS W) (area : StorageArea)

/-- The retry loop, `while (remountCounter < MAX_REMOUNTS)`, with the number of attempts that
are left as fuel. -/
def remountLoop : ℕ → RecorderManager W → RecorderManager W
  | 0, s => s
  | n + 1, s =>
    if s.remountCounter < maxRemounts then
      match mountStorage lfs area s.filesystems s.world false with
      | (some _, fs, w) =>
        remountLoop n { filesystems := fs, remountCounter := s.remountCounter + 1, world := w }
      | (none, fs, w) =>
        { filesystems := fs, remountCounter := s.remountCounter + 1, world := w }
    else s

/-- The remount counter at the retry loop, given how a run ended and how long it took. -/
def counterAfterRun (s : RecorderManager W) (maybeError : Option LfsError) (aliveMsec : ℕ) : ℕ :=
  let counter := if 10000 < aliveMsec then 0 else s.remountCounter
  if maybeError.isSome then counter else 0

/-- The rest of a pass of the manage loop after a run of the recorder that took `aliveMsec`
milliseconds. The result is `none` while `waitUntilUnmounted` blocks. -/
def afterRun (s : RecorderManager W) (maybeError : Option LfsError) (aliveMsec : ℕ) :
    Option (RecorderManager W) :=
  let counter := s.counterAfterRun maybeError aliveMsec
  match unmountStorage lfs area s.filesystems s.world with
  | (_, fs, w) =>
    if (fs.getState area).all fun state => state.mounted then none
    else
      let shouldRemount := decide (counter ≤ maxRemounts) && maybeError.isSome
      let s := { filesystems := fs, remountCounter := counter, world := w }
      some (if shouldRemount then remountLoop lfs area (maxRemounts - counter) s else s)

end RecorderManager

/-! ### Mount calls with given outcomes -/

section Scripted

variable {W : Type} {α : Type}

/-- A call that is not counted. -/
def uncounted (f : W → α × W) (w : W × ℕ) : α × W × ℕ := ((f w.1).1, (f w.1).2, w.2)

/-- littlefs where the `n`-th mount call has the outcome `outcomes n`. The world counts the mount
calls. -/
def LittleFS.scripted (lfs : LittleFS W) (outcomes : ℕ → Option LfsError) :
    LittleFS (W × ℕ) where
  mount area w := (outcomes w.2, (lfs.mount area w.1).2, w.2 + 1)
  unmount area := uncounted (lfs.unmount area)
  format area := uncounted (lfs.format area)
  open_ area name flags := uncounted (lfs.open_ area name flags)
  opencfg area name flags := uncounted (lfs.opencfg area name flags)
  sync area fd := uncounted (lfs.sync area fd)
  close area fd := uncounted (lfs.close area fd)
  read area fd n := uncounted (lfs.read area fd n)
  write area fd bytes := uncounted (lfs.write area fd bytes)
  tell area fd := uncounted (lfs.tell area fd)
  size area fd := uncounted (lfs.size area fd)
  seek area fd offset := uncounted (lfs.seek area fd offset)
  stat area name := uncounted (lfs.stat area name)
  dirOpen area name := uncounted (lfs.dirOpen area name)
  dirClose area dd := uncounted (lfs.dirClose area dd)
  dirRead area dd := uncounted (lfs.dirRead area dd)
  dirRewind area dd := uncounted (lfs.dirRewind area dd)

end Scripted

/-- What retrying means for a loop with some remaining attempts that made some attempts: every
attempt called littlefs, and if one of the remaining attempts is the first for which littlefs
succeeds, then the area is mounted at the end. -/
structure Retries (outcomes : ℕ → Option LfsError) (remaining attempts calls : ℕ)
    (mounted : Bool) : Prop where
  calls : calls = attempts
  mounted : ∀ k < remaining, (∀ j < k, outcomes j ≠ none) → outcomes k = none → mounted = true

namespace RecorderManager

variable {W : Type} {lfs : LittleFS W} {area : StorageArea} {s : RecorderManager W}
  {state : FilesystemState}

/-- **Attempts on an errored area.** All attempts are used up, none of them changes anything, and
none calls littlefs. -/
theorem remountLoop_of_errored (hstate : s.filesystems.getState area = some state)
    (hmounted : state.mounted = false) (herrored : state.errored = true) {n : ℕ}
    (hn : s.remountCounter + n = maxRemounts) :
    remountLoop lfs area n s = { s with remountCounter := maxRemounts } := by
  induction n generalizing s with
  | zero => rw [remountLoop, ← hn, Nat.add_zero]
  | succ n ih =>
    rw [remountLoop, if_pos (by omega), mountStorage_of_errored hstate hmounted herrored]
    exact ih hstate (by dsimp only; omega)

/-- **Attempts on an area without errors.** The first attempt calls littlefs; if it fails, the
other ones are used up without a call. -/
theorem remountLoop_of_not_errored (hstate : s.filesystems.getState area = some state)
    (hfs : state.fs = true) (hmounted : state.mounted = false) (herrored : state.errored = false)
    {n : ℕ} (hn : s.remountCounter + (n + 1) = maxRemounts) :
    remountLoop lfs area (n + 1) s =
      match lfs.mount area s.world with
      | (some _, w) =>
        { filesystems := s.filesystems.set area state.markErrored
          remountCounter := maxRemounts
          world := w }
      | (none, w) =>
        { filesystems := s.filesystems.set area { state with mounted := true }
          remountCounter := s.remountCounter + 1
          world := w } := by
  rw [remountLoop, if_pos (by omega),
    mountStorage_of_not_errored hstate hfs hmounted herrored]
  rcases lfs.mount area s.world with ⟨_ | e, w⟩
  · rfl
  · have hself : (s.filesystems.set area state.markErrored).getState area =
        some state.markErrored := Filesystems.getState_set_self ..
    have hmounted' : state.markErrored.mounted = false := hmounted
    exact remountLoop_of_errored hself hmounted' rfl (by dsimp only; omega)

/-- After a successful unmount a failed run goes on with the retry loop. -/
theorem afterRun_of_unmountStorage (hstate : s.filesystems.getState area = some state)
    (hfs : state.fs = true)
    (hunmount : (unmountStorage lfs area s.filesystems s.world).1 = none) (error : LfsError)
    (aliveMsec : ℕ) :
    ∃ w, (w = s.world ∨ w = (lfs.unmount area s.world).2) ∧
      s.afterRun lfs area (some error) aliveMsec =
        some (remountLoop lfs area (maxRemounts - s.counterAfterRun (some error) aliveMsec)
          { filesystems := s.filesystems.set area { state with mounted := false }
            remountCounter := s.counterAfterRun (some error) aliveMsec
            world := w }) := by
  obtain ⟨w, hw, heq⟩ := unmountStorage_eq_none hstate hfs hunmount
  refine ⟨w, hw, ?_⟩
  simp only [afterRun, heq, Filesystems.getState_set_self, Option.all_some, Bool.false_eq_true,
    ↓reduceIte, Option.isSome_some, Bool.and_true, decide_eq_true_eq, Option.some.injEq,
    ite_eq_left_iff, not_le]
  intro hlt
  rw [Nat.sub_eq_zero_of_le hlt.le, remountLoop]

/-- **When the attempts retry anything.** After a run that ended with an I/O error on an area
without errors that is then unmounted: every attempt calls littlefs, and the first success
mounts the area, if and only if the first mount call succeeds or at most one attempt is left. -/
theorem retries_afterRun_iff (lfs : LittleFS W) {area : StorageArea} {fs : Filesystems} (w : W)
    (counter : ℕ) (outcomes : ℕ → Option LfsError) (error : LfsError) (aliveMsec : ℕ)
    (hstate : fs.getState area = some state) (hfs : state.fs = true)
    (herrored : state.errored = false)
    (hunmount : (unmountStorage (lfs.scripted outcomes) area fs (w, 0)).1 = none) :
    let s : RecorderManager (W × ℕ) :=
      { filesystems := fs, remountCounter := counter, world := (w, 0) }
    let start := s.counterAfterRun (some error) aliveMsec
    ∃ t, s.afterRun (lfs.scripted outcomes) area (some error) aliveMsec = some t ∧
      (Retries outcomes (maxRemounts - start) (t.remountCounter - start) t.world.2
          (t.filesystems.isMounted area) ↔
        outcomes 0 = none ∨ maxRemounts - start ≤ 1) := by
  intro s start
  obtain ⟨w', hw', heq⟩ := afterRun_of_unmountStorage (s := s) hstate hfs hunmount error aliveMsec
  have hcount : w'.2 = 0 := by rcases hw' with rfl | rfl <;> rfl
  refine ⟨_, heq, ?_⟩
  have hready : ({ state with mounted := false } : FilesystemState).fs = true := hfs
  cases hrem : maxRemounts - start with
  | zero =>
    rw [remountLoop]
    simp only [hcount, Nat.zero_le, or_true, iff_true]
    exact ⟨(Nat.sub_self start).symm, fun k hk => absurd hk (Nat.not_lt_zero k)⟩
  | succ n =>
    rw [remountLoop_of_not_errored (Filesystems.getState_set_self ..) hready rfl herrored
      (by dsimp only; omega)]
    simp only [LittleFS.scripted, hcount]
    cases houtcome : outcomes 0 with
    | none =>
      simp only [true_or, iff_true]
      refine ⟨(Nat.add_sub_cancel_left start 1).symm, fun _ _ _ _ => ?_⟩
      rw [Filesystems.isMounted_set, Function.update_self]
    | some e =>
      simp only [reduceCtorEq, false_or, hrem]
      refine ⟨fun h => h.calls.symm.le, fun hle => ⟨by omega, fun k hk _ hsuccess => ?_⟩⟩
      obtain rfl : k = 0 := by omega
      simp [houtcome] at hsuccess

end RecorderManager

/-- A run on a mounted SD card that ended with an error after a second, and a remount that
succeeds. -/
theorem RecorderManager.retries_afterRun_iff_sdCard :
    let outcomes : ℕ → Option LfsError := fun _ => none
    let lfs := Medium.blank.io.toLittleFS.scripted outcomes
    let s : RecorderManager (Medium.State × ℕ) :=
      { filesystems := .mountedAtBoot
        remountCounter := 1
        world := ({ outcomes := fun _ => true }, 0) }
    ∃ t, s.afterRun lfs .sdCard (some .io) 1000 = some t ∧
      (Retries outcomes 4 (t.remountCounter - 1) t.world.2 (t.filesystems.isMounted .sdCard) ↔
        outcomes 0 = none ∨ 4 ≤ 1) :=
  RecorderManager.retries_afterRun_iff Medium.blank.io.toLittleFS _ 1 (fun _ => none) .io 1000
    rfl rfl rfl rfl

/-- **Retries without a call.** The first mount call fails and the second one would succeed. All
five attempts are made, but littlefs is called only once, and the area stays unmounted. -/
theorem RecorderManager.not_retries_afterRun :
    let outcomes : ℕ → Option LfsError := fun n => if n = 0 then some .io else none
    let lfs := Medium.blank.io.toLittleFS.scripted outcomes
    let s : RecorderManager (Medium.State × ℕ) :=
      { filesystems := .mountedAtBoot, world := ({ outcomes := fun _ => true }, 0) }
    ∃ t, s.afterRun lfs .sdCard (some .io) 1000 = some t ∧
      t.remountCounter = 5 ∧ t.world.2 = 1 ∧ t.filesystems.isMounted .sdCard = false ∧
      ¬ Retries outcomes 5 (t.remountCounter - 0) t.world.2 (t.filesystems.isMounted .sdCard) := by
  refine ⟨_, rfl, rfl, rfl, rfl, fun h => ?_⟩
  exact absurd h.calls (by decide)

end TellerOBC
