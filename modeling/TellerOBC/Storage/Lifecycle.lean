import Mathlib.Data.List.Induction
import TellerOBC.Foundations.Program
import TellerOBC.Storage.Filesystems

/-!
# The life of the file systems

All functions of `modules/storage.cpp` that create, mount, unmount and format the file systems of
the storage areas, as programs whose calls are those of littlefs. A call carries the flags of the
state object that it is made from, as they are at that moment; littlefs does not see them. The
functions that `Filesystems` has too agree with the ones there for every littlefs.

An area is flagged as mounted exactly if littlefs has it mounted, so littlefs is never asked to
mount an area twice, to unmount one that is not mounted or to format one that is.

## Main definitions

* `TellerOBC.Lifecycle.configureStorage`, `mountStorage`, `unmountStorage`, `eraseStorage`,
  `markStorageAsErrored`, `formatAll`, `formatAtBoot`, `mountAtBoot`, `setup`.
* `TellerOBC.Lifecycle.Operation`, `TellerOBC.Lifecycle.run`: sequences of them.
* `TellerOBC.Lifecycle.MountedIn`: whether an area is mounted by the calls of a history.

## Main results

* `TellerOBC.Lifecycle.flags_run`: what the flags mean, and when littlefs is called.
* `TellerOBC.Lifecycle.result_mountStorage`, `TellerOBC.Lifecycle.result_unmountStorage`,
  `TellerOBC.Lifecycle.result_eraseStorage`: agreement with the functions on states.
-/

namespace TellerOBC.Lifecycle

/-! ### Calls -/

/-- The methods of littlefs that the storage module calls on a file system object, and its
creation. -/
inductive LfsMethod where
  | create
  | mount
  | unmount
  | format
  deriving DecidableEq, Repr

/-- A call for an area, with the flags of its state object at the time. -/
structure LfsCall where
  method : LfsMethod
  area : StorageArea
  flags : FilesystemState
  deriving DecidableEq, Repr

/-- The answers: the error if there is one. The creation fails if there is no memory. -/
abbrev LfsAnswer (_ : LfsCall) : Type := Option LfsError

abbrev LfsProgram (α : Type) : Type := Program LfsAnswer α

abbrev LfsEvent : Type := Program.Event LfsAnswer

/-- Call a method for an area from its state object. -/
def call (method : LfsMethod) (area : StorageArea) (s : FilesystemState) :
    LfsProgram (Option LfsError) :=
  (Program.perform ⟨method, area, s⟩ : Program LfsAnswer (LfsAnswer ⟨method, area, s⟩))

/-! ### State objects -/

section

variable (area : StorageArea) (s : FilesystemState)

/-- `FilesystemState::configure`. -/
def configure : LfsProgram (Bool × FilesystemState) :=
  if s.configured then pure (false, s)
  else do
    let error ← call .create area s
    match error with
    | some _ => pure (false, { s with fs := false })
    | none => pure (true, { s with fs := true, configured := true })

/-- `FilesystemState::ensureMounted`. -/
def ensureMounted : LfsProgram (Bool × FilesystemState) :=
  if s.mounted then pure (true, s)
  else if !s.fs then pure (false, s)
  else if s.errored then pure (false, s)
  else do
    let error ← call .mount area s
    match error with
    | some _ => pure (false, s)
    | none => pure (true, { s with mounted := true })

/-- `FilesystemState::ensureUnmounted`. -/
def ensureUnmounted : LfsProgram (Bool × FilesystemState) :=
  if !s.mounted then pure (true, s)
  else if !s.fs then pure (true, s)
  else do
    let error ← call .unmount area s
    match error with
    | some _ => pure (false, s)
    | none => pure (true, { s with mounted := false })

/-- `FilesystemState::format`. -/
def format : LfsProgram (Option LfsError × FilesystemState) :=
  if s.fs then do
    let error ← call .format area s
    pure (error, s)
  else pure (some .inval, s)

/-- The body of the loop of `formatAll`. -/
def formatUnmounted : LfsProgram (Bool × FilesystemState) := do
  let r ← ensureUnmounted area s
  if !r.1 then pure (false, r.2)
  else if !r.2.fs then pure (false, r.2)
  else do
    let error ← call .format area r.2
    pure (error.isNone, r.2)

/-- `shouldMountStorageAreaAtBoot`. -/
def shouldMountStorageAreaAtBoot : Bool :=
  match area with
  | .flashMemory | .sdCard => true
  | .unknown => false

/-- The body of the loop of `formatAtBoot`. -/
def formatIfNeeded : LfsProgram (Bool × FilesystemState) :=
  if !s.mounted && shouldMountStorageAreaAtBoot area && s.fs then do
    let error ← call .format area s
    pure (error.isNone, s)
  else pure (true, s)

/-- The body of the loop of `mountAtBoot`. -/
def mountIfNeeded : LfsProgram (Bool × FilesystemState) :=
  if shouldMountStorageAreaAtBoot area then ensureMounted area s else pure (true, s)

end

/-! ### Storage areas -/

section

variable (area : StorageArea) (fs : Filesystems)

/-- Apply a function to the state object of an area, if there is one. -/
def withState {α : Type} (default : α) (f : FilesystemState → LfsProgram (α × FilesystemState)) :
    LfsProgram (α × Filesystems) :=
  match fs.getState area with
  | none => pure (default, fs)
  | some s => do
    let r ← f s
    pure (r.1, fs.set area r.2)

/-- `configureStorage`. -/
def configureStorage : LfsProgram (Bool × Filesystems) :=
  withState area fs false fun s => if s.configured then pure (false, s) else configure area s

/-- `mountStorage`. -/
def mountStorage (force : Bool) : LfsProgram (Option Errno × Filesystems) :=
  withState area fs (some .inval) fun s => do
    let r ← ensureMounted area (if force then s.clearErrors else s)
    pure (if r.1 then (none, r.2) else (some .io, r.2.markErrored))

/-- `unmountStorage`. -/
def unmountStorage : LfsProgram (Option Errno × Filesystems) :=
  withState area fs (some .inval) fun s => do
    let r ← ensureUnmounted area s
    pure (if r.1 then (none, r.2) else (some .io, r.2.markErrored))

/-- `eraseStorage`. -/
def eraseStorage : LfsProgram (Option Errno × Filesystems) :=
  withState area fs (some .inval) fun s =>
    if s.mounted then pure (some .io, s)
    else do
      let r ← format area s
      match r.1 with
      | some e => pure (some (convertLittleFSErrorCode e), r.2.markErrored)
      | none => pure (none, r.2)

/-- `markStorageAsErrored`. -/
def markStorageAsErrored : LfsProgram (Unit × Filesystems) :=
  withState area fs () fun s => pure ((), s.markErrored)

/-! ### All storage areas -/

/-- The storage areas in the order of the loops. -/
def storageAreas : List StorageArea := [.unknown, .flashMemory, .sdCard]

/-- The loops over the state objects; whether all passes succeeded. -/
def forEachState (f : StorageArea → FilesystemState → LfsProgram (Bool × FilesystemState)) :
    List StorageArea → Filesystems → LfsProgram (Bool × Filesystems)
  | [], fs => pure (true, fs)
  | area :: areas, fs => do
    let r ← withState area fs true (f area)
    let rest ← forEachState f areas r.2
    pure (r.1 && rest.1, rest.2)

/-- `Filesystems::formatAll`. -/
def formatAll : LfsProgram (Bool × Filesystems) := forEachState formatUnmounted storageAreas fs

/-- `Filesystems::formatAtBoot`. -/
def formatAtBoot : LfsProgram (Bool × Filesystems) := forEachState formatIfNeeded storageAreas fs

/-- `Filesystems::mountAtBoot`. -/
def mountAtBoot : LfsProgram (Bool × Filesystems) := forEachState mountIfNeeded storageAreas fs

/-! ### Setup -/

/-- `InitMode`. -/
inductive InitMode where
  | normal
  | formatIfNeeded
  | format
  deriving DecidableEq, Repr

/-- The end of `setup`: mount the areas, and format and mount those that failed if asked to. -/
def setupMounted (mode : InitMode) : LfsProgram (Unit × Filesystems) := do
  let mounted ← mountAtBoot fs
  if !mounted.1 && mode = .formatIfNeeded then do
    let formatted ← formatAtBoot mounted.2
    let r ← mountAtBoot formatted.2
    pure ((), r.2)
  else pure ((), mounted.2)

/-- Configure an area if its driver has a configuration. -/
def configureIfFound (found : Bool) : LfsProgram (Bool × Filesystems) :=
  if found then configureStorage area fs else pure (false, fs)

/-- `setup`, given which drivers have a configuration. -/
def setup (flashMemory sdCard : Bool) (mode : InitMode) : LfsProgram (Unit × Filesystems) := do
  let flash ← configureIfFound .flashMemory fs flashMemory
  let sd ← configureIfFound .sdCard flash.2 sdCard
  if mode = .format then do
    let formatted ← formatAll sd.2
    if !formatted.1 then pure ((), formatted.2) else setupMounted formatted.2 mode
  else setupMounted sd.2 mode

end

/-! ### Histories -/

/-- A call when it is allowed: mounting an area that is neither mounted nor errored, unmounting one
that is mounted, formatting one that is not. -/
def LfsCall.Allowed (c : LfsCall) : Prop :=
  match c.method with
  | .create => True
  | .mount => c.flags.mounted = false ∧ c.flags.errored = false
  | .unmount => c.flags.mounted = true
  | .format => c.flags.mounted = false

/-- A successful call of a method for an area. -/
def Succeeds (method : LfsMethod) (area : StorageArea) (e : LfsEvent) : Prop :=
  e.1.method = method ∧ e.1.area = area ∧ e.2 = none

instance (method : LfsMethod) (area : StorageArea) (e : LfsEvent) :
    Decidable (Succeeds method area e) :=
  inferInstanceAs (Decidable (_ ∧ _ ∧ _))

/-- There was a successful mount of the area that no successful unmount followed. -/
def MountedIn (area : StorageArea) (history : List LfsEvent) : Prop :=
  ∃ before event after, history = before ++ event :: after ∧ Succeeds .mount area event ∧
    ∀ e ∈ after, ¬ Succeeds .unmount area e

/-- How many file system objects were created for the area. -/
def creations (area : StorageArea) (history : List LfsEvent) : ℕ :=
  history.countP fun e => Succeeds .create area e

variable {area : StorageArea} {s : FilesystemState} {history : List LfsEvent}

theorem mountedIn_concat {e : LfsEvent} : MountedIn area (history ++ [e]) ↔
    Succeeds .mount area e ∨ (MountedIn area history ∧ ¬ Succeeds .unmount area e) := by
  constructor
  · rintro ⟨before, event, after, heq, hmount, hafter⟩
    rcases List.eq_nil_or_concat' after with rfl | ⟨after, last, rfl⟩
    · obtain ⟨-, hlast⟩ := List.append_inj' heq rfl
      exact Or.inl ((List.cons.inj hlast).1 ▸ hmount)
    · have hsplit : history ++ [e] = (before ++ event :: after) ++ [last] := by
        rw [heq, List.append_assoc, List.cons_append]
      obtain ⟨rfl, hlast⟩ := List.append_inj' hsplit rfl
      refine Or.inr ⟨⟨before, event, after, rfl, hmount, fun e' he' => ?_⟩, ?_⟩
      · exact hafter e' (List.mem_append_left _ he')
      · rw [(List.cons.inj hlast).1]
        exact hafter last (List.mem_append_right _ List.mem_cons_self)
  · rintro (hmount | ⟨⟨before, event, after, rfl, hmount, hafter⟩, hnot⟩)
    · exact ⟨history, e, [], rfl, hmount, fun _ => nofun⟩
    · refine ⟨before, event, after ++ [e], by simp, hmount, fun e' he' => ?_⟩
      rcases List.mem_append.mp he' with he' | he'
      · exact hafter e' he'
      · rwa [List.mem_singleton.mp he']

theorem creations_concat {e : LfsEvent} : creations area (history ++ [e]) =
    creations area history + if Succeeds .create area e then 1 else 0 := by
  rw [creations, List.countP_append, List.countP_singleton]
  simp only [decide_eq_true_eq]
  rfl

/-- What the flags of an area say after a history. -/
structure AreaInv (area : StorageArea) (s : FilesystemState) (history : List LfsEvent) : Prop where
  configured_eq : s.configured = s.fs
  fs_of_mounted : s.mounted = true → s.fs = true
  mounted_iff : s.mounted = true ↔ MountedIn area history
  creations_eq : creations area history = if s.fs then 1 else 0

theorem AreaInv.concat {t : FilesystemState} {e : LfsEvent} (h : AreaInv area s history)
    (hconfigured : t.configured = t.fs) (hfs : t.mounted = true → t.fs = true)
    (hmounted : t.mounted = true ↔
      Succeeds .mount area e ∨ (s.mounted = true ∧ ¬ Succeeds .unmount area e))
    (hcreations : (if t.fs then 1 else 0) =
      (if s.fs then 1 else 0) + if Succeeds .create area e then 1 else 0) :
    AreaInv area t (history ++ [e]) where
  configured_eq := hconfigured
  fs_of_mounted := hfs
  mounted_iff := by rw [hmounted, mountedIn_concat, h.mounted_iff]
  creations_eq := by rw [creations_concat, h.creations_eq, hcreations]

/-- The history has grown by allowed calls for the area only, and the flags say what they
should. -/
def Since (area : StorageArea) (base : List LfsEvent) (s : FilesystemState)
    (history : List LfsEvent) : Prop :=
  AreaInv area s history ∧
    ∃ es, history = base ++ es ∧ ∀ e ∈ es, e.1.area = area ∧ e.1.Allowed

variable {base : List LfsEvent} {α : Type}

theorem AreaInv.since (h : AreaInv area s history) : Since area history s history :=
  ⟨h, [], (List.append_nil history).symm, fun _ => nofun⟩

/-- A call keeps the invariant if it is allowed and what is done with its answer does. -/
theorem ensures_call {method : LfsMethod}
    {f : Option LfsError → LfsProgram (α × FilesystemState)}
    {post : α × FilesystemState → List LfsEvent → Prop} (h : Since area base s history)
    (hallowed : LfsCall.Allowed ⟨method, area, s⟩)
    (hf : ∀ error, (∀ t, AreaInv area t (history ++ [⟨⟨method, area, s⟩, error⟩]) →
        Since area base t (history ++ [⟨⟨method, area, s⟩, error⟩])) →
      Program.Ensures (history ++ [⟨⟨method, area, s⟩, error⟩]) (f error) post) :
    Program.Ensures history (call method area s >>= f) post := by
  refine .call fun error => hf error fun t ht => ⟨ht, ?_⟩
  obtain ⟨-, es, rfl, hes⟩ := h
  refine ⟨es ++ [⟨⟨method, area, s⟩, error⟩], by rw [List.append_assoc], fun e he => ?_⟩
  rcases List.mem_append.mp he with he | he
  · exact hes e he
  · rw [List.mem_singleton.mp he]
    exact ⟨rfl, hallowed⟩

/-- What the functions on state objects do to the invariant. -/
abbrev Keeps (area : StorageArea) (base history : List LfsEvent)
    (p : LfsProgram (α × FilesystemState)) : Prop :=
  Program.Ensures history p fun r => Since area base r.2

theorem keeps_configure (h : Since area base s history) :
    Keeps area base history (configure area s) := by
  refine .ite (fun _ => .pure h) fun hconfigured => ensures_call h trivial fun error hsince => ?_
  have hfs : s.fs = false := by
    rw [← h.1.configured_eq]
    exact Bool.eq_false_iff.mpr hconfigured
  have hmounted : s.mounted = false := by
    cases hm : s.mounted with
    | false => rfl
    | true => exact absurd (h.1.fs_of_mounted hm) (by rw [hfs]; exact Bool.false_ne_true)
  cases error with
  | none =>
    refine .pure (hsince _ (h.1.concat rfl (fun _ => rfl) ?_ ?_))
    all_goals simp [Succeeds, hfs, hmounted]
  | some e =>
    refine .pure (hsince _ (h.1.concat ?_ ?_ ?_ ?_))
    all_goals simp [Succeeds, hfs, hmounted, h.1.configured_eq]

theorem keeps_ensureMounted (h : Since area base s history) :
    Keeps area base history (ensureMounted area s) := by
  refine .ite (fun _ => .pure h) fun hmounted => .ite (fun _ => .pure h) fun hfs =>
    .ite (fun _ => .pure h) fun herrored => ?_
  rw [Bool.not_eq_true] at hmounted herrored
  rw [Bool.not_eq_true', Bool.not_eq_false] at hfs
  refine ensures_call h ⟨hmounted, herrored⟩ fun error hsince => ?_
  cases error with
  | none =>
    refine .pure (hsince _ (h.1.concat h.1.configured_eq (fun _ => hfs) ?_ ?_))
    all_goals simp [Succeeds]
  | some e =>
    refine .pure (hsince _ (h.1.concat h.1.configured_eq h.1.fs_of_mounted ?_ ?_))
    all_goals simp [Succeeds]

theorem keeps_ensureUnmounted (h : Since area base s history) :
    Program.Ensures history (ensureUnmounted area s) fun r history' =>
      Since area base r.2 history' ∧ (r.1 = true → r.2.mounted = false) := by
  refine .ite (fun hmounted => .pure ⟨h, fun _ => by simpa using hmounted⟩) fun hmounted =>
    .ite (fun hfs => ?_) fun hfs => ?_
  · -- a mounted area has a file system object
    rw [Bool.not_eq_true', Bool.not_eq_false] at hmounted
    have := h.1.fs_of_mounted hmounted
    simp [this] at hfs
  rw [Bool.not_eq_true', Bool.not_eq_false] at hmounted hfs
  refine ensures_call h hmounted fun error hsince => ?_
  cases error with
  | none =>
    refine .pure ⟨hsince _ (h.1.concat h.1.configured_eq (fun _ => hfs) ?_ ?_), fun _ => rfl⟩
    all_goals simp [Succeeds]
  | some e =>
    refine .pure ⟨hsince _ (h.1.concat h.1.configured_eq h.1.fs_of_mounted ?_ ?_), nofun⟩
    all_goals simp [Succeeds]

/-- Formatting an area that is not mounted. -/
theorem keeps_format {f : Option LfsError → α × FilesystemState} (h : Since area base s history)
    (hmounted : s.mounted = false) (hf : ∀ error, AreaInv area s = AreaInv area (f error).2) :
    Keeps area base history (call .format area s >>= fun error => pure (f error)) := by
  refine ensures_call h hmounted fun error hsince => .pure (hsince _ (hf error ▸ ?_))
  refine h.1.concat h.1.configured_eq h.1.fs_of_mounted ?_ ?_
  all_goals simp [Succeeds]

theorem keeps_formatUnmounted (h : Since area base s history) :
    Keeps area base history (formatUnmounted area s) := by
  refine (keeps_ensureUnmounted h).bind fun r h' hr => .ite (fun _ => .pure hr.1) fun hsome =>
    .ite (fun _ => .pure hr.1) fun _ => ?_
  exact keeps_format hr.1 (hr.2 (by simpa using hsome)) fun _ => rfl

theorem keeps_formatIfNeeded (h : Since area base s history) :
    Keeps area base history (formatIfNeeded area s) := by
  refine .ite (fun hneeded => keeps_format h ?_ fun _ => rfl) fun _ => .pure h
  simp only [Bool.and_eq_true, Bool.not_eq_true'] at hneeded
  exact hneeded.1.1

theorem keeps_mountIfNeeded (h : Since area base s history) :
    Keeps area base history (mountIfNeeded area s) :=
  .ite (fun _ => keeps_ensureMounted h) fun _ => .pure h

/-! ### Storage areas -/

/-- The error flag does not matter. -/
theorem Since.errored (h : Since area base s history) (errored : Bool) :
    Since area base { s with errored } history :=
  ⟨⟨h.1.configured_eq, h.1.fs_of_mounted, h.1.mounted_iff, h.1.creations_eq⟩, h.2⟩

/-- All calls so far were allowed, and the flags of all areas say what they should. -/
def FsInv (fs : Filesystems) (history : List LfsEvent) : Prop :=
  (∀ e ∈ history, e.1.Allowed) ∧
    ∀ area s, fs.getState area = some s → AreaInv area s history

variable {fs : Filesystems}

/-- Calls for other areas do not matter. -/
theorem AreaInv.append {es : List LfsEvent} (h : AreaInv area s history)
    (hes : ∀ e ∈ es, e.1.area ≠ area) : AreaInv area s (history ++ es) := by
  induction es using List.reverseRecOn with
  | nil => rwa [List.append_nil]
  | append_singleton es e ih =>
    rw [← List.append_assoc]
    have hother : ∀ method, ¬ Succeeds method area e := fun method hsucceeds =>
      hes e (List.mem_append_right _ List.mem_cons_self) hsucceeds.2.1
    have hprev := ih fun e' he' => hes e' (List.mem_append_left _ he')
    refine hprev.concat hprev.configured_eq hprev.fs_of_mounted ?_ ?_
    all_goals simp [hother]

theorem ensures_withState {default : α} {f : FilesystemState → LfsProgram (α × FilesystemState)}
    (hfs : FsInv fs history)
    (hf : ∀ s, Since area history s history → Keeps area history history (f s)) :
    Program.Ensures history (withState area fs default f) fun r => FsInv r.2 := by
  rw [withState]
  split
  · exact .pure hfs
  · rename_i s hs
    refine (hf s (hfs.2 area s hs).since).bind fun r history' hr => .pure ?_
    obtain ⟨hinv, es, rfl, hes⟩ := hr
    refine ⟨fun e he => ?_, Filesystems.forall_getState_set hinv fun area' t hne ht => ?_⟩
    · rcases List.mem_append.mp he with he | he
      · exact hfs.1 e he
      · exact (hes e he).2
    · exact (hfs.2 area' t ht).append fun e he => (hes e he).1.symm ▸ Ne.symm hne

theorem ensures_configureStorage (area : StorageArea) (h : FsInv fs history) :
    Program.Ensures history (configureStorage area fs) fun r => FsInv r.2 :=
  ensures_withState h fun _ hs => .ite (fun _ => .pure hs) fun _ => keeps_configure hs

theorem ensures_mountStorage (area : StorageArea) (force : Bool) (h : FsInv fs history) :
    Program.Ensures history (mountStorage area fs force) fun r => FsInv r.2 := by
  refine ensures_withState h fun s hs => ?_
  have hcleared : Since area history (if force then s.clearErrors else s) history := by
    split
    · exact hs.errored false
    · exact hs
  refine (keeps_ensureMounted hcleared).bind fun r h' hr => .pure ?_
  split
  · exact hr
  · exact hr.errored true

theorem ensures_unmountStorage (area : StorageArea) (h : FsInv fs history) :
    Program.Ensures history (unmountStorage area fs) fun r => FsInv r.2 := by
  refine ensures_withState h fun s hs => (keeps_ensureUnmounted hs).bind fun r h' hr => .pure ?_
  split
  · exact hr.1
  · exact hr.1.errored true

theorem ensures_eraseStorage (area : StorageArea) (h : FsInv fs history) :
    Program.Ensures history (eraseStorage area fs) fun r => FsInv r.2 := by
  refine ensures_withState h fun s hs => .ite (fun _ => .pure hs) fun hmounted => ?_
  rw [Bool.not_eq_true] at hmounted
  have hformat : Keeps area history history (format area s) :=
    .ite (fun _ => keeps_format hs hmounted fun _ => rfl) fun _ => .pure hs
  refine hformat.bind fun r h' hr => ?_
  split
  · exact .pure (hr.errored true)
  · exact .pure hr

theorem ensures_markStorageAsErrored (area : StorageArea) (h : FsInv fs history) :
    Program.Ensures history (markStorageAsErrored area fs) fun r => FsInv r.2 :=
  ensures_withState h fun _ hs => .pure (hs.errored true)

/-- The loops keep the invariant if their bodies do. -/
theorem ensures_forEachState
    {f : StorageArea → FilesystemState → LfsProgram (Bool × FilesystemState)}
    (hf : ∀ area s history, Since area history s history → Keeps area history history (f area s))
    (areas : List StorageArea) (h : FsInv fs history) :
    Program.Ensures history (forEachState f areas fs) fun r => FsInv r.2 := by
  induction areas generalizing fs history with
  | nil => exact .pure h
  | cons area areas ih =>
    refine (ensures_withState h fun s => hf area s history).bind fun r h' hr => ?_
    exact (ih hr).bind fun rest h'' hrest => .pure hrest

theorem ensures_mountAtBoot (h : FsInv fs history) :
    Program.Ensures history (mountAtBoot fs) fun r => FsInv r.2 :=
  ensures_forEachState (fun _ _ _ => keeps_mountIfNeeded) storageAreas h

theorem ensures_formatAtBoot (h : FsInv fs history) :
    Program.Ensures history (formatAtBoot fs) fun r => FsInv r.2 :=
  ensures_forEachState (fun _ _ _ => keeps_formatIfNeeded) storageAreas h

theorem ensures_formatAll (h : FsInv fs history) :
    Program.Ensures history (formatAll fs) fun r => FsInv r.2 :=
  ensures_forEachState (fun _ _ _ => keeps_formatUnmounted) storageAreas h

theorem ensures_setupMounted (mode : InitMode) (h : FsInv fs history) :
    Program.Ensures history (setupMounted fs mode) fun r => FsInv r.2 := by
  refine (ensures_mountAtBoot h).bind fun mounted h₁ hmounted => .ite (fun _ => ?_) fun _ =>
    .pure hmounted
  refine (ensures_formatAtBoot hmounted).bind fun formatted h₂ hformatted => ?_
  exact (ensures_mountAtBoot hformatted).bind fun r h₃ hr => .pure hr

theorem ensures_setup (flashMemory sdCard : Bool) (mode : InitMode) (h : FsInv fs history) :
    Program.Ensures history (setup fs flashMemory sdCard mode) fun r => FsInv r.2 := by
  have hfound : ∀ area found {fs : Filesystems} {history}, FsInv fs history →
      Program.Ensures history (configureIfFound area fs found) fun r => FsInv r.2 :=
    fun area found _ _ h => .ite (fun _ => ensures_configureStorage area h) fun _ => .pure h
  refine (hfound .flashMemory flashMemory h).bind fun flash h₁ hflash => ?_
  refine (hfound .sdCard sdCard hflash).bind fun sd h₂ hsd => .ite (fun _ => ?_) fun _ =>
    ensures_setupMounted mode hsd
  refine (ensures_formatAll hsd).bind fun formatted h₃ hformatted => .ite (fun _ => ?_) fun _ => ?_
  · exact .pure hformatted
  · exact ensures_setupMounted mode hformatted

/-! ### Sequences of operations -/

/-- The operations. For `setup` it is given which drivers have a configuration. -/
inductive Operation where
  | configureStorage (area : StorageArea)
  | setup (flashMemory sdCard : Bool) (mode : InitMode)
  | mountStorage (area : StorageArea) (force : Bool)
  | unmountStorage (area : StorageArea)
  | eraseStorage (area : StorageArea)
  | markStorageAsErrored (area : StorageArea)
  | formatAll
  | formatAtBoot
  | mountAtBoot

/-- The file systems after an operation. -/
def Operation.perform (fs : Filesystems) : Operation → LfsProgram Filesystems
  | .configureStorage area => Prod.snd <$> Lifecycle.configureStorage area fs
  | .setup flashMemory sdCard mode => Prod.snd <$> Lifecycle.setup fs flashMemory sdCard mode
  | .mountStorage area force => Prod.snd <$> Lifecycle.mountStorage area fs force
  | .unmountStorage area => Prod.snd <$> Lifecycle.unmountStorage area fs
  | .eraseStorage area => Prod.snd <$> Lifecycle.eraseStorage area fs
  | .markStorageAsErrored area => Prod.snd <$> Lifecycle.markStorageAsErrored area fs
  | .formatAll => Prod.snd <$> Lifecycle.formatAll fs
  | .formatAtBoot => Prod.snd <$> Lifecycle.formatAtBoot fs
  | .mountAtBoot => Prod.snd <$> Lifecycle.mountAtBoot fs

theorem ensures_perform (op : Operation) (h : FsInv fs history) :
    Program.Ensures history (op.perform fs) FsInv := by
  have hsnd : ∀ {α} {p : LfsProgram (α × Filesystems)},
      Program.Ensures history p (fun r => FsInv r.2) →
      Program.Ensures history (Prod.snd <$> p) FsInv := fun hp => hp.bind fun _ _ hr => .pure hr
  cases op with
  | configureStorage area => exact hsnd (ensures_configureStorage area h)
  | setup flashMemory sdCard mode => exact hsnd (ensures_setup flashMemory sdCard mode h)
  | mountStorage area force => exact hsnd (ensures_mountStorage area force h)
  | unmountStorage area => exact hsnd (ensures_unmountStorage area h)
  | eraseStorage area => exact hsnd (ensures_eraseStorage area h)
  | markStorageAsErrored area => exact hsnd (ensures_markStorageAsErrored area h)
  | formatAll => exact hsnd (ensures_formatAll h)
  | formatAtBoot => exact hsnd (ensures_formatAtBoot h)
  | mountAtBoot => exact hsnd (ensures_mountAtBoot h)

/-- The file systems, the calls so far with their answers, and whatever answers the calls. -/
structure State (W : Type) where
  fs : Filesystems
  history : List LfsEvent
  world : W

variable {W : Type}

/-- The state after `Filesystems::init`. -/
def start (w : W) : State W where
  fs
    | .unknown => none
    | .flashMemory | .sdCard => some ⟨false, false, false, false⟩
  history := []
  world := w

/-- An operation. -/
def step (env : Program.Environment LfsAnswer W) (t : State W) (op : Operation) : State W where
  fs := ((op.perform t.fs).exec env t.world).1
  history := t.history ++ (op.perform t.fs).trace env t.world
  world := ((op.perform t.fs).exec env t.world).2

/-- A sequence of operations. -/
def run (env : Program.Environment LfsAnswer W) (t : State W) (ops : List Operation) : State W :=
  ops.foldl (step env) t

/-- The state objects of `Filesystems::init` have no flag set. -/
theorem eq_of_getState_start {w : W} {area : StorageArea} {s : FilesystemState}
    (hs : (start w).fs.getState area = some s) : s = ⟨false, false, false, false⟩ := by
  cases area with
  | unknown => cases hs
  | flashMemory | sdCard => exact (Option.some.inj hs).symm

theorem fsInv_start (w : W) : FsInv (start w).fs (start w).history := by
  refine ⟨fun _ => nofun, fun area s hs => ?_⟩
  obtain rfl := eq_of_getState_start hs
  refine ⟨rfl, nofun, ⟨nofun, ?_⟩, rfl⟩
  rintro ⟨before, event, after, hnil, -⟩
  exact absurd hnil (by simp [start])

theorem fsInv_run (env : Program.Environment LfsAnswer W) {t : State W} (h : FsInv t.fs t.history)
    (ops : List Operation) : FsInv (run env t ops).fs (run env t ops).history := by
  induction ops generalizing t with
  | nil => exact h
  | cons op ops ih =>
    exact ih (ensures_perform op h _ _ (Program.runs_trace env (op.perform t.fs) t.world))

/-- **The life of the file systems.** After every sequence of operations with arbitrary results of
littlefs, all calls of littlefs were allowed: mounts for areas that were neither mounted nor
errored, unmounts for mounted areas and formats for areas that were not mounted. An area is
flagged as mounted only if it is configured and has a file system object, and exactly if its
last successful mount was not followed by a successful unmount; and at most one file system
object was created for it. -/
theorem flags_run (env : Program.Environment LfsAnswer W) (w : W) (ops : List Operation) :
    (∀ e ∈ (run env (start w) ops).history, e.1.Allowed) ∧
    ∀ area s, (run env (start w) ops).fs.getState area = some s →
      (s.mounted = true → s.configured = true ∧ s.fs = true) ∧
      (s.mounted = true ↔ MountedIn area (run env (start w) ops).history) ∧
      creations area (run env (start w) ops).history ≤ 1 := by
  have hinv := fsInv_run env (fsInv_start w) ops
  refine ⟨hinv.1, fun area s hs => ?_⟩
  have harea := hinv.2 area s hs
  refine ⟨fun hmounted => ?_, harea.mounted_iff, ?_⟩
  · have hfs := harea.fs_of_mounted hmounted
    exact ⟨harea.configured_eq.trans hfs, hfs⟩
  · rw [harea.creations_eq]
    split <;> decide

/-- What the theorem says of the SD card after it was formatted at boot, unmounted, erased and
mounted again. -/
theorem flags_run_erased :
    MountedIn .sdCard (run (fun _ w => (none, w)) (start ()) [.setup true true .format,
      .unmountStorage .sdCard, .eraseStorage .sdCard, .mountStorage .sdCard true]).history := by
  have hflags := (flags_run (fun _ w => (none, w)) () [.setup true true .format,
    .unmountStorage .sdCard, .eraseStorage .sdCard, .mountStorage .sdCard true]).2 .sdCard
      ⟨true, true, true, false⟩ (by decide +kernel)
  exact hflags.2.1.mp rfl

/-! ### Agreement with the functions on states -/

section

variable (lfs : LittleFS W) (area : StorageArea) (s : FilesystemState) (fs : Filesystems) (w : W)

/-- littlefs as what answers the calls. -/
def environment : Program.Environment LfsAnswer W
  | ⟨.create, _, _⟩, w => (none, w)
  | ⟨.mount, area, _⟩, w => lfs.mount area w
  | ⟨.unmount, area, _⟩, w => lfs.unmount area w
  | ⟨.format, area, _⟩, w => lfs.format area w

/-- The value, the states and the world after a program. -/
def result {α σ : Type} (p : LfsProgram (α × σ)) (w : W) : α × σ × W :=
  ((p.exec (environment lfs) w).1.1, (p.exec (environment lfs) w).1.2,
    (p.exec (environment lfs) w).2)

theorem result_bind {α β σ τ : Type} (p : LfsProgram (α × σ)) (f : α × σ → LfsProgram (β × τ)) :
    result lfs (p >>= f) w =
      result lfs (f ((result lfs p w).1, (result lfs p w).2.1)) (result lfs p w).2.2 := by
  rw [result, Program.exec_bind]
  rfl

theorem result_ensureMounted :
    result lfs (ensureMounted area s) w = s.ensureMounted lfs area w := by
  rw [ensureMounted, FilesystemState.ensureMounted]
  split_ifs
  · rfl
  · rfl
  · rfl
  · simp only [result, call, Program.perform_bind, Program.exec, environment]
    rcases lfs.mount area w with ⟨_ | e, w'⟩ <;> rfl

theorem result_ensureUnmounted :
    result lfs (ensureUnmounted area s) w = s.ensureUnmounted lfs area w := by
  rw [ensureUnmounted, FilesystemState.ensureUnmounted]
  split_ifs
  · rfl
  · rfl
  · simp only [result, call, Program.perform_bind, Program.exec, environment]
    rcases lfs.unmount area w with ⟨_ | e, w'⟩ <;> rfl

theorem result_format :
    result lfs (format area s) w = ((s.format lfs area w).1, s, (s.format lfs area w).2) := by
  rw [format, FilesystemState.format]
  split_ifs <;> rfl

/-- Mounting an area is what it is on states. -/
theorem result_mountStorage (force : Bool) :
    result lfs (mountStorage area fs force) w = TellerOBC.mountStorage lfs area fs w force := by
  rw [mountStorage, withState, TellerOBC.mountStorage]
  cases fs.getState area with
  | none => rfl
  | some s =>
    simp only [result_bind, result_ensureMounted]
    rcases FilesystemState.ensureMounted lfs area _ w with ⟨_ | _, t, w'⟩ <;> rfl

/-- Unmounting an area is what it is on states. -/
theorem result_unmountStorage :
    result lfs (unmountStorage area fs) w = TellerOBC.unmountStorage lfs area fs w := by
  rw [unmountStorage, withState, TellerOBC.unmountStorage]
  cases fs.getState area with
  | none => rfl
  | some s =>
    simp only [result_bind, result_ensureUnmounted]
    rcases s.ensureUnmounted lfs area w with ⟨_ | _, t, w'⟩ <;> rfl

/-- Erasing an area is what it is on states. -/
theorem result_eraseStorage :
    result lfs (eraseStorage area fs) w = TellerOBC.eraseStorage lfs area fs w := by
  rw [eraseStorage, withState, TellerOBC.eraseStorage]
  cases hs : fs.getState area with
  | none => rfl
  | some s =>
    have hset : fs.set area s = fs := Filesystems.set_of_getState hs
    dsimp only
    rw [result_bind]
    split_ifs with hmounted
    · change (some Errno.io, fs.set area s, w) = _
      rw [hset]
    · simp only [result_bind, result_format]
      rcases s.format lfs area w with ⟨_ | e, w'⟩
      · change (none, fs.set area s, w') = _
        rw [hset]
      · rfl

end

end TellerOBC.Lifecycle
