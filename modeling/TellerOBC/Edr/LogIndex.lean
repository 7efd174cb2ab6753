import TellerOBC.Foundations.StepSystem
import TellerOBC.Edr.Recorder

/-!
# The log files of successive recorder runs

Every run of the recorder on a file system takes the index of its log file from `LASTLOG.TXT` and
truncates the log file with that index when it opens it. All results of littlefs in a run, and
what `LASTLOG.TXT` holds after a run has written to it, are arbitrary: they are given as the
*results* of the run. The disk keeps the content of `LASTLOG.TXT` and the log files that were
opened so far.

An index is used twice when a run misses the index of an earlier one: a failed `stat` counts as a
missing file, the result of the read is ignored, and nobody looks whether the update reached the
disk. If none of this happens then all runs have different log files.

## Main definitions

* `TellerOBC.RunResults`, `TellerOBC.Disk`, `TellerOBC.Disk.lfs`.
* `TellerOBC.Disk.recorderStep`: a run of the recorder.
* `TellerOBC.RunResults.KeepIndex`: results that neither miss nor lose the index.
* `TellerOBC.Disk.NeverTruncates`: no run opens the log file of an earlier run.

## Main results

* `TellerOBC.Disk.Numbered.step`: the invariant of the log files.
* `TellerOBC.Disk.never_truncates`.
-/

namespace TellerOBC

/-- The results of littlefs in a run of the recorder. -/
structure RunResults where
  stat : Except LfsError LfsType
  openRead : Option LfsError
  read : Except LfsError (List UInt8)
  openUpdate : Option LfsError
  write : Except LfsError ℕ
  /-- What `LASTLOG.TXT` holds after it was opened for the update and closed again. -/
  updated : Option (List UInt8)
  openLog : Option LfsError
  /-- The results of the writes to the log file, in order. -/
  logWrites : ℕ → Except LfsError ℕ
  /-- The results of the syncs of the log file, in order. -/
  syncs : ℕ → Option LfsError
  close : Option LfsError

/-- The content of `LASTLOG.TXT`, the names of the log files that were opened so far and whether
the open succeeded, and the results for the current run with the numbers of writes and syncs of
its log file. -/
structure Disk where
  lastlog : Option (List UInt8)
  logs : List (List UInt8 × Bool) := []
  results : RunResults
  writes : ℕ := 0
  synced : ℕ := 0

namespace Disk

/-- The descriptors of the files that a run opens. -/
def readFd : ℕ := 0

@[inherit_doc readFd] def updateFd : ℕ := 1

@[inherit_doc readFd] def logFd : ℕ := 2

/-- littlefs with the results of the current run; nothing else is called in a run. -/
def lfs : LittleFS Disk where
  mount _ d := (none, d)
  unmount _ d := (none, d)
  format _ d := (none, d)
  open_ _ _ _ d := (.error .inval, d)
  opencfg _ name flags d :=
    if name = lastlogFile then
      if flags.rdonly then
        (match d.results.openRead with | some e => .error e | none => .ok readFd, d)
      else
        match d.results.openUpdate with
        | some e => (.error e, { d with lastlog := d.results.updated })
        | none => (.ok updateFd, d)
    else
      match d.results.openLog with
      | some e => (.error e, { d with logs := d.logs ++ [(name, false)] })
      | none => (.ok logFd, { d with logs := d.logs ++ [(name, true)] })
  sync _ _ d := (d.results.syncs d.synced, { d with synced := d.synced + 1 })
  close _ fd d :=
    (d.results.close, if fd = updateFd then { d with lastlog := d.results.updated } else d)
  read _ _ n d := (d.results.read.map fun bytes => bytes.take n, d)
  write _ fd _ d :=
    if fd = updateFd then (d.results.write, d)
    else (d.results.logWrites d.writes, { d with writes := d.writes + 1 })
  tell _ _ d := (.error .inval, d)
  size _ _ d := (.error .inval, d)
  seek _ _ _ d := (.error .inval, d)
  stat _ _ d := (d.results.stat, d)
  dirOpen _ _ d := (.error .inval, d)
  dirClose _ _ d := (none, d)
  dirRead _ _ d := (.error .inval, d)
  dirRewind _ _ d := (none, d)

end Disk

/-- A run of the recorder: the requests that it receives with their times, the times at which its
log file is opened and closed, and the results of littlefs. -/
structure RecorderRun (F : Type) where
  requests : List (LogRequest F × UInt32) := []
  openedAt : UInt32 := 0
  closedAt : UInt32 := 0
  results : RunResults

variable {F σ : Type} (sdlog : Sdlog F σ) (area : StorageArea)

namespace Disk

/-- The disk when a run starts. -/
def begin (d : Disk) (results : RunResults) : Disk :=
  { d with results := results, writes := 0, synced := 0 }

/-- The disk after a run of the recorder. -/
def recorderStep (d : Disk) (run : RecorderRun F) : Option Disk :=
  some (runRecorder lfs area sdlog run.requests run.openedAt run.closedAt (d.begin run.results)).2

/-- No run opens a log file that an earlier run has opened, to truncate it. -/
def NeverTruncates (d : Disk) : Prop :=
  d.logs.Pairwise fun earlier later => earlier.2 = true → later.1 ≠ earlier.1

end Disk

/-! ### Results that keep the index -/

/-- The index that a content of `LASTLOG.TXT` stands for; zero if the file is missing. -/
def storedIndex (lastlog : Option (List UInt8)) : ℕ :=
  scannedIndex (readBuffer ((lastlog.getD []).take 32))

namespace RunResults

variable (r : RunResults)

/-- The bytes that a run gets from `LASTLOG.TXT`, if it reads it. -/
def readBytes : List UInt8 := (r.read.toOption.getD []).take 32

/-- The results let a run get as far as the update of `LASTLOG.TXT`. -/
def Updates : Prop := (∃ e, r.stat = .error e) ∨ r.stat = .ok .reg ∧ r.openRead = none

/-- The results of a run on a disk with the given content of `LASTLOG.TXT` keep the index: `stat`
fails only when no index is stored, the read gives the stored index, and an update stores a larger
index, or at least no smaller one if it reports an error. -/
structure KeepIndex (lastlog : Option (List UInt8)) : Prop where
  stat : ∀ e, r.stat = .error e → storedIndex lastlog = 0
  read : r.stat = .ok .reg → r.openRead = none →
    scannedIndex (readBuffer r.readBytes) = storedIndex lastlog
  success : r.Updates → r.openUpdate = none →
    r.write = .ok (Decimal.print (storedIndex lastlog + 1)).length →
    storedIndex lastlog < storedIndex r.updated
  failure : r.Updates → storedIndex lastlog ≤ storedIndex r.updated

end RunResults

/-! ### What a run does to the disk -/

namespace Disk

variable {d : Disk}

/-- Reading the index does not change the disk. Results that keep the index make the run stop, or
give the stored index. -/
theorem getLastLogIndex_eq (hkeep : d.results.KeepIndex d.lastlog) :
    (∃ e, getLastLogIndex lfs area d = (.error e, d)) ∨
      d.results.Updates ∧ getLastLogIndex lfs area d = (.ok (storedIndex d.lastlog), d) := by
  rw [getLastLogIndex]
  cases hstat : d.results.stat with
  | error e =>
    refine Or.inr ⟨Or.inl ⟨e, hstat⟩, ?_⟩
    rw [hkeep.stat e hstat]
    simp only [lfs, hstat]
  | ok type =>
    cases type with
    | dir =>
      refine Or.inl ⟨.isdir, ?_⟩
      simp only [lfs, hstat]
    | reg =>
      cases hopen : d.results.openRead with
      | some e =>
        refine Or.inl ⟨e, ?_⟩
        simp only [lfs, hstat, hopen, ↓reduceIte]
      | none =>
        refine Or.inr ⟨Or.inr ⟨hstat, hopen⟩, ?_⟩
        rw [← hkeep.read hstat hopen, RunResults.readBytes]
        have hfd : ¬readFd = updateFd := by decide
        cases hread : d.results.read with
        | error e =>
          simp only [lfs, hstat, hopen, hread, ↓reduceIte, SmartFileHandle.read,
            SmartFileHandle.destroy, Except.map, hfd]
          rfl
        | ok bytes =>
          simp only [lfs, hstat, hopen, hread, ↓reduceIte, SmartFileHandle.read,
            SmartFileHandle.destroy, Except.map, hfd]
          rfl

/-- After an attempt to update the index `LASTLOG.TXT` has the content of the results, and the
attempt is successful only if everything was written. -/
theorem updateLastLogIndex_eq (d : Disk) (index : ℕ) :
    (updateLastLogIndex lfs area index d).2 = { d with lastlog := d.results.updated } ∧
      ((updateLastLogIndex lfs area index d).1 = none →
        d.results.openUpdate = none ∧ d.results.write = .ok (Decimal.print index).length) := by
  rw [updateLastLogIndex]
  have hflags : writeFlags.rdonly = false := rfl
  cases hopen : d.results.openUpdate with
  | some e => simp [lfs, hflags, hopen]
  | none =>
    simp only [lfs, hflags, hopen, Bool.false_eq_true, ↓reduceIte, SmartFileHandle.write,
      SmartFileHandle.destroy]
    cases hwrite : d.results.write with
    | error e => simp
    | ok n =>
      refine ⟨rfl, fun h => ⟨trivial, ?_⟩⟩
      by_cases hn : n = (Decimal.print index).length
      · rw [hn]
      · simp [hn] at h

/-- Opening another file than `LASTLOG.TXT` adds it to the list of log files. -/
theorem opencfg_log {name : List UInt8} (hname : name ≠ lastlogFile) (flags : OpenFlags) :
    lfs.opencfg area name flags d =
      match d.results.openLog with
      | some e => (.error e, { d with logs := d.logs ++ [(name, false)] })
      | none => (.ok logFd, { d with logs := d.logs ++ [(name, true)] }) :=
  if_neg hname

/-- Writing to the log file changes neither the index nor the list of log files. -/
theorem streamCalls_log :
    StreamCalls lfs ⟨area, logFd⟩ fun d d' : Disk => d'.lastlog = d.lastlog ∧ d'.logs = d.logs where
  refl _ := ⟨rfl, rfl⟩
  trans h₁ h₂ := ⟨h₂.1.trans h₁.1, h₂.2.trans h₁.2⟩
  write h := by
    rw [← (Prod.mk.inj h).2]
    exact ⟨rfl, rfl⟩
  sync h := by
    rw [← (Prod.mk.inj h).2]
    exact ⟨rfl, rfl⟩

/-- **What a run does.** A run with results that keep the index opens at most one log file, the one
after the stored index, and then a larger index is stored. -/
theorem runRecorder_cases (hkeep : d.results.KeepIndex d.lastlog)
    (requests : List (LogRequest F × UInt32)) (openedAt closedAt : UInt32) :
    let t := (runRecorder lfs area sdlog requests openedAt closedAt d).2
    (t.logs = d.logs ∧ storedIndex d.lastlog ≤ storedIndex t.lastlog) ∨
      ∃ b, t.logs = d.logs ++ [(logFileName (storedIndex d.lastlog + 1), b)] ∧
        storedIndex d.lastlog < storedIndex t.lastlog := by
  intro t
  have hmod : (storedIndex d.lastlog + 1) % 2 ^ 32 = storedIndex d.lastlog + 1 := by
    have hlt : storedIndex d.lastlog < 2 ^ 31 := scannedIndex_lt _
    exact Nat.mod_eq_of_lt (by omega)
  rcases getLastLogIndex_eq area hkeep with ⟨e, hlast⟩ | ⟨hupdates, hlast⟩
  · left
    rw [show t = d from congrArg Prod.snd (runRecorder_of_error hlast)]
    exact ⟨rfl, le_rfl⟩
  obtain ⟨hworld, hsuccess⟩ := updateLastLogIndex_eq area d (storedIndex d.lastlog + 1)
  rcases hupdate : updateLastLogIndex lfs area (storedIndex d.lastlog + 1) d with ⟨_ | e, d₁⟩
  · right
    rw [hupdate] at hworld hsuccess
    obtain ⟨hopen, hwrite⟩ := hsuccess rfl
    have hlarger := hkeep.success hupdates hopen hwrite
    have hname := logFileName_ne_lastlogFile (storedIndex d.lastlog + 1)
    have ht : t = _ := congrArg Prod.snd (runRecorder_of_update hlast hmod hupdate)
    rw [opencfg_log area hname] at ht
    subst hworld
    cases hlog : d.results.openLog with
    | some e =>
      simp only [hlog] at ht
      exact ⟨false, by rw [ht], by rw [ht]; exact hlarger⟩
    | none =>
      simp only [hlog] at ht
      obtain ⟨hlastlog, hlogs⟩ := recordLog_respects sdlog (streamCalls_log area)
        (fun _ => ⟨rfl, rfl⟩) requests openedAt closedAt
        { d with
          lastlog := d.results.updated
          logs := d.logs ++ [(logFileName (storedIndex d.lastlog + 1), true)] }
      refine ⟨true, by rw [ht]; exact hlogs, ?_⟩
      rw [ht, hlastlog]
      exact hlarger
  · left
    rw [hupdate] at hworld
    rw [show t = d₁ from congrArg Prod.snd (runRecorder_of_update_error hlast hmod hupdate),
      show d₁ = _ from hworld]
    exact ⟨rfl, hkeep.failure hupdates⟩

/-! ### The invariant -/

/-- Every log file that was opened has an index up to the stored one, and no run has opened the
log file of an earlier one. -/
structure Numbered (d : Disk) : Prop where
  index : ∀ log ∈ d.logs, ∃ i ≤ storedIndex d.lastlog, log.1 = logFileName i
  never : d.NeverTruncates

/-- **The step lemma.** A run with results that keep the index opens a new log file. -/
theorem Numbered.step {d t : Disk} {run : RecorderRun F} (h : d.Numbered)
    (hkeep : run.results.KeepIndex d.lastlog)
    (hstep : d.recorderStep sdlog area run = some t) : t.Numbered := by
  obtain rfl := Option.some.inj hstep
  have hstored (x : Option (List UInt8)) : storedIndex x < 2 ^ 31 := scannedIndex_lt _
  rcases runRecorder_cases sdlog area (d := d.begin run.results) hkeep run.requests run.openedAt
    run.closedAt with ⟨hlogs, hle⟩ | ⟨b, hlogs, hlt⟩
  · refine ⟨fun log hlog => ?_, ?_⟩
    · rw [hlogs] at hlog
      obtain ⟨i, hi, hname⟩ := h.index log hlog
      exact ⟨i, hi.trans hle, hname⟩
    · rw [NeverTruncates, hlogs]
      exact h.never
  · refine ⟨fun log hlog => ?_, ?_⟩
    · rw [hlogs] at hlog
      rcases List.mem_append.mp hlog with hlog | hlog
      · obtain ⟨i, hi, hname⟩ := h.index log hlog
        exact ⟨i, hi.trans hlt.le, hname⟩
      · exact ⟨_, hlt, by rw [List.mem_singleton.mp hlog]⟩
    · rw [NeverTruncates, hlogs]
      refine List.pairwise_append.mpr ⟨h.never, List.pairwise_singleton .., ?_⟩
      intro earlier hearlier later hlater _ heq
      obtain ⟨i, hi, hname⟩ := h.index earlier hearlier
      rw [List.mem_singleton.mp hlater, hname] at heq
      -- the new index is larger than that of the earlier log file
      have hi' : i ≤ storedIndex d.lastlog := hi
      have hbound := hstored d.lastlog
      have hnew : storedIndex d.lastlog + 1 < 2 ^ 31 := lt_of_le_of_lt hlt (hstored _)
      exact absurd (logFileName_injective hnew (by omega) heq) (by omega)

/-- **An existing flight log is never truncated.** From any disk, along every sequence of runs whose
results keep the index, no run opens a log file that an earlier one has opened. -/
theorem never_truncates {d t : Disk} {runs : List (RecorderRun F)} (hlogs : d.logs = [])
    (hok : StepSystem.Meets (recorderStep sdlog area)
      (fun d run => run.results.KeepIndex d.lastlog) d runs)
    (ht : StepSystem.Visits (recorderStep sdlog area) d runs t) : t.NeverTruncates := by
  have hstart : d.Numbered :=
    ⟨fun log hlog => by simp [hlogs] at hlog, by simp [NeverTruncates, hlogs]⟩
  exact (StepSystem.invariant_visits
    (fun _ _ _ h hmeets hstep => h.step sdlog area hmeets hstep) hstart hok ht).never

end Disk

/-! ### Two runs -/

/-- A log format library that writes nothing. -/
def Sdlog.silent : Sdlog Unit Unit where
  writerInit := .done ()
  writerDestroy _ := .done ()
  writerFlush _ := .done (true, ())
  writerWriteEncoded _ _ _ _ := .done (true, ())

/-- The results of a run on which everything succeeds and which stores an index of one digit; the
content of `LASTLOG.TXT` is given, and `stat` fails if it is missing. -/
def RunResults.allSucceed (lastlog : Option (List UInt8)) (digit : UInt8) : RunResults where
  stat := if lastlog.isSome then .ok .reg else .error .noent
  openRead := none
  read := .ok (lastlog.getD [])
  openUpdate := none
  write := .ok 1
  updated := some [digit]
  openLog := none
  logWrites _ := .ok 0
  syncs _ := none
  close := none

/-- A disk without `LASTLOG.TXT` and log files. -/
def Disk.fresh : Disk := { lastlog := none, results := .allSucceed none 0x31 }

/-- Two runs on a fresh disk. -/
theorem Disk.never_truncates_fresh :
    let runs : List (RecorderRun Unit) :=
      [{ results := .allSucceed none 0x31 }, { results := .allSucceed (some [0x31]) 0x32 }]
    ∀ t, StepSystem.Visits (Disk.recorderStep Sdlog.silent .sdCard) .fresh runs t →
      t.NeverTruncates := by
  intro runs t
  have hfirst : (RunResults.allSucceed none 0x31).KeepIndex none :=
    ⟨fun _ _ => rfl, fun h _ => (by cases h), fun _ _ _ => by decide, fun _ => by decide⟩
  have hsecond : (RunResults.allSucceed (some [0x31]) 0x32).KeepIndex (some [0x31]) :=
    ⟨fun _ h => (by cases h), fun _ _ => rfl, fun _ _ _ => by decide, fun _ => by decide⟩
  refine Disk.never_truncates Sdlog.silent .sdCard rfl ⟨hfirst, fun u hu => ?_⟩
  cases hu
  exact ⟨hsecond, fun _ _ => trivial⟩

/-- **A failed `stat` loses the index.** The first run opens `00000001.BIN`. The `stat` of the
second run fails with an I/O error, and it opens `00000001.BIN` again. -/
theorem Disk.not_never_truncates :
    let runs : List (RecorderRun Unit) :=
      [{ results := .allSucceed none 0x31 },
        { results := { RunResults.allSucceed (some [0x31]) 0x31 with stat := .error .io } }]
    ∃ t, StepSystem.Visits (Disk.recorderStep Sdlog.silent .sdCard) .fresh runs t ∧
      t.logs = [(logFileName 1, true), (logFileName 1, true)] ∧ ¬ t.NeverTruncates := by
  refine ⟨_, StepSystem.visits_of_run rfl, rfl, fun h => ?_⟩
  exact (List.pairwise_cons.mp h).1 _ List.mem_cons_self rfl rfl

end TellerOBC
