import Mathlib.Data.List.TakeWhile
import TellerOBC.Foundations.Decimal
import TellerOBC.Foundations.Program
import TellerOBC.Core.SmartHandles

/-!
# The experiment data recorder

`ExperimentDataRecorder::_run` of `modules/edr.cpp` with the functions that it calls. A run reads
the index of the last log file from `LASTLOG.TXT`, writes the next one there, opens the log file
with that index and writes the requests that it receives into it.

The types `long int` and `size_t` have 32 bits as on the flight computer. The log format library is
not part of the repository; it is a parameter `Sdlog`, which sees the log file only through the
functions of its output stream. The callbacks for an opened log post requests, which are part
of the list of received requests; buffers and log messages are left out.

## Main definitions

* `TellerOBC.scanLong`: `sscanf` with `%ld`.
* `TellerOBC.Sdlog`, `TellerOBC.LogWriter`: the log format library and the writer of a log file.
* `TellerOBC.getLastLogIndex`, `TellerOBC.updateLastLogIndex`, `TellerOBC.runRecorder`.

## Main results

* `TellerOBC.scanLong_print`: an index that was printed is scanned again.
* `TellerOBC.logFileName_injective`: different indices below `2 ^ 31` have different log files.
-/

namespace TellerOBC

/-! ### The C library -/

/-- `isspace` in the C locale. -/
def isSpace (b : UInt8) : Bool := b = 0x20 || (0x09 ≤ b && b ≤ 0x0D)

/-- The nearest value of a `long int`, which the conversion returns on overflow. -/
def clampLong (i : ℤ) : ℤ := max (-2 ^ 31) (min (2 ^ 31 - 1) i)

/-- `sscanf` with `%ld` on a buffer: white space, an optional sign, digits. -/
def scanLong (buf : List UInt8) : Option ℤ :=
  let scanDigits (sign : ℤ) (s : List UInt8) : Option ℤ :=
    match s.takeWhile Decimal.isDigit with
    | [] => none
    | digits => some (clampLong (sign * Decimal.value digits))
  match buf.dropWhile isSpace with
  | 0x2D :: s => scanDigits (-1) s
  | 0x2B :: s => scanDigits 1 s
  | s => scanDigits 1 s

/-- `snprintf` with `%08ld`. -/
def printLong8 (i : ℤ) : List UInt8 :=
  if i < 0 then 0x2D :: Decimal.printPadded 7 i.natAbs else Decimal.printPadded 8 i.natAbs

/-- The index in the buffer that was read from `LASTLOG.TXT`, zero if there is none. -/
def scannedIndex (buf : List UInt8) : ℕ := ((scanLong buf).getD 0).toNat

theorem not_isSpace_of_isDigit {b : UInt8} (h : Decimal.isDigit b = true) :
    isSpace b = false ∧ b ≠ 0x2D ∧ b ≠ 0x2B := by
  simp only [Decimal.isDigit, Bool.and_eq_true, decide_eq_true_eq, UInt8.le_iff_toNat_le] at h
  have hlow : 48 ≤ b.toNat := h.1
  refine ⟨?_, ?_, ?_⟩
  · simp only [isSpace, Bool.or_eq_false_iff, Bool.and_eq_false_iff, decide_eq_false_iff_not,
      UInt8.le_iff_toNat_le]
    refine ⟨?_, Or.inr fun hle => absurd (Nat.le_trans hlow hle) (by decide : ¬48 ≤ 13)⟩
    rintro rfl
    exact absurd hlow (by decide)
  · rintro rfl
    exact absurd hlow (by decide)
  · rintro rfl
    exact absurd hlow (by decide)

/-- A printed number that fits into a `long int` is scanned. -/
theorem scanLong_print {n : ℕ} (h : n < 2 ^ 31) {rest : List UInt8}
    (hrest : rest.takeWhile Decimal.isDigit = []) :
    scanLong (Decimal.print n ++ rest) = some (n : ℤ) := by
  have hvalue := Decimal.value_print n
  have hclamp : clampLong (1 * n) = n := by
    rw [Int.one_mul, clampLong]
    omega
  have hmem : ∀ b ∈ Decimal.print n, Decimal.isDigit b = true := fun _ =>
    Decimal.isDigit_of_mem_print
  rcases hprint : Decimal.print n with _ | ⟨d, ds⟩
  · exact absurd hprint (Decimal.print_ne_nil n)
  rw [hprint] at hvalue hmem
  -- a digit is neither white space nor a sign
  obtain ⟨hspace, hminus, hplus⟩ := not_isSpace_of_isDigit (hmem d List.mem_cons_self)
  have hscan : (d :: (ds ++ rest)).takeWhile Decimal.isDigit = d :: ds := by
    rw [← List.cons_append, List.takeWhile_append_of_pos hmem, hrest, List.append_nil]
  rw [scanLong, List.cons_append, List.dropWhile_cons_of_neg (by simp [hspace])]
  split
  · next heq => exact absurd (List.cons.inj heq).1 hminus
  · next heq => exact absurd (List.cons.inj heq).1 hplus
  · simp only [hscan, hvalue, hclamp]

/-- Scanned indices fit into a `long int`. -/
theorem scannedIndex_lt (buf : List UInt8) : scannedIndex buf < 2 ^ 31 := by
  have hclamp (i : ℤ) : (clampLong i).toNat < 2 ^ 31 := by
    rw [clampLong]
    omega
  have hdigits (sign : ℤ) (s : List UInt8) : ((match s.takeWhile Decimal.isDigit with
      | [] => none
      | digits => some (clampLong (sign * Decimal.value digits))).getD 0).toNat < 2 ^ 31 := by
    split
    · decide
    · exact hclamp _
  rw [scannedIndex, scanLong]
  dsimp only
  split
  · exact hdigits ..
  · exact hdigits ..
  · exact hdigits ..

/-! ### The log writer -/

/-- The calls of the log format library on an output stream. -/
inductive StreamCall where
  | write (bytes : List UInt8)
  | flush

/-- The answers of an output stream: the number of bytes written, if there was no error, and
whether the flush was successful. -/
def StreamAnswer : StreamCall → Type
  | .write _ => Option ℕ
  | .flush => Bool

/-- The functions of the log format library for messages with formats in `F`, with the state of
a writer in `σ`. The functions that can fail return whether they succeeded. -/
structure Sdlog (F σ : Type) where
  writerInit : Program StreamAnswer σ
  writerDestroy : σ → Program StreamAnswer Unit
  writerFlush : σ → Program StreamAnswer (Bool × σ)
  writerWriteEncoded : F → List UInt8 → ℕ → σ → Program StreamAnswer (Bool × σ)

/-- A single log message to be written into the experiment log. -/
structure LogRequest (F : Type) where
  format : Option F
  message : List UInt8
  length : ℕ

/-- `SYNC_INTERVAL_MS`. -/
def syncIntervalMs : UInt32 := 30000

variable {W F σ α : Type} (lfs : LittleFS W)

/-- The output stream of a log writer at a given time, `_write_raw` and `_flush_raw`. The state
is the time of the last sync and the world. -/
def logStream (file : SmartFileHandle) (now : UInt32) :
    Program.Environment StreamAnswer (UInt32 × W)
  | .write bytes, (lastSyncAt, w) =>
    match file.write lfs w bytes with
    | (.error _, w) => (none, lastSyncAt, w)
    | (.ok n, w) => (some n, lastSyncAt, w)
  | .flush, (lastSyncAt, w) =>
    if lastSyncAt + syncIntervalMs < now then
      match file.sync lfs w with
      | (some _, w) => (false, now, w)
      | (none, w) => (true, now, w)
    else (true, lastSyncAt, w)

/-- The writer of a log file. -/
structure LogWriter (σ : Type) where
  handle : SmartFileHandle
  writer : σ
  lastSyncAt : UInt32 := 0

namespace LogWriter

variable (sdlog : Sdlog F σ)

/-- The constructor. -/
def make (handle : SmartFileHandle) (now : UInt32) (w : W) : LogWriter σ × W :=
  let r := sdlog.writerInit.exec (logStream lfs handle now) (0, w)
  ({ handle := handle, writer := r.1, lastSyncAt := r.2.1 }, r.2.2)

/-- The destructor, which does not close the file. -/
def destroy (writer : LogWriter σ) (now : UInt32) (w : W) : W :=
  ((sdlog.writerDestroy writer.writer).exec (logStream lfs writer.handle now)
    (writer.lastSyncAt, w)).2.2

/-- Write a request to the log and flush the stream. -/
def write (writer : LogWriter σ) (format : F) (request : LogRequest F) (now : UInt32) (w : W) :
    Option LfsError × LogWriter σ × W :=
  let r := (sdlog.writerWriteEncoded format request.message request.length writer.writer).exec
    (logStream lfs writer.handle now) (writer.lastSyncAt, w)
  let writer := { writer with writer := r.1.2, lastSyncAt := r.2.1 }
  if !r.1.1 then (some .io, writer, r.2.2)
  else
    let r := (sdlog.writerFlush writer.writer).exec (logStream lfs writer.handle now)
      (writer.lastSyncAt, r.2.2)
    let writer := { writer with writer := r.1.2, lastSyncAt := r.2.1 }
    (if r.1.1 then none else some .io, writer, r.2.2)

end LogWriter

/-! ### The recorder -/

/-- `LASTLOG_FILE`. -/
def lastlogFile : List UInt8 :=
  Decimal.ascii ['L', 'A', 'S', 'T', 'L', 'O', 'G', '.', 'T', 'X', 'T']

/-- The flags of the files that a run writes. -/
def writeFlags : OpenFlags := { wronly := true, creat := true, trunc := true }

variable (area : StorageArea)

/-- The buffer of `_getLastLogIndex` after a read. -/
def readBuffer (bytes : List UInt8) : List UInt8 := overwrite (List.replicate 32 0) bytes

/-- `_getLastLogIndex`. A failed `stat` counts as a missing file, and the result of the read is
ignored; the buffer holds zeros where nothing was read. -/
def getLastLogIndex (w : W) : Except LfsError ℕ × W :=
  match lfs.stat area lastlogFile w with
  | (.error _, w) => (.ok 0, w)
  | (.ok .dir, w) => (.error .isdir, w)
  | (.ok .reg, w) =>
    match lfs.opencfg area lastlogFile { rdonly := true } w with
    | (.error e, w) => (.error e, w)
    | (.ok fd, w) =>
      let file : SmartFileHandle := { fs := area, fd := fd }
      match file.read lfs w 32 with
      | (.error _, w) => (.ok (scannedIndex (readBuffer [])), file.destroy lfs w)
      | (.ok bytes, w) => (.ok (scannedIndex (readBuffer bytes)), file.destroy lfs w)

/-- `_updateLastLogIndex`. The numeral fits into the buffer of the source, so that nothing is cut
off; the result of closing the file is ignored. -/
def updateLastLogIndex (index : ℕ) (w : W) : Option LfsError × W :=
  match lfs.opencfg area lastlogFile writeFlags w with
  | (.error e, w) => (some e, w)
  | (.ok fd, w) =>
    let file : SmartFileHandle := { fs := area, fd := fd }
    let buf := Decimal.print index
    match file.write lfs w buf with
    | (.error e, w) => (some e, file.destroy lfs w)
    | (.ok n, w) => (if n ≠ buf.length then some .io else none, file.destroy lfs w)

/-- The name of a log file, with its index converted to `long int`. -/
def logFileName (index : ℕ) : List UInt8 :=
  printLong8 (SmartFileHandle.toIntOffset index) ++ Decimal.ascii ['.', 'B', 'I', 'N']

variable (sdlog : Sdlog F σ)

/-- The main loop of a run on the requests that the queue delivers before it is closed, each with
the time at which it is handled. -/
def processRequests : List (LogRequest F × UInt32) → Option LfsError → LogWriter σ × W →
    Option LfsError × LogWriter σ × W
  | [], maybeError, s => (maybeError, s)
  | (request, now) :: requests, maybeError, (writer, w) =>
    if maybeError.isSome then (maybeError, writer, w)
    else match request.format with
      -- the end of the queue, or a simulated error
      | none => (if request.message.headD 0 = 42 then some .io else none, writer, w)
      | some format =>
        let r := writer.write lfs sdlog format request now w
        processRequests requests r.1 r.2

/-- The part of `_run` after the log file was opened. -/
def recordLog (file : SmartFileHandle) (requests : List (LogRequest F × UInt32))
    (openedAt closedAt : UInt32) (w : W) : Option LfsError × W :=
  let writer := LogWriter.make lfs sdlog file openedAt w
  let r := processRequests lfs sdlog requests none writer
  (r.1, file.destroy lfs (r.2.1.destroy lfs sdlog closedAt r.2.2))

/-- `_run`. -/
def runRecorder (requests : List (LogRequest F × UInt32)) (openedAt closedAt : UInt32)
    (w : W) : Option LfsError × W :=
  match getLastLogIndex lfs area w with
  | (.error e, w) => (some e, w)
  | (.ok last, w) =>
    let logIndex := (last + 1) % 2 ^ 32
    match updateLastLogIndex lfs area logIndex w with
    | (some e, w) => (some e, w)
    | (none, w) =>
      match lfs.opencfg area (logFileName logIndex) writeFlags w with
      | (.error e, w) => (some e, w)
      | (.ok fd, w) =>
        recordLog lfs sdlog { fs := area, fd := fd } requests openedAt closedAt w

section Run

variable {lfs area sdlog} {requests : List (LogRequest F × UInt32)} {openedAt closedAt : UInt32}
  {w w₁ w₂ : W}

/-- A run without an index stops. -/
theorem runRecorder_of_error {e : LfsError} (hlast : getLastLogIndex lfs area w = (.error e, w₁)) :
    runRecorder lfs area sdlog requests openedAt closedAt w = (some e, w₁) := by
  simp only [runRecorder, hlast]

/-- A run stops when it cannot update the index. -/
theorem runRecorder_of_update_error {last logIndex : ℕ} {e : LfsError}
    (hlast : getLastLogIndex lfs area w = (.ok last, w₁))
    (hindex : (last + 1) % 2 ^ 32 = logIndex)
    (hupdate : updateLastLogIndex lfs area logIndex w₁ = (some e, w₂)) :
    runRecorder lfs area sdlog requests openedAt closedAt w = (some e, w₂) := by
  subst hindex
  simp only [runRecorder, hlast, hupdate]

/-- A run that updated the index opens its log file. -/
theorem runRecorder_of_update {last logIndex : ℕ}
    (hlast : getLastLogIndex lfs area w = (.ok last, w₁))
    (hindex : (last + 1) % 2 ^ 32 = logIndex)
    (hupdate : updateLastLogIndex lfs area logIndex w₁ = (none, w₂)) :
    runRecorder lfs area sdlog requests openedAt closedAt w =
      match lfs.opencfg area (logFileName logIndex) writeFlags w₂ with
      | (.error e, w) => (some e, w)
      | (.ok fd, w) =>
        recordLog lfs sdlog { fs := area, fd := fd } requests openedAt closedAt w := by
  subst hindex
  simp only [runRecorder, hlast, hupdate]

end Run

/-! ### Indices and names of log files -/

/-- An index that was printed to the file is scanned again. -/
theorem scannedIndex_readBuffer_print {n : ℕ} (h : n < 2 ^ 31) :
    scannedIndex (readBuffer (Decimal.print n)) = n := by
  have hzeros : ((List.replicate 32 (0 : UInt8)).drop (Decimal.print n).length).takeWhile
      Decimal.isDigit = [] := by
    rw [List.drop_replicate]
    cases 32 - (Decimal.print n).length <;> rfl
  rw [scannedIndex, readBuffer, overwrite, scanLong_print h hzeros]
  rfl

theorem logFileName_of_lt {index : ℕ} (h : index < 2 ^ 31) :
    logFileName index = Decimal.printPadded 8 index ++ Decimal.ascii ['.', 'B', 'I', 'N'] := by
  rw [logFileName, SmartFileHandle.toIntOffset_of_lt h, printLong8, if_neg (by omega),
    Int.natAbs_natCast]

/-- Different indices that fit into a `long int` have different log files. -/
theorem logFileName_injective {i j : ℕ} (hi : i < 2 ^ 31) (hj : j < 2 ^ 31)
    (h : logFileName i = logFileName j) : i = j := by
  rw [logFileName_of_lt hi, logFileName_of_lt hj] at h
  exact Decimal.printPadded_injective 8 (List.append_cancel_right h)

/-- No log file is `LASTLOG.TXT`. -/
theorem logFileName_ne_lastlogFile (index : ℕ) : logFileName index ≠ lastlogFile := by
  intro h
  have hlast : (logFileName index).getLast? = some 0x4E := by
    rw [logFileName, List.getLast?_append]
    rfl
  rw [h] at hlast
  exact absurd hlast (by decide)

/-! ### What writing a log does to the world -/

/-- Writing and syncing an open file respects a relation between worlds. -/
structure StreamCalls (lfs : LittleFS W) (file : SmartFileHandle) (R : W → W → Prop) : Prop where
  refl : ∀ w, R w w
  trans : ∀ {u v w}, R u v → R v w → R u w
  write : ∀ {bytes w r w'}, file.write lfs w bytes = (r, w') → R w w'
  sync : ∀ {w r w'}, file.sync lfs w = (r, w') → R w w'

section StreamCalls

variable {lfs} {file : SmartFileHandle} {R : W → W → Prop} (h : StreamCalls lfs file R)
  (now : UInt32)

include h

theorem exec_logStream_respects (p : Program StreamAnswer α) (t : UInt32) (w : W) :
    R w (p.exec (logStream lfs file now) (t, w)).2.2 := by
  refine Program.exec_respects (logStream lfs file now)
    (R := fun s s' : UInt32 × W => R s.2 s'.2) (fun s => h.refl s.2) h.trans ?_ p (t, w)
  rintro (bytes | _) ⟨t, w⟩
  · rw [logStream]
    dsimp only
    split
    · next heq => exact h.write heq
    · next heq => exact h.write heq
  · rw [logStream]
    dsimp only
    split
    · split
      · next heq => exact h.sync heq
      · next heq => exact h.sync heq
    · exact h.refl w

theorem LogWriter.make_respects (w : W) :
    (LogWriter.make lfs sdlog file now w).1.handle = file ∧
      R w (LogWriter.make lfs sdlog file now w).2 :=
  ⟨rfl, exec_logStream_respects h now sdlog.writerInit 0 w⟩

theorem LogWriter.destroy_respects {writer : LogWriter σ} (hfile : writer.handle = file) (w : W) :
    R w (writer.destroy lfs sdlog now w) := by
  subst hfile
  exact exec_logStream_respects h now (sdlog.writerDestroy writer.writer) writer.lastSyncAt w

theorem LogWriter.write_respects {writer : LogWriter σ} (hfile : writer.handle = file) (format : F)
    (request : LogRequest F) (w : W) :
    (writer.write lfs sdlog format request now w).2.1.handle = file ∧
      R w (writer.write lfs sdlog format request now w).2.2 := by
  subst hfile
  have hwrite := exec_logStream_respects h now
    (sdlog.writerWriteEncoded format request.message request.length writer.writer)
    writer.lastSyncAt w
  rw [LogWriter.write]
  dsimp only
  split
  · exact ⟨rfl, hwrite⟩
  · exact ⟨rfl, h.trans hwrite (exec_logStream_respects h now _ _ _)⟩

omit now in
/-- The main loop of a run respects what writes and syncs of the log file respect. -/
theorem processRequests_respects (requests : List (LogRequest F × UInt32))
    (maybeError : Option LfsError) {writer : LogWriter σ} (hfile : writer.handle = file) (w : W) :
    (processRequests lfs sdlog requests maybeError (writer, w)).2.1.handle = file ∧
      R w (processRequests lfs sdlog requests maybeError (writer, w)).2.2 := by
  induction requests generalizing maybeError writer w with
  | nil => exact ⟨hfile, h.refl w⟩
  | cons r requests ih =>
    obtain ⟨request, now⟩ := r
    rw [processRequests]
    split
    · exact ⟨hfile, h.refl w⟩
    split
    · exact ⟨hfile, h.refl w⟩
    · next format _ =>
      obtain ⟨hhandle, hR⟩ := LogWriter.write_respects sdlog h now hfile format request w
      exact And.imp_right (h.trans hR) (ih _ hhandle _)

omit now in
/-- Recording a log respects what writes, syncs and closing of the log file respect. -/
theorem recordLog_respects (hclose : ∀ w, R w (file.destroy lfs w))
    (requests : List (LogRequest F × UInt32)) (openedAt closedAt : UInt32) (w : W) :
    R w (recordLog lfs sdlog file requests openedAt closedAt w).2 := by
  obtain ⟨hhandle, hmake⟩ := LogWriter.make_respects sdlog h openedAt w
  obtain ⟨hhandle', hrequests⟩ := processRequests_respects sdlog h requests none hhandle
    (LogWriter.make lfs sdlog file openedAt w).2
  have hdestroy := LogWriter.destroy_respects sdlog h closedAt hhandle'
    (processRequests lfs sdlog requests none (LogWriter.make lfs sdlog file openedAt w)).2.2
  exact h.trans (h.trans hmake hrequests) (h.trans hdestroy (hclose _))

end StreamCalls

end TellerOBC
