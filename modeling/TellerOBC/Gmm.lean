import TellerOBC.Core.Nmea.Sentences
import TellerOBC.Core.Telem.FixedLengthFrames
import TellerOBC.Foundations.History

/-!
# Measurements of the Geiger-Müller module

`modules/gmm.cpp` and its task: a character of the UART is fed to the NMEA parser, and a sentence
with a good checksum and hit counts becomes a measurement, which is logged and sent to the ground
with the time of its dollar sign. The task sets up the module again whenever an update tells that
nothing was received for three seconds, or nothing at all; the parser goes on with its sentence
then.

`minmea_check` and `minmea_scan` belong to a library. A counter of a sentence is an `int` and is
cut off to a byte.

## Main definitions

* `TellerOBC.Gmm.update`, `TellerOBC.GmmTask.iterate`.
* `TellerOBC.Gmm.Measures`: the measurement of a sentence that ends now.
* `TellerOBC.GmmTask.Heard`: an update with a measurement that is still recent.

## Main results

* `TellerOBC.GmmTask.Sound.iterate`: the invariant of the task.
* `TellerOBC.GmmTask.measurements_run`: what is logged and sent, and when the module is healthy.
-/

namespace TellerOBC

open Nmea

/-- The state of the module. -/
structure Gmm where
  parser : Nmea.Parser
  measurement : GMMData
  lastMessageStartedAt : UInt32
  lastMessageReceivedAt : UInt32
  status : SubsystemStatus

/-- What an update reads: the character, unless `uart::read` fails, and the times of the system
clock at the three places that look at it. -/
structure GmmInput where
  ch : Option UInt8
  /-- The time when a dollar sign was read. -/
  startedAt : UInt32
  /-- The time when a sentence was read. -/
  receivedAt : UInt32
  /-- The time in `updateStatus`. -/
  now : UInt32
  /-- The result of `uart::isConnected` if the module is set up before the update. -/
  connected : Bool

/-- What an update gives: the measurement in the log, the payload of the telemetry message, and its
results. -/
structure GmmOutput where
  logged : Option GMMData
  payload : Option (List UInt8)
  updated : Bool
  healthy : Bool
  deriving DecidableEq, Repr

namespace Gmm

variable (minmeaCheck : List UInt8 → Bool → Bool)
  (minmeaScan : List UInt8 → Option (Vector Int32 10))

/-- `init` of the module. -/
def init : Gmm where
  parser := Nmea.Parser.fresh
  measurement := ⟨0, Vector.replicate 10 0⟩
  lastMessageStartedAt := 0
  lastMessageReceivedAt := 0
  status := .critical

/-- `setup` of the module. -/
def setup (s : Gmm) (connected : Bool) : Gmm :=
  { s with
    lastMessageReceivedAt := 0
    status := if connected then .ok else .critical }

/-- `parseReceivedMessage`: a failed scan leaves the measurement as it is. -/
def parseReceivedMessage (s : Gmm) (message : List UInt8) : Bool × Gmm :=
  match minmeaScan message with
  | none => (false, s)
  | some counts =>
    (true,
      { s with
        measurement :=
          { timestampInMsec := s.lastMessageStartedAt
            hitCounts := counts.map fun count => count.toUInt32.toUInt8 } })

/-- `updateStatus`. -/
def updateStatus (s : Gmm) (now : UInt32) : Bool × Gmm :=
  let status : SubsystemStatus :=
    if s.lastMessageReceivedAt = 0 then .error
    else if now - s.lastMessageReceivedAt < 100 then .ok
    else if now - s.lastMessageReceivedAt < 3000 then .warning
    else .error
  (status ≠ .error, { s with status := status })

/-- The first part of `update` for a character that was read: it is fed to the parser. -/
def feed (s : Gmm) (input : GmmInput) (ch : UInt8) : Bool × Gmm :=
  let r := s.parser.feed minmeaCheck ch
  (r.1,
    { s with
      parser := r.2
      lastMessageStartedAt :=
        if ch = syncByteStart then input.startedAt else s.lastMessageStartedAt })

/-- The part of `update` for a character that was read: whether it ended a measurement. -/
def receive (s : Gmm) (input : GmmInput) (ch : UInt8) : Bool × Gmm :=
  let fed := s.feed minmeaCheck input ch
  -- the message is scanned only if its checksum is good
  if fed.1 then
    let r := fed.2.parseReceivedMessage minmeaScan fed.2.parser.getMessage
    if r.1 then (true, { r.2 with lastMessageReceivedAt := input.receivedAt }) else (false, r.2)
  else (false, fed.2)

/-- `update`. -/
def update (s : Gmm) (input : GmmInput) : GmmOutput × Gmm :=
  let r :=
    match input.ch with
    | some ch => s.receive minmeaCheck minmeaScan input ch
    | none => (false, s)
  let status := r.2.updateStatus input.now
  let logged := if r.1 then some r.2.measurement else none
  ({ logged := logged
     payload := logged.map encodeGMMFrame
     updated := r.1
     healthy := status.1 }, status.2)

/-! ### One update -/

/-- The characters that were read, in order. -/
def chars (inputs : List GmmInput) : List UInt8 :=
  inputs.filterMap GmmInput.ch

variable {minmeaCheck minmeaScan} {s : Gmm} {input : GmmInput} {ch : UInt8}

theorem chars_concat (inputs : List GmmInput) (input : GmmInput) :
    chars (inputs ++ [input]) = chars inputs ++ input.ch.toList := by
  rw [chars, List.filterMap_append, List.filterMap_cons]
  cases input.ch <;> rfl

/-- The character ends a message with a good checksum and these counts. -/
def Ends (minmeaCheck : List UInt8 → Bool → Bool)
    (minmeaScan : List UInt8 → Option (Vector Int32 10)) (s : Gmm) (ch : UInt8)
    (counts : Vector Int32 10) : Prop :=
  (s.parser.feed minmeaCheck ch).1 = true ∧
    minmeaScan (s.parser.feed minmeaCheck ch).2.getMessage = some counts

/-- A character that ends no message with counts. -/
theorem receive_of_not_ends (h : ∀ counts, ¬Ends minmeaCheck minmeaScan s ch counts) :
    s.receive minmeaCheck minmeaScan input ch = (false, (s.feed minmeaCheck input ch).2) := by
  cases hfeed : (s.parser.feed minmeaCheck ch).1 with
  | false => exact if_neg (by simp [feed, hfeed])
  | true =>
    have hscan : minmeaScan (s.feed minmeaCheck input ch).2.parser.getMessage = none :=
      Option.eq_none_iff_forall_ne_some.mpr fun counts hscan => h counts ⟨hfeed, hscan⟩
    rw [receive, if_pos (show (s.feed minmeaCheck input ch).1 = true from hfeed)]
    simp only [parseReceivedMessage, hscan]
    rfl

/-- A character that ends a message with counts. -/
theorem Ends.receive {counts : Vector Int32 10} (h : Ends minmeaCheck minmeaScan s ch counts) :
    s.receive minmeaCheck minmeaScan input ch =
      (true,
        { (s.feed minmeaCheck input ch).2 with
          measurement :=
            ⟨(s.feed minmeaCheck input ch).2.lastMessageStartedAt,
              counts.map fun count => count.toUInt32.toUInt8⟩
          lastMessageReceivedAt := input.receivedAt }) := by
  have hscan : minmeaScan (s.feed minmeaCheck input ch).2.parser.getMessage = some counts := h.2
  rw [Gmm.receive, if_pos (show (s.feed minmeaCheck input ch).1 = true from h.1)]
  simp only [parseReceivedMessage, hscan]
  rfl

/-- Every character is fed, whether it ends a message or not. -/
theorem receive_eq_feed (s : Gmm) (input : GmmInput) (ch : UInt8) :
    (s.receive minmeaCheck minmeaScan input ch).2.parser = (s.feed minmeaCheck input ch).2.parser ∧
      (s.receive minmeaCheck minmeaScan input ch).2.lastMessageStartedAt =
        (s.feed minmeaCheck input ch).2.lastMessageStartedAt := by
  by_cases hends : ∃ counts, Ends minmeaCheck minmeaScan s ch counts
  · obtain ⟨counts, hends⟩ := hends
    rw [hends.receive]
    exact ⟨rfl, rfl⟩
  · rw [receive_of_not_ends (not_exists.mp hends)]
    exact ⟨rfl, rfl⟩

/-- The parser is fed the character that was read, if any. -/
theorem tracks_update {stream : List UInt8} (h : s.parser.Tracks stream) (input : GmmInput) :
    (s.update minmeaCheck minmeaScan input).2.parser.Tracks (stream ++ input.ch.toList) := by
  cases hch : input.ch with
  | none =>
    simp only [update, hch, Option.toList_none, List.append_nil]
    exact h
  | some ch =>
    have hparser : (s.update minmeaCheck minmeaScan input).2.parser =
        (s.parser.feed minmeaCheck ch).2 := by
      simp only [update, hch]
      exact (s.receive_eq_feed input ch).1
    rw [hparser]
    exact h.feed minmeaCheck ch

/-- The time of the last dollar sign. -/
theorem update_startedAt (minmeaCheck : List UInt8 → Bool → Bool)
    (minmeaScan : List UInt8 → Option (Vector Int32 10)) (s : Gmm) (input : GmmInput) :
    (s.update minmeaCheck minmeaScan input).2.lastMessageStartedAt =
      if input.ch = some syncByteStart then input.startedAt else s.lastMessageStartedAt := by
  cases hch : input.ch with
  | none =>
    simp only [update, hch, reduceCtorEq, if_false]
    rfl
  | some ch =>
    simp only [update, hch, Option.some.injEq]
    exact (s.receive_eq_feed input ch).2

/-- **One update**: a measurement with the time of the last dollar sign, or none. -/
theorem update_cases (minmeaCheck : List UInt8 → Bool → Bool)
    (minmeaScan : List UInt8 → Option (Vector Int32 10)) (s : Gmm) (input : GmmInput) :
    let r := s.update minmeaCheck minmeaScan input
    (∃ ch counts, input.ch = some ch ∧ Ends minmeaCheck minmeaScan s ch counts ∧
      r.1.logged = some ⟨r.2.lastMessageStartedAt, counts.map fun c => c.toUInt32.toUInt8⟩ ∧
      r.1.updated = true ∧ r.2.lastMessageReceivedAt = input.receivedAt) ∨
    (∀ ch counts, input.ch = some ch → ¬Ends minmeaCheck minmeaScan s ch counts) ∧
      r.1.logged = none ∧ r.1.updated = false ∧
      r.2.lastMessageReceivedAt = s.lastMessageReceivedAt := by
  cases hch : input.ch with
  | none =>
    refine Or.inr ⟨fun ch counts hsome => (by cases hsome), ?_⟩
    simp [update, updateStatus, hch]
  | some ch =>
    by_cases hends : ∃ counts, Ends minmeaCheck minmeaScan s ch counts
    · obtain ⟨counts, hends⟩ := hends
      refine Or.inl ⟨ch, counts, rfl, hends, ?_⟩
      simp [update, updateStatus, hch, hends.receive]
    · refine Or.inr ⟨fun other counts hother => ?_, ?_⟩
      · rw [← Option.some.inj hother]
        exact not_exists.mp hends counts
      · simp [update, updateStatus, hch, receive_of_not_ends (not_exists.mp hends), feed]

/-- An update is healthy up to three seconds after a measurement. -/
theorem healthy_iff (s : Gmm) (input : GmmInput) :
    let r := s.update minmeaCheck minmeaScan input
    r.1.healthy = true ↔ r.2.lastMessageReceivedAt ≠ 0 ∧
      input.now - r.2.lastMessageReceivedAt < 3000 := by
  have hlt {t : UInt32} (h : t < 100) : t < 3000 := by
    rw [UInt32.lt_iff_toNat_lt] at h ⊢
    exact Nat.lt_trans h (by decide)
  simp only [update, updateStatus, decide_eq_true_eq]
  split_ifs <;> simp_all

/-! ### The measurement of a sentence -/

/-- The measurement of the sentence that the input ends: its inputs are the last ones of the past,
from the dollar sign on, and the measurement has the time of the dollar sign. -/
def Measures (minmeaCheck : List UInt8 → Bool → Bool)
    (minmeaScan : List UInt8 → Option (Vector Int32 10)) (past : List GmmInput) (input : GmmInput)
    (m : GMMData) : Prop :=
  ∃ before first sentence newline counts,
    past = before ++ first :: sentence ∧ first.ch = some syncByteStart ∧
    Storable (chars sentence) ∧ syncByteEnd ∈ chars sentence ∧
    (chars sentence).length < Nmea.maxMessageLength ∧
    input.ch = some newline ∧ isNewline newline = true ∧
    minmeaCheck (syncByteStart :: chars sentence) true = true ∧
    minmeaScan (syncByteStart :: chars sentence) = some counts ∧
    m = ⟨first.startedAt, counts.map fun count => count.toUInt32.toUInt8⟩

/-- The inputs of a sentence at the end of the characters. -/
theorem exists_of_suffix {past : List GmmInput} {body : List UInt8}
    (h : syncByteStart :: body <:+ chars past) :
    ∃ before first sentence, past = before ++ first :: sentence ∧
      first.ch = some syncByteStart ∧ chars sentence = body := by
  obtain ⟨pre, heq⟩ := h
  obtain ⟨left, right, rfl, -, hright⟩ := List.filterMap_eq_append_iff.mp heq.symm
  obtain ⟨skipped, first, sentence, rfl, -, hfirst, hsentence⟩ :=
    List.filterMap_eq_cons_iff.mp hright
  exact ⟨left ++ skipped, first, sentence, by simp, hfirst, hsentence⟩

theorem suffix_chars {before sentence : List GmmInput} {first : GmmInput}
    (hfirst : first.ch = some syncByteStart) :
    syncByteStart :: chars sentence <:+ chars (before ++ first :: sentence) := by
  refine ⟨chars before, ?_⟩
  rw [chars, chars, chars, List.filterMap_append, List.filterMap_cons_some hfirst]

/-- The messages that a character ends. -/
theorem ends_iff {past : List GmmInput} (h : s.parser.Tracks (chars past))
    (hover : ¬Nmea.Parser.EndsOverlong (chars past)) (counts : Vector Int32 10) :
    Ends minmeaCheck minmeaScan s ch counts ↔
      isNewline ch = true ∧ ∃ body, syncByteStart :: body <:+ chars past ∧ Storable body ∧
        syncByteEnd ∈ body ∧ body.length < Nmea.maxMessageLength ∧
        minmeaCheck (syncByteStart :: body) true = true ∧
        minmeaScan (syncByteStart :: body) = some counts := by
  constructor
  · rintro ⟨hfeed, hscan⟩
    obtain ⟨hnewline, body, hsuffix, hbody, hend, hlt, hcheck, hmessage⟩ :=
      (h.feed_eq_true_iff minmeaCheck hover ch).mp ⟨hfeed, rfl⟩
    exact ⟨hnewline, body, hsuffix, hbody, hend, hlt, hcheck, hmessage ▸ hscan⟩
  · rintro ⟨hnewline, body, hsuffix, hbody, hend, hlt, hcheck, hscan⟩
    obtain ⟨hfeed, hmessage⟩ := (h.feed_eq_true_iff minmeaCheck hover ch).mpr
      ⟨hnewline, body, hsuffix, hbody, hend, hlt, hcheck, rfl⟩
    exact ⟨hfeed, hmessage ▸ hscan⟩

theorem ne_start_of_isNewline (h : isNewline ch = true) : some ch ≠ some syncByteStart := by
  intro heq
  rw [Option.some.inj heq] at h
  exact absurd h (by decide)

/-- The sentence of a measurement is the one that the parser has stored, with the time that the
module remembers. -/
theorem measures_iff {past : List GmmInput} (h : s.parser.Tracks (chars past))
    (hover : ¬Nmea.Parser.EndsOverlong (chars past))
    (hstarted : ∀ before first sentence, past = before ++ first :: sentence →
      first.ch = some syncByteStart → syncByteStart ∉ chars sentence →
        s.lastMessageStartedAt = first.startedAt) (input : GmmInput) (m : GMMData) :
    Measures minmeaCheck minmeaScan past input m ↔
      ∃ ch counts, input.ch = some ch ∧ Ends minmeaCheck minmeaScan s ch counts ∧
        m = ⟨s.lastMessageStartedAt, counts.map fun count => count.toUInt32.toUInt8⟩ := by
  constructor
  · rintro ⟨before, first, sentence, ch, counts, hpast, hfirst, hbody, hend, hlt, hch, hnewline,
      hcheck, hscan, rfl⟩
    refine ⟨ch, counts, hch, (ends_iff h hover counts).mpr ⟨hnewline, chars sentence, ?_, hbody,
      hend, hlt, hcheck, hscan⟩, ?_⟩
    · exact hpast ▸ suffix_chars hfirst
    · rw [hstarted before first sentence hpast hfirst hbody.noStart]
  · rintro ⟨ch, counts, hch, hends, rfl⟩
    obtain ⟨hnewline, body, hsuffix, hbody, hend, hlt, hcheck, hscan⟩ :=
      (ends_iff h hover counts).mp hends
    obtain ⟨before, first, sentence, hpast, hfirst, rfl⟩ := exists_of_suffix hsuffix
    refine ⟨before, first, sentence, ch, counts, hpast, hfirst, hbody, hend, hlt, hch, hnewline,
      hcheck, hscan, ?_⟩
    rw [hstarted before first sentence hpast hfirst hbody.noStart]

/-- The measurement of an update. -/
theorem logged_iff (s : Gmm) (input : GmmInput) (m : GMMData) :
    (s.update minmeaCheck minmeaScan input).1.logged = some m ↔
      ∃ ch counts, input.ch = some ch ∧ Ends minmeaCheck minmeaScan s ch counts ∧
        m = ⟨s.lastMessageStartedAt, counts.map fun count => count.toUInt32.toUInt8⟩ := by
  rcases update_cases minmeaCheck minmeaScan s input with
    ⟨ch, counts, hch, hends, hlogged, -, -⟩ | ⟨hnot, hlogged, -, -⟩
  · have hkeeps : (s.update minmeaCheck minmeaScan input).2.lastMessageStartedAt =
        s.lastMessageStartedAt := by
      have hnewline := (Nmea.Parser.state_of_feed minmeaCheck hends.1).2
      rw [update_startedAt, hch, if_neg (ne_start_of_isNewline hnewline)]
    rw [hlogged, Option.some.injEq, hkeeps]
    constructor
    · rintro rfl
      exact ⟨ch, counts, hch, hends, rfl⟩
    · rintro ⟨other, counts', hother, hends', rfl⟩
      obtain rfl := Option.some.inj (hch.symm.trans hother)
      rw [Option.some.inj (hends.2.symm.trans hends'.2)]
  · rw [hlogged]
    refine iff_of_false (by simp) ?_
    rintro ⟨ch, counts, hch, hends, -⟩
    exact hnot ch counts hch hends

end Gmm

/-- The task: the module, and the variable `healthy` of the loop. -/
structure GmmTask where
  gmm : Gmm
  healthy : Bool

namespace GmmTask

variable (minmeaCheck : List UInt8 → Bool → Bool)
  (minmeaScan : List UInt8 → Option (Vector Int32 10))

/-- The task before it sets up the module for the first time. -/
def start : GmmTask := ⟨Gmm.init, false⟩

/-- A pass of the inner loop of `gmmTask`, after `setup` if the last one ended it. -/
def iterate (s : GmmTask) (input : GmmInput) : GmmOutput × GmmTask :=
  let gmm := if s.healthy then s.gmm else s.gmm.setup input.connected
  let r := gmm.update minmeaCheck minmeaScan input
  (r.1, ⟨r.2, r.1.healthy⟩)

/-- The history of the task. -/
abbrev history (inputs : List GmmInput) : List (GmmInput × GmmOutput) :=
  Machine.history (iterate minmeaCheck minmeaScan) start inputs

/-- The last update with a measurement, which was received within three seconds before each update
from then on. A measurement that is received at the time zero does not count. -/
def Heard (past : List (GmmInput × GmmOutput)) (e : GmmInput × GmmOutput) : Prop :=
  Machine.Since
    (fun e => e.2.updated = true ∧ e.1.receivedAt ≠ 0 ∧ e.1.now - e.1.receivedAt < 3000)
    (fun e e' => e'.2.updated = false ∧ e'.1.now - e.1.receivedAt < 3000) past e

/-- The invariant of the task after a history. -/
structure Sound (past : List (GmmInput × GmmOutput)) (s : GmmTask) : Prop where
  tracks : s.gmm.parser.Tracks (Gmm.chars (past.map Prod.fst))
  startedAt : ∀ i, Machine.Since (fun i : GmmInput => i.ch = some syncByteStart)
    (fun _ j => j.ch ≠ some syncByteStart) (past.map Prod.fst) i →
      s.gmm.lastMessageStartedAt = i.startedAt
  healthy : s.healthy = true ↔ ∃ e, Heard past e
  receivedAt : ∀ e, Heard past e → s.gmm.lastMessageReceivedAt = e.1.receivedAt

variable {minmeaCheck minmeaScan} {past : List (GmmInput × GmmOutput)} {s : GmmTask}

/-- The module at an update. -/
theorem setup_if (s : GmmTask) (connected : Bool) :
    let gmm := if s.healthy then s.gmm else s.gmm.setup connected
    gmm.parser = s.gmm.parser ∧ gmm.lastMessageStartedAt = s.gmm.lastMessageStartedAt ∧
      gmm.lastMessageReceivedAt = if s.healthy then s.gmm.lastMessageReceivedAt else 0 := by
  cases s.healthy with
  | false => exact ⟨rfl, rfl, rfl⟩
  | true => exact ⟨rfl, rfl, rfl⟩

theorem sound_start : Sound [] start where
  tracks := Nmea.Parser.tracks_fresh
  startedAt := fun i h => absurd h (Machine.not_since_nil i)
  healthy := by simp [start, Heard, Machine.not_since_nil]
  receivedAt := fun e h => absurd h (Machine.not_since_nil e)

/-- What one more update does to the measurement that is still recent. -/
theorem heard_concat_iff {input : GmmInput} {output : GmmOutput} {e : GmmInput × GmmOutput} :
    Heard (past ++ [(input, output)]) e ↔
      (output.updated = true ∧ input.receivedAt ≠ 0 ∧ input.now - input.receivedAt < 3000) ∧
          e = (input, output) ∨
        Heard past e ∧ output.updated = false ∧ input.now - e.1.receivedAt < 3000 := by
  rw [Heard, Machine.since_concat_iff]
  refine or_congr ⟨?_, ?_⟩ Iff.rfl
  · rintro ⟨he, rfl⟩
    exact ⟨he, rfl⟩
  · rintro ⟨he, rfl⟩
    exact ⟨he, rfl⟩

/-- The recent measurement after one more update is the one that the module remembers. -/
theorem Sound.heard_iterate (h : Sound past s) (input : GmmInput) :
    let r := s.iterate minmeaCheck minmeaScan input
    (r.2.healthy = true ↔ ∃ e, Heard (past ++ [(input, r.1)]) e) ∧
      ∀ e, Heard (past ++ [(input, r.1)]) e → r.2.gmm.lastMessageReceivedAt = e.1.receivedAt := by
  intro r
  obtain ⟨-, -, hreceived⟩ := s.setup_if input.connected
  have hhealthy : r.2.healthy = true ↔ r.2.gmm.lastMessageReceivedAt ≠ 0 ∧
      input.now - r.2.gmm.lastMessageReceivedAt < 3000 :=
    Gmm.healthy_iff _ input
  rcases Gmm.update_cases minmeaCheck minmeaScan
    (if s.healthy then s.gmm else s.gmm.setup input.connected) input with
    ⟨-, -, -, -, -, hupdated, hlast⟩ | ⟨-, -, hupdated, hlast⟩
  · have hupdated : r.1.updated = true := hupdated
    have hlast : r.2.gmm.lastMessageReceivedAt = input.receivedAt := hlast
    constructor
    · rw [hhealthy, hlast]
      constructor
      · rintro hrecent
        exact ⟨(input, r.1), heard_concat_iff.mpr (Or.inl ⟨⟨hupdated, hrecent⟩, rfl⟩)⟩
      · rintro ⟨e, he⟩
        rcases heard_concat_iff.mp he with ⟨hrecent, -⟩ | ⟨-, hnot, -⟩
        · exact hrecent.2
        · exact absurd (hnot.symm.trans hupdated) Bool.false_ne_true
    · intro e he
      rcases heard_concat_iff.mp he with ⟨-, rfl⟩ | ⟨-, hnot, -⟩
      · exact hlast
      · exact absurd (hnot.symm.trans hupdated) Bool.false_ne_true
  · have hupdated : r.1.updated = false := hupdated
    have hlast : r.2.gmm.lastMessageReceivedAt =
        if s.healthy then s.gmm.lastMessageReceivedAt else 0 := hlast.trans hreceived
    have hheard (e : GmmInput × GmmOutput) : Heard (past ++ [(input, r.1)]) e ↔
        Heard past e ∧ input.now - e.1.receivedAt < 3000 := by
      rw [heard_concat_iff, hupdated]
      simp
    simp only [hheard]
    by_cases hs : s.healthy = true
    · rw [if_pos hs] at hlast
      rw [hhealthy, hlast]
      refine ⟨⟨?_, ?_⟩, fun e he => h.receivedAt e he.1⟩
      · rintro ⟨-, hlt⟩
        obtain ⟨e, he⟩ := h.healthy.mp hs
        exact ⟨e, he, h.receivedAt e he ▸ hlt⟩
      · rintro ⟨e, he, hlt⟩
        rw [h.receivedAt e he]
        exact ⟨he.1.2.1, hlt⟩
    · have hnone (e : GmmInput × GmmOutput) : ¬Heard past e := fun he => hs (h.healthy.mpr ⟨e, he⟩)
      rw [if_neg hs] at hlast
      rw [hhealthy, hlast]
      simp [hnone]

/-- **One pass of the task.** -/
theorem Sound.iterate (h : Sound past s) (input : GmmInput) :
    Sound (past ++ [(input, (s.iterate minmeaCheck minmeaScan input).1)])
      (s.iterate minmeaCheck minmeaScan input).2 := by
  obtain ⟨hparser, hstarted, hreceived⟩ := s.setup_if input.connected
  constructor
  · rw [List.map_append, List.map_singleton, Gmm.chars_concat]
    exact Gmm.tracks_update (hparser ▸ h.tracks) input
  · intro i hi
    rw [List.map_append, List.map_singleton, Machine.since_concat_iff] at hi
    have hupdate := Gmm.update_startedAt minmeaCheck minmeaScan
      (if s.healthy then s.gmm else s.gmm.setup input.connected) input
    refine hupdate.trans ?_
    rcases hi with ⟨hstart, rfl⟩ | ⟨hsince, hother⟩
    · rw [if_pos hstart]
    · rw [if_neg hother, hstarted, h.startedAt i hsince]
  · exact (h.heard_iterate input).1
  · exact (h.heard_iterate input).2

/-- The invariant holds of the histories of the task. -/
theorem sound_history (inputs : List GmmInput) :
    Sound (history minmeaCheck minmeaScan inputs)
      (Machine.final (GmmTask.iterate minmeaCheck minmeaScan) start inputs) :=
  Machine.invariant sound_start (fun _ _ input h => h.iterate input) inputs

/-- The dollar sign of the last sentence has the time that the module remembers. -/
theorem Sound.started_eq (h : Sound past s) {before sentence : List GmmInput} {first : GmmInput}
    (hpast : past.map Prod.fst = before ++ first :: sentence)
    (hfirst : first.ch = some syncByteStart) (hnone : syncByteStart ∉ Gmm.chars sentence) :
    s.gmm.lastMessageStartedAt = first.startedAt := by
  refine h.startedAt first ⟨hfirst, before, sentence, hpast, fun j hj hstart => hnone ?_⟩
  exact List.mem_filterMap.mpr ⟨j, hj, hstart⟩

theorem Sound.logged_iff (minmeaCheck : List UInt8 → Bool → Bool)
    (minmeaScan : List UInt8 → Option (Vector Int32 10)) (h : Sound past s) (input : GmmInput)
    (m : GMMData)
    (hover : ¬Nmea.Parser.HasOverlong (Gmm.chars (past.map Prod.fst))) :
    (s.iterate minmeaCheck minmeaScan input).1.logged = some m ↔
      Gmm.Measures minmeaCheck minmeaScan (past.map Prod.fst) input m := by
  obtain ⟨hparser, hstarted, -⟩ := s.setup_if input.connected
  have hends : ¬Nmea.Parser.EndsOverlong (Gmm.chars (past.map Prod.fst)) := by
    rintro ⟨body, hbody, hlen, hsuffix⟩
    exact hover ⟨body, hbody, hlen, hsuffix.isInfix⟩
  rw [Gmm.measures_iff (hparser ▸ h.tracks) hends fun before first sentence hpast hfirst hnone =>
    hstarted.trans (h.started_eq hpast hfirst hnone)]
  exact Gmm.logged_iff _ input m

/-- **Measurements of the task.** After any inputs without an overlong sentence, an update logs a
measurement exactly if its character is a newline and the characters read last are a dollar sign and
a sentence that fits in the message buffer, has an asterisk and a good checksum, and can be scanned:
then the measurement has the hit counts of the sentence, cut off to bytes, and the time of its
dollar sign, also if the module was set up again in between. The payload that is sent is the encoded
measurement. The update is healthy exactly if a measurement was received at a time other than zero
and fewer than three seconds before this update and each one since. -/
theorem measurements_run (minmeaCheck : List UInt8 → Bool → Bool)
    (minmeaScan : List UInt8 → Option (Vector Int32 10)) (inputs : List GmmInput)
    (input : GmmInput) (hover : ¬Nmea.Parser.HasOverlong (Gmm.chars inputs)) :
    let s := Machine.final (GmmTask.iterate minmeaCheck minmeaScan) start inputs
    let output := (s.iterate minmeaCheck minmeaScan input).1
    (∀ m, output.logged = some m ↔ Gmm.Measures minmeaCheck minmeaScan inputs input m) ∧
      output.payload = output.logged.map encodeGMMFrame ∧
      output.updated = output.logged.isSome ∧
      (output.healthy = true ↔
        ∃ e, Heard (history minmeaCheck minmeaScan (inputs ++ [input])) e) := by
  intro s output
  have hsound : Sound (history minmeaCheck minmeaScan inputs) s := sound_history inputs
  refine ⟨fun m => ?_, rfl, ?_, ?_⟩
  · have hlogged := hsound.logged_iff minmeaCheck minmeaScan input m
    rw [Machine.map_fst_history] at hlogged
    exact hlogged hover
  · rcases Gmm.update_cases minmeaCheck minmeaScan
      (if s.healthy then s.gmm else s.gmm.setup input.connected) input with
      ⟨_, _, -, -, hlogged, hupdated, -⟩ | ⟨-, hlogged, hupdated, -⟩
    · exact hupdated.trans (congrArg Option.isSome hlogged).symm
    · exact hupdated.trans (congrArg Option.isSome hlogged).symm
  · rw [history, Machine.history_concat]
    exact (hsound.heard_iterate input).1

/-- A sentence of the sensor board, read with one character in each millisecond from the time 1000
on; the count of 300 is cut off. -/
theorem measurements_of_sentence :
    let body : List UInt8 :=
      [0x47, 0x4D, 0x43, 0x4E, 0x54, 0x2C, 0x37, 0x2C, 0x31, 0x2C, 0x32, 0x2C, 0x33, 0x2C, 0x34,
      0x2C, 0x35, 0x2C, 0x36, 0x2C, 0x37, 0x2C, 0x38, 0x2C, 0x39, 0x2C, 0x33, 0x30, 0x30, 0x2A,
      0x34, 0x41]
    let sentence := Nmea.syncByteStart :: body
    let counts : Vector Int32 10 := #v[1, 2, 3, 4, 5, 6, 7, 8, 9, 300]
    let check : List UInt8 → Bool → Bool := fun message _ => message = sentence
    let scan : List UInt8 → Option (Vector Int32 10) :=
      fun message => if message = sentence then some counts else none
    let at' : ℕ → UInt8 → GmmInput :=
      fun i ch => ⟨some ch, .ofNat (1000 + i), .ofNat (1000 + i), .ofNat (1000 + i), true⟩
    ((Machine.final (GmmTask.iterate check scan) start
      (sentence.mapIdx at')).iterate check scan (at' 40 0x0D)).1.logged =
        some ⟨1000, #v[1, 2, 3, 4, 5, 6, 7, 8, 9, 44]⟩ := by
  intro body sentence counts check scan at'
  have hchars : Gmm.chars (sentence.mapIdx at') = sentence := by decide +kernel
  have hover : ¬Nmea.Parser.HasOverlong (Gmm.chars (sentence.mapIdx at')) := by
    rintro ⟨long, -, hlen, hinfix⟩
    have hle := hinfix.length_le
    rw [hchars, List.length_cons, hlen] at hle
    exact absurd hle (by decide +kernel)
  refine ((measurements_run check scan _ (at' 40 0x0D) hover).1 _).mpr ?_
  refine ⟨[], at' 0 Nmea.syncByteStart, body.mapIdx fun i => at' (i + 1), 0x0D, counts, ?_⟩
  have hbody : Gmm.chars (body.mapIdx fun i => at' (i + 1)) = body := by decide +kernel
  rw [hbody]
  refine ⟨?_, rfl, storable_of_isprint (by decide +kernel) (by decide +kernel), ?_, ?_, rfl, rfl,
    decide_eq_true rfl, if_pos rfl, ?_⟩
  · exact List.mapIdx_cons
  · decide +kernel
  · decide +kernel
  · decide +kernel

end GmmTask

end TellerOBC
