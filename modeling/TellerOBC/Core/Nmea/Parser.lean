import Mathlib.Data.List.Infix
import Mathlib.Data.List.TakeWhile
import Mathlib.Tactic.Common

/-!
# The NMEA parser

The byte-wise parser of `core/nmea/parser.cpp` for the sentences of the Geiger-Müller module. The
write pointer is an offset into the message buffer, and the offsets of all writes are recorded; a
write outside the buffer is lost otherwise. `minmea_check` is the checksum test of a library.

The characters after a dollar sign are stored until a newline ends the sentence, which it does after
an asterisk only. The buffer has room for `maxMessageLength` characters and a terminator, but the
parser stores one character more, with the terminator behind the buffer.

## Main definitions

* `TellerOBC.Nmea.Parser`, `TellerOBC.Nmea.Parser.feed`, `TellerOBC.Nmea.Parser.feedAll`.
* `TellerOBC.Nmea.Storable`: the characters that a sentence goes on with.
* `TellerOBC.Nmea.Parser.InSentence`: the parser in the middle of a sentence.

## Main results

* `TellerOBC.Nmea.Parser.InSentence.feed`: one character of a sentence.
* `TellerOBC.Nmea.Parser.writesWithin_iff`: the streams on which all writes are within the buffer.
-/

namespace TellerOBC.Nmea

/-- `MAX_MESSAGE_LENGTH`: maximum size of a message, inclusive. -/
def maxMessageLength : ℕ := 64

/-- `SYNC_BYTE_START`, the dollar sign. -/
def syncByteStart : UInt8 := 0x24

/-- `SYNC_BYTE_END`, the asterisk. -/
def syncByteEnd : UInt8 := 0x2A

/-- `isprint` of the C locale. -/
def isprint (ch : UInt8) : Bool := 0x20 ≤ ch && ch ≤ 0x7E

/-- The newline characters. -/
def isNewline (ch : UInt8) : Bool := ch = 0x0A || ch = 0x0D

/-- The parser states of `core/nmea/parser.h`. -/
inductive ParserState where
  | waitingSyncByteStart
  | waitingSyncByteEnd
  | waitingNewline
  | done
  | error
  deriving DecidableEq, Repr

/-- Stateful parser of NMEA-like messages in a stream of bytes. -/
structure Parser where
  state : ParserState
  /-- Buffer in which the current message is stored. -/
  message : Vector UInt8 (maxMessageLength + 1)
  /-- Offset of the write pointer in the message. -/
  messageWritePtr : ℕ
  /-- The offsets that were written so far, in order. -/
  written : List ℕ := []

namespace Parser

/-- Reset the parser to its base state. The buffer keeps its contents. -/
def reset (p : Parser) : Parser :=
  { p with
    state := .waitingSyncByteStart
    messageWritePtr := 0 }

/-- A parser as its constructor leaves it. -/
def fresh : Parser :=
  reset ⟨.waitingSyncByteStart, Vector.replicate _ 0, 0, []⟩

/-- The current message: the bytes before the first zero. -/
def getMessage (p : Parser) : List UInt8 :=
  p.message.toList.takeWhile (· ≠ 0)

/-- Store a character and a terminator behind it and advance the write pointer; the result tells
whether the pointer was in bounds. -/
def store (p : Parser) (ch : UInt8) : Bool × Parser :=
  if p.messageWritePtr ≤ maxMessageLength then
    (true,
      { p with
        message := (p.message.setIfInBounds p.messageWritePtr ch).setIfInBounds
          (p.messageWritePtr + 1) 0
        messageWritePtr := p.messageWritePtr + 1
        written := p.written ++ [p.messageWritePtr, p.messageWritePtr + 1] })
  else (false, p)

/-- The second part of `_feed`: a character is stored if it is to be stored. -/
def storeIf (toStore : Bool) (nextState : ParserState) (p : Parser) (ch : UInt8) :
    ParserState × Parser :=
  if toStore then
    let r := p.store ch
    -- if the character was not stored, the message is too long
    (if r.1 then nextState else .waitingSyncByteStart, r.2)
  else (nextState, p)

/-- The internal part of `feed`, `_feed` in the source: it handles the character and returns the
next state, which `feed` then assigns. -/
def feedInternal (p : Parser) (ch : UInt8) : ParserState × Parser :=
  if !isprint ch && ch ≠ 0x0A && ch ≠ 0x0D then (.error, p)
  else if ch = syncByteStart then storeIf true .waitingSyncByteEnd p.reset ch
  else
    match p.state with
    | .waitingSyncByteEnd =>
      storeIf true (if ch = syncByteEnd then .waitingNewline else .waitingSyncByteEnd) p ch
    | .waitingNewline =>
      if ch = 0x0D ∨ ch = 0x0A then storeIf false .done p ch
      else storeIf true .waitingNewline p ch
    -- `waitingSyncByteStart` shares the catch-all case of the source
    | _ => storeIf false .waitingSyncByteStart p ch

/-- Feed a byte. The result tells whether it ended a message with a good checksum. -/
def feed (minmeaCheck : List UInt8 → Bool → Bool) (p : Parser) (ch : UInt8) : Bool × Parser :=
  let r := p.feedInternal ch
  let p : Parser := { r.2 with state := r.1 }
  if p.state = .error then (false, p.reset)
  else if p.state = .done then (minmeaCheck p.reset.getMessage true, p.reset)
  else (false, p)

/-- Feed the bytes of a list in order, discarding the results. -/
def feedAll (minmeaCheck : List UInt8 → Bool → Bool) (p : Parser) (bytes : List UInt8) : Parser :=
  bytes.foldl (fun p ch => (p.feed minmeaCheck ch).2) p

end Parser

/-! ### The characters of a sentence -/

/-- The characters that are stored after a dollar sign as long as there is room: printable
characters other than the dollar sign, and newlines before the first asterisk. -/
structure Storable (body : List UInt8) : Prop where
  printable : ∀ ch ∈ body, isprint ch = true ∨ isNewline ch = true
  noStart : syncByteStart ∉ body
  noNewline : ∀ ch ∈ body.dropWhile (· ≠ syncByteEnd), isNewline ch = false

theorem storable_nil : Storable [] :=
  ⟨by simp, by simp, by simp⟩

theorem forall_ne_of_not_mem {body : List UInt8} (h : syncByteEnd ∉ body) :
    ∀ ch ∈ body, decide (ch ≠ syncByteEnd) = true := by
  intro ch hch
  rw [decide_eq_true_eq]
  rintro rfl
  exact h hch

theorem dropWhile_concat (body : List UInt8) (ch : UInt8) :
    (body ++ [ch]).dropWhile (· ≠ syncByteEnd) =
      if syncByteEnd ∈ body then body.dropWhile (· ≠ syncByteEnd) ++ [ch]
      else if ch = syncByteEnd then [ch] else [] := by
  by_cases hmem : syncByteEnd ∈ body
  · have hne : body.dropWhile (· ≠ syncByteEnd) ≠ [] := by
      intro hnil
      have hall := List.dropWhile_eq_nil_iff.mp hnil syncByteEnd hmem
      simp at hall
    rw [List.dropWhile_append, if_pos hmem, if_neg (by simpa using hne)]
  · rw [List.dropWhile_append_of_pos (forall_ne_of_not_mem hmem), if_neg hmem]
    by_cases hch : ch = syncByteEnd
    · simp [hch]
    · simp [hch]

/-- The characters before the last one. -/
theorem Storable.of_concat {body : List UInt8} {ch : UInt8} (h : Storable (body ++ [ch])) :
    Storable body := by
  refine ⟨fun c hc => h.printable c (List.mem_append_left _ hc),
    fun hc => h.noStart (List.mem_append_left _ hc), fun c hc => h.noNewline c ?_⟩
  rw [dropWhile_concat, if_pos]
  · exact List.mem_append_left _ hc
  · by_contra hend
    rw [List.dropWhile_eq_nil_iff.mpr (forall_ne_of_not_mem hend)] at hc
    simp at hc

/-- What one more character of a sentence has to be. -/
theorem storable_concat_iff {body : List UInt8} {ch : UInt8} (h : Storable body) :
    Storable (body ++ [ch]) ↔ (isprint ch = true ∨ isNewline ch = true) ∧ ch ≠ syncByteStart ∧
      (syncByteEnd ∈ body → isNewline ch = false) := by
  have hlast : ch ∈ body ++ [ch] := List.mem_append_right body (List.mem_singleton.mpr rfl)
  constructor
  · rintro ⟨hprintable, hstart, hnewline⟩
    refine ⟨hprintable ch hlast, fun heq => hstart (heq ▸ hlast), fun hmem => hnewline ch ?_⟩
    rw [dropWhile_concat, if_pos hmem]
    exact List.mem_append_right _ (List.mem_singleton.mpr rfl)
  · rintro ⟨hprintable, hstart, hnewline⟩
    refine ⟨?_, ?_, fun c hc => ?_⟩
    · intro c hc
      rcases List.mem_append.mp hc with hc | hc
      · exact h.printable c hc
      · rwa [List.mem_singleton.mp hc]
    · intro hc
      rcases List.mem_append.mp hc with hc | hc
      · exact h.noStart hc
      · exact hstart (List.mem_singleton.mp hc).symm
    · rw [dropWhile_concat] at hc
      split_ifs at hc with hmem hend
      · rcases List.mem_append.mp hc with hc | hc
        · exact h.noNewline c hc
        · rw [List.mem_singleton.mp hc]
          exact hnewline hmem
      · rw [List.mem_singleton.mp hc, hend]
        rfl
      · simp at hc

namespace Parser

/-! ### In the middle of a sentence -/

/-- The parser has stored the characters of a sentence and a terminator, except for a terminator
behind the buffer. -/
structure InSentence (body : List UInt8) (p : Parser) : Prop where
  storable : Storable body
  length_le : body.length ≤ maxMessageLength
  state_eq : p.state = if syncByteEnd ∈ body then .waitingNewline else .waitingSyncByteEnd
  ptr_eq : p.messageWritePtr = body.length + 1
  message_eq : p.message.toList.take (body.length + 1) = syncByteStart :: body
  terminated : body.length < maxMessageLength → p.message.toList[body.length + 1]? = some 0

variable {minmeaCheck : List UInt8 → Bool → Bool} {p : Parser} {body : List UInt8} {ch : UInt8}

theorem length_message (p : Parser) : p.message.toList.length = 65 :=
  p.message.length_toList

/-- Storing a character with room for it. -/
theorem store_of_le (p : Parser) (sentence : List UInt8) (ch : UInt8)
    (hle : sentence.length ≤ maxMessageLength)
    (hptr : p.messageWritePtr = sentence.length)
    (hmessage : p.message.toList.take sentence.length = sentence) :
    (p.store ch).1 = true ∧ (p.store ch).2.messageWritePtr = sentence.length + 1 ∧
      (p.store ch).2.message.toList.take (sentence.length + 1) = sentence ++ [ch] ∧
      (sentence.length < maxMessageLength →
        (p.store ch).2.message.toList[sentence.length + 1]? = some 0) ∧
      (p.store ch).2.written = p.written ++ [sentence.length, sentence.length + 1] := by
  have hstore : p.store ch = (true, _) := if_pos (hptr ▸ hle)
  have hlen := p.length_message
  simp only [maxMessageLength] at hle
  rw [hstore]
  simp only [hptr, Vector.toList_setIfInBounds, true_and, and_true]
  constructor
  · rw [List.take_set_of_le le_rfl, List.take_add_one, List.take_set_of_le le_rfl,
      List.getElem?_set_self (by omega), hmessage]
    rfl
  · intro hlt
    simp only [maxMessageLength] at hlt
    rw [List.getElem?_set_self]
    rw [List.length_set]
    omega

/-- A step that goes on. -/
theorem feed_of_step {state : ParserState} {q : Parser}
    (hstep : p.feedInternal ch = (state, q)) (herror : state ≠ .error) (hdone : state ≠ .done) :
    p.feed minmeaCheck ch = (false, { q with state := state }) := by
  rw [feed, hstep]
  exact (if_neg herror).trans (if_neg hdone)

/-- A dollar sign starts a sentence, whatever the parser was fed before. -/
theorem feed_start (minmeaCheck : List UInt8 → Bool → Bool) (p : Parser) :
    (p.feed minmeaCheck syncByteStart).1 = false ∧
      InSentence [] (p.feed minmeaCheck syncByteStart).2 ∧
      (p.feed minmeaCheck syncByteStart).2.written = p.written ++ [0, 1] := by
  obtain ⟨hstored, hptr, hmessage, hterminated, hwritten⟩ :=
    store_of_le p.reset [] syncByteStart (Nat.zero_le _) rfl rfl
  have hstep : p.feedInternal syncByteStart =
      (.waitingSyncByteEnd, (p.reset.store syncByteStart).2) := by
    rw [feedInternal, if_neg (by decide), if_pos rfl, storeIf, if_pos rfl]
    simp only [hstored, if_true]
  rw [feed_of_step hstep (by simp) (by simp)]
  exact ⟨rfl, ⟨storable_nil, Nat.zero_le _, rfl, hptr, hmessage, hterminated⟩, hwritten⟩

/-- A character that is printable or a newline is not refused. -/
theorem not_refused (h : isprint ch = true ∨ isNewline ch = true) :
    ¬(!isprint ch && ch ≠ 0x0A && ch ≠ 0x0D) = true := by
  rcases h with h | h
  · simp [h]
  · simp only [isNewline, Bool.or_eq_true, decide_eq_true_eq] at h
    rcases h with rfl | rfl <;> decide

/-- What the parser does with a character that the sentence goes on with. -/
theorem InSentence.feedInternal_of_storable (h : InSentence body p)
    (hch : Storable (body ++ [ch])) :
    p.feedInternal ch = storeIf true
      (if syncByteEnd ∈ body ++ [ch] then .waitingNewline else .waitingSyncByteEnd) p ch := by
  obtain ⟨hprintable, hstart, hnewline⟩ := (storable_concat_iff h.storable).mp hch
  rw [feedInternal, if_neg (not_refused hprintable), if_neg hstart, h.state_eq]
  by_cases hmem : syncByteEnd ∈ body
  · have hnot : ¬(ch = 0x0D ∨ ch = 0x0A) := by
      rintro (rfl | rfl) <;> exact absurd (hnewline hmem) (by decide)
    rw [if_pos hmem]
    simp [hnot, hmem]
  · rw [if_neg hmem]
    simp [hmem, eq_comm]

/-- **One character of a sentence**, with room for it. -/
theorem InSentence.feed (minmeaCheck : List UInt8 → Bool → Bool) (h : InSentence body p)
    (hch : Storable (body ++ [ch])) (hlt : body.length < maxMessageLength) :
    (p.feed minmeaCheck ch).1 = false ∧
      InSentence (body ++ [ch]) (p.feed minmeaCheck ch).2 ∧
      (p.feed minmeaCheck ch).2.written = p.written ++ [body.length + 1, body.length + 2] := by
  obtain ⟨hstored, hptr, hmessage, hterminated, hwritten⟩ :=
    store_of_le p (syncByteStart :: body) ch hlt h.ptr_eq h.message_eq
  have hstep := h.feedInternal_of_storable hch
  simp only [storeIf, if_true, hstored] at hstep
  rw [feed_of_step hstep (by split_ifs <;> simp) (by split_ifs <;> simp)]
  have hlen : (body ++ [ch]).length = body.length + 1 := List.length_append
  refine ⟨rfl, ⟨hch, hlen ▸ hlt, rfl, ?_, ?_, ?_⟩, hwritten⟩
  · rw [hlen]
    exact hptr
  · rw [hlen]
    exact hmessage
  · rw [hlen]
    exact hterminated

/-- A character of a sentence that has no room. -/
theorem InSentence.feed_full (minmeaCheck : List UInt8 → Bool → Bool) (h : InSentence body p)
    (hch : Storable (body ++ [ch])) (hfull : body.length = maxMessageLength) :
    (p.feed minmeaCheck ch).2.state = .waitingSyncByteStart ∧
      (p.feed minmeaCheck ch).2.written = p.written := by
  have hstore : p.store ch = (false, p) := if_neg (by rw [h.ptr_eq]; omega)
  have hstep := h.feedInternal_of_storable hch
  simp only [storeIf, if_true, hstore] at hstep
  rw [feed_of_step hstep (by simp) (by simp)]
  exact ⟨rfl, rfl⟩

/-- A newline after an asterisk ends the message. -/
theorem InSentence.feed_newline (minmeaCheck : List UInt8 → Bool → Bool) (h : InSentence body p)
    (hend : syncByteEnd ∈ body) (hch : isNewline ch = true) :
    p.feed minmeaCheck ch = (minmeaCheck p.getMessage true, p.reset) := by
  have hs : p.state = .waitingNewline := by rw [h.state_eq, if_pos hend]
  have hnewline : ch = 0x0D ∨ ch = 0x0A := by
    simpa [isNewline, or_comm] using hch
  have hstart : ch ≠ syncByteStart := by
    rcases hnewline with rfl | rfl <;> decide
  have hstep : p.feedInternal ch = (.done, p) := by
    rw [feedInternal, if_neg (not_refused (Or.inr hch)), if_neg hstart, hs]
    exact if_pos hnewline
  simp only [Parser.feed, hstep, reduceCtorEq, if_false, if_true]
  rfl

/-- Other characters than the printable ones and newlines reset the parser. -/
theorem feed_refused (minmeaCheck : List UInt8 → Bool → Bool) (p : Parser)
    (h : ¬(isprint ch = true ∨ isNewline ch = true)) :
    p.feed minmeaCheck ch = (false, p.reset) := by
  have hstep : p.feedInternal ch = (.error, p) := by
    rw [feedInternal, if_pos]
    simpa [isNewline, and_assoc] using h
  simp only [Parser.feed, hstep, if_true]
  rfl

/-- A character that ends a sentence. -/
theorem InSentence.feed_end (minmeaCheck : List UInt8 → Bool → Bool) (h : InSentence body p)
    (hstart : ch ≠ syncByteStart) (hch : ¬Storable (body ++ [ch])) :
    (p.feed minmeaCheck ch).2.state = .waitingSyncByteStart ∧
      (p.feed minmeaCheck ch).2.written = p.written := by
  by_cases hprintable : isprint ch = true ∨ isNewline ch = true
  · have hend : syncByteEnd ∈ body ∧ isNewline ch = true := by
      rw [storable_concat_iff h.storable] at hch
      by_contra hnot
      exact hch ⟨hprintable, hstart, fun hmem => Bool.eq_false_iff.mpr fun hnl => hnot ⟨hmem, hnl⟩⟩
    rw [h.feed_newline minmeaCheck hend.1 hend.2]
    exact ⟨rfl, rfl⟩
  · rw [feed_refused minmeaCheck p hprintable]
    exact ⟨rfl, rfl⟩

/-- A parser that waits for a sentence stores nothing else than a dollar sign. -/
theorem feed_waiting (minmeaCheck : List UInt8 → Bool → Bool)
    (hs : p.state = .waitingSyncByteStart) (hstart : ch ≠ syncByteStart) :
    (p.feed minmeaCheck ch).2.state = .waitingSyncByteStart ∧
      (p.feed minmeaCheck ch).2.written = p.written := by
  by_cases hprintable : isprint ch = true ∨ isNewline ch = true
  · have hstep : p.feedInternal ch = (.waitingSyncByteStart, p) := by
      rw [feedInternal, if_neg (not_refused hprintable), if_neg hstart, hs]
      rfl
    rw [feed_of_step hstep (by simp) (by simp)]
    exact ⟨rfl, rfl⟩
  · rw [feed_refused minmeaCheck p hprintable]
    exact ⟨rfl, rfl⟩

/-! ### Whole streams -/

/-- The parser after a stream is in the middle of the sentence that the stream ends with, if there
is one, and waits for a dollar sign otherwise. -/
structure Tracks (stream : List UInt8) (p : Parser) : Prop where
  inSentence : ∀ body, Storable body → body.length ≤ maxMessageLength →
    syncByteStart :: body <:+ stream → InSentence body p
  waiting_or : p.state = .waitingSyncByteStart ∨
    ∃ body, InSentence body p ∧ syncByteStart :: body <:+ stream

/-- The stream ends with a sentence that is one character too long. -/
def EndsOverlong (stream : List UInt8) : Prop :=
  ∃ body, Storable body ∧ body.length = maxMessageLength ∧ syncByteStart :: body <:+ stream

/-- All writes so far were within the message buffer. -/
def WritesWithin (p : Parser) : Prop :=
  ∀ offset ∈ p.written, offset < maxMessageLength + 1

variable {stream : List UInt8}

/-- A sentence at the end of a stream begins with the last character or goes on with it. -/
theorem sentence_suffix_concat (hsuffix : syncByteStart :: body <:+ stream ++ [ch]) :
    body = [] ∧ ch = syncByteStart ∨
      ∃ init, body = init ++ [ch] ∧ syncByteStart :: init <:+ stream := by
  rcases List.suffix_concat_iff.mp hsuffix with hnil | ⟨t, heq, ht⟩
  · simp at hnil
  · cases t with
    | nil =>
      obtain ⟨hch, hbody⟩ := List.cons.inj heq
      exact Or.inl ⟨hbody, hch.symm⟩
    | cons first init =>
      obtain ⟨rfl, hbody⟩ := List.cons.inj heq
      exact Or.inr ⟨init, hbody, ht⟩

/-- A sentence at the end of a stream goes on with the next character. -/
theorem suffix_concat (h : syncByteStart :: body <:+ stream) (ch : UInt8) :
    syncByteStart :: (body ++ [ch]) <:+ stream ++ [ch] := by
  obtain ⟨pre, rfl⟩ := h
  exact ⟨pre, by simp⟩

/-- What a byte does to a parser on the track of its stream: it is the last character of a sentence
and was stored with a terminator, or it was not stored, and the parser waits. -/
theorem Tracks.feed_cases (minmeaCheck : List UInt8 → Bool → Bool) (h : Tracks stream p)
    (ch : UInt8) :
    (∃ body, InSentence body (p.feed minmeaCheck ch).2 ∧
      syncByteStart :: body <:+ stream ++ [ch] ∧
      (p.feed minmeaCheck ch).2.written = p.written ++ [body.length, body.length + 1]) ∨
    (p.feed minmeaCheck ch).2.state = .waitingSyncByteStart ∧
      (p.feed minmeaCheck ch).2.written = p.written := by
  by_cases hstart : ch = syncByteStart
  · obtain ⟨-, hnil, hwritten⟩ := feed_start minmeaCheck p
    rw [hstart]
    exact Or.inl ⟨[], hnil, List.suffix_append stream _, hwritten⟩
  · rcases h.waiting_or with hs | ⟨body, hbody, hsuffix⟩
    · exact Or.inr (feed_waiting minmeaCheck hs hstart)
    · by_cases hch : Storable (body ++ [ch])
      · rcases Nat.lt_or_eq_of_le hbody.length_le with hlt | hfull
        · obtain ⟨-, hnext, hwritten⟩ := hbody.feed minmeaCheck hch hlt
          refine Or.inl ⟨_, hnext, suffix_concat hsuffix ch, ?_⟩
          rw [hwritten, List.length_append, List.length_singleton]
        · exact Or.inr (hbody.feed_full minmeaCheck hch hfull)
      · exact Or.inr (hbody.feed_end minmeaCheck hstart hch)

/-- One byte keeps a parser on the track of its stream. -/
theorem Tracks.feed (minmeaCheck : List UInt8 → Bool → Bool) (h : Tracks stream p) (ch : UInt8) :
    Tracks (stream ++ [ch]) (p.feed minmeaCheck ch).2 := by
  constructor
  · intro body hbody hle hsuffix
    rcases sentence_suffix_concat hsuffix with ⟨rfl, rfl⟩ | ⟨init, rfl, hinit⟩
    · exact (feed_start minmeaCheck p).2.1
    · rw [List.length_append, List.length_singleton] at hle
      have hsentence := h.inSentence init hbody.of_concat (by omega) hinit
      exact (hsentence.feed minmeaCheck hbody hle).2.1
  · rcases h.feed_cases minmeaCheck ch with ⟨body, hbody, hsuffix, -⟩ | ⟨hs, -⟩
    · exact Or.inr ⟨body, hbody, hsuffix⟩
    · exact Or.inl hs

theorem writesWithin_append {q : Parser} {a b : ℕ} (h : q.written = p.written ++ [a, b]) :
    WritesWithin q ↔ WritesWithin p ∧ a < maxMessageLength + 1 ∧ b < maxMessageLength + 1 := by
  simp [WritesWithin, h, or_imp, forall_and]

/-- A byte is written within the buffer unless it makes a sentence too long. -/
theorem Tracks.writesWithin_feed_iff (minmeaCheck : List UInt8 → Bool → Bool)
    (h : Tracks stream p) (ch : UInt8) :
    WritesWithin (p.feed minmeaCheck ch).2 ↔ WritesWithin p ∧ ¬EndsOverlong (stream ++ [ch]) := by
  have htracks := h.feed minmeaCheck ch
  rcases h.feed_cases minmeaCheck ch with ⟨body, hbody, hsuffix, hwritten⟩ | ⟨hs, hwritten⟩
  · have hover : EndsOverlong (stream ++ [ch]) ↔ body.length = maxMessageLength := by
      refine ⟨?_, fun hlen => ⟨body, hbody.storable, hlen, hsuffix⟩⟩
      rintro ⟨other, hother, hlen, hsuffix'⟩
      have hptr := (htracks.inSentence other hother hlen.le hsuffix').ptr_eq
      rw [hbody.ptr_eq] at hptr
      omega
    have hle := hbody.length_le
    rw [writesWithin_append hwritten, hover]
    refine and_congr_right fun _ => ?_
    omega
  · have hover : ¬EndsOverlong (stream ++ [ch]) := by
      rintro ⟨other, hother, hlen, hsuffix⟩
      have hstate := (htracks.inSentence other hother hlen.le hsuffix).state_eq
      rw [hs] at hstate
      split_ifs at hstate
    rw [and_iff_left hover, WritesWithin, hwritten, WritesWithin]

theorem tracks_fresh : Tracks [] fresh :=
  ⟨fun _ _ _ hsuffix => absurd (List.suffix_nil.mp hsuffix) (List.cons_ne_nil _ _), Or.inl rfl⟩

theorem feedAll_concat (p : Parser) (bs : List UInt8) (ch : UInt8) :
    p.feedAll minmeaCheck (bs ++ [ch]) = ((p.feedAll minmeaCheck bs).feed minmeaCheck ch).2 := by
  simp only [feedAll, List.foldl_append, List.foldl_cons, List.foldl_nil]

theorem tracks_feedAll (stream : List UInt8) :
    Tracks stream (fresh.feedAll minmeaCheck stream) := by
  induction stream using List.reverseRecOn with
  | nil => exact tracks_fresh
  | append_singleton bs ch ih =>
    rw [feedAll_concat]
    exact ih.feed minmeaCheck ch

/-- The stream has a sentence that is too long: a dollar sign and as many characters as the length
of a message. -/
def HasOverlong (stream : List UInt8) : Prop :=
  ∃ body, Storable body ∧ body.length = maxMessageLength ∧ syncByteStart :: body <:+: stream

theorem hasOverlong_concat_iff (stream : List UInt8) (ch : UInt8) :
    HasOverlong (stream ++ [ch]) ↔ EndsOverlong (stream ++ [ch]) ∨ HasOverlong stream := by
  simp only [HasOverlong, EndsOverlong, List.infix_concat_iff, and_or_left, exists_or]

/-- **Writes of the parser.** All writes that the parser has made on a stream are within its
message buffer exactly if the stream has no dollar sign that is followed by `maxMessageLength`
characters of a sentence. -/
theorem writesWithin_iff (minmeaCheck : List UInt8 → Bool → Bool) (stream : List UInt8) :
    WritesWithin (fresh.feedAll minmeaCheck stream) ↔ ¬HasOverlong stream := by
  induction stream using List.reverseRecOn with
  | nil =>
    refine iff_of_true (List.forall_mem_nil _) ?_
    rintro ⟨body, -, -, hinfix⟩
    exact absurd (List.infix_nil.mp hinfix) (List.cons_ne_nil _ _)
  | append_singleton bs ch ih =>
    rw [feedAll_concat, (tracks_feedAll bs).writesWithin_feed_iff minmeaCheck ch, ih,
      hasOverlong_concat_iff, not_or, and_comm]

/-- The sixty-fourth character after a dollar sign is stored with its terminator behind the
buffer. -/
theorem not_writesWithin_overlong :
    ¬WritesWithin (fresh.feedAll (fun _ _ => true) (syncByteStart :: List.replicate 64 0x61)) := by
  intro h
  exact absurd (h 65 (by decide +kernel)) (by decide)

end Parser

end TellerOBC.Nmea
