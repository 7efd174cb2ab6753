import TellerOBC.Core.Nmea.Parser

/-!
# Sentences reach the checksum test

A sentence of printable characters that fits in the message buffer is stored whole, whatever the
parser was fed before and whatever its buffer holds: the dollar sign resets the write pointer, and
every character is followed by a terminator. The newline behind the sentence hands it to
`minmea_check`.

## Main definitions

* `TellerOBC.Nmea.Parser.feedResults`: the results of feeding bytes in order.

## Main results

* `TellerOBC.Nmea.Parser.InSentence.feedAll`: the characters of a sentence.
* `TellerOBC.Nmea.Parser.feed_sentence`: a sentence and its newline.
* `TellerOBC.Nmea.Parser.Tracks.feed_eq_true_iff`: the messages of a stream.
-/

namespace TellerOBC.Nmea

variable {body rest : List UInt8}

theorem Storable.of_append (h : Storable (body ++ rest)) : Storable body := by
  induction rest using List.reverseRecOn with
  | nil => rwa [List.append_nil] at h
  | append_singleton init ch ih =>
    rw [← List.append_assoc] at h
    exact ih h.of_concat

/-- Printable characters are no newlines. -/
theorem isNewline_eq_false {ch : UInt8} (h : isprint ch = true) : isNewline ch = false := by
  rw [Bool.eq_false_iff]
  intro hnewline
  simp only [isNewline, Bool.or_eq_true, decide_eq_true_eq] at hnewline
  rcases hnewline with rfl | rfl <;> exact absurd h (by decide)

/-- Printable characters other than the dollar sign are stored. -/
theorem storable_of_isprint (hprintable : ∀ ch ∈ body, isprint ch = true)
    (hstart : syncByteStart ∉ body) : Storable body := by
  refine ⟨fun ch hch => Or.inl (hprintable ch hch), hstart, fun ch hch => ?_⟩
  exact isNewline_eq_false (hprintable ch ((List.dropWhile_sublist _).subset hch))

/-- No character of a sentence is a terminator. -/
theorem Storable.ne_zero (h : Storable body) {ch : UInt8} (hch : ch ∈ body) : ch ≠ 0 := by
  rintro rfl
  exact absurd (h.printable 0 hch) (by decide)

namespace Parser

/-- The results of feeding the bytes of a list in order. -/
def feedResults (minmeaCheck : List UInt8 → Bool → Bool) : Parser → List UInt8 → List Bool
  | _, [] => []
  | p, ch :: bytes =>
    (p.feed minmeaCheck ch).1 :: feedResults minmeaCheck (p.feed minmeaCheck ch).2 bytes

variable {p : Parser} (minmeaCheck : List UInt8 → Bool → Bool)

/-- **The characters of a sentence.** -/
theorem InSentence.feedAll (h : InSentence body p) (hrest : Storable (body ++ rest))
    (hle : (body ++ rest).length ≤ maxMessageLength) :
    p.feedResults minmeaCheck rest = List.replicate rest.length false ∧
      InSentence (body ++ rest) (p.feedAll minmeaCheck rest) := by
  induction rest generalizing body p with
  | nil =>
    rw [List.append_nil]
    exact ⟨rfl, h⟩
  | cons ch rest ih =>
    have hsplit : body ++ ch :: rest = (body ++ [ch]) ++ rest := by simp
    have hlt : body.length < maxMessageLength := by
      rw [List.length_append, List.length_cons] at hle
      omega
    rw [hsplit] at hrest hle ⊢
    obtain ⟨hresult, hnext, -⟩ := h.feed minmeaCheck hrest.of_append hlt
    obtain ⟨hresults, hall⟩ := ih hnext hrest hle
    rw [feedResults, hresult, hresults]
    exact ⟨rfl, hall⟩

/-- The message of a sentence that fits in the buffer with its terminator. -/
theorem InSentence.getMessage_eq (h : InSentence body p) (hlt : body.length < maxMessageLength) :
    p.getMessage = syncByteStart :: body := by
  have hlen := p.length_message
  simp only [maxMessageLength] at hlt
  have hzero : p.message.toList.drop (body.length + 1) =
      0 :: p.message.toList.drop (body.length + 2) := by
    rw [List.drop_eq_getElem_cons (by omega)]
    have hterminated := h.terminated hlt
    rw [List.getElem?_eq_getElem (by omega), Option.some_inj] at hterminated
    rw [hterminated]
  have hall : ∀ ch ∈ syncByteStart :: body, decide (ch ≠ 0) = true := by
    intro ch hch
    rw [decide_eq_true_eq]
    rcases List.mem_cons.mp hch with rfl | hch
    · decide
    · exact h.storable.ne_zero hch
  rw [getMessage, ← List.take_append_drop (body.length + 1) p.message.toList, h.message_eq, hzero,
    List.takeWhile_append_of_pos hall]
  simp

/-! ### What ends a message -/

/-- Only a newline ends a message, after an asterisk. -/
theorem state_of_feed {ch : UInt8} (h : (p.feed minmeaCheck ch).1 = true) :
    p.state = .waitingNewline ∧ isNewline ch = true := by
  by_cases hstart : ch = syncByteStart
  · rw [hstart, (feed_start minmeaCheck p).1] at h
    exact absurd h Bool.false_ne_true
  · by_cases hprintable : isprint ch = true ∨ isNewline ch = true
    · by_contra hnot
      have hgoes : (p.feedInternal ch).1 ≠ .error ∧ (p.feedInternal ch).1 ≠ .done := by
        rw [feedInternal, if_neg (not_refused hprintable), if_neg hstart]
        cases hs : p.state with
        | waitingNewline =>
          have hch : ¬(ch = 0x0D ∨ ch = 0x0A) := by
            intro hch
            exact hnot ⟨hs, by simpa [isNewline, or_comm] using hch⟩
          simp only [if_neg hch, storeIf, if_true]
          split_ifs <;> simp
        | waitingSyncByteEnd =>
          simp only [storeIf, if_true]
          split_ifs <;> simp
        | _ => exact ⟨ParserState.noConfusion, ParserState.noConfusion⟩
      rw [feed_of_step rfl hgoes.1 hgoes.2] at h
      exact absurd h Bool.false_ne_true
    · rw [feed_refused minmeaCheck p hprintable] at h
      exact absurd h Bool.false_ne_true

/-- **Messages of a stream.** After a stream that does not end with an overlong sentence, a
character ends a message exactly if it is a newline, the stream ends with a sentence that has an
asterisk, and the checksum of the sentence is good; the message is the sentence. -/
theorem Tracks.feed_eq_true_iff {stream message : List UInt8} (h : Tracks stream p)
    (hover : ¬EndsOverlong stream) (ch : UInt8) :
    (p.feed minmeaCheck ch).1 = true ∧ (p.feed minmeaCheck ch).2.getMessage = message ↔
      isNewline ch = true ∧ ∃ body, syncByteStart :: body <:+ stream ∧ Storable body ∧
        syncByteEnd ∈ body ∧ body.length < maxMessageLength ∧
        minmeaCheck (syncByteStart :: body) true = true ∧ message = syncByteStart :: body := by
  constructor
  · rintro ⟨hfeed, rfl⟩
    obtain ⟨hs, hnewline⟩ := state_of_feed minmeaCheck hfeed
    rcases h.waiting_or with hw | ⟨body, hbody, hsuffix⟩
    · rw [hs] at hw
      cases hw
    · have hend : syncByteEnd ∈ body := by
        by_contra hmem
        have hstate := hbody.state_eq
        rw [if_neg hmem, hs] at hstate
        cases hstate
      have hlt : body.length < maxMessageLength :=
        Nat.lt_of_le_of_ne hbody.length_le fun hfull => hover ⟨body, hbody.storable, hfull, hsuffix⟩
      have hmessage := hbody.getMessage_eq hlt
      rw [hbody.feed_newline minmeaCheck hend hnewline] at hfeed ⊢
      rw [hmessage] at hfeed
      exact ⟨hnewline, body, hsuffix, hbody.storable, hend, hlt, hfeed, hmessage⟩
  · rintro ⟨hnewline, body, hsuffix, hbody, hend, hlt, hcheck, rfl⟩
    have hsentence := h.inSentence body hbody hlt.le hsuffix
    have hmessage := hsentence.getMessage_eq hlt
    rw [hsentence.feed_newline minmeaCheck hend hnewline, hmessage]
    exact ⟨hcheck, hmessage⟩

/-- **Sentences reach the checksum test.** Feed a sentence to a parser, whatever that was fed
before: a dollar sign and other printable characters, among them an asterisk and no other dollar
sign, at most `maxMessageLength` in all. The results are false for every character, and a carriage
return or a line feed behind the sentence gives the result of the checksum test of it; the message
is the sentence then. -/
theorem feed_sentence (p : Parser) (hprintable : ∀ ch ∈ body, isprint ch = true)
    (hstart : syncByteStart ∉ body) (hend : syncByteEnd ∈ body)
    (hlen : (syncByteStart :: body).length ≤ maxMessageLength) :
    p.feedResults minmeaCheck (syncByteStart :: body) =
        List.replicate (syncByteStart :: body).length false ∧
      ∀ ch, ch = 0x0D ∨ ch = 0x0A →
        ((p.feedAll minmeaCheck (syncByteStart :: body)).feed minmeaCheck ch).1 =
            minmeaCheck (syncByteStart :: body) true ∧
          ((p.feedAll minmeaCheck (syncByteStart :: body)).feed minmeaCheck ch).2.getMessage =
            syncByteStart :: body := by
  rw [List.length_cons] at hlen
  have hbody := storable_of_isprint hprintable hstart
  obtain ⟨hfirst, hsentence, -⟩ := feed_start minmeaCheck p
  obtain ⟨hresults, hall⟩ := hsentence.feedAll minmeaCheck (show Storable ([] ++ body) from hbody)
    (show body.length ≤ maxMessageLength by omega)
  have hmessage := hall.getMessage_eq hlen
  refine ⟨?_, fun ch hch => ?_⟩
  · rw [feedResults, hfirst, hresults]
    rfl
  · have hnewline : isNewline ch = true := by
      rcases hch with rfl | rfl <;> decide
    have hfeed := hall.feed_newline minmeaCheck hend hnewline
    rw [hmessage] at hfeed
    have hsplit : p.feedAll minmeaCheck (syncByteStart :: body) =
        (p.feed minmeaCheck syncByteStart).2.feedAll minmeaCheck body := rfl
    rw [hsplit, hfeed]
    exact ⟨rfl, hmessage⟩

/-- The sentence of the parser tests, after its first ten characters; the checksum test accepts it
and nothing else here. -/
theorem feed_sentence_restarted :
    let body : List UInt8 := [0x43, 0x4E, 0x54, 0x2C, 0x34, 0x32, 0x2C, 0x30, 0x2C, 0x30, 0x2C,
      0x33, 0x34, 0x2C, 0x30, 0x2C, 0x30, 0x2C, 0x31, 0x37, 0x2C, 0x30, 0x2C, 0x30, 0x2C, 0x31,
      0x2A, 0x36, 0x46]
    let check : List UInt8 → Bool → Bool := fun sentence _ => sentence = syncByteStart :: body
    (((fresh.feedAll check (syncByteStart :: body.take 9)).feedAll check
      (syncByteStart :: body)).feed check 0x0D).1 = true := by
  intro body check
  obtain ⟨-, hnewline⟩ := feed_sentence check
    (fresh.feedAll check (syncByteStart :: body.take 9)) (show ∀ ch ∈ body, _ by decide +kernel)
    (by decide +kernel) (by decide +kernel) (by decide +kernel)
  rw [(hnewline 0x0D (Or.inl rfl)).1]
  exact decide_eq_true rfl

end Parser

end TellerOBC.Nmea
