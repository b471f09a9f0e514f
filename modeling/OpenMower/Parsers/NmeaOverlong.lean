import OpenMower.Parsers.NmeaDelivery

/-!
# The sentence behind a line that is dropped

A line that does not fit is dropped, and one byte of the chunk is skipped. That byte belongs to the
line if the line begins in the chunk. If the line is held from an earlier chunk and the next
sentence begins the chunk, it is the dollar sign of that sentence, which is then passed over up to
the dollar sign behind it (`nmea_next_sentence_lost`).
-/

namespace OpenMower

open Search NmeaParser

namespace NmeaParser

variable {s : NmeaParser} {sentence : NmeaSentence}

/-- What is held is discarded, the sentence is passed on, and the rest of the chunk is processed
with an empty line. -/
def KeepsSentence (s : NmeaParser) (sentence : NmeaSentence) (rest : List Byte) : Prop :=
  ∃ (s' : NmeaParser) (call : List Byte), s'.lineLen = 0 ∧ s'.calls = s.calls ++ [call] ∧
    Delivered sentence call ∧ s.processBytes (sentence.bytes ++ rest) = s'.processBytes rest

/-- The two parsers differ in what they have passed on only, and by how many lines. -/
def Ahead (n : ℕ) (s s' : NmeaParser) : Prop :=
  s.lineLen = s'.lineLen ∧ s.calls.length + n = s'.calls.length

/-- What is taken from a chunk does not depend on what is in the line. -/
theorem Ahead.takeLine {n : ℕ} {s s' : NmeaParser} (h : Ahead n s s') (buffer : List Byte) :
    Ahead n (s.takeLine buffer).1 (s'.takeLine buffer).1 ∧
      (s.takeLine buffer).2 = (s'.takeLine buffer).2 := by
  obtain ⟨hlen, hcalls⟩ := h
  have hdrop : Ahead n s.drop s'.drop := ⟨rfl, hcalls⟩
  have happend : ∀ data, Ahead n (s.append data) (s'.append data) :=
    fun data => ⟨congrArg (· + data.length) hlen, hcalls⟩
  rw [NmeaParser.takeLine, NmeaParser.takeLine, hlen]
  split
  · dsimp only
    split
    · refine ⟨⟨rfl, ?_⟩, rfl⟩
      simp only [processLine, append_calls, List.length_append, List.length_singleton]
      omega
    · exact ⟨hdrop, rfl⟩
  · split
    · exact ⟨happend _, rfl⟩
    · exact ⟨hdrop, rfl⟩

theorem Ahead.pass {n : ℕ} {s s' : NmeaParser} (h : Ahead n s s') (chunk : List Byte) :
    Ahead n (s.pass chunk).1 (s'.pass chunk).1 ∧ (s.pass chunk).2 = (s'.pass chunk).2 := by
  rw [NmeaParser.pass, NmeaParser.pass, ← h.1]
  split
  · split
    · exact h.takeLine _
    · exact ⟨h, rfl⟩
  · exact h.takeLine chunk

/-- The number of lines that are passed on is that of the chunk. -/
theorem Ahead.processBytes {n : ℕ} {s s' : NmeaParser} (h : Ahead n s s') (chunk : List Byte) :
    Ahead n (s.processBytes chunk) (s'.processBytes chunk) :=
  nmeaConsumer.feed_rel (fun _ _ chunk _ h => h.pass chunk) h chunk

/-! ### The dropped line -/

/-- A line is taken from the first dollar sign on. -/
theorem pass_dollar (hlen : s.lineLen = 0) {before : List Byte} (hbefore : dollar ∉ before)
    (after : List Byte) : s.pass (before ++ dollar :: after) = s.takeLine (dollar :: after) := by
  rcases s.pass_cases (before ++ dollar :: after) with
    ⟨-, hnot, -⟩ | ⟨-, before', after', hsplit, hbefore', heq⟩ | ⟨hpos, -⟩
  · exact absurd (List.mem_append_right _ List.mem_cons_self) hnot
  · obtain ⟨-, rfl⟩ := eq_of_append_cons_eq hbefore hbefore' hsplit
    exact heq
  · exact absurd hlen hpos

/-- A chunk without a dollar sign is ignored. -/
theorem processBytes_notMem (hlen : s.lineLen = 0) {chunk : List Byte} (hchunk : dollar ∉ chunk) :
    s.processBytes chunk = s := by
  by_cases hnil : chunk = []
  · rw [hnil, processBytes, Consumer.feed_nil]
  rcases s.pass_cases chunk with ⟨-, -, heq⟩ | ⟨-, before, after, rfl, -⟩ | ⟨hpos, -⟩
  · have hpass : nmeaConsumer.pass s chunk = (s, []) := heq
    rw [processBytes, nmeaConsumer.feed_of_ne_nil s hnil, hpass, Consumer.feed_nil]
  · exact absurd (List.mem_append_right _ List.mem_cons_self) hchunk
  · exact absurd hlen hpos

/-- Everything up to the next dollar sign is skipped. -/
theorem processBytes_skip (hlen : s.lineLen = 0) {front : List Byte} (hfront : dollar ∉ front)
    (rest : List Byte) : s.processBytes (front ++ rest) = s.processBytes rest := by
  rcases memchr_cases rest dollar with ⟨hnot, -⟩ | ⟨before, after, rfl, hbefore, -⟩
  · rw [processBytes_notMem hlen hnot, processBytes_notMem hlen (by simp [hfront, hnot])]
  · have hskipped : dollar ∉ front ++ before := by simp [hfront, hbefore]
    have hpass : nmeaConsumer.pass s (front ++ (before ++ dollar :: after)) =
        nmeaConsumer.pass s (before ++ dollar :: after) := by
      rw [← List.append_assoc]
      exact (pass_dollar hlen hskipped after).trans (pass_dollar hlen hbefore after).symm
    rw [processBytes, processBytes, nmeaConsumer.feed_of_ne_nil s (by simp),
      nmeaConsumer.feed_of_ne_nil s (by simp), hpass]

/-- **The sentence goes with the line**: what is behind its dollar sign is skipped. -/
theorem processBytes_overlong (hheld : 0 < s.lineLen)
    (hlong : lineSize < s.lineLen + sentence.bytes.length + 1) (rest : List Byte) :
    s.processBytes (sentence.bytes ++ rest) = s.drop.processBytes rest := by
  have htake : s.takeLine (sentence.bytes ++ rest) =
      (s.drop, (sentence.body ++ [newline]) ++ rest) := by
    have hnewline : memchr (sentence.bytes ++ rest) newline = some (sentence.body.length + 1) := by
      rcases memchr_cases (sentence.bytes ++ rest) newline with
        ⟨hnot, -⟩ | ⟨before, after, hsplit, hbefore, hsome⟩
      · exact absurd (by simp [NmeaSentence.bytes]) hnot
      · have hbody : newline ∉ dollar :: sentence.body := by
          simp [sentence.newline_notMem, show newline ≠ dollar by decide]
        have hshape : (dollar :: sentence.body) ++ newline :: rest =
            before ++ newline :: after := by
          rw [← hsplit, NmeaSentence.bytes]
          simp
        obtain ⟨rfl, -⟩ := eq_of_append_cons_eq hbody hbefore hshape
        rw [hsome, List.length_cons]
    rw [sentence.length_bytes] at hlong
    rw [NmeaParser.takeLine, hnewline]
    dsimp only
    rw [if_neg (by omega), NmeaSentence.bytes]
    rfl
  have hpass : nmeaConsumer.pass s (sentence.bytes ++ rest) =
      (s.drop, (sentence.body ++ [newline]) ++ rest) := by
    rcases s.pass_cases (sentence.bytes ++ rest) with ⟨hzero, -⟩ | ⟨hzero, -⟩ | ⟨-, heq⟩
    · omega
    · omega
    · exact heq.trans htake
  have hskipped : dollar ∉ sentence.body ++ [newline] := by
    simp [sentence.dollar_notMem, show dollar ≠ newline by decide]
  rw [processBytes, nmeaConsumer.feed_of_ne_nil s (by simp [NmeaSentence.bytes]), hpass]
  exact processBytes_skip rfl hskipped rest

/-- The sentence is not among the lines that are passed on. -/
theorem not_keepsSentence (hheld : 0 < s.lineLen)
    (hlong : lineSize < s.lineLen + sentence.bytes.length + 1) (rest : List Byte) :
    ¬ KeepsSentence s sentence rest := by
  rintro ⟨s', call, hlen, hcalls, -, heq⟩
  rw [processBytes_overlong hheld hlong] at heq
  have hahead : Ahead 1 s.drop s' := ⟨hlen.symm, by rw [hcalls]; simp [drop]⟩
  have hcount := (hahead.processBytes rest).2
  rw [heq] at hcount
  omega

end NmeaParser

/-- **The next sentence is lost.** In every reachable state in which a part of a line is held, for
every sentence at the front of the chunk that does not fit behind it, and whatever follows, the
sentence is not passed on. -/
theorem nmea_next_sentence_lost (chunks : List (List Byte)) (sentence : NmeaSentence)
    (rest : List Byte) (hheld : 0 < (nmeaProcessChunks .start chunks).lineLen)
    (hlong : lineSize <
      (nmeaProcessChunks .start chunks).lineLen + sentence.bytes.length + 1) :
    ¬ KeepsSentence (nmeaProcessChunks .start chunks) sentence rest :=
  not_keepsSentence hheld hlong rest

/-- A sentence of 511 bytes. -/
def longSentence : NmeaSentence where
  body := List.replicate 509 0x41#8
  dollar_notMem := fun hmem => absurd (List.eq_of_mem_replicate hmem) (by decide)
  newline_notMem := fun hmem => absurd (List.eq_of_mem_replicate hmem) (by decide)
  length_le := by rw [List.length_replicate]

/-- A dollar sign is held. -/
theorem processChunks_dollar :
    nmeaProcessChunks .start [[dollar]] = NmeaParser.start.append [dollar] := by
  have hpass : nmeaConsumer.pass .start [dollar] = (NmeaParser.start.append [dollar], []) := rfl
  rw [nmeaProcessChunks, List.foldl_cons, List.foldl_nil, NmeaParser.processBytes,
    nmeaConsumer.feed_of_ne_nil _ (by simp), hpass, Consumer.feed_nil]

theorem length_longSentence : longSentence.bytes.length = 511 := by
  rw [NmeaSentence.length_bytes, longSentence, List.length_replicate]

/-- A sentence of 511 bytes behind a single dollar sign. -/
theorem nmea_next_sentence_lost_dollar :
    ¬ KeepsSentence (nmeaProcessChunks .start [[dollar]]) longSentence [] :=
  nmea_next_sentence_lost [[dollar]] longSentence [] (by rw [processChunks_dollar]; decide)
    (by rw [processChunks_dollar, length_longSentence]; decide)

/-- Nothing is passed on of a complete sentence behind a single dollar sign. -/
theorem nmea_not_keepsSentence :
    (nmeaProcessChunks .start [[dollar], longSentence.bytes]).calls = [] ∧
      ¬ KeepsSentence (nmeaProcessChunks .start [[dollar]]) longSentence [] := by
  rw [show nmeaProcessChunks .start [[dollar], longSentence.bytes] =
    (nmeaProcessChunks .start [[dollar]]).processBytes longSentence.bytes from rfl,
    processChunks_dollar]
  have hheld : 0 < (NmeaParser.start.append [dollar]).lineLen := by decide
  have hlong : lineSize <
      (NmeaParser.start.append [dollar]).lineLen + longSentence.bytes.length + 1 := by
    rw [length_longSentence]
    decide
  refine ⟨?_, not_keepsSentence hheld hlong []⟩
  have hlost := processBytes_overlong hheld hlong []
  rw [List.append_nil] at hlost
  rw [hlost, NmeaParser.processBytes, Consumer.feed_nil]
  rfl

end OpenMower
