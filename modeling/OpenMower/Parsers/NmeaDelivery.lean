import OpenMower.Drivers.Nmea

/-!
# Delivery of NMEA sentences

A stream of sentences with anything but dollar signs between them is fed to `ProcessBytes` in
chunks. `NmeaProgress` says how far the parser has got, by what is still to come: it is between
two sentences with an empty line, or it holds the first part of one. Both checks of the capacity
of the line succeed for a sentence of up to 511 bytes, so that no line is dropped, and each
sentence is passed to `ProcessLine` with a terminator (`nmea_delivery`).
-/

namespace OpenMower

open Buffer Search NmeaParser

/-- A sentence of at most 511 bytes. -/
structure NmeaSentence where
  body : List Byte
  dollar_notMem : dollar ∉ body
  newline_notMem : newline ∉ body
  length_le : body.length ≤ 509

/-- The sentence on the wire. -/
def NmeaSentence.bytes (sentence : NmeaSentence) : List Byte :=
  dollar :: sentence.body ++ [newline]

/-- What may come between sentences. -/
abbrev NmeaGap : Type := { gap : List Byte // dollar ∉ gap }

/-- Sentences, each with what comes behind it. -/
def nmeaParts (parts : List (NmeaSentence × NmeaGap)) : List Byte :=
  parts.flatMap fun part => part.1.bytes ++ part.2.val

/-- A call of `ProcessLine` has got the sentence with a NUL behind it, inside the buffer. -/
structure Delivered (sentence : NmeaSentence) (call : List Byte) : Prop where
  length_eq : call.length = lineSize
  isPrefix : sentence.bytes ++ [0x00#8] <+: call

/-- The calls are those for the sentences, in order. -/
abbrev AllDelivered (sentences : List NmeaSentence) (calls : List (List Byte)) : Prop :=
  List.Forall₂ Delivered sentences calls

/-- How far the parser is with a stream of which `rest` is still to come. -/
inductive NmeaProgress (sentences : List NmeaSentence) (s : NmeaParser) (rest : List Byte) : Prop
  /-- The line is empty. -/
  | between (done : List NmeaSentence) (todo : List (NmeaSentence × NmeaGap)) (gap : NmeaGap)
      (hall : done ++ todo.map Prod.fst = sentences) (hcalls : AllDelivered done s.calls)
      (hlen : s.lineLen = 0) (hrest : rest = gap.val ++ nmeaParts todo)
  /-- The first part of a sentence is in the line. -/
  | inside (done : List NmeaSentence) (sentence : NmeaSentence) (gap : NmeaGap)
      (todo : List (NmeaSentence × NmeaGap)) (held more : List Byte)
      (hall : done ++ sentence :: todo.map Prod.fst = sentences)
      (hcalls : AllDelivered done s.calls) (hsentence : held ++ more = sentence.bytes)
      (hheld : held ≠ []) (hmore : more ≠ []) (hlen : s.lineLen = held.length)
      (hline : slice s.line 0 held.length = held)
      (hrest : rest = more ++ (gap.val ++ nmeaParts todo))

theorem NmeaSentence.length_bytes (sentence : NmeaSentence) :
    sentence.bytes.length = sentence.body.length + 2 := by
  simp [bytes]

/-- What is missing of a sentence ends with the only newline. -/
theorem NmeaSentence.exists_of_append {sentence : NmeaSentence} {held more : List Byte}
    (h : held ++ more = sentence.bytes) (hmore : more ≠ []) :
    ∃ before, more = before ++ [newline] ∧ newline ∉ before ∧
      held ++ before = dollar :: sentence.body := by
  have hlast := List.dropLast_append_getLast hmore
  rw [← hlast, ← List.append_assoc, bytes] at h
  obtain ⟨hfront, hend⟩ := List.append_inj' h rfl
  have hnewline : more.getLast hmore = newline := List.singleton_inj.mp hend
  refine ⟨more.dropLast, by rw [← hnewline, hlast], fun hmem => ?_, hfront⟩
  have hin : newline ∈ dollar :: sentence.body := by
    rw [← hfront]
    exact List.mem_append_right _ hmem
  rcases List.mem_cons.mp hin with heq | hbody
  · exact absurd heq (by decide)
  · exact sentence.newline_notMem hbody

/-- The next sentence begins with a dollar sign. -/
theorem nmeaParts_cons (part : NmeaSentence × NmeaGap) (todo : List (NmeaSentence × NmeaGap)) :
    nmeaParts (part :: todo) =
      dollar :: (part.1.body ++ [newline] ++ (part.2.val ++ nmeaParts todo)) := by
  simp [nmeaParts, NmeaSentence.bytes]

/-- A chunk without a dollar sign is part of the gap. -/
theorem exists_gap {chunk later : List Byte} {gap : NmeaGap}
    {todo : List (NmeaSentence × NmeaGap)} (hnot : dollar ∉ chunk)
    (h : chunk ++ later = gap.val ++ nmeaParts todo) :
    ∃ gap' : NmeaGap, later = gap'.val ++ nmeaParts todo := by
  cases todo with
  | nil =>
    have hwhole : chunk ++ later = gap.val := h.trans (List.append_nil _)
    refine ⟨⟨later, fun hmem => gap.property ?_⟩, (List.append_nil _).symm⟩
    rw [← hwhole]
    exact List.mem_append_right _ hmem
  | cons part todo =>
    rw [nmeaParts_cons] at h ⊢
    obtain ⟨middle, hgap, hlater⟩ := exists_of_append_eq_append_cons hnot h
    refine ⟨⟨middle, fun hmem => gap.property ?_⟩, hlater⟩
    rw [hgap]
    exact List.mem_append_right _ hmem

/-- The first dollar sign is that of the next sentence. -/
theorem exists_sentence {before after later : List Byte} {gap : NmeaGap}
    {todo : List (NmeaSentence × NmeaGap)} (hnot : dollar ∉ before)
    (h : before ++ dollar :: (after ++ later) = gap.val ++ nmeaParts todo) :
    ∃ part todo', todo = part :: todo' ∧
      dollar :: after ++ later = part.1.bytes ++ (part.2.val ++ nmeaParts todo') := by
  cases todo with
  | nil =>
    have hwhole : before ++ dollar :: (after ++ later) = gap.val := h.trans (List.append_nil _)
    refine absurd ?_ gap.property
    rw [← hwhole]
    exact List.mem_append_right _ List.mem_cons_self
  | cons part todo =>
    rw [nmeaParts_cons] at h
    obtain ⟨-, hlater⟩ := eq_of_append_cons_eq hnot gap.property h
    refine ⟨part, todo, rfl, ?_⟩
    rw [List.cons_append, hlater, NmeaSentence.bytes]
    rfl

/-- The line is filled further. -/
theorem slice_append_line {s : NmeaParser} {held data : List Byte}
    (hlen : s.lineLen = held.length) (hline : slice s.line 0 held.length = held) :
    slice (s.append data).line 0 (held ++ data).length = held ++ data := by
  rw [NmeaParser.append, hlen, List.length_append]
  exact (slice_writeAt held.length).trans (congrArg (· ++ data) hline)

/-- A complete line is terminated inside the buffer. -/
theorem delivered_processLine {s : NmeaParser} {sentence : NmeaSentence}
    (hlen : s.lineLen = sentence.bytes.length)
    (hline : slice s.line 0 sentence.bytes.length = sentence.bytes) :
    ∃ call, s.processLine.calls = s.calls ++ [call] ∧ Delivered sentence call := by
  refine ⟨_, rfl, length_slice, ?_⟩
  have hroom := sentence.length_le
  have hlength := sentence.length_bytes
  have hsplit : lineSize = sentence.bytes.length + 1 + (511 - sentence.bytes.length) := by
    rw [lineSize]
    omega
  have hcontents := @Writer.contents_put _ ⟨s.line, s.lineLen⟩ 0x00#8
  simp only [Writer.contents, Writer.put, hlen, hline] at hcontents
  rw [hlen, hsplit, slice_add, hcontents]
  exact List.prefix_append _ _

/-- **A line is taken** from a sentence: the rest of the chunk is kept, or the sentence is
complete. -/
theorem takeLine_progress {sentences done : List NmeaSentence} {s : NmeaParser}
    {sentence : NmeaSentence} {gap : NmeaGap} {todo : List (NmeaSentence × NmeaGap)}
    {held more buffer later : List Byte}
    (hall : done ++ sentence :: todo.map Prod.fst = sentences)
    (hcalls : AllDelivered done s.calls) (hsentence : held ++ more = sentence.bytes)
    (hmore : more ≠ []) (hlen : s.lineLen = held.length)
    (hline : slice s.line 0 held.length = held) (hbuffer : buffer ≠ [])
    (hrest : buffer ++ later = more ++ (gap.val ++ nmeaParts todo)) :
    NmeaProgress sentences (s.takeLine buffer).1 ((s.takeLine buffer).2 ++ later) := by
  obtain ⟨before, rfl, hnewline, hbody⟩ := NmeaSentence.exists_of_append hsentence hmore
  have hroom := sentence.length_le
  have hcount : held.length + before.length = sentence.body.length + 1 := by
    rw [← List.length_append, hbody, List.length_cons]
  rw [List.append_assoc, List.singleton_append] at hrest
  rw [takeLine]
  rcases memchr_cases buffer newline with ⟨hnot, hnone⟩ | ⟨front, after, rfl, hnot, hsome⟩
  · -- the chunk ends inside the sentence
    obtain ⟨middle, rfl, rfl⟩ := exists_of_append_eq_append_cons hnot hrest
    rw [List.length_append] at hcount
    rw [hnone]
    dsimp only
    rw [if_pos (by rw [hlen, lineSize]; omega), List.nil_append]
    refine .inside done sentence gap todo (held ++ buffer) (middle ++ [newline]) hall hcalls ?_
      (by simp [hbuffer]) (by simp) ?_ (slice_append_line hlen hline) (by simp)
    · rw [← hsentence]
      simp only [List.append_assoc]
    · rw [append_lineLen, hlen, List.length_append]
  · -- the sentence is complete
    rw [List.append_assoc, List.cons_append] at hrest
    obtain ⟨rfl, hafter⟩ := eq_of_append_cons_eq hnot hnewline hrest
    have htake : (front ++ newline :: after).take (front.length + 1) = front ++ [newline] := by
      rw [List.append_cons, List.take_left' (by simp)]
    have hdrop : (front ++ newline :: after).drop (front.length + 1) = after := by
      rw [List.append_cons, List.drop_left' (by simp)]
    rw [hsome]
    dsimp only
    rw [if_pos (by rw [hlen, lineSize]; omega), htake, hdrop]
    have hfull := @slice_append_line s held (front ++ [newline]) hlen hline
    rw [hsentence] at hfull
    obtain ⟨call, hcall, hdelivered⟩ := @delivered_processLine (s.append (front ++ [newline]))
      sentence (by rw [append_lineLen, hlen, ← List.length_append, hsentence]) hfull
    refine .between (done ++ [sentence]) todo gap (by simp [← hall]) ?_ rfl hafter
    rw [hcall, append_calls]
    exact List.rel_append hcalls (.cons hdelivered .nil)

/-- **One pass** over the rest of the stream. -/
theorem NmeaProgress.pass {sentences : List NmeaSentence} {s : NmeaParser}
    {chunk later : List Byte} (hchunk : chunk ≠ [])
    (h : NmeaProgress sentences s (chunk ++ later)) :
    NmeaProgress sentences (s.pass chunk).1 ((s.pass chunk).2 ++ later) := by
  cases h with
  | inside done sentence gap todo held more hall hcalls hsentence hheld hmore hlen hline hrest =>
    have hpos := List.length_pos_iff.mpr hheld
    rcases s.pass_cases chunk with ⟨hzero, -⟩ | ⟨hzero, -⟩ | ⟨-, heq⟩
    · omega
    · omega
    · rw [heq]
      exact takeLine_progress hall hcalls hsentence hmore hlen hline hchunk hrest
  | between done todo gap hall hcalls hlen hrest =>
    rcases s.pass_cases chunk with
      ⟨-, hnot, heq⟩ | ⟨-, before, after, rfl, hnot, heq⟩ | ⟨hpos, -⟩
    · -- the chunk ends inside the gap
      obtain ⟨gap', hlater⟩ := exists_gap hnot hrest
      rw [heq]
      exact .between done todo gap' hall hcalls hlen hlater
    · -- the next sentence begins in the chunk
      rw [List.append_assoc, List.cons_append] at hrest
      obtain ⟨part, todo', rfl, hlater⟩ := exists_sentence hnot hrest
      rw [heq]
      refine @takeLine_progress sentences done s part.1 part.2 todo' [] part.1.bytes _ later hall
        hcalls rfl ?_ hlen rfl (List.cons_ne_nil _ _) hlater
      simp [NmeaSentence.bytes]
    · omega

/-- `ProcessBytes` for one chunk after the other. -/
def nmeaProcessChunks (s : NmeaParser) (chunks : List (List Byte)) : NmeaParser :=
  chunks.foldl NmeaParser.processBytes s

/-- In every stream the line leaves room for two more bytes between the calls. -/
theorem nmea_lineLen_le (chunks : List (List Byte)) :
    (nmeaProcessChunks .start chunks).lineLen ≤ 510 := by
  have hsteps : nmeaConsumer.Steps (.start, chunks) (nmeaProcessChunks .start chunks, []) :=
    Consumer.steps_feedAll _ _
  exact hsteps.rule (I := fun s _ => s.lineLen ≤ 510) (fun _ _ h => h)
    (fun s chunk _ _ h => pass_lineLen_le h chunk) (Nat.zero_le _)

/-- **Delivery.** If a stream consists of sentences with anything but dollar signs before,
between and behind them, then however it is cut into chunks, `ProcessLine` is called exactly for
the sentences, in order and each with a NUL behind it inside the buffer, and between the calls of
`ProcessBytes` at most 510 bytes are held. -/
theorem nmea_delivery {gap : NmeaGap} {parts : List (NmeaSentence × NmeaGap)}
    {chunks : List (List Byte)} (hchunks : chunks.flatten = gap.val ++ nmeaParts parts) :
    AllDelivered (parts.map Prod.fst) (nmeaProcessChunks .start chunks).calls ∧
      ∀ n, (nmeaProcessChunks .start (chunks.take n)).lineLen ≤ 510 := by
  refine ⟨?_, fun n => nmea_lineLen_le _⟩
  have hend : NmeaProgress (parts.map Prod.fst) (nmeaProcessChunks .start chunks) [] := by
    refine Consumer.feedAll_invariant (C := nmeaConsumer) (J := NmeaProgress (parts.map Prod.fst))
      (fun s chunk later hchunk h => h.pass hchunk) ?_
    rw [hchunks]
    exact .between [] parts gap rfl .nil rfl rfl
  cases hend with
  | inside _ _ _ _ _ more _ _ _ _ hmore _ _ hrest =>
    exact absurd (List.append_eq_nil_iff.mp hrest.symm).1 hmore
  | between done todo gap hall hcalls _ hrest =>
    obtain ⟨-, hnil⟩ := List.append_eq_nil_iff.mp hrest.symm
    obtain rfl : todo = [] := by
      cases todo with
      | nil => rfl
      | cons part todo => simp [nmeaParts_cons] at hnil
    rwa [List.map_nil, List.append_nil, ← hall] at *

/-- The shortest sentence. -/
def shortSentence : NmeaSentence := ⟨[], by decide, by decide, by decide⟩

/-- A sentence with one letter. -/
def letterSentence : NmeaSentence := ⟨[0x41#8], by decide, by decide, by decide⟩

/-- The two sentences with newlines around them, cut in the middle of the second one. -/
theorem nmea_delivery_twoSentences :
    AllDelivered [shortSentence, letterSentence] (nmeaProcessChunks .start
        [[newline, dollar, newline], [newline, dollar, 0x41#8], [newline, newline]]).calls ∧
      ∀ n, (nmeaProcessChunks .start (List.take n
        [[newline, dollar, newline], [newline, dollar, 0x41#8], [newline, newline]])).lineLen ≤
          510 :=
  @nmea_delivery ⟨[newline], by decide⟩
    [(shortSentence, ⟨[newline], by decide⟩), (letterSentence, ⟨[newline], by decide⟩)] _
    (by decide)

end OpenMower
