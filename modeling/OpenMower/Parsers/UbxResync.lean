import Mathlib.Algebra.Group.Nat.Even
import Mathlib.Data.List.DropRight
import OpenMower.Parsers.UbxFraming

/-!
# UBX resynchronisation

An intact frame comes after garbage that has no header in it. When the second byte of a header
does not match, `ProcessBytes` throws it away and looks for a first header byte behind it, even if
it was a first header byte itself. The frame is therefore missed if the garbage ends with an odd
number of first header bytes, since the first byte of the frame is then taken for the second one
of a header (`ubx_resync_iff`). What is processed of a missed frame, if anything, is shorter than
the frame.
-/

namespace OpenMower

open Buffer Search UbxParser

/-- There is no header in these bytes. -/
def NoHeader (bytes : List Byte) : Prop := ¬ [0xb5#8, 0x62#8] <:+: bytes

/-- How many first header bytes there are at the end. -/
def headerRun (garbage : List Byte) : ℕ := (garbage.rtakeWhile (· == 0xb5#8)).length

/-- Whether a first header byte is pending after one more byte of garbage. -/
def huntStep (pending : Bool) (b : Byte) : Bool := !pending && b == 0xb5#8

theorem headerRun_concat (garbage : List Byte) (b : Byte) :
    headerRun (garbage ++ [b]) = if b = 0xb5#8 then headerRun garbage + 1 else 0 := by
  rw [headerRun, List.rtakeWhile_concat]
  by_cases hb : b = 0xb5#8
  · rw [if_pos hb, if_pos (by simpa using hb), List.length_append]
    rfl
  · rw [if_neg hb, if_neg (by simpa using hb)]
    rfl

/-- A first header byte is pending after an odd number of them. -/
theorem foldl_huntStep (garbage : List Byte) :
    garbage.foldl huntStep false = decide (Odd (headerRun garbage)) := by
  induction garbage using List.reverseRecOn with
  | nil => rfl
  | append_singleton garbage b ih =>
    rw [List.foldl_append, List.foldl_cons, List.foldl_nil, ih, huntStep, headerRun_concat]
    by_cases hb : b = 0xb5#8
    · rw [if_pos hb, beq_iff_eq.mpr hb, Bool.and_true, ← decide_not]
      exact decide_eq_decide.mpr Nat.odd_add_one.symm
    · rw [if_neg hb, beq_eq_false_iff_ne.mpr hb, Bool.and_false]
      rfl

/-- Without a first header byte none is pending. -/
theorem foldl_huntStep_of_notMem {garbage : List Byte} (h : 0xb5#8 ∉ garbage) :
    garbage.foldl huntStep false = false := by
  induction garbage with
  | nil => rfl
  | cons b garbage ih =>
    rw [List.mem_cons, not_or] at h
    have hstep : huntStep false b = false := by
      rw [huntStep, beq_eq_false_iff_ne.mpr (Ne.symm h.1), Bool.and_false]
    rw [List.foldl_cons, hstep]
    exact ih h.2

theorem NoHeader.of_suffix {bytes rest : List Byte} (h : NoHeader bytes) (hrest : rest <:+ bytes) :
    NoHeader rest := fun hin => h (hin.trans hrest.isInfix)

namespace UbxParser

variable {s : UbxParser}

/-- What the buffer and `left` more bytes add up to, and each packet with its frame around it, is at
most `n` bytes long. -/
structure Within (n : ℕ) (s : UbxParser) (left : ℕ) : Prop where
  fill_le : s.gbufferFill + left ≤ n
  packets_le : ∀ packet ∈ s.packets, packet.length + 4 ≤ n

theorem processFrame_packets (size : ℕ) : (s.processFrame size).packets = s.packets ∨
    (s.processFrame size).packets =
      s.packets ++ [slice s.gbuffer 2 (sizeSub s.gbufferFill 4)] := by
  rw [processFrame]
  split
  · exact .inr rfl
  · exact .inl rfl

/-- Looking for a header throws away what it does not keep. -/
theorem Within.findHeader {n k : ℕ} {chunk : List Byte} (hchunk : chunk ≠ [])
    (h : Within n s (chunk.length + k)) :
    Within n (s.findHeader chunk).1 ((s.findHeader chunk).2.length + k) := by
  have hle := h.fill_le
  obtain ⟨b, rest, rfl⟩ := List.exists_cons_of_ne_nil hchunk
  rw [List.length_cons] at hle
  by_cases hzero : s.gbufferFill = 0
  · rcases findHeader_zero hzero (b :: rest) with ⟨-, heq⟩ | ⟨before, after, hsplit, -, heq⟩
    · rw [heq]
      exact ⟨by dsimp only; rw [List.length_nil]; omega, h.packets_le⟩
    · have hlength := congrArg List.length hsplit
      simp only [List.length_cons, List.length_append] at hlength
      rw [heq]
      exact ⟨by rw [append_fill, List.length_singleton]; dsimp only; omega, h.packets_le⟩
  by_cases hone : s.gbufferFill = 1
  · rw [findHeader_one hone]
    dsimp only
    split
    · refine ⟨?_, h.packets_le⟩
      dsimp only
      rw [append_fill, List.length_singleton]
      omega
    · exact ⟨by dsimp only; omega, h.packets_le⟩
  · rw [UbxParser.findHeader, if_neg hzero, if_neg hone]
    exact ⟨by dsimp only; rw [List.drop_succ_cons, List.drop_zero]; omega, h.packets_le⟩

theorem Within.iteration {n k : ℕ} (hn : n < 2 ^ 32) {chunk : List Byte} (hchunk : chunk ≠ [])
    (h : Within n s (chunk.length + k)) :
    Within n (s.iteration chunk).1 ((s.iteration chunk).2.length + k) := by
  have hle := h.fill_le
  have hlength : ∀ m, m ≤ chunk.length → (chunk.take m).length = m ∧
      (chunk.drop m).length = chunk.length - m :=
    fun m hm => ⟨List.length_take_of_le hm, List.length_drop⟩
  rw [UbxParser.iteration]
  split
  · exact h.findHeader hchunk
  split
  · obtain ⟨htake, hdrop⟩ := hlength _ (Nat.min_le_left chunk.length (sizeSub 6 s.gbufferFill))
    refine ⟨?_, h.packets_le⟩
    rw [UbxParser.takeLength]
    dsimp only
    rw [append_fill, record_fill, htake, hdrop]
    omega
  next hsix =>
  rw [UbxParser.takeFrame]
  dsimp only
  split
  · exact ⟨by dsimp only; rw [reset_fill]; omega, h.packets_le⟩
  obtain ⟨htake, hdrop⟩ := hlength _
    (Nat.min_le_left chunk.length (sizeSub s.totalLength.toNat s.gbufferFill))
  have hmin := Nat.min_le_left chunk.length (sizeSub s.totalLength.toNat s.gbufferFill)
  generalize min chunk.length (sizeSub s.totalLength.toNat s.gbufferFill) = m at *
  split
  · refine ⟨?_, h.packets_le⟩
    rw [append_fill, record_fill, htake, hdrop]
    omega
  · refine ⟨by rw [processFrame_fill, hdrop]; omega, fun packet hpacket => ?_⟩
    rcases @processFrame_packets ((s.record _).append (chunk.take m)) s.totalLength.toNat with
      hsame | hmore
    · rw [hsame] at hpacket
      exact h.packets_le packet hpacket
    · rw [hmore] at hpacket
      -- the new packet has four bytes less than the buffer held
      rcases List.mem_append.mp hpacket with hold | hnew
      · exact h.packets_le packet hold
      · rw [List.mem_singleton.mp hnew, length_slice, append_fill, record_fill, htake,
          sizeSub_of_le (by omega) (by omega)]
        omega

theorem Within.pass {n k : ℕ} (hn : n < 2 ^ 32) {chunk : List Byte} (hchunk : chunk ≠ [])
    (h : Within n s (chunk.length + k)) :
    Within n (s.pass chunk).1 ((s.pass chunk).2.length + k) := by
  have hfirst := h.iteration hn hchunk
  rw [UbxParser.pass]
  split
  · next hsame =>
    rw [hsame] at hfirst
    exact hfirst.iteration hn hchunk
  · exact hfirst

end UbxParser

/-- How far the parser is with garbage and a frame of which `rest` is still to come; the frame is
missed if a first header byte is pending at the end of the garbage. -/
inductive Resync (frame : UbxFrame) (missed : Bool) (s : UbxParser) (rest : List Byte) : Prop
  /-- In the garbage. -/
  | hunting (held garbage : List Byte) (hpending : held = [] ∨ held = [0xb5#8])
      (hheld : Holding s held) (hpackets : s.packets = []) (hno : NoHeader (held ++ garbage))
      (hmissed : garbage.foldl huntStep (!held.isEmpty) = missed)
      (hrest : rest = garbage ++ frame.bytes)
  /-- The frame has been found. -/
  | found (hmissed : missed = false) (hframe : UbxProgress [frame] s rest)
  /-- The frame has been missed. -/
  | lost (hmissed : missed = true) (hwithin : Within (frame.bytes.length - 1) s rest.length)

/-- A frame begins with a header. -/
theorem UbxFrame.exists_tail (frame : UbxFrame) :
    ∃ tail, tail ≠ [] ∧ frame.bytes = 0xb5#8 :: tail := by
  obtain ⟨-, -, -, -, -, hbytes, -⟩ := frame.exists_parts
  exact ⟨_, by simp, hbytes⟩

/-- **No first header byte is pending.** -/
theorem Resync.pass_empty {frame : UbxFrame} {missed : Bool} {s : UbxParser}
    {garbage chunk later : List Byte} (hchunk : chunk ≠ []) (hheld : Holding s [])
    (hpackets : s.packets = []) (hno : NoHeader garbage)
    (hmissed : garbage.foldl huntStep false = missed)
    (hrest : chunk ++ later = garbage ++ frame.bytes) :
    Resync frame missed (s.findHeader chunk).1 ((s.findHeader chunk).2 ++ later) := by
  obtain ⟨tail, htail, hbytes⟩ := frame.exists_tail
  rw [hbytes] at hrest
  have hheader : Holding (s.append [0xb5#8]) [0xb5#8] := by
    refine ⟨?_, ?_, hheld.append_contents _⟩
    · rw [append_foundHeader, hheld.found]
      rfl
    · rw [append_fill, hheld.fill]
      rfl
  rcases findHeader_zero hheld.fill chunk with ⟨hnot, heq⟩ | ⟨before, after, rfl, hnot, heq⟩
  · -- the chunk ends inside the garbage
    obtain ⟨garbage', rfl, hlater⟩ := exists_of_append_eq_append_cons hnot hrest
    rw [heq]
    refine .hunting [] garbage' (.inl rfl) hheld hpackets
      (hno.of_suffix (List.suffix_append _ _)) ?_ (by rw [hbytes]; exact hlater)
    rw [List.foldl_append, foldl_huntStep_of_notMem hnot] at hmissed
    exact hmissed
  rw [heq]
  rw [List.append_assoc, List.cons_append] at hrest
  by_cases hmem : 0xb5#8 ∈ garbage
  · -- the first header byte is in the garbage
    obtain ⟨front, garbage', rfl, hfront⟩ := List.eq_append_cons_of_mem hmem
    rw [List.append_assoc, List.cons_append] at hrest
    obtain ⟨-, hlater⟩ := eq_of_append_cons_eq hnot hfront hrest
    refine .hunting [0xb5#8] garbage' (.inr rfl) hheader hpackets
      (hno.of_suffix (List.suffix_append _ _)) ?_ (by rw [hbytes]; exact hlater)
    rw [List.foldl_append, foldl_huntStep_of_notMem hfront] at hmissed
    exact hmissed
  · -- it is the first byte of the frame
    obtain ⟨-, hlater⟩ := eq_of_append_cons_eq hnot hmem hrest
    rw [foldl_huntStep_of_notMem hmem] at hmissed
    exact .found hmissed.symm (.inside [] frame [] [0xb5#8] tail rfl hpackets hheader hbytes.symm
      htail (by rw [hlater]; simp [ubxStream]))

/-- **A first header byte is pending.** -/
theorem Resync.pass_pending {frame : UbxFrame} {missed : Bool} {s : UbxParser}
    {garbage chunk later : List Byte} (hchunk : chunk ≠ []) (hheld : Holding s [0xb5#8])
    (hpackets : s.packets = []) (hno : NoHeader (0xb5#8 :: garbage))
    (hmissed : garbage.foldl huntStep true = missed)
    (hrest : chunk ++ later = garbage ++ frame.bytes) :
    Resync frame missed (s.findHeader chunk).1 ((s.findHeader chunk).2 ++ later) := by
  obtain ⟨b, chunk, rfl⟩ := List.exists_cons_of_ne_nil hchunk
  rw [findHeader_one hheld.fill]
  cases garbage with
  | nil =>
    -- the byte is the first one of the frame
    obtain ⟨tail, -, hbytes⟩ := frame.exists_tail
    rw [hbytes] at hrest
    obtain ⟨rfl, hlater⟩ := List.cons.inj hrest
    rw [if_neg (by decide)]
    have hlength : (chunk ++ later).length = tail.length := congrArg List.length hlater
    refine .lost hmissed.symm ⟨?_, by simp [hpackets]⟩
    dsimp only
    rw [hlength, hbytes, List.length_cons]
    omega
  | cons b' garbage =>
    obtain ⟨rfl, hlater⟩ := List.cons.inj hrest
    -- the garbage has no header, so this byte does not complete one
    have hne : b ≠ 0x62#8 := by
      rintro rfl
      exact hno ⟨[], garbage, rfl⟩
    rw [if_neg hne]
    refine .hunting [] garbage (.inl rfl) (.of_reset hheld.found rfl) hpackets
      (hno.of_suffix ?_) hmissed hlater
    exact (List.suffix_cons b garbage).trans (List.suffix_cons _ _)

/-- **One pass** over the rest of the stream. -/
theorem Resync.pass {frame : UbxFrame} {missed : Bool} {s : UbxParser} {chunk later : List Byte}
    (hchunk : chunk ≠ []) (h : Resync frame missed s (chunk ++ later)) :
    Resync frame missed (s.pass chunk).1 ((s.pass chunk).2 ++ later) := by
  cases h with
  | found hmissed hframe => exact .found hmissed (hframe.pass hchunk)
  | lost hmissed hwithin =>
    have hlt : frame.bytes.length - 1 < 2 ^ 32 := (Nat.sub_le _ _).trans_lt frame.length_bytes_lt
    rw [List.length_append] at hwithin
    refine .lost hmissed ?_
    rw [List.length_append]
    exact hwithin.pass hlt hchunk
  | hunting held garbage hpending hheld hpackets hno hmissed hrest =>
    have hfound : s.foundHeader = false := by
      rcases hpending with rfl | rfl
      · exact hheld.found
      · exact hheld.found
    have hiteration : s.iteration chunk = s.findHeader chunk := by rw [iteration, if_pos hfound]
    obtain ⟨taken, hne, hsplit⟩ := @findHeader_takes s chunk hchunk
    rw [pass_eq_iteration hne (hiteration ▸ hsplit), hiteration]
    rcases hpending with rfl | rfl
    · exact .pass_empty hchunk hheld hpackets hno hmissed hrest
    · exact .pass_pending hchunk hheld hpackets hno hmissed hrest

/-- At the end of the stream. -/
theorem Resync.packets_iff {frame : UbxFrame} (hframe : frame.Intact) {missed : Bool}
    {s : UbxParser} (h : Resync frame missed s []) :
    s.packets = [frame.content] ↔ missed = false := by
  have hlength := frame.length_bytes
  cases h with
  | hunting _ garbage _ _ _ _ _ hrest =>
    exact absurd (List.append_eq_nil_iff.mp hrest.symm).2 frame.bytes_ne_nil
  | found hmissed hprogress =>
    have hpackets : s.packets = intactContents [frame] := @UbxProgress.packets _ s [] hprogress
    have hcontents : intactContents [frame] = [frame.content] := by
      simp [intactContents, hframe]
    exact ⟨fun _ => hmissed, fun _ => hpackets.trans hcontents⟩
  | lost hmissed hwithin =>
    -- what has been processed is too short to be the frame
    refine ⟨fun heq => ?_, fun hnot => absurd (hmissed.symm.trans hnot) (by decide)⟩
    have hshort := hwithin.packets_le frame.content (by rw [heq]; exact List.mem_singleton_self _)
    omega

/-- The stream in any chunks. -/
theorem resync_processChunks {garbage : List Byte} (hgarbage : NoHeader garbage)
    {frame : UbxFrame} {chunks : List (List Byte)}
    (hchunks : chunks.flatten = garbage ++ frame.bytes) :
    Resync frame (decide (Odd (headerRun garbage))) (ubxProcessChunks start chunks) [] := by
  refine Consumer.feedAll_invariant (C := ubxConsumer) (J := Resync frame _)
    (fun s chunk later hchunk h => h.pass hchunk) ?_
  exact .hunting [] garbage (.inl rfl) start_holding rfl hgarbage (foldl_huntStep garbage) hchunks

/-- **Resynchronisation.** After garbage without a header, however the stream is cut into chunks,
an intact frame is processed, and nothing else is, if and only if the garbage ends with an even
number of first header bytes. -/
theorem ubx_resync_iff {garbage : List Byte} (hgarbage : NoHeader garbage) {frame : UbxFrame}
    (hframe : frame.Intact) {chunks : List (List Byte)}
    (hchunks : chunks.flatten = garbage ++ frame.bytes) :
    (ubxProcessChunks start chunks).packets = [frame.content] ↔ Even (headerRun garbage) := by
  have hend := resync_processChunks hgarbage hchunks
  rw [hend.packets_iff hframe, decide_eq_false_iff_not, Nat.not_odd_iff_even]

instance {bytes : List Byte} : Decidable (NoHeader bytes) :=
  inferInstanceAs (Decidable (¬ _))

/-- Two first header bytes before the frame. -/
theorem ubx_resync_twoHeaderBytes :
    (ubxProcessChunks start [[0x00#8, 0xb5#8], [0xb5#8, 0xb5#8, 0x62#8, 0x0a#8, 0x04#8], [0x00#8,
      0x00#8, 0x0e#8, 0x34#8]]).packets = [[0x0a#8, 0x04#8, 0x00#8, 0x00#8]] :=
  (@ubx_resync_iff [0x00#8, 0xb5#8, 0xb5#8] (by decide) (emptyFrame (0x0e#8, 0x34#8)) (by decide) _
    (by decide)).mpr (by decide)

/-- One first header byte before the frame. -/
theorem ubx_resync_oneHeaderByte :
    NoHeader [0xb5#8] ∧ (emptyFrame (0x0e#8, 0x34#8)).Intact ∧
      (ubxProcessChunks start [[0xb5#8], (emptyFrame (0x0e#8, 0x34#8)).bytes]).packets ≠
        [(emptyFrame (0x0e#8, 0x34#8)).content] := by
  have hno : NoHeader [0xb5#8] := by decide
  have hframe : (emptyFrame (0x0e#8, 0x34#8)).Intact := by decide
  refine ⟨hno, hframe, fun heq => ?_⟩
  have hend := @resync_processChunks _ hno (emptyFrame (0x0e#8, 0x34#8))
    [[0xb5#8], (emptyFrame (0x0e#8, 0x34#8)).bytes] (by simp)
  exact absurd ((hend.packets_iff hframe).mp heq) (by decide)

end OpenMower
