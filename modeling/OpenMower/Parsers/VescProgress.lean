import OpenMower.Parsers.VescBounds

/-!
# The VESC parser returns to the header

Inside a frame the parser waits for a fixed number of bytes, so that it should soon look for a
header again, whatever the bytes are. The fill level has 8 bits, though, and with a length byte
above 251 the frame does not fit: if a pass copies beyond index 256 the fill level wraps inside
the frame, and this can go on for ever (`wedged`). Runs without such a pass return to the header
within 255 bytes (`vesc_parser_never_wedges`).
-/

namespace OpenMower

open VescParser

variable {crc16 : List Byte → BitVec 16} {s s' : VescState} {chunks chunks' : List (List Byte)}

/-- The parser looks for a header. -/
def VescParser.Idle (s : VescParser) : Prop := s.workingBufferFill = 0#8

/-- The parser is idle at some point within the next `n` bytes. -/
def IdleWithin (crc16 : List Byte → BitVec 16) (n : ℕ) (s : VescState)
    (chunks : List (List Byte)) : Prop :=
  ∃ s' chunks', (vescConsumer crc16).Steps (s, chunks) (s', chunks') ∧ s'.val.Idle ∧
    chunks.flatten.length ≤ chunks'.flatten.length + n

/-- Inside a frame, either the frame fits, or the chunk ends before the fill level wraps. -/
def CopyFits (s : VescState) (chunk : List Byte) : Prop :=
  2 ≤ s.val.workingBufferFill.toNat →
    (s.val.workingBuffer 1).toNat ≤ 251 ∨ s.val.workingBufferFill.toNat + chunk.length ≤ 256

/-- The number of bytes until the parser is idle, at most. -/
def VescParser.untilIdle (s : VescParser) : ℕ :=
  if s.workingBufferFill.toNat = 0 then 0
  else if s.workingBufferFill.toNat = 1 then 255
  else min ((s.workingBuffer 1).toNat + 5) 256 - s.workingBufferFill.toNat

theorem VescParser.untilIdle_le (s : VescParser) : s.untilIdle ≤ 255 := by
  rw [untilIdle]
  split
  · omega
  split <;> omega

theorem VescParser.idle_of_untilIdle {s : VescParser} (h : s.InFrame) (hzero : s.untilIdle = 0) :
    s.Idle := by
  have hfill : s.workingBufferFill.toNat < 256 := s.workingBufferFill.isLt
  by_cases htwo : 2 ≤ s.workingBufferFill.toNat
  · have hlt := h htwo
    rw [untilIdle, if_neg (by omega), if_neg (by omega)] at hzero
    omega
  · rw [untilIdle] at hzero
    split at hzero
    · next heq => exact BitVec.eq_of_toNat_eq heq
    · rw [if_pos (by omega)] at hzero
      omega

/-- **A pass that fits** comes nearer to the idle state by what it takes. -/
theorem VescParser.untilIdle_pass {s : VescParser} (h : s.InFrame) {chunk : List Byte}
    (hchunk : chunk ≠ []) (hidle : ¬ s.Idle)
    (hfits : 2 ≤ s.workingBufferFill.toNat → (s.workingBuffer 1).toNat ≤ 251 ∨
      s.workingBufferFill.toNat + chunk.length ≤ 256) :
    (s.pass crc16 chunk).1.untilIdle + chunk.length ≤
      s.untilIdle + (s.pass crc16 chunk).2.length := by
  rcases @pass_cases crc16 s h chunk hchunk with
    ⟨hzero, -⟩ | ⟨hzero, -⟩ | ⟨hone, b, rest, rfl, heq⟩ | ⟨htwo, taken, rest, -, rfl, hlen, heq⟩
  · exact absurd hzero hidle
  · exact absurd hzero hidle
  · have hfill : (s.append [b]).workingBufferFill.toNat = 2 := by
      rw [append_fill, hone]
      rfl
    have hlt : b.toNat < 256 := b.isLt
    simp only [heq, untilIdle, hfill, hone, List.length_cons]
    simp only [OfNat.ofNat_ne_zero, if_false, OfNat.ofNat_ne_one, one_ne_zero, if_true]
    omega
  · have hlt := h htwo
    have hfill : s.workingBufferFill.toNat < 256 := s.workingBufferFill.isLt
    have hwrap := hfits htwo
    have hbefore : s.untilIdle =
        min ((s.workingBuffer 1).toNat + 5) 256 - s.workingBufferFill.toNat := by
      rw [untilIdle, if_neg (by omega), if_neg (by omega)]
    rw [List.length_append] at hlen hwrap ⊢
    rw [heq, hbefore, append_fill]
    split
    · simp only [untilIdle, reset_workingBufferFill, BitVec.toNat_ofNat, Nat.zero_mod, if_true]
      omega
    · next hne =>
      rw [untilIdle, append_fill, append_workingBuffer (by omega)]
      split
      · dsimp only
        omega
      · rw [if_neg (by omega)]
        dsimp only
        omega

/-- **The parser returns to the header.** In every stream that is fed to the parser, in chunks
of which none makes the fill level wrap, the parser is idle within any 260 bytes. -/
theorem vesc_parser_never_wedges {s₀ : VescState} {stream : List (List Byte)}
    (hfits : (vescConsumer crc16).EveryPass CopyFits (s₀, stream))
    (hreach : (vescConsumer crc16).Steps (s₀, stream) (s, chunks))
    (hlen : 260 ≤ chunks.flatten.length) : IdleWithin crc16 260 s chunks := by
  have hpass : ∀ (s : VescState) chunk, chunk ≠ [] → ¬ s.val.Idle → CopyFits s chunk →
      ((vescConsumer crc16).pass s chunk).1.val.untilIdle + chunk.length ≤
        s.val.untilIdle + ((vescConsumer crc16).pass s chunk).2.length := by
    intro s chunk hchunk hidle hcopy
    obtain ⟨hval, hrest⟩ := @vescConsumer_pass crc16 s chunk hchunk
    rw [hval, hrest]
    exact untilIdle_pass s.property hchunk hidle hcopy
  have hbound := s.val.untilIdle_le
  obtain ⟨s', chunks', hsteps, hidle, hle⟩ := Consumer.visits_within
    (fun s hzero => idle_of_untilIdle s.property hzero) hpass (hfits.of_steps hreach) (by omega)
  exact ⟨s', chunks', hsteps, hidle, by omega⟩

/-- The fill level cannot wrap in a stream without bytes above 251. -/
theorem everyPass_copyFits {s₀ : VescState} {stream : List (List Byte)}
    (hidle : s₀.val.Idle) (hbytes : ∀ b ∈ stream.flatten, b.toNat ≤ 251) :
    (vescConsumer crc16).EveryPass CopyFits (s₀, stream) := by
  intro s chunk chunks hsteps _ htwo
  have hinv := @Consumer.Steps.invariant _ _ (vescConsumer crc16) s₀ s stream (chunk :: chunks)
    (fun s rest => (2 ≤ s.val.workingBufferFill.toNat → (s.val.workingBuffer 1).toNat ≤ 251) ∧
      ∀ b ∈ rest, b.toNat ≤ 251) ?_ hsteps
    ⟨fun htwo => by rw [hidle] at htwo; exact absurd htwo (by decide), hbytes⟩
  · exact .inl (hinv.1 htwo)
  · rintro s chunk later hchunk ⟨hlength, hbytes⟩
    obtain ⟨hval, hrest⟩ := @vescConsumer_pass crc16 s chunk hchunk
    obtain ⟨taken, -, hsplit⟩ := (vescConsumer crc16).pass_takes s chunk hchunk
    refine ⟨?_, fun b hb => hbytes b ?_⟩
    · rw [hval]
      rcases @pass_cases crc16 s.val s.property chunk hchunk with
        ⟨-, -, heq⟩ | ⟨hzero, -, rest, -, -, heq⟩ | ⟨hone, b, rest, hcons, heq⟩ |
        ⟨htwo, taken, rest, -, -, -, heq⟩
      · rw [heq]
        exact hlength
      · rw [heq]
        intro htwo
        rw [append_fill, hzero] at htwo
        exact absurd htwo (by decide)
      · rw [heq]
        intro _
        have hstored : (s.val.append [b]).workingBuffer 1 = b := by
          simp [append, Buffer.writeAt, hone]
        rw [hstored]
        exact hbytes b (by simp [hcons])
      · rw [heq]
        split
        · intro htwo
          simp at htwo
        · intro _
          rw [append_workingBuffer (by omega)]
          exact hlength htwo
    · rw [hsplit, List.append_assoc]
      exact List.mem_append_right _ hb

/-- **A wedge.** Inside a frame with the length byte 253, chunks of 256 bytes leave the fill
level at 2, so that the parser looks for no header any more. -/
theorem wedged (hfill : s.val.workingBufferFill.toNat = 2)
    (hlength : (s.val.workingBuffer 1).toNat = 253) (hchunks : ∀ c ∈ chunks, c.length = 256)
    (hsteps : (vescConsumer crc16).Steps (s, chunks) (s', chunks')) :
    s'.val.workingBufferFill.toNat = 2 := by
  have hinv := @Consumer.Steps.rule _ _ (vescConsumer crc16) s s' chunks chunks'
    (fun s chunks => s.val.workingBufferFill.toNat = 2 ∧ (s.val.workingBuffer 1).toNat = 253 ∧
      ∀ c ∈ chunks, c = [] ∨ c.length = 256) ?_ ?_ hsteps
    ⟨hfill, hlength, fun c hc => .inr (hchunks c hc)⟩
  · exact hinv.1
  · rintro s chunks ⟨hfill, hlength, hall⟩
    exact ⟨hfill, hlength, fun c hc => hall c (List.mem_cons_of_mem _ hc)⟩
  · rintro s chunk chunks hchunk ⟨hfill, hlength, hall⟩
    obtain ⟨hval, hrest⟩ := @vescConsumer_pass crc16 s chunk hchunk
    have hfull := (hall chunk List.mem_cons_self).resolve_left hchunk
    obtain ⟨hnil, hafter, hlength'⟩ := @pass_wraps s.val crc16 s.property hfill hlength chunk hfull
    rw [hval, hrest, hnil]
    refine ⟨hafter, hlength', fun c hc => ?_⟩
    rcases List.mem_cons.mp hc with rfl | hc
    · exact .inl rfl
    · exact hall c (List.mem_cons_of_mem _ hc)

/-- A header with a length byte. -/
theorem feed_header (length : Byte) :
    ((vescConsumer crc16).feed idleParser [0x02#8, length]).val.workingBufferFill.toNat = 2 ∧
      ((vescConsumer crc16).feed idleParser [0x02#8, length]).val.workingBuffer 1 = length := by
  have hheader : (vescConsumer crc16).feed idleParser [0x02#8, length] =
      (vescConsumer crc16).feed ((vescConsumer crc16).pass idleParser [0x02#8, length]).1
        [length] := by
    rw [Consumer.feed_of_ne_nil _ _ (List.cons_ne_nil _ _)]
    rfl
  have hlength : ∀ s, (vescConsumer crc16).feed s [length] =
      (vescConsumer crc16).feed ((vescConsumer crc16).pass s [length]).1
        ((vescConsumer crc16).pass s [length]).2 :=
    fun s => Consumer.feed_of_ne_nil _ _ (List.cons_ne_nil _ _)
  have hend := (vescConsumer crc16).feed_nil ((vescConsumer crc16).pass
    ((vescConsumer crc16).pass idleParser [0x02#8, length]).1 [length]).1
  rw [hheader, hlength]
  exact ⟨(congrArg (·.val.workingBufferFill.toNat) hend).trans rfl,
    (congrArg (·.val.workingBuffer 1) hend).trans rfl⟩

/-- Two chunks of zeros. -/
def zeroChunks (n : ℕ) : List (List Byte) := [List.replicate n 0#8, List.replicate n 0#8]

theorem length_zeroChunks (n : ℕ) : (zeroChunks n).flatten.length = n + n := by
  simp [zeroChunks]

/-- The parser has the header and the length, and the zeros are still to come. -/
theorem steps_header (length : Byte) (n : ℕ) :
    (vescConsumer crc16).Steps (idleParser, [0x02#8, length] :: zeroChunks n)
      ((vescConsumer crc16).feed idleParser [0x02#8, length], zeroChunks n) :=
  (Consumer.steps_feed _ _ _).trans (.of_step (.next _ _))

/-- With the length 250 it is idle again in time. -/
theorem vesc_parser_idle_zeros :
    IdleWithin (fun _ => 0#16) 260
      ((vescConsumer fun _ => 0#16).feed idleParser [0x02#8, 0xFA#8]) (zeroChunks 256) := by
  have hidle : idleParser.val.Idle := rfl
  refine vesc_parser_never_wedges (everyPass_copyFits hidle fun b hb => ?_)
    (steps_header 0xFA#8 256) (by rw [length_zeroChunks]; omega)
  simp only [zeroChunks, List.flatten_cons, List.flatten_nil, List.append_nil, List.mem_append,
    List.mem_cons, List.not_mem_nil, or_false, List.mem_replicate] at hb
  rcases hb with (rfl | rfl) | ⟨-, rfl⟩ | ⟨-, rfl⟩ <;> decide

/-- With the length 253, as noise may look like, it is not. -/
theorem vesc_parser_wedges :
    ∃ s, (vescConsumer fun _ => 0#16).Steps (idleParser, [0x02#8, 0xFD#8] :: zeroChunks 256)
        (s, zeroChunks 256) ∧
      260 ≤ (zeroChunks 256).flatten.length ∧
        ¬ IdleWithin (fun _ => 0#16) 260 s (zeroChunks 256) := by
  refine ⟨_, steps_header 0xFD#8 256, by rw [length_zeroChunks]; omega, ?_⟩
  rintro ⟨s', chunks', hlater, hidle, -⟩
  obtain ⟨hfill, hlength⟩ := @feed_header (fun _ => 0#16) 0xFD#8
  have hfull : ∀ c ∈ zeroChunks 256, c.length = 256 := by
    intro c hc
    obtain rfl | rfl : c = List.replicate 256 0#8 ∨ c = List.replicate 256 0#8 := by
      simpa only [zeroChunks, List.mem_cons, List.not_mem_nil, or_false] using hc
    all_goals exact List.length_replicate
  have hstays := wedged hfill (by rw [hlength]; rfl) hfull hlater
  rw [hidle] at hstays
  exact absurd hstays (by decide)

end OpenMower
