import OpenMower.Parsers.VescRoundTrip

/-!
# The buffer of the VESC parser

Whatever the bytes are and wherever the stream is cut, the parser stays in its buffer of 260 bytes
(`vesc_parser_in_bounds`). When a frame does not fit, the 8-bit fill level wraps while the frame is
copied and goes on at 1 to 4, with the old length still in the buffer. This does no harm: the
invariant `InFrame` bounds the fill level by the length of the frame in these states as well, so
that a pass copies up to the end of the frame at most, and that is index 259.
-/

namespace OpenMower

open Buffer

/-- An access to `working_buffer_`, or an index that is computed for one. -/
inductive VescAccess
  /-- A write of this many bytes from an index on. -/
  | write (start len : ℕ)
  /-- A read of this many bytes from an index on. -/
  | read (start len : ℕ)
  /-- A read at `working_buffer_fill_ - n`. -/
  | readFromEnd (fill n : ℕ)
  /-- `payload_length - payload_in_buffer + 3`, and its value as a `size_t`. -/
  | remaining (payloadLength payloadInBuffer value : ℕ)

/-- The access is inside the buffer, the index is not negative, and the difference is what it is
for integers, and positive. -/
def VescAccess.InBounds : VescAccess → Prop
  | write start len => start + len ≤ 260
  | read start len => start + len ≤ 260
  | readFromEnd fill n => n ≤ fill ∧ fill - n < 260
  | remaining payloadLength payloadInBuffer value =>
    (value : ℤ) = payloadLength - payloadInBuffer + 3 ∧ 0 < value

namespace VescParser

variable (s : VescParser)

/-- The accesses of the checks in `ProcessPayload`. -/
def processPayloadAccesses : List VescAccess :=
  let fill := s.workingBufferFill.toNat
  let payloadLength := (s.workingBuffer 1).toNat
  .read 1 1 ::
    if payloadLength + 5 ≠ fill then []
    else .read 0 1 ::
      if s.workingBuffer 0 ≠ 0x02#8 then []
      else .readFromEnd fill 1 ::
        if s.workingBuffer (fill - 1) ≠ 0x03#8 then []
        else [.read 2 payloadLength, .readFromEnd fill 3, .readFromEnd fill 2]

/-- `payload_length - payload_in_buffer + 3`. -/
def remaining : BitVec 32 :=
  (s.workingBuffer 1).setWidth 32 - (s.workingBufferFill.setWidth 32 - 2#32) + 3#32

/-- The accesses of the default case. -/
def takePayloadAccesses (chunk : List Byte) : List VescAccess :=
  let n := s.bytesToTake chunk.length
  let s' := s.append (chunk.take n)
  [.read 1 1, .remaining (s.workingBuffer 1).toNat (s.workingBufferFill.toNat - 2)
      s.remaining.toNat, .write s.workingBufferFill.toNat n] ++
    if (s.workingBuffer 1).setWidth 32 + 5#32 = s'.workingBufferFill.setWidth 32 then
      s'.processPayloadAccesses
    else []

/-- The accesses of a pass. -/
def passAccesses (chunk : List Byte) : List VescAccess :=
  if s.workingBufferFill = 0#8 then
    match chunk.dropWhile fun b => decide (b ≠ 0x02#8) with
    | [] => []
    | _ :: _ => [.write s.workingBufferFill.toNat 1]
  else if s.workingBufferFill = 1#8 then
    match chunk with
    | [] => []
    | _ :: _ => [.write s.workingBufferFill.toNat 1]
  else s.takePayloadAccesses chunk

variable {s}

/-- Inside a frame the difference is the number of bytes that are missing. -/
theorem toNat_remaining (h : s.InFrame) (htwo : 2 ≤ s.workingBufferFill.toNat) :
    s.remaining.toNat = (s.workingBuffer 1).toNat + 5 - s.workingBufferFill.toNat := by
  have hlt := h htwo
  have hfill : s.workingBufferFill.toNat < 256 := s.workingBufferFill.isLt
  have hlength : (s.workingBuffer 1).toNat < 256 := (s.workingBuffer 1).isLt
  simp only [remaining, BitVec.toNat_add, BitVec.toNat_sub, BitVec.toNat_setWidth,
    BitVec.toNat_ofNat]
  omega

/-- The checks read behind the frame only if it has its length. -/
theorem processPayloadAccesses_inBounds : ∀ a ∈ s.processPayloadAccesses, a.InBounds := by
  have hfill : s.workingBufferFill.toNat < 256 := s.workingBufferFill.isLt
  intro a ha
  simp only [processPayloadAccesses, List.mem_cons] at ha
  rcases ha with rfl | ha
  · exact (by decide : 1 + 1 ≤ 260)
  split at ha
  · exact absurd ha List.not_mem_nil
  next hlength =>
  have hlength : (s.workingBuffer 1).toNat + 5 = s.workingBufferFill.toNat := not_not.mp hlength
  have hend : ∀ n, n ≤ 5 → (VescAccess.readFromEnd s.workingBufferFill.toNat n).InBounds :=
    fun n hn => ⟨by omega, by omega⟩
  rcases List.mem_cons.mp ha with rfl | ha
  · exact (by decide : 0 + 1 ≤ 260)
  split at ha
  · exact absurd ha List.not_mem_nil
  rcases List.mem_cons.mp ha with rfl | ha
  · exact hend 1 (by decide)
  split at ha
  · exact absurd ha List.not_mem_nil
  simp only [List.mem_cons, List.not_mem_nil, or_false] at ha
  rcases ha with rfl | rfl | rfl
  · exact (by omega : 2 + (s.workingBuffer 1).toNat ≤ 260)
  · exact hend 3 (by decide)
  · exact hend 2 (by decide)

/-- A pass inside a frame copies up to the end of the frame. -/
theorem takePayloadAccesses_inBounds (h : s.InFrame) (htwo : 2 ≤ s.workingBufferFill.toNat)
    (chunk : List Byte) : ∀ a ∈ s.takePayloadAccesses chunk, a.InBounds := by
  have hlt := h htwo
  have hlength : (s.workingBuffer 1).toNat < 256 := (s.workingBuffer 1).isLt
  have htake := bytesToTake_eq h htwo chunk.length
  have hremaining := toNat_remaining h htwo
  intro a ha
  simp only [takePayloadAccesses, List.cons_append, List.nil_append, List.mem_cons] at ha
  rcases ha with rfl | rfl | rfl | ha
  · exact (by decide : 1 + 1 ≤ 260)
  · rw [VescAccess.InBounds, hremaining]
    omega
  · rw [VescAccess.InBounds, htake]
    omega
  · split at ha
    · exact processPayloadAccesses_inBounds a ha
    · exact absurd ha List.not_mem_nil

/-- **Every pass stays in the buffer.** -/
theorem passAccesses_inBounds (h : s.InFrame) (chunk : List Byte) :
    ∀ a ∈ s.passAccesses chunk, a.InBounds := by
  have hfirst : s.workingBufferFill.toNat ≤ 1 →
      ∀ a ∈ [VescAccess.write s.workingBufferFill.toNat 1], a.InBounds := by
    intro hle a ha
    rw [List.mem_singleton.mp ha, VescAccess.InBounds]
    omega
  intro a ha
  unfold passAccesses at ha
  split at ha
  · next hzero =>
    split at ha
    · exact absurd ha List.not_mem_nil
    · exact hfirst (by simp [hzero]) a ha
  split at ha
  · next hone =>
    split at ha
    · exact absurd ha List.not_mem_nil
    · exact hfirst (by simp [hone]) a ha
  · next hzero hone => exact takePayloadAccesses_inBounds h (by bv_omega) chunk a ha

/-- Inside a frame with the length 253, a chunk of 256 bytes is copied whole, and the fill level
wraps to where it has been. -/
theorem pass_wraps {crc16 : List Byte → BitVec 16} (h : s.InFrame)
    (hfill : s.workingBufferFill.toNat = 2) (hlength : (s.workingBuffer 1).toNat = 253)
    {chunk : List Byte} (hchunk : chunk.length = 256) :
    (s.pass crc16 chunk).2 = [] ∧ (s.pass crc16 chunk).1.workingBufferFill.toNat = 2 ∧
      ((s.pass crc16 chunk).1.workingBuffer 1).toNat = 253 := by
  have hne : chunk ≠ [] := List.length_pos_iff.mp (by omega)
  rcases @pass_cases crc16 s h chunk hne with
    ⟨hzero, -⟩ | ⟨hzero, -⟩ | ⟨hone, -⟩ | ⟨-, taken, rest, -, rfl, hlen, heq⟩
  · rw [hzero] at hfill
    exact absurd hfill (by decide)
  · rw [hzero] at hfill
    exact absurd hfill (by decide)
  · omega
  · rw [hlength, hfill] at hlen
    rw [List.length_append] at hlen hchunk
    have htaken : taken.length = 256 := by omega
    have hnil : rest = [] := List.eq_nil_of_length_eq_zero (by omega)
    have hafter : (s.append taken).workingBufferFill.toNat = 2 := by
      rw [append_fill, hfill, htaken]
    rw [heq, hnil, if_neg (by omega), append_workingBuffer (by omega)]
    exact ⟨rfl, hafter, hlength⟩

/-- The points of a stream: the states that the loop of `ProcessBytes` gets to, with what is left
of the current chunk and the chunks behind it. The buffer may hold anything at first. -/
inductive Point (crc16 : List Byte → BitVec 16) (buffer : ℕ → Byte) (stream : List (List Byte)) :
    VescParser → List (List Byte) → Prop
  | start : Point crc16 buffer stream
    { workingBuffer := buffer, workingBufferFill := 0#8, accepted := [] } stream
  | nextChunk {s : VescParser} {chunks : List (List Byte)}
    (h : Point crc16 buffer stream s ([] :: chunks)) : Point crc16 buffer stream s chunks
  | pass {s : VescParser} {chunk : List Byte} {chunks : List (List Byte)}
    (h : Point crc16 buffer stream s (chunk :: chunks)) (hchunk : chunk ≠ []) :
    Point crc16 buffer stream (s.pass crc16 chunk).1 ((s.pass crc16 chunk).2 :: chunks)

/-- The invariant holds at every point. -/
theorem Point.inFrame {crc16 : List Byte → BitVec 16} {buffer : ℕ → Byte}
    {stream chunks : List (List Byte)} (h : Point crc16 buffer stream s chunks) : s.InFrame := by
  induction h with
  | start => exact inFrame_of_lt_two (by simp)
  | nextChunk _ ih => exact ih
  | pass _ hchunk ih => exact ih.pass hchunk

end VescParser

open VescParser

/-- **The buffer is not left.** At every point of every stream, however it is cut, the next pass
makes only accesses inside the buffer, the number of missing bytes does not underflow, no index in
`ProcessPayload` is negative, and at least one byte is consumed. -/
theorem vesc_parser_in_bounds {crc16 : List Byte → BitVec 16} {buffer : ℕ → Byte}
    {stream chunks : List (List Byte)} {s : VescParser} {chunk : List Byte}
    (h : Point crc16 buffer stream s (chunk :: chunks)) (hchunk : chunk ≠ []) :
    (∀ a ∈ s.passAccesses chunk, a.InBounds) ∧
      ∃ taken, taken ≠ [] ∧ chunk = taken ++ (s.pass crc16 chunk).2 :=
  ⟨passAccesses_inBounds h.inFrame chunk, pass_takes h.inFrame hchunk⟩

/-- A frame with the length 253 is copied beyond index 256, and the fill level wraps to 2. -/
theorem vesc_parser_in_bounds_wrapped :
    ∃ s : VescParser, s.workingBufferFill = 2#8 ∧ s.workingBuffer 1 = 0xFD#8 ∧
      (∀ a ∈ s.passAccesses [0x00#8, 0x03#8], a.InBounds) ∧
        ∃ taken, taken ≠ [] ∧
          [0x00#8, 0x03#8] = taken ++ (s.pass (fun _ => 0#16) [0x00#8, 0x03#8]).2 := by
  let stream : List (List Byte) :=
    [[0x02#8], [0xFD#8], List.replicate 256 0x00#8, [0x00#8, 0x03#8]]
  have hstart : Point (fun _ => 0#16) (fun _ => 0#8) stream _ stream := .start
  have hheader := (hstart.pass (List.cons_ne_nil _ _)).nextChunk
  have hlength := (hheader.pass (List.cons_ne_nil _ _)).nextChunk
  generalize hparser : (VescParser.pass _ _ _).1 = s at hlength
  have hfill : s.workingBufferFill.toNat = 2 := by rw [← hparser]; rfl
  have hcode : (s.workingBuffer 1).toNat = 253 := by rw [← hparser]; rfl
  obtain ⟨hnil, hfill', hcode'⟩ := @pass_wraps s (fun _ => 0#16) hlength.inFrame hfill hcode
    (List.replicate 256 0x00#8) List.length_replicate
  have hcopied := hlength.pass (List.cons_ne_nil _ _)
  rw [hnil] at hcopied
  exact ⟨_, BitVec.eq_of_toNat_eq hfill', BitVec.eq_of_toNat_eq hcode',
    vesc_parser_in_bounds hcopied.nextChunk (List.cons_ne_nil _ _)⟩

end OpenMower
