import OpenMower.Library.Buffer
import OpenMower.Library.Chunks
import OpenMower.Portable.Integers

/-!
# The VESC driver: framing

From `drivers/motor/vesc/VescDriver`. `sendPacket` is the frame that `SendPacket` builds, and
`VescParser` the state of `ProcessBytes`, whose loop is a `Consumer` of chunks. A pass of the
loop looks for the header, reads the length, or copies what the chunk has of the rest of the
frame; the fill level is an 8-bit counter.

`crc16` is a parameter. What `ProcessPayload` does with an accepted payload is left out; the
payload itself is recorded.

`InFrame` is the invariant of the loop, and the states of the consumer carry it: without it a
pass might take nothing. `takePayload_eq` says what a pass that copies does.
-/

namespace OpenMower

open Buffer

/-- The state of the parser. -/
structure VescParser where
  workingBuffer : ℕ → Byte
  workingBufferFill : Byte
  /-- History: the payloads that have passed the checks of `ProcessPayload`. -/
  accepted : List (List Byte)

namespace VescParser

variable (crc16 : List Byte → BitVec 16) (s : VescParser)

/-- `working_buffer_fill_ = 0`. -/
def reset : VescParser := { s with workingBufferFill := 0#8 }

/-- The checks of `ProcessPayload`. -/
def processPayload : VescParser :=
  let fill := s.workingBufferFill.toNat
  let payloadLength := (s.workingBuffer 1).toNat
  if payloadLength + 5 ≠ fill then s.reset
  else if s.workingBuffer 0 ≠ 0x02#8 ∨ s.workingBuffer (fill - 1) ≠ 0x03#8 then s.reset
  else
    let payload := slice s.workingBuffer 2 payloadLength
    let actualCRC := (s.workingBuffer (fill - 3)).setWidth 16 <<< 8 |||
      (s.workingBuffer (fill - 2)).setWidth 16
    if crc16 payload ≠ actualCRC then s.reset
    else { s.reset with accepted := s.accepted ++ [payload] }

/-- `memcpy` behind what is in the buffer, and `working_buffer_fill_ += n`. -/
def append (data : List Byte) : VescParser :=
  { s with
    workingBuffer := writeAt s.workingBuffer s.workingBufferFill.toNat data
    workingBufferFill := s.workingBufferFill + BitVec.ofNat 8 data.length }

/-- `case 0`: everything before the header is thrown away. -/
def findHeader (chunk : List Byte) : VescParser × List Byte :=
  match chunk.dropWhile fun b => decide (b ≠ 0x02#8) with
  | [] => (s, [])
  | b :: rest => (s.append [b], rest)

/-- `case 1`. -/
def readLength : List Byte → VescParser × List Byte
  | [] => (s, [])
  | b :: rest => (s.append [b], rest)

/-- `bytes_to_take`, with the arithmetic of `size_t`. -/
def bytesToTake (len : ℕ) : ℕ :=
  let payloadLength := (s.workingBuffer 1).setWidth 32
  let payloadInBuffer := s.workingBufferFill.setWidth 32 - 2#32
  min len (payloadLength - payloadInBuffer + 3#32).toNat

/-- The default case. -/
def takePayload (chunk : List Byte) : VescParser × List Byte :=
  let n := s.bytesToTake chunk.length
  let s' := s.append (chunk.take n)
  (if (s.workingBuffer 1).setWidth 32 + 5#32 = s'.workingBufferFill.setWidth 32 then
      (s'.processPayload crc16).reset
    else s', chunk.drop n)

/-- A pass of the loop in `ProcessBytes`. -/
def pass (chunk : List Byte) : VescParser × List Byte :=
  if s.workingBufferFill = 0#8 then s.findHeader chunk
  else if s.workingBufferFill = 1#8 then s.readLength chunk
  else s.takePayload crc16 chunk

/-- Inside a frame the fill level is below the length of the frame. -/
def InFrame : Prop :=
  2 ≤ s.workingBufferFill.toNat → s.workingBufferFill.toNat < (s.workingBuffer 1).toNat + 5

variable {crc16 s}

@[simp] theorem reset_workingBufferFill : s.reset.workingBufferFill = 0#8 := rfl

@[simp] theorem reset_accepted : s.reset.accepted = s.accepted := rfl

@[simp] theorem append_accepted {data : List Byte} : (s.append data).accepted = s.accepted := rfl

@[simp]
theorem append_fill {data : List Byte} : (s.append data).workingBufferFill.toNat =
    (s.workingBufferFill.toNat + data.length) % 256 := by
  simp [append]

/-- What is in the buffer stays there. -/
theorem append_workingBuffer {data : List Byte} {i : ℕ} (h : i < s.workingBufferFill.toNat) :
    (s.append data).workingBuffer i = s.workingBuffer i := writeAt_of_lt h

theorem inFrame_of_lt_two (h : s.workingBufferFill.toNat < 2) : s.InFrame :=
  fun hge => absurd hge (by omega)

theorem reset_inFrame : s.reset.InFrame := inFrame_of_lt_two (by simp)

/-- Inside a frame the subtraction does not underflow, and the rest of the frame is taken, as
far as the chunk has it. -/
theorem bytesToTake_eq (h : s.InFrame) (htwo : 2 ≤ s.workingBufferFill.toNat) (len : ℕ) :
    s.bytesToTake len =
      min len ((s.workingBuffer 1).toNat + 5 - s.workingBufferFill.toNat) := by
  have hlt := h htwo
  have hfill : s.workingBufferFill.toNat < 256 := s.workingBufferFill.isLt
  have hlength : (s.workingBuffer 1).toNat < 256 := (s.workingBuffer 1).isLt
  rw [bytesToTake]
  congr 1
  simp only [BitVec.toNat_add, BitVec.toNat_sub, BitVec.toNat_setWidth, BitVec.toNat_ofNat]
  omega

/-- **A pass that copies.** It takes at least one byte, and if the frame is then complete the
payload is processed. -/
theorem takePayload_eq (h : s.InFrame) (htwo : 2 ≤ s.workingBufferFill.toNat)
    {chunk : List Byte} (hchunk : chunk ≠ []) :
    ∃ taken, taken ≠ [] ∧ chunk = taken ++ (s.takePayload crc16 chunk).2 ∧
      taken.length = min chunk.length
        ((s.workingBuffer 1).toNat + 5 - s.workingBufferFill.toNat) ∧
      (s.takePayload crc16 chunk).1 =
        if (s.workingBuffer 1).toNat + 5 = (s.append taken).workingBufferFill.toNat then
          ((s.append taken).processPayload crc16).reset
        else s.append taken := by
  have hlt := h htwo
  have hpos := List.length_pos_iff.mpr hchunk
  have htake := bytesToTake_eq h htwo chunk.length
  have hcond : ∀ t : VescParser,
      (s.workingBuffer 1).setWidth 32 + 5#32 = t.workingBufferFill.setWidth 32 ↔
        (s.workingBuffer 1).toNat + 5 = t.workingBufferFill.toNat := by
    intro t
    rw [← BitVec.toNat_inj]
    simp only [BitVec.toNat_add, BitVec.toNat_setWidth, BitVec.toNat_ofNat]
    have hfill : t.workingBufferFill.toNat < 256 := t.workingBufferFill.isLt
    have hlength : (s.workingBuffer 1).toNat < 256 := (s.workingBuffer 1).isLt
    omega
  have hlen : (chunk.take (s.bytesToTake chunk.length)).length =
      min chunk.length ((s.workingBuffer 1).toNat + 5 - s.workingBufferFill.toNat) := by
    rw [List.length_take, htake]
    omega
  refine ⟨chunk.take (s.bytesToTake chunk.length), ?_, ?_, hlen, ?_⟩
  · refine List.length_pos_iff.mp ?_
    omega
  · exact (List.take_append_drop _ _).symm
  · rw [takePayload]
    exact if_congr (hcond _) rfl rfl

/-- The header is at the front of the rest, or there is none in the chunk. -/
theorem findHeader_eq (chunk : List Byte) :
    ((∀ b ∈ chunk, b ≠ 0x02#8) ∧ s.findHeader chunk = (s, [])) ∨
      ∃ skipped rest, chunk = skipped ++ 0x02#8 :: rest ∧ (∀ b ∈ skipped, b ≠ 0x02#8) ∧
        s.findHeader chunk = (s.append [0x02#8], rest) := by
  induction chunk with
  | nil => exact .inl ⟨by simp, rfl⟩
  | cons b chunk ih =>
    by_cases hb : b = 0x02#8
    · subst hb
      exact .inr ⟨[], chunk, rfl, by simp, by simp [findHeader]⟩
    · have hskip : s.findHeader (b :: chunk) = s.findHeader chunk := by
        simp only [findHeader, List.dropWhile_cons, ne_eq, hb, not_false_eq_true, decide_true,
          if_true]
      rw [hskip]
      rcases ih with ⟨hnone, heq⟩ | ⟨skipped, rest, rfl, hskipped, heq⟩
      · exact .inl ⟨List.forall_mem_cons.mpr ⟨hb, hnone⟩, heq⟩
      · exact .inr ⟨b :: skipped, rest, rfl, List.forall_mem_cons.mpr ⟨hb, hskipped⟩, heq⟩

theorem append_inFrame (h : s.workingBufferFill.toNat < 2) (b : Byte) : (s.append [b]).InFrame := by
  intro htwo
  rw [append_fill] at htwo ⊢
  simp only [List.length_singleton] at htwo ⊢
  omega

/-- **What a pass does**: no header in the chunk, the header, the length, or the rest of the
frame. -/
theorem pass_cases (h : s.InFrame) {chunk : List Byte} (hchunk : chunk ≠ []) :
    (s.workingBufferFill = 0#8 ∧ (∀ b ∈ chunk, b ≠ 0x02#8) ∧ s.pass crc16 chunk = (s, [])) ∨
    (s.workingBufferFill = 0#8 ∧ ∃ skipped rest, chunk = skipped ++ 0x02#8 :: rest ∧
      (∀ b ∈ skipped, b ≠ 0x02#8) ∧ s.pass crc16 chunk = (s.append [0x02#8], rest)) ∨
    (s.workingBufferFill.toNat = 1 ∧ ∃ b rest, chunk = b :: rest ∧
      s.pass crc16 chunk = (s.append [b], rest)) ∨
    (2 ≤ s.workingBufferFill.toNat ∧ ∃ taken rest, taken ≠ [] ∧ chunk = taken ++ rest ∧
      taken.length = min chunk.length
        ((s.workingBuffer 1).toNat + 5 - s.workingBufferFill.toNat) ∧
      s.pass crc16 chunk =
        (if (s.workingBuffer 1).toNat + 5 = (s.append taken).workingBufferFill.toNat then
            ((s.append taken).processPayload crc16).reset
          else s.append taken, rest)) := by
  rw [pass]
  split
  · next hzero =>
    rcases @findHeader_eq s chunk with ⟨hnone, heq⟩ | hheader
    · exact .inl ⟨hzero, hnone, heq⟩
    · exact .inr (.inl ⟨hzero, hheader⟩)
  split
  · next hone =>
    obtain ⟨b, rest, rfl⟩ := List.exists_cons_of_ne_nil hchunk
    exact .inr (.inr (.inl ⟨by simp [hone], b, rest, rfl, rfl⟩))
  · next hzero hone =>
    have htwo : 2 ≤ s.workingBufferFill.toNat := by bv_omega
    obtain ⟨taken, hne, hsplit, hlen, heq⟩ := @takePayload_eq crc16 s h htwo chunk hchunk
    exact .inr (.inr (.inr ⟨htwo, taken, _, hne, hsplit, hlen, Prod.ext heq rfl⟩))

/-- **The loop keeps the invariant.** -/
theorem InFrame.pass (h : s.InFrame) {chunk : List Byte} (hchunk : chunk ≠ []) :
    (s.pass crc16 chunk).1.InFrame := by
  rcases @pass_cases crc16 s h chunk hchunk with
    ⟨-, -, heq⟩ | ⟨hzero, -, rest, -, -, heq⟩ | ⟨hone, b, rest, -, heq⟩ |
    ⟨htwo, taken, rest, -, -, hlen, heq⟩
  · rw [heq]
    exact h
  · rw [heq]
    exact append_inFrame (by simp [hzero]) _
  · rw [heq]
    exact append_inFrame (by omega) b
  · rw [heq]
    split
    · exact reset_inFrame
    · next hne =>
      intro _
      have hlt := h htwo
      rw [append_fill] at hne ⊢
      rw [append_workingBuffer (by omega)]
      omega

/-- Every pass takes at least one byte. -/
theorem pass_takes (h : s.InFrame) {chunk : List Byte} (hchunk : chunk ≠ []) :
    ∃ taken, taken ≠ [] ∧ chunk = taken ++ (s.pass crc16 chunk).2 := by
  rcases @pass_cases crc16 s h chunk hchunk with
    ⟨-, -, heq⟩ | ⟨-, skipped, rest, hsplit, -, heq⟩ | ⟨-, b, rest, hsplit, heq⟩ |
    ⟨-, taken, rest, hne, hsplit, -, heq⟩
  · exact ⟨chunk, hchunk, by rw [heq, List.append_nil]⟩
  · exact ⟨skipped ++ [0x02#8], by simp, by rw [heq, hsplit]; simp⟩
  · exact ⟨[b], by simp, by rw [heq, hsplit]; rfl⟩
  · exact ⟨taken, hne, by rw [heq, hsplit]⟩

end VescParser

/-- A state of the parser that the loop can be in. -/
abbrev VescState : Type := { s : VescParser // s.InFrame }

/-- The loop of `ProcessBytes`. -/
def vescConsumer (crc16 : List Byte → BitVec 16) : Consumer VescState Byte where
  pass s chunk :=
    if h : chunk = [] then (s, [])
    else (⟨(s.val.pass crc16 chunk).1, s.property.pass h⟩, (s.val.pass crc16 chunk).2)
  pass_takes s chunk h := by
    simp only [dif_neg h]
    exact VescParser.pass_takes s.property h

theorem vescConsumer_pass {crc16 : List Byte → BitVec 16} (s : VescState) {chunk : List Byte}
    (h : chunk ≠ []) : ((vescConsumer crc16).pass s chunk).1.val = (s.val.pass crc16 chunk).1 ∧
      ((vescConsumer crc16).pass s chunk).2 = (s.val.pass crc16 chunk).2 := by
  simp only [vescConsumer, dif_neg h, and_self]

/-- `ProcessBytes`: whether more bytes are expected, and the state afterwards. -/
def processBytes (crc16 : List Byte → BitVec 16) (s : VescState) (buffer : List Byte) :
    Bool × VescState :=
  if buffer = [] then (true, s)
  else
    let s' := (vescConsumer crc16).feed s buffer
    (decide (s'.val.workingBufferFill ≠ 0#8), s')

/-- `ProcessBytes` for one chunk after the other. -/
def processChunks (crc16 : List Byte → BitVec 16) (s : VescState) (chunks : List (List Byte)) :
    VescState :=
  chunks.foldl (fun s buffer => (processBytes crc16 s buffer).2) s

theorem processChunks_eq (crc16 : List Byte → BitVec 16) (s : VescState)
    (chunks : List (List Byte)) :
    processChunks crc16 s chunks = (vescConsumer crc16).feedAll s chunks := by
  have hfeed : (fun (s : VescState) buffer => (processBytes crc16 s buffer).2) =
      (vescConsumer crc16).feed := by
    funext s buffer
    rw [processBytes]
    split
    · next hnil => rw [hnil, Consumer.feed_nil]
    · rfl
  rw [processChunks, hfeed, Consumer.feedAll]

/-- The frame that `SendPacket` builds. -/
def sendPacket (crc16 : List Byte → BitVec 16) (payload : List Byte) : List Byte :=
  let crcPayload := crc16 payload
  [0x02#8, BitVec.ofNat 8 payload.length] ++ payload ++
    [(crcPayload >>> 8).setWidth 8, (crcPayload &&& 0xFF#16).setWidth 8, 0x03#8]

end OpenMower
