import OpenMower.Library.Buffer
import OpenMower.Library.Chunks
import OpenMower.Library.Search
import OpenMower.Portable.Integers

/-!
# The u-blox driver: framing

From `drivers/gps/ublox_gps_driver`. `ubxSendPacket` is the frame that `SendPacket` builds, and
`UbxParser` the state of `ProcessBytes`. An iteration of its loop looks for one of the two header
bytes, copies what the chunk has of the first six bytes, or copies what it has of the rest and
checks the frame when it is complete. The early returns come only when nothing is left of the
chunk; the number of bytes that `ProcessBytes` asks for is not used by its caller and is left
out, and so is what `ProcessUbxPacket` makes of a packet.

The accesses to the buffer, the subtractions of `size_t` and the calls of `ValidateChecksum` are
recorded, so that one can ask whether they are in bounds.
-/

namespace OpenMower

open Buffer Search

/-- One round of the checksum. -/
def checksumStep (ck : Byte × Byte) (b : Byte) : Byte × Byte := (ck.1 + b, ck.2 + (ck.1 + b))

/-- `CalculateChecksum`. -/
def calculateChecksum (packet : List Byte) : Byte × Byte := packet.foldl checksumStep (0#8, 0#8)

/-- `SendPacket`: the header, the length and the checksum are written into the frame. -/
def ubxSendPacket (frame : List Byte) : List Byte :=
  let size := frame.length
  let length := BitVec.ofNat 16 (size - 8)
  let frame := (frame.set 0 0xb5#8).set 1 0x62#8
  let frame := (frame.set 4 (length.setWidth 8)).set 5 ((length >>> 8).setWidth 8)
  let ck := calculateChecksum ((frame.drop 2).take (size - 4))
  (frame.set (size - 2) ck.1).set (size - 1) ck.2

/-- `sizeof(gbuffer_)`. -/
def gbufferSize : ℕ := 512

/-- What can go out of bounds. -/
inductive UbxAccess
  /-- A write to `gbuffer_`. -/
  | write (start size : ℕ)
  /-- A subtraction of `size_t`. -/
  | subtract (a b : ℕ)
  /-- A call of `ValidateChecksum`. -/
  | validateChecksum (size : ℕ)
  deriving DecidableEq, Repr

/-- The write is inside the buffer, the subtraction does not underflow, and a checked frame has
a header, a length and a checksum and is inside the buffer. -/
def UbxAccess.InBounds : UbxAccess → Prop
  | .write start size => start + size ≤ gbufferSize
  | .subtract a b => b ≤ a
  | .validateChecksum size => 8 ≤ size ∧ size ≤ gbufferSize

/-- The state of the parser. -/
structure UbxParser where
  gbuffer : ℕ → Byte
  gbufferFill : ℕ
  foundHeader : Bool
  /-- History: what could have gone out of bounds. -/
  accesses : List UbxAccess
  /-- History: the calls of `ProcessUbxPacket`. -/
  packets : List (List Byte)

namespace UbxParser

/-- The parser as it is created. -/
def start : UbxParser where
  gbuffer := fun _ => 0#8
  gbufferFill := 0
  foundHeader := false
  accesses := []
  packets := []

variable (s : UbxParser)

/-- `found_header_ = false; gbuffer_fill = 0`. -/
def reset : UbxParser := { s with foundHeader := false, gbufferFill := 0 }

/-- Records accesses. -/
def record (accesses : List UbxAccess) : UbxParser :=
  { s with accesses := s.accesses ++ accesses }

/-- `memcpy` behind what is in the buffer, and `gbuffer_fill += n`. -/
def append (data : List Byte) : UbxParser :=
  { s with
    gbuffer := writeAt s.gbuffer s.gbufferFill data
    gbufferFill := s.gbufferFill + data.length
    accesses := s.accesses ++ [.write s.gbufferFill data.length] }

/-- `case 0`: everything before the first header byte is thrown away. -/
def findFirst (chunk : List Byte) : UbxParser × List Byte :=
  match memchr chunk 0xb5#8 with
  | none => (s, [])
  | some i => (s.append [0xb5#8], chunk.drop (i + 1))

/-- `case 1`: the second header byte, or another byte, which is thrown away. -/
def findSecond : List Byte → UbxParser × List Byte
  | [] => (s, [])
  | b :: rest =>
    -- the byte is taken even if it could be the first one of another header
    (if b = 0x62#8 then { s.append [b] with foundHeader := true }
      else { s with gbufferFill := 0 }, rest)

/-- The search for the two header bytes. -/
def findHeader (chunk : List Byte) : UbxParser × List Byte :=
  if s.gbufferFill = 0 then s.findFirst chunk
  else if s.gbufferFill = 1 then s.findSecond chunk
  -- the default case, which no run gets to
  else ({ s with gbufferFill := 0 }, chunk.drop 1)

/-- The first six bytes, which have the length. -/
def takeLength (chunk : List Byte) : UbxParser × List Byte :=
  let n := min chunk.length (sizeSub 6 s.gbufferFill)
  ((s.record [.subtract 6 s.gbufferFill]).append (chunk.take n), chunk.drop n)

/-- `payload_length`, which is sent with the low byte first. -/
def payloadLength : BitVec 16 :=
  (s.gbuffer 5).setWidth 16 <<< 8 ||| (s.gbuffer 4).setWidth 16

/-- `total_length`, with 16 bits like the length of the payload. -/
def totalLength : BitVec 16 := s.payloadLength + 8#16

/-- `ValidateChecksum`, for the buffer. -/
def validateChecksum (size : ℕ) : Bool :=
  let ck := calculateChecksum (slice s.gbuffer 2 (sizeSub size 4))
  decide (s.gbuffer (sizeSub size 2) = ck.1 ∧ s.gbuffer (sizeSub size 1) = ck.2)

/-- A complete frame is checked, and its content is processed. -/
def processFrame (size : ℕ) : UbxParser :=
  let s' := s.record [.validateChecksum size, .subtract size 4, .subtract size 2]
  if s.validateChecksum size then
    { (s'.record [.subtract s.gbufferFill 4]).reset with
      packets := s.packets ++ [slice s.gbuffer 2 (sizeSub s.gbufferFill 4)] }
  else s'.reset

/-- The rest of the frame. A frame that is too long is given up, and the loop goes on with the
same bytes. -/
def takeFrame (chunk : List Byte) : UbxParser × List Byte :=
  let totalLength := s.totalLength.toNat
  if gbufferSize < totalLength then (s.reset, chunk)
  else
    -- the difference is that of `size_t`, also for a total that has wrapped
    let n := min chunk.length (sizeSub totalLength s.gbufferFill)
    let s' := (s.record [.subtract totalLength s.gbufferFill]).append (chunk.take n)
    (if s'.gbufferFill < totalLength then s' else s'.processFrame totalLength, chunk.drop n)

/-- An iteration of the loop in `ProcessBytes`. -/
def iteration (chunk : List Byte) : UbxParser × List Byte :=
  if s.foundHeader = false then s.findHeader chunk
  else if s.gbufferFill < 6 then s.takeLength chunk
  else s.takeFrame chunk

/-- One iteration, or two where the first one gives up a frame without taking a byte. -/
def pass (chunk : List Byte) : UbxParser × List Byte :=
  let next := s.iteration chunk
  if next.2.length = chunk.length then next.1.iteration chunk else next

variable {s}

@[simp] theorem reset_fill : s.reset.gbufferFill = 0 := rfl

@[simp] theorem reset_foundHeader : s.reset.foundHeader = false := rfl

@[simp] theorem record_fill {l : List UbxAccess} : (s.record l).gbufferFill = s.gbufferFill := rfl

@[simp] theorem record_packets {l : List UbxAccess} : (s.record l).packets = s.packets := rfl

@[simp]
theorem append_fill {data : List Byte} :
    (s.append data).gbufferFill = s.gbufferFill + data.length := rfl

@[simp]
theorem append_foundHeader {data : List Byte} : (s.append data).foundHeader = s.foundHeader := rfl

@[simp] theorem append_packets {data : List Byte} : (s.append data).packets = s.packets := rfl

/-- What is in the buffer stays there. -/
theorem append_gbuffer {data : List Byte} {i : ℕ} (h : i < s.gbufferFill) :
    (s.append data).gbuffer i = s.gbuffer i := writeAt_of_lt h

@[simp]
theorem processFrame_fill {size : ℕ} : (s.processFrame size).gbufferFill = 0 := by
  rw [processFrame]
  split <;> rfl

@[simp]
theorem processFrame_foundHeader {size : ℕ} : (s.processFrame size).foundHeader = false := by
  rw [processFrame]
  split <;> rfl

/-! ### Each iteration -/

/-- The header byte is in the chunk, or there is none. -/
theorem findHeader_zero (h : s.gbufferFill = 0) (chunk : List Byte) :
    (0xb5#8 ∉ chunk ∧ s.findHeader chunk = (s, [])) ∨
      ∃ before after, chunk = before ++ 0xb5#8 :: after ∧ 0xb5#8 ∉ before ∧
        s.findHeader chunk = (s.append [0xb5#8], after) := by
  rw [findHeader, if_pos h, findFirst]
  rcases memchr_cases chunk 0xb5#8 with ⟨hnot, hnone⟩ | ⟨before, after, rfl, hnot, hsome⟩
  · exact .inl ⟨hnot, by rw [hnone]⟩
  · refine .inr ⟨before, after, rfl, hnot, ?_⟩
    rw [hsome]
    dsimp only
    rw [List.append_cons, List.drop_left' (by simp)]

theorem findHeader_one (h : s.gbufferFill = 1) (b : Byte) (rest : List Byte) :
    s.findHeader (b :: rest) =
      (if b = 0x62#8 then { s.append [b] with foundHeader := true }
        else { s with gbufferFill := 0 }, rest) := by
  rw [findHeader, if_neg (by omega), if_pos h, findSecond]

/-- Looking for a header takes something. -/
theorem findHeader_takes {chunk : List Byte} (h : chunk ≠ []) :
    ∃ taken, taken ≠ [] ∧ chunk = taken ++ (s.findHeader chunk).2 := by
  obtain ⟨b, rest, rfl⟩ := List.exists_cons_of_ne_nil h
  by_cases hzero : s.gbufferFill = 0
  · rcases findHeader_zero hzero (b :: rest) with ⟨-, heq⟩ | ⟨before, after, hsplit, -, heq⟩
    · exact ⟨b :: rest, h, by rw [heq, List.append_nil]⟩
    · exact ⟨before ++ [0xb5#8], by simp, by rw [heq, hsplit]; simp⟩
  · refine ⟨[b], by simp, ?_⟩
    by_cases hone : s.gbufferFill = 1
    · rw [findHeader_one hone]
      rfl
    · rw [findHeader, if_neg hzero, if_neg hone]
      rfl

/-- An iteration takes something, or it leaves the chunk and looks for a header next. -/
theorem iteration_takes {chunk : List Byte} (h : chunk ≠ []) :
    (∃ taken, taken ≠ [] ∧ chunk = taken ++ (s.iteration chunk).2) ∨
      ((s.iteration chunk).2 = chunk ∧ (s.iteration chunk).1.foundHeader = false) := by
  have hpos := List.length_pos_iff.mpr h
  rw [iteration]
  split
  · exact .inl (findHeader_takes h)
  split
  · next hlt =>
    refine .inl (Consumer.takes_drop h ?_)
    rw [sizeSub]
    omega
  · rw [takeFrame]
    dsimp only
    split
    · exact .inr ⟨rfl, rfl⟩
    · by_cases hn : min chunk.length (sizeSub s.totalLength.toNat s.gbufferFill) = 0
      · -- the whole frame is in the buffer already
        have hlt : s.totalLength.toNat < 2 ^ 16 := s.totalLength.isLt
        have hle : s.totalLength.toNat ≤ s.gbufferFill := by
          rw [sizeSub] at hn
          omega
        refine .inr ⟨by rw [hn, List.drop_zero], ?_⟩
        have hdone : ¬ s.gbufferFill + 0 < s.totalLength.toNat := by omega
        simp only [hn, List.take_zero, append_fill, record_fill, List.length_nil, if_neg hdone,
          processFrame_foundHeader]
      · exact .inl (Consumer.takes_drop h (Nat.pos_of_ne_zero hn))

/-- Every pass takes at least one byte. -/
theorem pass_takes {chunk : List Byte} (h : chunk ≠ []) :
    ∃ taken, taken ≠ [] ∧ chunk = taken ++ (s.pass chunk).2 := by
  rw [pass]
  split
  · next hsame =>
    rcases @iteration_takes s chunk h with ⟨taken, hne, hsplit⟩ | ⟨-, hheader⟩
    · have hpos := List.length_pos_iff.mpr hne
      have hlen := congrArg List.length hsplit
      rw [List.length_append] at hlen
      omega
    · rw [iteration, if_pos hheader]
      exact findHeader_takes h
  · next hdiff =>
    rcases @iteration_takes s chunk h with htaken | ⟨hsame, -⟩
    · exact htaken
    · exact absurd (congrArg List.length hsame) hdiff

/-- A pass whose first iteration takes something. -/
theorem pass_eq_iteration {chunk taken : List Byte} (hne : taken ≠ [])
    (h : chunk = taken ++ (s.iteration chunk).2) : s.pass chunk = s.iteration chunk := by
  have hpos := List.length_pos_iff.mpr hne
  have hlen := congrArg List.length h
  rw [List.length_append] at hlen
  rw [pass, if_neg (by omega)]

end UbxParser

/-- The loop of `ProcessBytes`. -/
def ubxConsumer : Consumer UbxParser Byte where
  pass := UbxParser.pass
  pass_takes _ _ h := UbxParser.pass_takes h

/-- `ProcessBytes`. -/
def UbxParser.processBytes (s : UbxParser) (buffer : List Byte) : UbxParser :=
  ubxConsumer.feed s buffer

/-- `ProcessBytes` for one chunk after the other. -/
def ubxProcessChunks (s : UbxParser) (chunks : List (List Byte)) : UbxParser :=
  chunks.foldl UbxParser.processBytes s

end OpenMower
