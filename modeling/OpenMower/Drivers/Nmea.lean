import OpenMower.Library.Buffer
import OpenMower.Library.Chunks
import OpenMower.Library.Search
import OpenMower.Portable.Integers

/-!
# The NMEA driver: lines

From `drivers/gps/nmea_gps_driver`. `ProcessBytes` looks for the dollar sign of a sentence and for
the newline at its end; a sentence that is cut off by the end of the chunk is kept for the next
call. A line that does not fit the buffer is dropped, and the search goes on one byte further.

`ProcessLine` gets the buffer, so what is recorded of a call is the whole buffer. What it makes
of the line, and the number of bytes that `ProcessBytes` asks for, which is always 1, are left
out.
-/

namespace OpenMower

open Buffer Search

/-- The dollar sign. -/
def dollar : Byte := 0x24#8

/-- The end of a line. -/
def newline : Byte := 0x0A#8

/-- `sizeof(line)`. -/
def lineSize : ℕ := 512

/-- The state of the parser. -/
structure NmeaParser where
  line : ℕ → Byte
  lineLen : ℕ
  /-- History: the buffer in each call of `ProcessLine`. -/
  calls : List (List Byte)

namespace NmeaParser

variable (s : NmeaParser)

/-- The parser as it is created. -/
def start : NmeaParser where
  line := fun _ => 0#8
  lineLen := 0
  calls := []

/-- `memcpy` behind what is in the line, and `line_len += n`. -/
def append (data : List Byte) : NmeaParser :=
  { s with
    line := writeAt s.line s.lineLen data
    lineLen := s.lineLen + data.length }

/-- The line is dropped. -/
def drop : NmeaParser := { s with lineLen := 0 }

/-- The line is terminated and processed. -/
def processLine : NmeaParser :=
  let line := Function.update s.line s.lineLen 0x00#8
  { line, lineLen := 0, calls := s.calls ++ [slice line 0 lineSize] }

/-- The start of the line is in the buffer of the parser or at the front of the chunk. -/
def takeLine (buffer : List Byte) : NmeaParser × List Byte :=
  match memchr buffer newline with
  | some i =>
    let bytesToTake := i + 1
    if s.lineLen + bytesToTake + 1 ≤ lineSize then
      ((s.append (buffer.take bytesToTake)).processLine, buffer.drop bytesToTake)
    -- only one byte is skipped, so that the next dollar sign is not missed
    else (s.drop, buffer.drop 1)
  | none =>
    -- room for the newline and the terminator is kept
    if s.lineLen + buffer.length + 2 ≤ lineSize then (s.append buffer, [])
    else (s.drop, buffer.drop 1)

/-- A pass of the loop in `ProcessBytes`. -/
def pass (chunk : List Byte) : NmeaParser × List Byte :=
  if s.lineLen = 0 then
    match memchr chunk dollar with
    | some i => s.takeLine (chunk.drop i)
    | none => (s, [])
  else s.takeLine chunk

variable {s}

@[simp] theorem append_lineLen {data : List Byte} :
    (s.append data).lineLen = s.lineLen + data.length := rfl

@[simp] theorem append_calls {data : List Byte} : (s.append data).calls = s.calls := rfl

/-- At least one byte is taken. -/
theorem takeLine_takes {buffer : List Byte} (h : buffer ≠ []) :
    ∃ taken, taken ≠ [] ∧ buffer = taken ++ (s.takeLine buffer).2 := by
  rw [takeLine]
  split
  · dsimp only
    split
    · exact Consumer.takes_drop h (Nat.succ_pos _)
    · exact Consumer.takes_drop h Nat.one_pos
  · split
    · exact ⟨buffer, h, (List.append_nil _).symm⟩
    · exact Consumer.takes_drop h Nat.one_pos

/-- **What a pass does**: there is no dollar sign to begin with, or a line is taken from the
first one on, or from where the last chunk has ended. -/
theorem pass_cases (s : NmeaParser) (chunk : List Byte) :
    (s.lineLen = 0 ∧ dollar ∉ chunk ∧ s.pass chunk = (s, [])) ∨
    (s.lineLen = 0 ∧ ∃ before after, chunk = before ++ dollar :: after ∧ dollar ∉ before ∧
      s.pass chunk = s.takeLine (dollar :: after)) ∨
    (s.lineLen ≠ 0 ∧ s.pass chunk = s.takeLine chunk) := by
  rw [pass]
  split
  · next hzero =>
    rcases memchr_cases chunk dollar with ⟨hnot, hnone⟩ | ⟨before, after, rfl, hnot, hsome⟩
    · exact .inl ⟨hzero, hnot, by rw [hnone]⟩
    · refine .inr (.inl ⟨hzero, before, after, rfl, hnot, ?_⟩)
      rw [hsome]
      dsimp only
      rw [List.drop_left]
  · next hpos => exact .inr (.inr ⟨hpos, rfl⟩)

/-- Every pass takes at least one byte. -/
theorem pass_takes {chunk : List Byte} (h : chunk ≠ []) :
    ∃ taken, taken ≠ [] ∧ chunk = taken ++ (s.pass chunk).2 := by
  rcases s.pass_cases chunk with ⟨-, -, heq⟩ | ⟨-, before, after, rfl, -, heq⟩ | ⟨-, heq⟩
  · exact ⟨chunk, h, by rw [heq, List.append_nil]⟩
  · obtain ⟨taken, hne, hsplit⟩ := @takeLine_takes s _ (List.cons_ne_nil dollar after)
    refine ⟨before ++ taken, fun hnil => hne (List.append_eq_nil_iff.mp hnil).2, ?_⟩
    rw [heq, List.append_assoc, ← hsplit]
  · rw [heq]
    exact takeLine_takes h

/-- What is kept leaves room for the newline and the terminator. -/
theorem takeLine_lineLen_le (buffer : List Byte) : (s.takeLine buffer).1.lineLen ≤ 510 := by
  rw [takeLine]
  split
  · dsimp only
    split <;> exact Nat.zero_le _
  · split
    · next hfits =>
      rw [lineSize] at hfits
      dsimp only [append_lineLen]
      omega
    · exact Nat.zero_le _

theorem pass_lineLen_le (h : s.lineLen ≤ 510) (chunk : List Byte) :
    (s.pass chunk).1.lineLen ≤ 510 := by
  rcases s.pass_cases chunk with ⟨-, -, heq⟩ | ⟨-, before, after, -, -, heq⟩ | ⟨-, heq⟩
  · rwa [heq]
  · rw [heq]
    exact takeLine_lineLen_le _
  · rw [heq]
    exact takeLine_lineLen_le _

end NmeaParser

/-- The loop of `ProcessBytes`. -/
def nmeaConsumer : Consumer NmeaParser Byte where
  pass := NmeaParser.pass
  pass_takes _ _ h := NmeaParser.pass_takes h

/-- `ProcessBytes`. -/
def NmeaParser.processBytes (s : NmeaParser) (buffer : List Byte) : NmeaParser :=
  nmeaConsumer.feed s buffer

end OpenMower
