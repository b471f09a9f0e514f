import OpenMower.Parsers.UbxFrames

/-!
# UBX framing

Frames come back to back, some of them with a corrupted checksum, and are fed to `ProcessBytes` in
chunks. `UbxProgress` says how far the parser has got, by what is still to come. Each pass keeps
it, wherever the stream is cut, so that `ProcessUbxPacket` is called exactly for the frames that
are intact (`ubx_framing`).
-/

namespace OpenMower

open UbxParser

/-- What is to be processed. -/
def intactContents (frames : List UbxFrame) : List (List Byte) :=
  (frames.filter fun frame => frame.Intact).map UbxFrame.content

/-- Frames back to back. -/
def ubxStream (frames : List UbxFrame) : List Byte := frames.flatMap UbxFrame.bytes

/-- How far the parser is with a stream of frames of which `rest` is still to come. -/
inductive UbxProgress (frames : List UbxFrame) (s : UbxParser) (rest : List Byte) : Prop
  /-- Nothing is to come. -/
  | finished (hpackets : s.packets = intactContents frames) (hrest : rest = [])
  /-- The first part of a frame is in the buffer. -/
  | inside (done : List UbxFrame) (frame : UbxFrame) (todo : List UbxFrame)
      (held more : List Byte) (hall : done ++ frame :: todo = frames)
      (hpackets : s.packets = intactContents done) (hheld : Holding s held)
      (hframe : held ++ more = frame.bytes) (hmore : more ≠ [])
      (hrest : rest = more ++ ubxStream todo)

theorem UbxFrame.bytes_ne_nil (frame : UbxFrame) : frame.bytes ≠ [] := by
  have hlength := frame.length_bytes
  exact List.length_pos_iff.mp (by omega)

theorem intactContents_concat (done : List UbxFrame) (frame : UbxFrame) :
    intactContents (done ++ [frame]) =
      intactContents done ++ if frame.Intact then [frame.content] else [] := by
  rw [intactContents, intactContents, List.filter_append, List.map_append]
  by_cases h : frame.Intact
  · rw [if_pos h, List.filter_cons_of_pos (by simpa using h)]
    rfl
  · rw [if_neg h, List.filter_cons_of_neg (by simpa using h)]
    rfl

/-- Between two frames. -/
theorem UbxProgress.of_empty {done todo : List UbxFrame} {s : UbxParser}
    (hpackets : s.packets = intactContents done) (hheld : Holding s []) :
    UbxProgress (done ++ todo) s (ubxStream todo) := by
  cases todo with
  | nil => exact .finished (by rw [hpackets, List.append_nil]) rfl
  | cons frame todo =>
    exact .inside done frame todo [] frame.bytes rfl hpackets hheld rfl frame.bytes_ne_nil rfl

/-- **One pass** over the rest of the stream. -/
theorem UbxProgress.pass {frames : List UbxFrame} {s : UbxParser} {chunk later : List Byte}
    (hchunk : chunk ≠ []) (h : UbxProgress frames s (chunk ++ later)) :
    UbxProgress frames (s.pass chunk).1 ((s.pass chunk).2 ++ later) := by
  cases h with
  | finished _ hrest => exact absurd (List.append_eq_nil_iff.mp hrest).1 hchunk
  | inside done frame todo held more hall hpackets hheld hframe hmore hrest =>
    cases hheld.pass_frame hframe hmore hchunk hrest with
    | unfinished data more' hdata hsplit hne hleft hheld' hpackets' =>
      refine .inside done frame todo (held ++ data) more' hall (hpackets'.trans hpackets) hheld' ?_
        hne ?_
      · rw [List.append_assoc, ← hsplit, hframe]
      · rw [hleft, hsplit, List.append_assoc, List.append_assoc] at hrest
        exact List.append_cancel_left hrest
    | complete hleft hheld' hpackets' =>
      have hlater : (s.pass chunk).2 ++ later = ubxStream todo := by
        rw [hleft, List.append_assoc] at hrest
        exact List.append_cancel_left hrest
      have hdone : (s.pass chunk).1.packets = intactContents (done ++ [frame]) := by
        rw [hpackets', hpackets, intactContents_concat]
      rw [hlater, ← hall, List.append_cons]
      exact .of_empty hdone hheld'

/-- The rest of a stream of frames, in any chunks. -/
theorem UbxProgress.packets {frames : List UbxFrame} {s : UbxParser} {chunks : List (List Byte)}
    (h : UbxProgress frames s chunks.flatten) :
    (ubxProcessChunks s chunks).packets = intactContents frames := by
  have hend : UbxProgress frames (ubxProcessChunks s chunks) [] :=
    Consumer.feedAll_invariant (C := ubxConsumer) (J := UbxProgress frames)
      (fun s chunk later hchunk h => h.pass hchunk) h
  cases hend with
  | finished hpackets _ => exact hpackets
  | inside _ _ _ _ _ _ _ _ _ hmore hrest =>
    exact absurd (List.append_eq_nil_iff.mp hrest.symm).1 hmore

/-- **Framing.** If a stream consists of frames as `SendPacket` builds them, some of them with
another checksum, then however it is cut into chunks, `ProcessUbxPacket` is called exactly once for
each intact frame, in order, with the bytes from the class to the end of the payload. -/
theorem ubx_framing {frames : List UbxFrame} {chunks : List (List Byte)}
    (hchunks : chunks.flatten = ubxStream frames) :
    (ubxProcessChunks start chunks).packets = intactContents frames := by
  refine UbxProgress.packets ?_
  rw [hchunks]
  exact @UbxProgress.of_empty [] frames start rfl start_holding

/-- A frame with an empty payload. -/
def emptyFrame (checksum : Byte × Byte) : UbxFrame where
  buffer := [0x00#8, 0x00#8, 0x0a#8, 0x04#8, 0x00#8, 0x00#8, 0x00#8, 0x00#8]
  le_length := by decide
  length_le := by decide
  checksum := checksum

/-- A frame, the same frame with a corrupted checksum and the frame again. -/
theorem ubx_framing_corrupted :
    (ubxProcessChunks start [[0xb5#8, 0x62#8, 0x0a#8, 0x04#8, 0x00#8], [0x00#8, 0x0e#8, 0x34#8,
      0xb5#8], [0x62#8, 0x0a#8, 0x04#8, 0x00#8, 0x00#8, 0x0e#8, 0x35#8, 0xb5#8, 0x62#8],
        [0x0a#8, 0x04#8, 0x00#8, 0x00#8, 0x0e#8, 0x34#8]]).packets =
      [[0x0a#8, 0x04#8, 0x00#8, 0x00#8], [0x0a#8, 0x04#8, 0x00#8, 0x00#8]] :=
  (@ubx_framing [emptyFrame (0x0e#8, 0x34#8), emptyFrame (0x0e#8, 0x35#8),
    emptyFrame (0x0e#8, 0x34#8)] _ (by decide)).trans (by decide)

end OpenMower
