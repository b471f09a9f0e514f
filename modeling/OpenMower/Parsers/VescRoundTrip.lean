import OpenMower.Drivers.Vesc

/-!
# Round trips of VESC frames

A frame that `SendPacket` builds is fed to `ProcessBytes` in chunks. `FrameProgress` says how
far the parser has got, by what is still to come, so that it does not matter where the frame is
cut. With up to 250 bytes of payload the frame has at most 255 bytes, and its payload is
delivered; with more the 8-bit fill level wraps before the frame is complete, and what is left
of it is too short for anything to be accepted (`vesc_round_trip_iff`).
-/

namespace OpenMower

open Buffer

variable {crc16 : List Byte → BitVec 16} {payload : List Byte}

@[simp]
theorem length_sendPacket : (sendPacket crc16 payload).length = payload.length + 5 := by
  simp [sendPacket]

namespace VescParser

variable {s : VescParser}

/-- The length in the header of a frame that has been received beyond it. -/
theorem workingBuffer_one {done rest : List Byte} (hframe : done ++ rest = sendPacket crc16 payload)
    (hdone : slice s.workingBuffer 0 done.length = done) (htwo : 2 ≤ done.length)
    (hlen : payload.length ≤ 255) : (s.workingBuffer 1).toNat = payload.length := by
  obtain ⟨a, b, more, rfl⟩ : ∃ a b more, done = a :: b :: more := by
    match done, htwo with
    | a :: b :: more, _ => exact ⟨a, b, more, rfl⟩
  have hone : s.workingBuffer 1 = b := @apply_of_slice _ _ _ _ [a] more b hdone
  simp only [sendPacket, List.cons_append, List.nil_append, List.cons.injEq] at hframe
  rw [hone, hframe.2.1, BitVec.toNat_ofNat]
  omega

/-- **A complete frame is accepted.** -/
theorem processPayload_frame (hlen : payload.length ≤ 250)
    (hfill : s.workingBufferFill.toNat = payload.length + 5)
    (hslice : slice s.workingBuffer 0 (payload.length + 5) = sendPacket crc16 payload) :
    s.processPayload crc16 = { s.reset with accepted := s.accepted ++ [payload] } := by
  have hlength : (s.workingBuffer 1).toNat = payload.length := by
    have hwhole : sendPacket crc16 payload ++ [] = sendPacket crc16 payload := List.append_nil _
    refine workingBuffer_one hwhole ?_ (by simp) (by omega)
    rw [length_sendPacket, hslice]
  have hheader : s.workingBuffer 0 = 0x02#8 := @apply_of_slice _ _ _ _ [] _ _ hslice
  have hpayload : slice s.workingBuffer 2 payload.length = payload := by
    have hpart := @slice_of_append _ _ _ _ [0x02#8, BitVec.ofNat 8 payload.length] payload _ hslice
    exact hpart
  -- the three bytes behind the payload
  have htail : slice s.workingBuffer (payload.length + 2) 3 =
      [(crc16 payload >>> 8).setWidth 8, (crc16 payload &&& 0xFF#16).setWidth 8, 0x03#8] := by
    have hpart := @slice_of_append _ _ _ _ ([0x02#8, BitVec.ofNat 8 payload.length] ++ payload)
      [(crc16 payload >>> 8).setWidth 8, (crc16 payload &&& 0xFF#16).setWidth 8, 0x03#8] []
      (by rw [hslice, List.append_nil]; rfl)
    have hstart : 0 + ([0x02#8, BitVec.ofNat 8 payload.length] ++ payload).length =
        payload.length + 2 := by
      simp only [List.length_append, List.length_cons, List.length_nil]
      omega
    rwa [hstart] at hpart
  have hhigh := @apply_of_slice _ _ _ _ [] _ _ htail
  have hlow := @apply_of_slice _ _ _ _ [(crc16 payload >>> 8).setWidth 8] _ _ htail
  have htrailer := @apply_of_slice _ _ _ _
    [(crc16 payload >>> 8).setWidth 8, (crc16 payload &&& 0xFF#16).setWidth 8] [] _ htail
  simp only [List.length_nil, List.length_cons, Nat.add_zero, Nat.zero_add] at hhigh hlow htrailer
  have hcrc : (s.workingBuffer (payload.length + 2)).setWidth 16 <<< 8 |||
      (s.workingBuffer (payload.length + 3)).setWidth 16 = crc16 payload := by
    rw [hhigh, hlow, setWidth_and_ff, join_bytes]
  rw [processPayload]
  simp only [hfill, hlength, hpayload, hheader, ne_eq, not_true_eq_false, if_false,
    show payload.length + 5 - 1 = payload.length + 4 from rfl,
    show payload.length + 5 - 2 = payload.length + 3 from rfl,
    show payload.length + 5 - 3 = payload.length + 2 from rfl, hcrc]
  rw [if_neg (by simpa using htrailer)]

/-- How far the parser is with a frame of which `rest` is still to come. -/
inductive FrameProgress (crc16 : List Byte → BitVec 16) (payload : List Byte)
    (accepted : List (List Byte)) (s : VescParser) (rest : List Byte) : Prop
  /-- All bytes so far are in the buffer. -/
  | receiving (done : List Byte) (hframe : done ++ rest = sendPacket crc16 payload)
      (hrest : rest ≠ []) (hfill : s.workingBufferFill.toNat = done.length)
      (hdone : slice s.workingBuffer 0 done.length = done) (haccepted : s.accepted = accepted)
  | delivered (hlen : payload.length ≤ 250) (hrest : rest = []) (hfill : s.workingBufferFill = 0#8)
      (haccepted : s.accepted = accepted ++ [payload])
  /-- The fill level has wrapped, and no other frame can be completed. -/
  | wrapped (hlen : 251 ≤ payload.length) (hshort : s.workingBufferFill.toNat + rest.length ≤ 4)
      (haccepted : s.accepted = accepted)

variable {accepted : List (List Byte)}

/-- A buffer that has been filled from the front goes on being filled. -/
theorem slice_append {done data : List Byte} (hfill : s.workingBufferFill.toNat = done.length)
    (hdone : slice s.workingBuffer 0 done.length = done) :
    slice (s.append data).workingBuffer 0 (done ++ data).length = done ++ data := by
  rw [VescParser.append, hfill, List.length_append]
  exact (slice_writeAt done.length).trans (congrArg (· ++ data) hdone)

/-- Bytes of the frame that fit below the wrap. -/
theorem FrameProgress.append {done data rest : List Byte}
    (hframe : done ++ (data ++ rest) = sendPacket crc16 payload) (hrest : rest ≠ [])
    (hfill : s.workingBufferFill.toNat = done.length)
    (hdone : slice s.workingBuffer 0 done.length = done) (haccepted : s.accepted = accepted)
    (hlt : done.length + data.length < 256) :
    FrameProgress crc16 payload accepted (s.append data) rest := by
  refine .receiving (done ++ data) ?_ hrest ?_ ?_ haccepted
  · rw [List.append_assoc, hframe]
  · rw [append_fill, hfill, List.length_append, Nat.mod_eq_of_lt hlt]
  · exact slice_append hfill hdone

/-- The rest of a frame is copied: it is delivered, or the fill level wraps, or there is more of
it to come. -/
theorem FrameProgress.take (hlen : payload.length ≤ 255) {done taken rest later : List Byte}
    (hframe : done ++ (taken ++ rest ++ later) = sendPacket crc16 payload)
    (hfill : s.workingBufferFill.toNat = done.length)
    (hdone : slice s.workingBuffer 0 done.length = done) (haccepted : s.accepted = accepted)
    (htwo : 2 ≤ s.workingBufferFill.toNat)
    (htaken : taken.length = min (taken ++ rest).length
      ((s.workingBuffer 1).toNat + 5 - s.workingBufferFill.toNat)) :
    FrameProgress crc16 payload accepted
      (if (s.workingBuffer 1).toNat + 5 = (s.append taken).workingBufferFill.toNat then
          ((s.append taken).processPayload crc16).reset
        else s.append taken) (rest ++ later) := by
  have hlength : (s.workingBuffer 1).toNat = payload.length :=
    workingBuffer_one hframe hdone (by omega) hlen
  have hfills : (s.append taken).workingBufferFill.toNat = (done.length + taken.length) % 256 := by
    rw [append_fill, hfill]
  have hcount := congrArg List.length hframe
  simp only [List.length_append, length_sendPacket] at hcount
  rw [hlength, hfill, List.length_append] at htaken
  -- the chunk has nothing behind the frame
  obtain rfl : rest = [] := List.eq_nil_of_length_eq_zero (by omega)
  rw [List.append_nil] at hframe
  rw [List.length_nil] at hcount
  rw [hlength, hfills, List.nil_append]
  by_cases hwrap : done.length + taken.length < 256
  · rw [Nat.mod_eq_of_lt hwrap]
    by_cases hlater : later = []
    · subst hlater
      rw [List.length_nil] at hcount
      rw [List.append_nil] at hframe
      have hslice := @slice_append s done taken hfill hdone
      rw [hframe, length_sendPacket] at hslice
      rw [if_pos (by omega), processPayload_frame (by omega) (by rw [hfills]; omega) hslice]
      exact .delivered (by omega) rfl rfl (by simp [haccepted])
    · have hpos := List.length_pos_iff.mpr hlater
      rw [if_neg (by omega)]
      exact .append hframe hlater hfill hdone haccepted hwrap
  · rw [if_neg (by omega)]
    exact .wrapped (by omega) (by rw [hfills]; omega) haccepted

/-- After a wrap no pass completes a frame. -/
theorem FrameProgress.pass_wrapped (hlen : 251 ≤ payload.length) (hs : s.InFrame)
    {chunk later : List Byte} (hchunk : chunk ≠ [])
    (hshort : s.workingBufferFill.toNat + (chunk ++ later).length ≤ 4)
    (haccepted : s.accepted = accepted) :
    FrameProgress crc16 payload accepted (s.pass crc16 chunk).1
      ((s.pass crc16 chunk).2 ++ later) := by
  rw [List.length_append] at hshort
  rcases @pass_cases crc16 s hs chunk hchunk with
    ⟨-, -, heq⟩ | ⟨hzero, skipped, rest, rfl, -, heq⟩ | ⟨hone, b, rest, rfl, heq⟩ |
    ⟨htwo, taken, rest, -, rfl, -, heq⟩
  · rw [heq]
    refine .wrapped hlen (?_ : s.workingBufferFill.toNat + later.length ≤ 4) haccepted
    omega
  · rw [heq]
    refine .wrapped hlen ?_ haccepted
    simp only [append_fill, hzero, List.length_append, List.length_cons, List.length_nil,
      BitVec.toNat_ofNat] at hshort ⊢
    omega
  · rw [heq]
    refine .wrapped hlen ?_ haccepted
    simp only [append_fill, hone, List.length_append, List.length_cons, List.length_nil]
      at hshort ⊢
    omega
  · rw [List.length_append] at hshort
    rw [heq, append_fill, if_neg (by omega)]
    refine .wrapped hlen (?_ : (s.append taken).workingBufferFill.toNat +
      (rest ++ later).length ≤ 4) haccepted
    rw [append_fill, List.length_append]
    omega

/-- **One pass** over what is left of the frame. -/
theorem FrameProgress.pass (hlen : payload.length ≤ 255) (hs : s.InFrame)
    {chunk later : List Byte} (hchunk : chunk ≠ [])
    (h : FrameProgress crc16 payload accepted s (chunk ++ later)) :
    FrameProgress crc16 payload accepted (s.pass crc16 chunk).1
      ((s.pass crc16 chunk).2 ++ later) := by
  cases h with
  | wrapped hlong hshort haccepted => exact .pass_wrapped hlong hs hchunk hshort haccepted
  | delivered _ hrest => exact absurd (List.append_eq_nil_iff.mp hrest).1 hchunk
  | receiving done hframe _ hfill hdone haccepted =>
    have hcount := congrArg List.length hframe
    simp only [List.length_append, length_sendPacket] at hcount
    rcases @pass_cases crc16 s hs chunk hchunk with
      ⟨hzero, hnone, -⟩ | ⟨hzero, skipped, rest, rfl, hskipped, heq⟩ | ⟨hone, b, rest, rfl, heq⟩ |
      ⟨htwo, taken, rest, -, rfl, htaken, heq⟩
    · -- a frame begins with the header
      obtain rfl : done = [] := List.eq_nil_of_length_eq_zero (by rw [← hfill, hzero]; rfl)
      obtain ⟨b, chunk, rfl⟩ := List.exists_cons_of_ne_nil hchunk
      simp only [sendPacket, List.cons_append, List.nil_append, List.cons.injEq] at hframe
      exact absurd hframe.1 (hnone b List.mem_cons_self)
    · obtain rfl : done = [] := List.eq_nil_of_length_eq_zero (by rw [← hfill, hzero]; rfl)
      obtain rfl : skipped = [] := by
        by_contra hne
        obtain ⟨b, skipped, rfl⟩ := List.exists_cons_of_ne_nil hne
        simp only [sendPacket, List.cons_append, List.nil_append, List.cons.injEq] at hframe
        exact hskipped b List.mem_cons_self hframe.1
      rw [heq]
      refine .append hframe (fun hnil => ?_) hfill hdone haccepted (by simp)
      obtain ⟨rfl, rfl⟩ := List.append_eq_nil_iff.mp hnil
      simp only [List.nil_append, List.length_cons, List.length_nil] at hcount
      omega
    · rw [heq]
      refine .append hframe (fun hnil => ?_) hfill hdone haccepted ?_
      · obtain ⟨rfl, rfl⟩ := List.append_eq_nil_iff.mp hnil
        simp only [List.length_cons, List.length_nil] at hcount
        omega
      · rw [List.length_singleton]
        omega
    · rw [heq]
      exact .take hlen hframe hfill hdone haccepted htwo htaken

end VescParser

open VescParser

/-- **Feeding a frame**, however it is cut, to a parser that looks for a header. -/
theorem processChunks_frame (hlen : payload.length ≤ 255) {s : VescState}
    (hidle : s.val.workingBufferFill = 0#8) {chunks : List (List Byte)}
    (hchunks : chunks.flatten = sendPacket crc16 payload) :
    FrameProgress crc16 payload s.val.accepted (processChunks crc16 s chunks).val [] := by
  rw [processChunks_eq]
  refine @Consumer.feedAll_invariant _ _ (vescConsumer crc16) s chunks
    (fun s' rest => FrameProgress crc16 payload s.val.accepted s'.val rest) ?_ ?_
  · intro s' chunk later hchunk h
    obtain ⟨hval, hrest⟩ := @vescConsumer_pass crc16 s' chunk hchunk
    rw [hval, hrest]
    exact h.pass hlen s'.property hchunk
  · rw [hchunks]
    exact .receiving [] rfl (by simp [sendPacket]) (by simp [hidle]) rfl rfl

/-- The payload is accepted, and nothing else, and the parser looks for a header again. -/
def RoundTrips (crc16 : List Byte → BitVec 16) (payload : List Byte) (s : VescState)
    (chunks : List (List Byte)) : Prop :=
  (processChunks crc16 s chunks).val.accepted = s.val.accepted ++ [payload] ∧
    (processChunks crc16 s chunks).val.workingBufferFill = 0#8

/-- A payload of a frame that is too long for the fill level is lost. -/
theorem not_roundTrips (hlen : payload.length ≤ 255) {s : VescState}
    (hidle : s.val.workingBufferFill = 0#8) {chunks : List (List Byte)}
    (hchunks : chunks.flatten = sendPacket crc16 payload) (hlong : 250 < payload.length) :
    ¬ RoundTrips crc16 payload s chunks := by
  rintro ⟨haccepted', -⟩
  cases processChunks_frame hlen hidle hchunks with
  | receiving _ _ hrest => exact hrest rfl
  | delivered hshort => omega
  | wrapped _ _ haccepted => simp [haccepted] at haccepted'

/-- **Round trips.** A frame with up to 255 bytes of payload that is fed to an idle parser, cut
into any chunks, has its payload accepted exactly once if and only if it has at most 250. -/
theorem vesc_round_trip_iff (hlen : payload.length ≤ 255) {s : VescState}
    (hidle : s.val.workingBufferFill = 0#8) {chunks : List (List Byte)}
    (hchunks : chunks.flatten = sendPacket crc16 payload) :
    RoundTrips crc16 payload s chunks ↔ payload.length ≤ 250 := by
  constructor
  · intro hround
    by_contra hlong
    exact not_roundTrips hlen hidle hchunks (Nat.not_le.mp hlong) hround
  · intro hshort
    cases processChunks_frame hlen hidle hchunks with
    | receiving _ _ hrest => exact absurd rfl hrest
    | delivered _ _ hfill haccepted => exact ⟨haccepted, hfill⟩
    | wrapped hlong => omega

/-- The parser as it is created. -/
def idleParser : VescState where
  val := { workingBuffer := fun _ => 0#8, workingBufferFill := 0#8, accepted := [] }
  property := inFrame_of_lt_two (by decide)

/-- The request for the values of the ESC, whose CRC is `0x4084`, in three chunks. -/
theorem vesc_round_trip_getValues :
    RoundTrips (fun _ => 0x4084#16) [0x04#8] idleParser
      [[0x02#8, 0x01#8], [0x04#8, 0x40#8], [0x84#8, 0x03#8]] :=
  (vesc_round_trip_iff (by decide) rfl (by decide)).mpr (by decide)

/-- A payload of 251 bytes is lost. -/
theorem vesc_not_round_trip :
    ¬ RoundTrips (fun _ => 0#16) (List.replicate 251 0#8) idleParser
      [sendPacket (fun _ => 0#16) (List.replicate 251 0#8)] := by
  have hlength : (List.replicate 251 0#8).length = 251 := List.length_replicate
  refine not_roundTrips (by omega) rfl ?_ (by omega)
  rw [List.flatten_cons, List.flatten_nil, List.append_nil]

end OpenMower
