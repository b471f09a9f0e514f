import OpenMower.Drivers.Ubx

/-!
# Frames in the buffer of the u-blox parser

A `UbxFrame` is what `SendPacket` makes of a buffer, except that the two bytes of the checksum may
have been corrupted. `Holding` says that the buffer holds the first part of a frame. Each
iteration in the middle of a frame takes more of it, and the last one passes the content to
`ProcessUbxPacket` if the frame is intact (`Holding.iteration_frame`).
-/

namespace OpenMower

open Buffer Search UbxParser

/-- The bytes from the class to the end of the payload. -/
def ubxContent (cls id : Byte) (payload : List Byte) : List Byte :=
  let length := BitVec.ofNat 16 payload.length
  cls :: id :: length.setWidth 8 :: (length >>> 8).setWidth 8 :: payload

/-- A frame as `SendPacket` builds it, with any checksum. -/
structure UbxFrame where
  /-- What `SendPacket` is called with. -/
  buffer : List Byte
  le_length : 8 ≤ buffer.length
  length_le : buffer.length ≤ gbufferSize
  checksum : Byte × Byte

namespace UbxFrame

variable (frame : UbxFrame)

/-- The frame on the wire. -/
def bytes : List Byte :=
  (ubxSendPacket frame.buffer).take (frame.buffer.length - 2) ++
    [frame.checksum.1, frame.checksum.2]

/-- The bytes of the frame from the class to the end of the payload. -/
def content : List Byte := (frame.bytes.drop 2).take (frame.buffer.length - 4)

/-- The checksum has not been corrupted. -/
def Intact : Prop := frame.bytes = ubxSendPacket frame.buffer

instance : Decidable frame.Intact := inferInstanceAs (Decidable (_ = _))

end UbxFrame

@[simp]
theorem length_ubxContent {cls id : Byte} {payload : List Byte} :
    (ubxContent cls id payload).length = payload.length + 4 := rfl

/-- What `SendPacket` builds, of a class, an id and a payload. -/
theorem ubxSendPacket_cons (a b cls id c d : Byte) (payload : List Byte) (x y : Byte) :
    ubxSendPacket (a :: b :: cls :: id :: c :: d :: (payload ++ [x, y])) =
      0xb5#8 :: 0x62#8 :: ubxContent cls id payload ++
        [(calculateChecksum (ubxContent cls id payload)).1,
          (calculateChecksum (ubxContent cls id payload)).2] := by
  have hsize : (a :: b :: cls :: id :: c :: d :: (payload ++ [x, y])).length =
      payload.length + 8 := by
    simp
  rw [ubxSendPacket, hsize]
  simp only [Nat.add_sub_cancel, List.set_cons_zero, List.set_cons_succ, List.drop_succ_cons,
    List.drop_zero]
  have htake : ((cls :: id :: (BitVec.ofNat 16 payload.length).setWidth 8 ::
      (BitVec.ofNat 16 payload.length >>> 8).setWidth 8 :: (payload ++ [x, y])).take
        (payload.length + 8 - 4)) = ubxContent cls id payload := by
    have hlength : (ubxContent cls id payload).length = payload.length + 8 - 4 := by simp
    exact List.take_left' hlength
  have hset : ∀ (front : List Byte) (a b : Byte),
      ((front ++ [x, y]).set front.length a).set (front.length + 1) b = front ++ [a, b] := by
    intro front a b
    simp
  rw [htake]
  exact hset (0xb5#8 :: 0x62#8 :: ubxContent cls id payload) _ _

/-- What `SendPacket` builds. -/
theorem ubxSendPacket_eq {buffer : List Byte} (h : 8 ≤ buffer.length) :
    ∃ cls id payload, payload.length + 8 = buffer.length ∧
      ubxSendPacket buffer = 0xb5#8 :: 0x62#8 :: ubxContent cls id payload ++
        [(calculateChecksum (ubxContent cls id payload)).1,
          (calculateChecksum (ubxContent cls id payload)).2] := by
  obtain ⟨a, b, cls, id, c, d, rest, rfl⟩ :
      ∃ a b cls id c d rest, buffer = a :: b :: cls :: id :: c :: d :: rest := by
    match buffer, h with
    | a :: b :: cls :: id :: c :: d :: rest, _ => exact ⟨a, b, cls, id, c, d, rest, rfl⟩
  simp only [List.length_cons] at h
  obtain ⟨payload, x, y, rfl⟩ : ∃ payload x y, rest = payload ++ [x, y] := by
    have htwo : (rest.drop (rest.length - 2)).length = 2 := by
      rw [List.length_drop]
      omega
    obtain ⟨x, y, hxy⟩ := List.length_eq_two.mp htwo
    exact ⟨rest.take (rest.length - 2), x, y, by rw [← hxy, List.take_append_drop]⟩
  exact ⟨cls, id, payload, by simp, ubxSendPacket_cons a b cls id c d payload x y⟩

namespace UbxFrame

variable {frame : UbxFrame}

/-- The parts of a frame. -/
theorem exists_parts (frame : UbxFrame) : ∃ cls id payload,
    payload.length + 8 = frame.buffer.length ∧ frame.content = ubxContent cls id payload ∧
      frame.bytes = 0xb5#8 :: 0x62#8 :: frame.content ++ [frame.checksum.1, frame.checksum.2] ∧
        (frame.Intact ↔ frame.checksum = calculateChecksum frame.content) := by
  obtain ⟨cls, id, payload, hlen, hpacket⟩ := ubxSendPacket_eq frame.le_length
  have hfront : (0xb5#8 :: 0x62#8 :: ubxContent cls id payload).length =
      frame.buffer.length - 2 := by
    simp only [List.length_cons, length_ubxContent]
    omega
  have hbytes : frame.bytes = 0xb5#8 :: 0x62#8 :: ubxContent cls id payload ++
      [frame.checksum.1, frame.checksum.2] := by
    rw [bytes, hpacket, List.take_left' hfront]
  have hcontent : frame.content = ubxContent cls id payload := by
    have hlength : (ubxContent cls id payload).length = frame.buffer.length - 4 := by
      simp only [length_ubxContent]
      omega
    rw [content, hbytes, List.cons_append, List.cons_append, List.drop_succ_cons,
      List.drop_succ_cons, List.drop_zero, List.take_left' hlength]
  refine ⟨cls, id, payload, hlen, hcontent, by rw [hbytes, hcontent], ?_⟩
  rw [Intact, hbytes, hpacket, List.append_cancel_left_eq, hcontent, Prod.ext_iff]
  simp

theorem length_bytes (frame : UbxFrame) : frame.bytes.length = frame.content.length + 4 := by
  obtain ⟨-, -, -, -, -, hbytes, -⟩ := frame.exists_parts
  rw [hbytes]
  simp

/-- A frame fits the buffer. -/
theorem length_bytes_le (frame : UbxFrame) : frame.bytes.length ≤ gbufferSize := by
  obtain ⟨cls, id, payload, hlen, hcontent, -, -⟩ := frame.exists_parts
  rw [length_bytes, hcontent, length_ubxContent, Nat.add_assoc, hlen]
  exact frame.length_le

theorem length_bytes_lt (frame : UbxFrame) : frame.bytes.length < 2 ^ 32 :=
  frame.length_bytes_le.trans_lt (by decide)

end UbxFrame

namespace UbxParser

variable {s : UbxParser}

/-- The buffer holds these bytes, the first ones of a frame. -/
structure Holding (s : UbxParser) (held : List Byte) : Prop where
  found : s.foundHeader = decide (2 ≤ held.length)
  fill : s.gbufferFill = held.length
  contents : slice s.gbuffer 0 held.length = held

theorem start_holding : Holding start [] := ⟨rfl, rfl, rfl⟩

theorem Holding.of_reset (hfound : s.foundHeader = false) (hfill : s.gbufferFill = 0) :
    Holding s [] := ⟨hfound, hfill, rfl⟩

/-- More bytes behind those in the buffer. -/
theorem Holding.append_contents {held : List Byte} (h : Holding s held) (data : List Byte) :
    slice (s.append data).gbuffer 0 (held ++ data).length = held ++ data := by
  rw [UbxParser.append, h.fill, List.length_append]
  exact (slice_writeAt held.length).trans (congrArg (· ++ data) h.contents)

/-- More bytes of a frame whose header has been found. -/
theorem Holding.append {held : List Byte} (h : Holding s held) (htwo : 2 ≤ held.length)
    (data : List Byte) : Holding (s.append data) (held ++ data) := by
  refine ⟨?_, ?_, h.append_contents data⟩
  · rw [append_foundHeader, h.found, List.length_append, decide_eq_true htwo,
      decide_eq_true (by omega)]
  · rw [append_fill, h.fill, List.length_append]

theorem Holding.record {held : List Byte} (h : Holding s held) (accesses : List UbxAccess) :
    Holding (s.record accesses) held := ⟨h.found, h.fill, h.contents⟩

/-- What is taken from a chunk is the first part of what is missing. -/
theorem take_of_append_eq {chunk later more rest : List Byte} (h : chunk ++ later = more ++ rest)
    {n : ℕ} (hchunk : n ≤ chunk.length) (hmore : n ≤ more.length) :
    chunk.take n = more.take n := by
  rw [← List.take_append_of_le_length hchunk, h, List.take_append_of_le_length hmore]

/-- **The first six bytes of a frame.** -/
theorem Holding.iteration_header {held more chunk later rest : List Byte} {a b c d : Byte}
    (h : Holding s held) (hheader : held ++ more = [0xb5#8, 0x62#8, a, b, c, d])
    (hmore : more ≠ []) (hchunk : chunk ≠ []) (hrest : chunk ++ later = more ++ rest) :
    ∃ data more', data ≠ [] ∧ more = data ++ more' ∧ chunk = data ++ (s.iteration chunk).2 ∧
      Holding (s.iteration chunk).1 (held ++ data) ∧
        (s.iteration chunk).1.packets = s.packets := by
  obtain ⟨x, chunk, rfl⟩ := List.exists_cons_of_ne_nil hchunk
  obtain ⟨y, more, rfl⟩ := List.exists_cons_of_ne_nil hmore
  obtain ⟨rfl, -⟩ := List.cons.inj hrest
  rw [iteration, h.found]
  rcases Nat.lt_or_ge held.length 2 with hlt | htwo
  · rw [decide_eq_false (by omega), if_pos rfl]
    -- the header is looked for, and nothing or its first byte is held
    rcases held with _ | ⟨b, _ | ⟨c', held⟩⟩
    · obtain ⟨rfl, -⟩ := List.cons.inj hheader
      rcases findHeader_zero h.fill (0xb5#8 :: chunk) with
        ⟨hnot, -⟩ | ⟨before, after, hsplit, hnot, heq⟩
      · exact absurd List.mem_cons_self hnot
      · obtain ⟨rfl, rfl⟩ := eq_of_append_cons_eq List.not_mem_nil hnot hsplit
        rw [heq]
        refine ⟨[0xb5#8], more, by simp, rfl, rfl, ⟨?_, ?_, h.append_contents _⟩, rfl⟩
        · rw [append_foundHeader, h.found]
          rfl
        · rw [append_fill, h.fill]
          rfl
    · obtain ⟨-, htail⟩ := List.cons.inj hheader
      obtain ⟨rfl, -⟩ := List.cons.inj htail
      rw [findHeader_one h.fill, if_pos rfl]
      refine ⟨[0x62#8], more, by simp, rfl, rfl, ⟨rfl, ?_, h.append_contents _⟩, rfl⟩
      simp [h.fill]
    · rw [List.length_cons, List.length_cons] at hlt
      omega
  · have hlen := congrArg List.length hheader
    simp only [List.length_append, List.length_cons, List.length_nil] at hlen
    rw [decide_eq_true htwo, if_neg (by simp), h.fill, if_pos (by omega), takeLength, h.fill,
      sizeSub_of_le (by omega) (by omega)]
    refine ⟨(x :: chunk).take (min (x :: chunk).length (6 - held.length)),
      (x :: more).drop (min (x :: chunk).length (6 - held.length)), ?_, ?_,
      (List.take_append_drop _ _).symm, (h.record _).append htwo _, rfl⟩
    · simp
      omega
    · rw [take_of_append_eq hrest (Nat.min_le_left _ _)]
      · exact (List.take_append_drop _ _).symm
      · refine (Nat.min_le_right _ _).trans ?_
        rw [List.length_cons]
        omega

/-- The rest of the first six bytes in one chunk. -/
theorem Holding.feed_header {held more : List Byte} {a b c d : Byte} (h : Holding s held)
    (hheader : held ++ more = [0xb5#8, 0x62#8, a, b, c, d]) :
    Holding (ubxConsumer.feed s more) [0xb5#8, 0x62#8, a, b, c, d] := by
  induction hn : more.length using Nat.strongRecOn generalizing s held more with
  | ind n ih =>
    by_cases hmore : more = []
    · rw [hmore, List.append_nil] at hheader
      rw [hmore, Consumer.feed_nil, ← hheader]
      exact h
    · obtain ⟨data, more', hdata, hsplit, hleft, hheld, -⟩ :=
        @Holding.iteration_header s held more more [] [] a b c d h hheader hmore hmore rfl
      have hpass : ubxConsumer.pass s more = s.iteration more := pass_eq_iteration hdata hleft
      have hrest : (s.iteration more).2 = more' :=
        List.append_cancel_left (hleft.symm.trans hsplit)
      have hpos := List.length_pos_iff.mpr hdata
      rw [ubxConsumer.feed_of_ne_nil s hmore, hpass, hrest]
      rw [hsplit, List.length_append] at hn
      rw [hsplit, ← List.append_assoc] at hheader
      exact ih more'.length (by omega) hheld hheader rfl

/-- The length field. -/
theorem Holding.payloadLength {a b c d low high : Byte} {tail : List Byte}
    (h : Holding s (a :: b :: c :: d :: low :: high :: tail)) :
    s.payloadLength = high.setWidth 16 <<< 8 ||| low.setWidth 16 := by
  have hlow := @apply_of_slice _ _ _ _ [a, b, c, d] (high :: tail) low h.contents
  have hhigh := @apply_of_slice _ _ _ _ [a, b, c, d, low] tail high h.contents
  rw [UbxParser.payloadLength, ← hlow, ← hhigh]
  rfl

/-- The total length of a frame whose length has been received. -/
theorem Holding.totalLength {frame : UbxFrame} {held more : List Byte} (h : Holding s held)
    (hframe : held ++ more = frame.bytes) (hsix : 6 ≤ held.length) :
    s.totalLength.toNat = frame.bytes.length := by
  obtain ⟨cls, id, payload, hlen, hcontent, hbytes, -⟩ := frame.exists_parts
  have hle := frame.length_le
  have hlength := frame.length_bytes
  rw [hcontent, length_ubxContent] at hlength
  rw [gbufferSize] at hle
  obtain ⟨a, b, c, d, low, high, tail, rfl⟩ :
      ∃ a b c d low high tail, held = a :: b :: c :: d :: low :: high :: tail := by
    match held, hsix with
    | a :: b :: c :: d :: low :: high :: tail, _ => exact ⟨a, b, c, d, low, high, tail, rfl⟩
  rw [hbytes, hcontent, ubxContent] at hframe
  simp only [List.cons_append, List.cons.injEq] at hframe
  obtain ⟨-, -, -, -, rfl, rfl, -⟩ := hframe
  rw [UbxParser.totalLength, h.payloadLength, join_bytes, BitVec.toNat_add,
    BitVec.toNat_ofNat, BitVec.toNat_ofNat, hlength]
  omega

/-- **A complete frame** is processed if it is intact. -/
theorem Holding.processFrame {frame : UbxFrame} (h : Holding s frame.bytes) :
    Holding (s.processFrame frame.bytes.length) [] ∧
      (s.processFrame frame.bytes.length).packets =
        s.packets ++ if frame.Intact then [frame.content] else [] := by
  refine ⟨.of_reset processFrame_foundHeader processFrame_fill, ?_⟩
  obtain ⟨-, -, -, -, -, hbytes, hintact⟩ := frame.exists_parts
  have hlength := frame.length_bytes
  have hlt := frame.length_bytes_lt
  have hslice : slice s.gbuffer 0 frame.bytes.length = [0xb5#8, 0x62#8] ++ frame.content ++
      [frame.checksum.1, frame.checksum.2] := h.contents.trans hbytes
  have hcontent : slice s.gbuffer 2 (sizeSub frame.bytes.length 4) = frame.content := by
    have hpart := slice_of_append hslice
    rw [sizeSub_of_le (by omega) hlt, hlength, Nat.add_sub_cancel]
    exact hpart
  have hfirst : s.gbuffer (sizeSub frame.bytes.length 2) = frame.checksum.1 := by
    have hlast := apply_of_slice hslice
    have hindex : sizeSub frame.bytes.length 2 =
        0 + ([0xb5#8, 0x62#8] ++ frame.content).length := by
      rw [sizeSub_of_le (by omega) hlt, hlength, List.length_append, List.length_cons,
        List.length_singleton]
      omega
    rw [hindex, hlast]
  have hsecond : s.gbuffer (sizeSub frame.bytes.length 1) = frame.checksum.2 := by
    have hlast := @apply_of_slice _ _ _ _ ([0xb5#8, 0x62#8] ++ frame.content ++
      [frame.checksum.1]) [] frame.checksum.2 (by rw [hslice, List.append_assoc _ [_]]; rfl)
    have hindex : sizeSub frame.bytes.length 1 =
        0 + ([0xb5#8, 0x62#8] ++ frame.content ++ [frame.checksum.1]).length := by
      rw [sizeSub_of_le (by omega) hlt, hlength, List.length_append, List.length_append,
        List.length_cons, List.length_singleton, List.length_singleton]
      omega
    rw [hindex, hlast]
  have hvalid : s.validateChecksum frame.bytes.length = decide frame.Intact := by
    rw [validateChecksum, hcontent, hfirst, hsecond]
    exact decide_eq_decide.mpr (Prod.ext_iff.symm.trans hintact.symm)
  rw [UbxParser.processFrame, hvalid, h.fill, hcontent]
  by_cases hframe : frame.Intact
  · rw [if_pos hframe, if_pos (decide_eq_true hframe)]
  · rw [if_neg hframe, if_neg (by simpa using hframe), List.append_nil]
    rfl

/-- What a pass does in the middle of a frame: `s'` is the next state, and `left` what is left of
the chunk. -/
inductive FramePass (frame : UbxFrame) (s : UbxParser) (held more chunk : List Byte)
    (s' : UbxParser) (left : List Byte) : Prop
  | unfinished (data more' : List Byte) (hdata : data ≠ []) (hmore : more = data ++ more')
      (hne : more' ≠ []) (hchunk : chunk = data ++ left) (hheld : Holding s' (held ++ data))
      (hpackets : s'.packets = s.packets)
  | complete (hchunk : chunk = more ++ left) (hheld : Holding s' [])
      (hpackets : s'.packets = s.packets ++ if frame.Intact then [frame.content] else [])

/-- The bytes behind the length. -/
theorem Holding.takeFrame {frame : UbxFrame} {held more chunk later rest : List Byte}
    (h : Holding s held) (hframe : held ++ more = frame.bytes) (hsix : 6 ≤ held.length)
    (hmore : more ≠ []) (hchunk : chunk ≠ []) (hrest : chunk ++ later = more ++ rest) :
    FramePass frame s held more chunk (s.takeFrame chunk).1 (s.takeFrame chunk).2 := by
  have hlen := congrArg List.length hframe
  have hpos := List.length_pos_iff.mpr hmore
  have hcount := List.length_pos_iff.mpr hchunk
  have hle := frame.length_bytes_le
  rw [List.length_append] at hlen
  rw [UbxParser.takeFrame, h.totalLength hframe hsix]
  dsimp only
  rw [if_neg (Nat.not_lt.mpr hle), h.fill, sizeSub_of_le (by omega) frame.length_bytes_lt,
    ← hlen, Nat.add_sub_cancel_left]
  have hdata := take_of_append_eq hrest (Nat.min_le_left chunk.length more.length)
    (Nat.min_le_right _ _)
  have hrecord := h.record [.subtract (held.length + more.length) held.length]
  have hholding := hrecord.append (by omega) (chunk.take (min chunk.length more.length))
  rw [hdata] at hholding ⊢
  rw [hholding.fill, List.length_append, List.length_take]
  by_cases hshort : chunk.length < more.length
  · -- the chunk ends inside the frame
    rw [if_pos (by omega)]
    refine .unfinished (more.take (min chunk.length more.length))
      (more.drop (min chunk.length more.length)) ?_ (List.take_append_drop _ _).symm ?_ ?_
      hholding rfl
    · rw [← List.length_pos_iff, List.length_take]
      omega
    · rw [← List.length_pos_iff, List.length_drop]
      omega
    · rw [← hdata, List.take_append_drop]
  · -- the frame is complete
    have hall : min chunk.length more.length = more.length := by omega
    rw [if_neg (by omega)]
    rw [hall, List.take_length, hframe, hlen] at hholding
    rw [hall, List.take_length, hlen]
    rw [hall, List.take_length] at hdata
    obtain ⟨hreset, hpackets⟩ := hholding.processFrame
    rw [append_packets, record_packets] at hpackets
    have hsplit : chunk = more ++ chunk.drop more.length := by
      rw [← hdata, List.length_take_of_le (by omega), List.take_append_drop]
    dsimp only
    exact .complete hsplit hreset hpackets

/-- **One pass in the middle of a frame.** -/
theorem Holding.pass_frame {frame : UbxFrame} {held more chunk later rest : List Byte}
    (h : Holding s held) (hframe : held ++ more = frame.bytes) (hmore : more ≠ [])
    (hchunk : chunk ≠ []) (hrest : chunk ++ later = more ++ rest) :
    FramePass frame s held more chunk (s.pass chunk).1 (s.pass chunk).2 := by
  have hiteration :
      FramePass frame s held more chunk (s.iteration chunk).1 (s.iteration chunk).2 := by
    rcases Nat.lt_or_ge held.length 6 with hlt | hsix
    · obtain ⟨cls, id, payload, -, hcontent, hbytes, -⟩ := frame.exists_parts
      rw [hcontent, ubxContent] at hbytes
      obtain ⟨tail, htail, hheader⟩ : ∃ tail, tail ≠ [] ∧ frame.bytes =
          [0xb5#8, 0x62#8, cls, id, (BitVec.ofNat 16 payload.length).setWidth 8,
            (BitVec.ofNat 16 payload.length >>> 8).setWidth 8] ++ tail :=
        ⟨payload ++ [frame.checksum.1, frame.checksum.2], by simp, hbytes⟩
      rw [hheader] at hframe
      -- what is held ends inside the first six bytes
      rcases List.append_eq_append_iff.mp hframe with ⟨front, hfront, rfl⟩ | ⟨back, hback, -⟩
      · have hne : front ≠ [] := by
          rintro rfl
          have hsix := congrArg List.length hfront
          rw [List.append_nil] at hsix
          exact absurd hsix.symm (Nat.ne_of_lt hlt)
        rw [List.append_assoc] at hrest
        obtain ⟨data, more', hdata, rfl, hsplit, hheld, hpackets⟩ :=
          h.iteration_header hfront.symm hne hchunk hrest
        exact .unfinished data (more' ++ tail) hdata (List.append_assoc _ _ _)
          (List.append_ne_nil_of_right_ne_nil _ htail) hsplit hheld hpackets
      · have hlong := congrArg List.length hback
        rw [List.length_append] at hlong
        simp only [List.length_cons] at hlong
        omega
    · rw [iteration, h.found, decide_eq_true (by omega), if_neg (by simp), h.fill,
        if_neg (by omega)]
      exact h.takeFrame hframe hsix hmore hchunk hrest
  have hpass : s.pass chunk = s.iteration chunk := by
    cases hiteration with
    | unfinished data more' hdata _ _ hsplit _ _ => exact pass_eq_iteration hdata hsplit
    | complete hsplit _ _ => exact pass_eq_iteration hmore hsplit
  rw [hpass]
  exact hiteration

end UbxParser

end OpenMower
