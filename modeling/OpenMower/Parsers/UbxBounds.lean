import OpenMower.Parsers.UbxFrames

/-!
# The buffer of the u-blox parser

A frame must fit the buffer of 512 bytes, and `ProcessBytes` checks that its total length is at
most that. The total length is computed with 16 bits, though, so that a length field of 65528 or
more wraps to a total of 0 to 7 bytes and passes the check (`UbxInv.not_safe_pass`). Streams in
which no such length field is used stay in bounds at every point, and they are the only ones
(`ubx_in_bounds_iff`).
-/

namespace OpenMower

open Buffer UbxParser

namespace UbxParser

variable {s : UbxParser}

/-- The buffer is not overfull, and nothing has gone out of bounds. -/
structure Safe (s : UbxParser) : Prop where
  fill_le : s.gbufferFill ≤ gbufferSize
  inBounds : ∀ a ∈ s.accesses, a.InBounds

/-- When there is more to come of a frame whose length is known, its total length does not
wrap. -/
def LengthFits (s : UbxParser) (_ : List Byte) : Prop :=
  s.foundHeader = true → 6 ≤ s.gbufferFill → s.payloadLength.toNat < 65528

/-- The invariant: a frame whose length has been checked is not complete. -/
structure UbxInv (s : UbxParser) : Prop where
  safe : Safe s
  hunting : s.foundHeader = false → s.gbufferFill ≤ 1
  header : s.foundHeader = true → 2 ≤ s.gbufferFill
  checked : s.foundHeader = true → 6 < s.gbufferFill →
    s.gbufferFill < s.payloadLength.toNat + 8 ∧ s.payloadLength.toNat + 8 ≤ gbufferSize

theorem start_inv : UbxInv start := by
  constructor
  · exact ⟨Nat.zero_le _, by simp [start]⟩
  · simp [start]
  · simp [start]
  · simp [start]

/-- A state that looks for a header, with more accesses. -/
theorem UbxInv.of_hunting {s' : UbxParser} (hfound : s'.foundHeader = false)
    (hfill : s'.gbufferFill ≤ 1) (hin : ∀ a ∈ s'.accesses, a.InBounds) : UbxInv s' := by
  have hle : s'.gbufferFill ≤ gbufferSize := hfill.trans (by decide)
  refine ⟨⟨hle, hin⟩, fun _ => hfill, ?_, ?_⟩
  · simp [hfound]
  · simp [hfound]

/-- The total length, unless it wraps. -/
theorem totalLength_of_lt (h : s.payloadLength.toNat < 65528) :
    s.totalLength.toNat = s.payloadLength.toNat + 8 := by
  rw [totalLength, BitVec.toNat_add, BitVec.toNat_ofNat]
  omega

/-- The total length if it wraps. -/
theorem totalLength_of_le (h : 65528 ≤ s.payloadLength.toNat) : s.totalLength.toNat < 8 := by
  have hlt : s.payloadLength.toNat < 2 ^ 16 := s.payloadLength.isLt
  rw [totalLength, BitVec.toNat_add, BitVec.toNat_ofNat]
  omega

/-- The length stays in the buffer. -/
theorem payloadLength_append (h : 6 ≤ s.gbufferFill) (data : List Byte) :
    (s.append data).payloadLength = s.payloadLength := by
  rw [payloadLength, payloadLength, append_gbuffer (by omega), append_gbuffer (by omega)]

/-- What a complete frame adds to the accesses. -/
theorem processFrame_accesses (size : ℕ) : (s.processFrame size).accesses =
    s.accesses ++ [.validateChecksum size, .subtract size 4, .subtract size 2] ++
      if s.validateChecksum size then [.subtract s.gbufferFill 4] else [] := by
  rw [processFrame]
  split
  · rfl
  · exact (List.append_nil _).symm

/-- **Looking for a header.** -/
theorem UbxInv.findHeader (h : UbxInv s) (hfound : s.foundHeader = false) {chunk : List Byte}
    (hchunk : chunk ≠ []) : UbxInv (s.findHeader chunk).1 := by
  obtain ⟨b, rest, rfl⟩ := List.exists_cons_of_ne_nil hchunk
  have hwrite : ∀ b : Byte, ∀ a ∈ (s.append [b]).accesses, a.InBounds := by
    intro b a ha
    rcases List.mem_append.mp ha with hold | hnew
    · exact h.safe.inBounds a hold
    · obtain rfl := List.mem_singleton.mp hnew
      have hfill := h.hunting hfound
      rw [UbxAccess.InBounds, gbufferSize, List.length_singleton]
      omega
  rcases Nat.le_one_iff_eq_zero_or_eq_one.mp (h.hunting hfound) with hzero | hone
  · rcases findHeader_zero hzero (b :: rest) with ⟨-, heq⟩ | ⟨before, after, -, -, heq⟩
    · rw [heq]
      exact h
    · rw [heq]
      exact .of_hunting hfound (by simp [hzero]) (hwrite _)
  · rw [findHeader_one hone]
    dsimp only
    split
    · refine ⟨⟨?_, hwrite b⟩, by simp, fun _ => ?_, fun _ hsix => ?_⟩
      · simp [hone, gbufferSize]
      · simp [hone]
      · simp [hone] at hsix
    · exact .of_hunting hfound (Nat.zero_le _) h.safe.inBounds

/-- What is taken is not more than what is missing. -/
theorem length_take_le {total : ℕ} (hfill : s.gbufferFill ≤ total) (htotal : total < 2 ^ 32)
    (chunk : List Byte) :
    (chunk.take (min chunk.length (sizeSub total s.gbufferFill))).length ≤
      total - s.gbufferFill := by
  rw [List.length_take, sizeSub_of_le hfill htotal]
  omega

/-- Taking what is missing is in bounds. -/
theorem Safe.take (h : Safe s) {total : ℕ} (hfill : s.gbufferFill ≤ total)
    (htotal : total ≤ gbufferSize) {data : List Byte}
    (hlen : data.length ≤ total - s.gbufferFill) :
    Safe ((s.record [.subtract total s.gbufferFill]).append data) := by
  refine ⟨?_, fun a ha => ?_⟩
  · simp only [append_fill, record_fill]
    omega
  · simp only [append, record, List.append_assoc, List.mem_append, List.mem_singleton] at ha
    rcases ha with hold | rfl | rfl
    · exact h.inBounds a hold
    · exact hfill
    · rw [UbxAccess.InBounds]
      omega

/-- **The first six bytes.** -/
theorem UbxInv.takeLength (h : UbxInv s) (hfound : s.foundHeader = true)
    (hfill : s.gbufferFill < 6) (chunk : List Byte) : UbxInv (s.takeLength chunk).1 := by
  have htwo := h.header hfound
  have hlen := length_take_le (Nat.le_of_lt hfill) (by decide) chunk
  rw [UbxParser.takeLength]
  generalize chunk.take (min chunk.length (sizeSub 6 s.gbufferFill)) = data at hlen
  refine ⟨h.safe.take (Nat.le_of_lt hfill) (by decide) hlen, ?_, fun _ => ?_, fun _ hsix => ?_⟩
  · simp [append, record, hfound]
  · simp only [append_fill, record_fill]
    omega
  · simp only [append_fill, record_fill] at hsix
    omega

/-- **A complete frame** of a size that fits. -/
theorem Safe.processFrame (h : Safe s) {size : ℕ} (hsize : 8 ≤ size) (hle : size ≤ gbufferSize)
    (hfill : 4 ≤ s.gbufferFill) : UbxInv (s.processFrame size) := by
  apply UbxInv.of_hunting
  · rw [processFrame_foundHeader]
  · rw [processFrame_fill]
    exact Nat.zero_le 1
  intro a ha
  rw [processFrame_accesses, List.append_assoc] at ha
  rcases List.mem_append.mp ha with hold | hnew
  · exact h.inBounds a hold
  rcases List.mem_append.mp hnew with hfixed | hvalid
  · simp only [List.mem_cons, List.not_mem_nil, or_false] at hfixed
    rcases hfixed with rfl | rfl | rfl
    · exact ⟨hsize, hle⟩
    · rw [UbxAccess.InBounds]
      omega
    · rw [UbxAccess.InBounds]
      omega
  · split at hvalid
    · obtain rfl := List.mem_singleton.mp hvalid
      exact hfill
    · exact absurd hvalid List.not_mem_nil

/-- **The rest of the frame**, if its length does not wrap. -/
theorem UbxInv.takeFrame (h : UbxInv s) (hfound : s.foundHeader = true)
    (hsix : 6 ≤ s.gbufferFill) (hlength : s.payloadLength.toNat < 65528) (chunk : List Byte) :
    UbxInv (s.takeFrame chunk).1 := by
  have htotal := totalLength_of_lt hlength
  rw [UbxParser.takeFrame, htotal]
  dsimp only
  split
  · -- the frame is given up
    exact .of_hunting rfl (Nat.zero_le _) h.safe.inBounds
  next hsize =>
  have hbounds := Nat.not_lt.mp hsize
  have hlt : s.gbufferFill < s.payloadLength.toNat + 8 := by
    rcases Nat.lt_or_eq_of_le hsix with hmore | heq
    · exact (h.checked hfound hmore).1
    · omega
  have hlen := length_take_le (Nat.le_of_lt hlt) (by omega) chunk
  generalize chunk.take (min chunk.length
    (sizeSub (s.payloadLength.toNat + 8) s.gbufferFill)) = data at hlen
  have hsafe := h.safe.take (Nat.le_of_lt hlt) hbounds hlen
  split
  · next hmore =>
    -- the length has been checked, and more of the frame is to come
    simp only [append_fill, record_fill] at hmore
    refine ⟨hsafe, ?_, fun _ => ?_, fun _ _ => ?_⟩
    · simp [append, record, hfound]
    · simp only [append_fill, record_fill]
      omega
    · rw [payloadLength_append (s := s.record _) hsix]
      simp only [append_fill, record_fill]
      exact ⟨hmore, hbounds⟩
  · dsimp only
    refine hsafe.processFrame (Nat.le_add_left 8 _) hbounds ?_
    rw [append_fill, record_fill]
    omega

theorem UbxInv.iteration (h : UbxInv s) {chunk : List Byte} (hchunk : chunk ≠ [])
    (hlength : LengthFits s chunk) : UbxInv (s.iteration chunk).1 := by
  rw [UbxParser.iteration]
  split
  · next hfound => exact h.findHeader hfound hchunk
  · next hfound =>
    have htrue : s.foundHeader = true := by simpa using hfound
    split
    · next hfill => exact h.takeLength htrue hfill chunk
    · next hfill =>
      have hsix := Nat.not_lt.mp hfill
      exact h.takeFrame htrue hsix (hlength htrue hsix) chunk

/-- **A pass keeps the invariant** if the length fits. -/
theorem UbxInv.pass (h : UbxInv s) {chunk : List Byte} (hchunk : chunk ≠ [])
    (hlength : LengthFits s chunk) : UbxInv (s.pass chunk).1 := by
  have hfirst := h.iteration hchunk hlength
  rw [UbxParser.pass]
  split
  · next hsame =>
    -- the second iteration looks for a header
    rcases @iteration_takes s chunk hchunk with ⟨taken, hne, hsplit⟩ | ⟨-, hfound⟩
    · have hpos := List.length_pos_iff.mpr hne
      have hlen := congrArg List.length hsplit
      rw [List.length_append] at hlen
      omega
    · exact hfirst.iteration hchunk fun htrue => absurd (hfound.symm.trans htrue) (by simp)
  · exact hfirst

/-- What has gone out of bounds stays in the history. -/
theorem mem_iteration_accesses {a : UbxAccess} (h : a ∈ s.accesses) (chunk : List Byte) :
    a ∈ (s.iteration chunk).1.accesses := by
  rw [UbxParser.iteration]
  split
  · rw [UbxParser.findHeader]
    split
    · rw [findFirst]
      split <;> simp [append, h]
    split
    · cases chunk with
      | nil => exact h
      | cons b rest =>
        rw [findSecond]
        split <;> simp [append, h]
    · exact h
  split
  · simp [UbxParser.takeLength, append, record, h]
  · rw [UbxParser.takeFrame]
    dsimp only
    split
    · exact h
    split
    · simp [append, record, h]
    · rw [processFrame_accesses]
      simp [append, record, h]

/-- **A length that wraps** takes the parser out of bounds. -/
theorem UbxInv.not_safe_pass (h : UbxInv s) {chunk : List Byte} (hchunk : chunk ≠ [])
    (hfound : s.foundHeader = true) (hsix : 6 ≤ s.gbufferFill)
    (hlength : 65528 ≤ s.payloadLength.toNat) : ¬ Safe (s.pass chunk).1 := by
  have htotal := totalLength_of_le hlength
  -- a length that has been checked before does not wrap, so this is the first use
  have hfill : s.gbufferFill = 6 := by
    by_contra hne
    have hchecked := (h.checked hfound (by omega)).2
    rw [gbufferSize] at hchecked
    omega
  have hpos := List.length_pos_iff.mpr hchunk
  have hsub : UbxAccess.subtract s.totalLength.toNat 6 ∈ (s.iteration chunk).1.accesses := by
    rw [UbxParser.iteration, if_neg (by simp [hfound]), if_neg (by omega), UbxParser.takeFrame]
    dsimp only
    rw [if_neg (by rw [gbufferSize]; omega), hfill]
    split
    · simp [append, record]
    · rw [processFrame_accesses]
      simp [append, record]
  -- with a total of 6 or 7 the frame is complete, but it is too short for a checksum
  have hvalidate : 6 ≤ s.totalLength.toNat →
      UbxAccess.validateChecksum s.totalLength.toNat ∈ (s.iteration chunk).1.accesses := by
    intro hge
    have hlen : (chunk.take (min chunk.length (sizeSub s.totalLength.toNat 6))).length =
        s.totalLength.toNat - 6 := by
      rw [sizeSub_of_le hge (by omega), List.length_take]
      omega
    rw [UbxParser.iteration, if_neg (by simp [hfound]), if_neg (by omega), UbxParser.takeFrame]
    dsimp only
    rw [if_neg (by rw [gbufferSize]; omega), hfill,
      if_neg (by rw [append_fill, record_fill, hlen, hfill]; omega), processFrame_accesses]
    simp
  have hkept : ∀ a ∈ (s.iteration chunk).1.accesses, a ∈ (s.pass chunk).1.accesses := by
    intro a ha
    rw [UbxParser.pass]
    split
    · exact mem_iteration_accesses ha chunk
    · exact ha
  intro hsafe
  have hle : 6 ≤ s.totalLength.toNat := hsafe.inBounds _ (hkept _ hsub)
  have hbounds : 8 ≤ s.totalLength.toNat ∧ s.totalLength.toNat ≤ gbufferSize :=
    hsafe.inBounds _ (hkept _ (hvalidate hle))
  omega

end UbxParser

/-- Everything is in bounds at every point of a stream. -/
def UbxInBounds (chunks : List (List Byte)) : Prop :=
  ∀ p, ubxConsumer.Steps (start, chunks) p → Safe p.1

/-- A stream that stays in bounds has no length that wraps. -/
theorem lengthFits_of_inBounds {chunks : List (List Byte)} (h : UbxInBounds chunks) :
    ubxConsumer.EveryPass LengthFits (start, chunks) := by
  refine (Consumer.everyPass_of_points h).imp (I := UbxInv) start_inv ?_
  intro s chunk hchunk hs hsafe
  have hlength : LengthFits s chunk := by
    intro hfound hsix
    by_contra hwrap
    exact hs.not_safe_pass hchunk hfound hsix (Nat.not_lt.mp hwrap) hsafe
  exact ⟨hs.pass hchunk hlength, hlength⟩

/-- **Bounds.** For every stream in any chunks, everything is in bounds at every point if and
only if no total length wraps: whenever more bytes come for a frame whose length field is
known, it is below 65528. -/
theorem ubx_in_bounds_iff (chunks : List (List Byte)) :
    UbxInBounds chunks ↔ ubxConsumer.EveryPass LengthFits (start, chunks) := by
  refine ⟨lengthFits_of_inBounds, fun h p hp => ?_⟩
  have hinv : UbxInv p.1 :=
    h.invariant start_inv (fun s chunk hchunk hs hlength => hs.pass hchunk hlength) hp
  exact hinv.safe

/-- A header with the length 65528, and a byte behind it. -/
def wrappingChunks : List (List Byte) :=
  [[0xb5#8, 0x62#8, 0x01#8, 0x07#8, 0xf8#8, 0xff#8], [0x00#8]]

/-- The stream is not in bounds. -/
theorem ubx_not_in_bounds : ¬ UbxInBounds wrappingChunks := by
  intro h
  have hheld := @Holding.feed_header _ [] _ 0x01#8 0x07#8 0xf8#8 0xff#8 start_holding rfl
  have hsteps : ubxConsumer.Steps (start, wrappingChunks) (ubxConsumer.feed start _, [[0x00#8]]) :=
    (Consumer.steps_feed _ _ _).trans (.of_step (.next _ _))
  have hfits := lengthFits_of_inBounds h _ _ _ hsteps (List.cons_ne_nil _ _)
  have hlt := hfits hheld.found (by rw [hheld.fill]; decide)
  rw [hheld.payloadLength] at hlt
  exact absurd hlt (by decide)

end OpenMower
