import OpenMower.Drivers.VescValues
import OpenMower.Library.Crc
import OpenMower.Parsers.VescRoundTrip

/-!
# Damaged VESC frames

The table of the VESC driver is that of the polynomial `0x1021`, so that a payload with its CRC
leaves no remainder, and one in which up to two neighbouring bytes have been changed does. Such a
frame is still taken off the stream as a whole: the parser looks for the next header behind it.
So of any sequence of frames, with noise between them and cut anywhere, exactly those are accepted
that arrive as they were sent (`vesc_accepts_undamaged`).
-/

namespace OpenMower

open Buffer

namespace VescParser

/-- The polynomial of `crc16_tab`. -/
def crcPoly : BitVec 16 := 0x1021#16

theorem crcPoly_low : crcPoly.getLsbD 0 = true := rfl

/-- `crc16_tab` holds what a byte leaves in an empty register. -/
theorem crc16Tab_eq : ∀ b : Byte, crc16Tab.getD b.toNat 0x0000#16 = Crc.feed crcPoly 0#16 b := by
  have hall : ∀ i : Fin 256,
      crc16Tab.getD i 0x0000#16 = Crc.feed crcPoly 0#16 (BitVec.ofFin i) := by
    decide +kernel
  exact fun b => hall b.toFin

/-- **The table-driven loop** divides by the polynomial. -/
theorem crc16_eq_run (buf : List Byte) : crc16 buf = Crc.run crcPoly 0#16 buf := by
  have hstep : ∀ (cksum : BitVec 16) (b : Byte),
      crc16Tab.getD (((cksum >>> 8) ^^^ b.setWidth 16) &&& 0xFF#16).toNat 0x0000#16 ^^^
        cksum <<< 8 = Crc.feed crcPoly cksum b := by
    intro cksum b
    have hindex : ((cksum >>> 8 ^^^ b.setWidth 16) &&& 0xFF#16) =
        ((cksum >>> 8).setWidth 8 ^^^ b).setWidth 16 := by
      refine BitVec.eq_of_getLsbD_eq fun i hi => ?_
      have hmask : (0xFF#16).getLsbD i = decide (i < 8) := by
        rw [show (0xFF#16) = (BitVec.allOnes 8).setWidth 16 from rfl, BitVec.getLsbD_setWidth,
          BitVec.getLsbD_allOnes, decide_eq_true hi, Bool.true_and]
      rw [BitVec.getLsbD_and, hmask, BitVec.getLsbD_setWidth, BitVec.getLsbD_xor,
        BitVec.getLsbD_xor, BitVec.getLsbD_setWidth, BitVec.getLsbD_setWidth]
      by_cases hlow : i < 8
      · simp [hi, hlow]
      · rw [BitVec.getLsbD_of_ge b i (by omega)]
        simp [hlow]
    rw [hindex, BitVec.toNat_setWidth_of_le (by decide), crc16Tab_eq,
      Crc.feed_eq_table (by decide) b]
  rw [crc16, Crc.run]
  exact congrArg (fun f => buf.foldl f 0#16) (funext₂ hstep)

/-- The bytes of a CRC as `SendPacket` writes them. -/
def crcBytes (crc : BitVec 16) : List Byte := [(crc >>> 8).setWidth 8, (crc &&& 0xFF#16).setWidth 8]

theorem align_eq_join (high low : Byte) :
    Crc.align 16 [high, low] = high.setWidth 16 <<< 8 ||| low.setWidth 16 := by
  refine BitVec.eq_of_getLsbD_eq fun i hi => ?_
  have hempty : Crc.align 16 [] = 0#16 := rfl
  rw [Crc.align, Crc.align, hempty, BitVec.getLsbD_xor, BitVec.getLsbD_ushiftRight,
    BitVec.getLsbD_xor, Crc.getLsbD_top, Crc.getLsbD_top, BitVec.getLsbD_or,
    BitVec.getLsbD_shiftLeft, BitVec.getLsbD_setWidth, BitVec.getLsbD_setWidth]
  by_cases hlow : i < 8
  · simp [hi, hlow, show ¬ 8 ≤ i by omega, show 8 + i < 16 by omega]
  · rw [BitVec.getLsbD_of_ge low i (by omega)]
    simp [hi, hlow, show 8 ≤ i by omega, show ¬ 8 + i < 16 by omega, show i - 8 < 16 by omega]

/-- A payload and its CRC. -/
def checked (payload : List Byte) : List Byte := payload ++ crcBytes (crc16 payload)

theorem length_checked {payload : List Byte} : (checked payload).length = payload.length + 2 := by
  simp [checked, crcBytes]

theorem sendPacket_eq (payload : List Byte) :
    sendPacket crc16 payload =
      [0x02#8, BitVec.ofNat 8 payload.length] ++ checked payload ++ [0x03#8] := by
  simp [sendPacket, checked, crcBytes]

/-- **What the parser compares** is zero as a remainder. -/
theorem crc16_eq_iff (data : List Byte) (high low : Byte) :
    crc16 data = high.setWidth 16 <<< 8 ||| low.setWidth 16 ↔
      Crc.run crcPoly 0#16 (data ++ [high, low]) = 0#16 := by
  rw [Crc.run_append_eq_zero_iff crcPoly_low (by simp), align_eq_join, crc16_eq_run]
  exact eq_comm

theorem run_checked (payload : List Byte) : Crc.run crcPoly 0#16 (checked payload) = 0#16 := by
  refine (crc16_eq_iff _ _ _).mp ?_
  rw [setWidth_and_ff, join_bytes]

end VescParser

open VescParser

/-- What is sent as one frame, and what arrives between its length and its trailer, with the noise
behind it. -/
structure VescTransmission where
  payload : List Byte
  received : List Byte
  noise : List Byte
  length_le : payload.length ≤ 250
  /-- No more than two neighbouring bytes are damaged. -/
  damage : received = checked payload ∨ Crc.Burst 2 (checked payload) received
  noise_clear : 0x02#8 ∉ noise

namespace VescTransmission

variable (t : VescTransmission)

/-- The frame as it arrives. -/
def frame : List Byte :=
  [0x02#8, BitVec.ofNat 8 t.payload.length] ++ t.received ++ [0x03#8]

/-- It arrives as it was sent. -/
def Intact : Prop := t.received = checked t.payload

instance : Decidable t.Intact := inferInstanceAs (Decidable (t.received = checked t.payload))

/-- What is to be accepted. -/
def deliveries : List VescTransmission → List (List Byte)
  | [] => []
  | t :: ts => (if t.Intact then [t.payload] else []) ++ deliveries ts

/-- What arrives. -/
def wire : List VescTransmission → List Byte
  | [] => []
  | t :: ts => t.frame ++ t.noise ++ wire ts

theorem length_received : t.received.length = t.payload.length + 2 := by
  rcases t.damage with heq | hburst
  · rw [heq, length_checked]
  · rw [hburst.length_eq, length_checked]

theorem length_frame : t.frame.length = t.payload.length + 5 := by
  simp only [frame, List.length_append, length_received, List.length_cons, List.length_nil]
  omega

/-- An intact frame is the one that `SendPacket` builds. -/
theorem frame_eq_sendPacket (h : t.Intact) : t.frame = sendPacket crc16 t.payload := by
  rw [frame, sendPacket_eq, h]

variable {t}

/-- **A frame that has been received** is accepted if it is intact. -/
theorem processPayload_frame {s : VescParser}
    (hfill : s.workingBufferFill.toNat = t.payload.length + 5)
    (hslice : slice s.workingBuffer 0 (t.payload.length + 5) = t.frame) :
    s.processPayload crc16 =
      { s.reset with accepted := s.accepted ++ if t.Intact then [t.payload] else [] } := by
  by_cases hintact : t.Intact
  · rw [if_pos hintact]
    rw [t.frame_eq_sendPacket hintact] at hslice
    exact VescParser.processPayload_frame t.length_le hfill hslice
  rw [if_neg hintact, List.append_nil]
  have hburst := t.damage.resolve_left hintact
  have hlength : (s.workingBuffer 1).toNat = t.payload.length := by
    have hone : s.workingBuffer 1 = BitVec.ofNat 8 t.payload.length := by
      refine @apply_of_slice _ _ 0 _ [0x02#8] (t.received ++ [0x03#8]) _ (hslice.trans ?_)
      rw [frame]
      rfl
    have hle := t.length_le
    rw [hone, BitVec.toNat_ofNat]
    omega
  have hreceived : slice s.workingBuffer 2 (t.payload.length + 2) = t.received := by
    have hpart := @slice_of_append _ _ _ _
      [0x02#8, BitVec.ofNat 8 t.payload.length] t.received [0x03#8] hslice
    rwa [t.length_received] at hpart
  -- the checks of the payload are those of a message with its remainder
  have hcheck : crc16 (slice s.workingBuffer 2 t.payload.length) ≠
      (s.workingBuffer (t.payload.length + 2)).setWidth 16 <<< 8 |||
        (s.workingBuffer (t.payload.length + 3)).setWidth 16 := by
    rw [ne_eq, crc16_eq_iff]
    have hsplit : slice s.workingBuffer 2 t.payload.length ++
        [s.workingBuffer (t.payload.length + 2), s.workingBuffer (t.payload.length + 3)] =
        t.received := by
      rw [← hreceived, slice_add, Nat.add_comm 2]
      rfl
    have hne := @Crc.run_ne_of_burst _ crcPoly 0#16 crcPoly_low 2 (by decide) _ _ hburst
    rwa [run_checked, ← hsplit] at hne
  rw [processPayload]
  simp only [hfill, hlength, ne_eq, not_true_eq_false,
    show t.payload.length + 5 - 2 = t.payload.length + 3 from rfl,
    show t.payload.length + 5 - 3 = t.payload.length + 2 from rfl, hcheck, not_false_eq_true,
    if_true, ite_self]
  rfl

/-! ### Where the parser is -/

/-- Between two frames: `noise` is left of the noise, and `ts` is to come. -/
structure Between (accepted : List (List Byte)) (s : VescParser) (rest noise : List Byte)
    (ts : List VescTransmission) : Prop where
  rest_eq : rest = noise ++ wire ts
  noise_clear : 0x02#8 ∉ noise
  fill : s.workingBufferFill = 0#8
  accepted_eq : s.accepted ++ deliveries ts = accepted

/-- In the frame of `t`, of which `done` is in the buffer and `data` is to come. -/
structure Inside (accepted : List (List Byte)) (s : VescParser) (rest done data : List Byte)
    (t : VescTransmission) (ts : List VescTransmission) : Prop where
  rest_eq : rest = data ++ (t.noise ++ wire ts)
  frame_eq : done ++ data = t.frame
  done_ne : done ≠ []
  data_ne : data ≠ []
  fill : s.workingBufferFill.toNat = done.length
  slice_eq : slice s.workingBuffer 0 done.length = done
  accepted_eq : s.accepted ++ deliveries (t :: ts) = accepted

/-- The parser with what is still to arrive: it will have accepted `accepted`. -/
def Position (accepted : List (List Byte)) (s : VescParser) (rest : List Byte) : Prop :=
  (∃ noise ts, Between accepted s rest noise ts) ∨
    ∃ done data t ts, Inside accepted s rest done data t ts

variable {accepted : List (List Byte)} {s : VescParser} {chunk later : List Byte}

/-- What is to come begins with a header. -/
theorem eq_of_wire_eq_cons {ts : List VescTransmission} {b : Byte} {rest : List Byte}
    (h : wire ts = b :: rest) : ∃ t ts', ts = t :: ts' ∧ b = 0x02#8 ∧
      rest = BitVec.ofNat 8 t.payload.length :: (t.received ++ [0x03#8]) ++
        (t.noise ++ wire ts') := by
  cases ts with
  | nil => cases h
  | cons t ts =>
    have hwire : wire (t :: ts) = 0x02#8 :: (BitVec.ofNat 8 t.payload.length ::
        (t.received ++ [0x03#8]) ++ (t.noise ++ wire ts)) := by
      simp [wire, frame]
    rw [hwire, List.cons.injEq] at h
    exact ⟨t, ts, rfl, h.1.symm, h.2.symm⟩

/-- The noise is thrown away. -/
theorem Between.skip {noise : List Byte} {ts : List VescTransmission}
    (h : Between accepted s (chunk ++ later) noise ts) (hnone : 0x02#8 ∉ chunk) :
    ∃ noise', Between accepted s later noise' ts := by
  rcases List.append_eq_append_iff.mp h.rest_eq with
    ⟨noise', hnoise, hlater⟩ | ⟨more, hchunk, hwire⟩
  · refine ⟨noise', hlater, fun hmem => ?_, h.fill, h.accepted_eq⟩
    exact h.noise_clear (by rw [hnoise]; exact List.mem_append_right _ hmem)
  · refine ⟨[], ?_, List.not_mem_nil, h.fill, h.accepted_eq⟩
    cases more with
    | nil => exact hwire.symm
    | cons b more =>
      obtain ⟨-, -, -, rfl, -⟩ := eq_of_wire_eq_cons hwire
      exact absurd (by rw [hchunk]; simp) hnone

/-- A header that is found is that of the next frame. -/
theorem Between.header {noise skipped rest : List Byte} {ts : List VescTransmission}
    (h : Between accepted s (skipped ++ 0x02#8 :: rest) noise ts) (hskipped : 0x02#8 ∉ skipped) :
    ∃ t ts', Inside accepted (s.append [0x02#8]) rest [0x02#8]
      (BitVec.ofNat 8 t.payload.length :: (t.received ++ [0x03#8])) t ts' := by
  have hwire : wire ts = 0x02#8 :: rest := by
    rcases List.append_eq_append_iff.mp h.rest_eq with ⟨more, hmore, hrest⟩ | ⟨more, hmore, hwire⟩
    · cases more with
      | nil => exact hrest.symm
      | cons b more =>
        rw [List.cons_append, List.cons.injEq] at hrest
        exact absurd (by rw [hmore, ← hrest.1]; simp) h.noise_clear
    · cases more with
      | nil => exact hwire
      | cons b more =>
        obtain ⟨-, -, -, rfl, -⟩ := eq_of_wire_eq_cons hwire
        exact absurd (by rw [hmore]; simp) hskipped
  obtain ⟨t, ts', rfl, -, hrest⟩ := eq_of_wire_eq_cons hwire
  have hfill : s.workingBufferFill.toNat = ([] : List Byte).length := by rw [h.fill]; rfl
  exact ⟨t, ts', hrest, by simp [frame], by simp, by simp, by simp [h.fill],
    slice_append hfill rfl, h.accepted_eq⟩

/-- **Bytes of the frame** that do not complete it. -/
theorem Inside.append {done taken data rest : List Byte} {t : VescTransmission}
    {ts : List VescTransmission}
    (h : Inside accepted s (taken ++ rest) done (taken ++ data) t ts) (hne : data ≠ []) :
    Inside accepted (s.append taken) rest (done ++ taken) data t ts := by
  have hlen := congrArg List.length h.frame_eq
  have hle := t.length_le
  have hpos := List.length_pos_iff.mpr hne
  rw [length_frame, List.length_append, List.length_append] at hlen
  refine ⟨?_, ?_, ?_, hne, ?_, slice_append h.fill h.slice_eq, h.accepted_eq⟩
  · have hrest := h.rest_eq
    rw [List.append_assoc] at hrest
    exact List.append_cancel_left hrest
  · rw [List.append_assoc, h.frame_eq]
  · exact fun hnil => h.done_ne (List.append_eq_nil_iff.mp hnil).1
  · rw [append_fill, h.fill, List.length_append, Nat.mod_eq_of_lt (by omega)]

/-- **The last bytes of the frame.** -/
theorem Inside.complete {done data rest : List Byte} {t : VescTransmission}
    {ts : List VescTransmission} (h : Inside accepted s (data ++ rest) done data t ts) :
    Between accepted (((s.append data).processPayload crc16).reset) rest t.noise ts := by
  have hlen := congrArg List.length h.frame_eq
  have hle := t.length_le
  rw [length_frame, List.length_append] at hlen
  have hslice := @slice_append s done data h.fill h.slice_eq
  rw [h.frame_eq, length_frame] at hslice
  rw [processPayload_frame (by rw [append_fill, h.fill]; omega) hslice]
  refine ⟨List.append_cancel_left h.rest_eq, t.noise_clear, rfl, ?_⟩
  rw [← h.accepted_eq, deliveries, ← List.append_assoc]
  rfl

/-- The length that has been received. -/
theorem Inside.workingBuffer_one {rest done data : List Byte} {t : VescTransmission}
    {ts : List VescTransmission} (h : Inside accepted s rest done data t ts)
    (htwo : 2 ≤ s.workingBufferFill.toNat) : (s.workingBuffer 1).toNat = t.payload.length := by
  rw [h.fill] at htwo
  obtain ⟨a, b, more, rfl⟩ : ∃ a b more, done = a :: b :: more := by
    match done, htwo with
    | a :: b :: more, _ => exact ⟨a, b, more, rfl⟩
  have hone : s.workingBuffer 1 = b := @apply_of_slice _ _ _ _ [a] more b h.slice_eq
  have hframe := h.frame_eq
  have hle := t.length_le
  simp only [frame, List.cons_append, List.nil_append, List.cons.injEq] at hframe
  rw [hone, hframe.2.1, BitVec.toNat_ofNat]
  omega

/-- **A pass that copies** takes what the chunk has of the frame. -/
theorem Inside.take {taken rest done data : List Byte} {t : VescTransmission}
    {ts : List VescTransmission} (h : Inside accepted s (taken ++ (rest ++ later)) done data t ts)
    (htwo : 2 ≤ s.workingBufferFill.toNat)
    (htaken : taken.length = min (taken ++ rest).length
      ((s.workingBuffer 1).toNat + 5 - s.workingBufferFill.toNat)) :
    Position accepted
      (if (s.workingBuffer 1).toNat + 5 = (s.append taken).workingBufferFill.toNat then
          ((s.append taken).processPayload crc16).reset
        else s.append taken) (rest ++ later) := by
  have hframe := congrArg List.length h.frame_eq
  have hle := t.length_le
  rw [length_frame, List.length_append] at hframe
  rw [h.workingBuffer_one htwo, h.fill, List.length_append] at htaken
  rw [h.workingBuffer_one htwo, append_fill, h.fill]
  rcases List.append_eq_append_iff.mp h.rest_eq with ⟨data', hdata, hrest⟩ | ⟨more, htake, -⟩
  · subst hdata
    rw [List.length_append] at hframe
    cases data' with
    | nil =>
      rw [List.length_nil] at hframe
      rw [List.append_nil] at h
      rw [if_pos (by omega)]
      exact .inl ⟨t.noise, ts, h.complete⟩
    | cons b data' =>
      rw [List.length_cons] at hframe
      rw [if_neg (by omega)]
      exact .inr ⟨_, _, t, ts, h.append (List.cons_ne_nil b data')⟩
  · have hlen := congrArg List.length htake
    rw [List.length_append] at hlen
    obtain rfl : more = [] := List.eq_nil_of_length_eq_zero (by omega)
    rw [List.append_nil] at htake
    subst htake
    rw [if_pos (by omega)]
    exact .inl ⟨t.noise, ts, h.complete⟩

/-- **One pass.** -/
theorem Position.pass (hs : s.InFrame) (hchunk : chunk ≠ [])
    (h : Position accepted s (chunk ++ later)) :
    Position accepted (s.pass crc16 chunk).1 ((s.pass crc16 chunk).2 ++ later) := by
  rcases h with ⟨noise, ts, h⟩ | ⟨done, data, t, ts, h⟩
  · rcases @pass_cases crc16 s hs chunk hchunk with
      ⟨-, hnone, heq⟩ | ⟨-, skipped, rest, rfl, hskipped, heq⟩ | ⟨hone, -⟩ | ⟨htwo, -⟩
    · obtain ⟨noise', h'⟩ := h.skip fun hmem => hnone _ hmem rfl
      rw [heq]
      exact .inl ⟨noise', ts, h'⟩
    · rw [List.append_assoc, List.cons_append] at h
      obtain ⟨t, ts', h'⟩ := h.header fun hmem => hskipped _ hmem rfl
      rw [heq]
      exact .inr ⟨_, _, t, ts', h'⟩
    · rw [h.fill] at hone
      cases hone
    · rw [h.fill] at htwo
      exact absurd htwo (by decide)
  · have hfill : s.workingBufferFill ≠ 0#8 := by
      intro hzero
      have hempty := h.fill
      rw [hzero] at hempty
      exact h.done_ne (List.eq_nil_of_length_eq_zero hempty.symm)
    rcases @pass_cases crc16 s hs chunk hchunk with
      ⟨hzero, -⟩ | ⟨hzero, -⟩ | ⟨hone, b, rest, rfl, heq⟩ | ⟨htwo, taken, rest, -, rfl, htaken, heq⟩
    · exact absurd hzero hfill
    · exact absurd hzero hfill
    · obtain ⟨d, data, rfl⟩ := List.exists_cons_of_ne_nil h.data_ne
      have hb := h.rest_eq
      rw [List.cons_append, List.cons_append, List.cons.injEq] at hb
      obtain ⟨rfl, -⟩ := hb
      rw [heq]
      refine .inr ⟨_, data, t, ts, @Inside.append _ _ done [b] data (rest ++ later) t ts h ?_⟩
      -- a frame has more than two bytes
      rintro rfl
      have hframe := congrArg List.length h.frame_eq
      rw [length_frame, List.length_append, ← h.fill, hone] at hframe
      simp at hframe
    · rw [heq]
      rw [List.append_assoc] at h
      exact h.take htwo htaken

end VescTransmission

open VescTransmission in
/-- **Exactly the undamaged frames are accepted**, in order, whatever noise there is between the
frames and wherever the stream is cut. -/
theorem vesc_accepts_undamaged {s : VescState} (hidle : s.val.workingBufferFill = 0#8)
    {noise : List Byte} (hnoise : 0x02#8 ∉ noise) {ts : List VescTransmission}
    {chunks : List (List Byte)} (hchunks : chunks.flatten = noise ++ wire ts) :
    (processChunks crc16 s chunks).val.accepted = s.val.accepted ++ deliveries ts ∧
      (processChunks crc16 s chunks).val.workingBufferFill = 0#8 := by
  rw [processChunks_eq]
  have hposition : Position (s.val.accepted ++ deliveries ts)
      ((vescConsumer crc16).feedAll s chunks).val [] := by
    refine @Consumer.feedAll_invariant _ _ (vescConsumer crc16) s chunks
      (fun s' rest => Position (s.val.accepted ++ deliveries ts) s'.val rest) ?_ ?_
    · intro s' chunk later hchunk h
      obtain ⟨hval, hrest⟩ := @vescConsumer_pass crc16 s' chunk hchunk
      rw [hval, hrest]
      exact h.pass s'.property hchunk
    · exact .inl ⟨noise, ts, hchunks, hnoise, hidle, rfl⟩
  rcases hposition with ⟨noise', ts', h⟩ | ⟨done, data, t, ts', h⟩
  · obtain ⟨-, hwire⟩ := List.append_eq_nil_iff.mp h.rest_eq.symm
    cases ts' with
    | nil => exact ⟨by rw [← h.accepted_eq]; exact (List.append_nil _).symm, h.fill⟩
    | cons t ts' => simp [wire, frame] at hwire
  · exact absurd (List.append_eq_nil_iff.mp h.rest_eq.symm).1 h.data_ne

theorem checked_getValues : checked [commGetValues] = [0x04#8, 0x40#8, 0x84#8] := by
  decide +kernel

/-- A request for the values. -/
def requestSent : VescTransmission where
  payload := [commGetValues]
  received := [0x04#8, 0x40#8, 0x84#8]
  noise := []
  length_le := by decide
  damage := .inl checked_getValues.symm
  noise_clear := List.not_mem_nil

/-- The same with another CRC, and noise behind it. -/
def requestDamaged : VescTransmission where
  payload := [commGetValues]
  received := [0x04#8, 0x41#8, 0x84#8]
  noise := [0x66#8]
  length_le := by decide
  damage := .inr
    ⟨[0x04#8], [0x40#8], [0x41#8], [0x84#8], checked_getValues, rfl, rfl, by decide, by decide⟩
  noise_clear := by decide

open VescTransmission in
/-- Three requests, of which the second is damaged, in three chunks. -/
theorem vesc_accepts_undamaged_three :
    (processChunks crc16 idleParser
      [[0x55#8, 0x02#8, 0x01#8], [0x04#8, 0x40#8, 0x84#8, 0x03#8, 0x02#8, 0x01#8, 0x04#8, 0x41#8],
        [0x84#8, 0x03#8, 0x66#8, 0x02#8, 0x01#8, 0x04#8, 0x40#8, 0x84#8, 0x03#8]]).val.accepted =
      [[commGetValues], [commGetValues]] := by
  have hsent : requestSent.Intact := checked_getValues.symm
  have hdamaged : ¬ requestDamaged.Intact := by
    rw [VescTransmission.Intact, show requestDamaged.payload = [commGetValues] from rfl,
      checked_getValues]
    decide
  have haccepted := (@vesc_accepts_undamaged idleParser rfl [0x55#8] (by decide)
    [requestSent, requestDamaged, requestSent]
    [[0x55#8, 0x02#8, 0x01#8], [0x04#8, 0x40#8, 0x84#8, 0x03#8, 0x02#8, 0x01#8, 0x04#8, 0x41#8],
      [0x84#8, 0x03#8, 0x66#8, 0x02#8, 0x01#8, 0x04#8, 0x40#8, 0x84#8, 0x03#8]] rfl).1
  rw [haccepted, deliveries, deliveries, deliveries, if_pos hsent, if_neg hdamaged]
  rfl

end OpenMower
