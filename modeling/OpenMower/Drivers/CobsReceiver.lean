import OpenMower.Drivers.Cobs
import OpenMower.Library.StateMachine

/-!
# Receiving COBS frames

`ProcessRxBytes` of the YFR4 driver and of the cover UI: bytes are collected up to the delimiter,
and the frame is then decoded and handed on. A frame that does not fit is given up with the
byte that is too many, and what comes behind that byte is taken for another frame. The two
functions differ in the sizes of their buffers, in the decoder, and in what they hand on, so
they are the values of one definition (`receive`).

How many bytes each run of the decoder has written is recorded, and so are the packets that
have been handed on. The bytes of a `Receiving` state are the part of a frame that has been
collected; a frame that fits is decoded as a whole (`receive_frame`).
-/

namespace OpenMower

open Buffer

/-- The receiving side of a driver. -/
structure CobsReceiver where
  /-- The frame so far: `cobs_rx_buffer_` with `cobs_rx_len_`, or `rx_buf_` with `rx_len_`. -/
  rx : Writer Byte
  /-- `cobs_decoded_`, or `decode_buf_`. -/
  decodeBuf : ℕ → Byte
  /-- History: how many bytes the runs of the decoder have written. -/
  written : List ℕ
  /-- History: the packets that have been handed on. -/
  packets : List (List Byte)

/-- A decoder as the receiver calls it: the length of the packet to be handed on, and the
output. -/
abbrev FrameDecoder := List Byte → (ℕ → Byte) → Option ℕ × Writer Byte

namespace CobsReceiver

/-- The receiver as it is created. -/
def start : CobsReceiver where
  rx := Writer.ofBuffer fun _ => 0#8
  decodeBuf := fun _ => 0#8
  written := []
  packets := []

variable (capacity : ℕ) (decode : FrameDecoder) (s : CobsReceiver)

/-- The length of the frame is set to 0. -/
def discard : CobsReceiver := { s with rx := { s.rx with len := 0 } }

/-- The delimiter behind a frame. -/
def decodeFrame : CobsReceiver :=
  let result := decode s.rx.contents s.decodeBuf
  { s.discard with
    decodeBuf := result.2.buffer
    written := s.written ++ [result.2.len]
    packets := match result.1 with
      | some len => s.packets ++ [slice result.2.buffer 0 len]
      | none => s.packets }

/-- A pass of the loop in `ProcessRxBytes`. -/
def receive (b : Byte) : CobsReceiver :=
  if b = 0x00#8 then
    if 0 < s.rx.len then s.decodeFrame decode else s
  else if s.rx.len < capacity then { s with rx := s.rx.put b }
  -- the frame is too long, and the byte goes with it
  else s.discard

/-- The loop in `ProcessRxBytes` as a machine that takes a byte in each step. -/
def machine : StateMachine CobsReceiver Byte where
  Init s := s = start
  step s b := some (s.receive capacity decode b)

/-- The part of a frame that has been collected has no delimiter. -/
structure Receiving : Prop where
  len_le : s.rx.len ≤ capacity
  delimiter_notMem : 0#8 ∉ s.rx.contents

/-- No decoded byte and no packet has been too much for a decode buffer of the given size. -/
structure InBounds (decodeSize : ℕ) : Prop where
  len_le : s.rx.len ≤ capacity
  written_le : ∀ n ∈ s.written, n ≤ decodeSize
  length_le : ∀ packet ∈ s.packets, packet.length ≤ decodeSize

variable {capacity decode s}

@[simp] theorem discard_len : s.discard.rx.len = 0 := rfl

@[simp] theorem discard_packets : s.discard.packets = s.packets := rfl

@[simp] theorem decodeFrame_len : (s.decodeFrame decode).rx.len = 0 := rfl

theorem start_receiving : Receiving capacity start :=
  ⟨Nat.zero_le _, by simp [start]⟩

theorem start_inBounds {decodeSize : ℕ} : InBounds capacity start decodeSize :=
  ⟨Nat.zero_le _, by simp [start], by simp [start]⟩

/-- An empty frame. -/
theorem receiving_of_len (h : s.rx.len = 0) : Receiving capacity s := by
  refine ⟨by omega, ?_⟩
  rw [List.eq_nil_of_length_eq_zero (s.rx.length_contents.trans h)]
  exact List.not_mem_nil

/-- **The loop keeps the invariant.** -/
theorem Receiving.receive (h : Receiving capacity s) (b : Byte) :
    Receiving capacity (s.receive capacity decode b) := by
  rw [CobsReceiver.receive]
  split
  · split
    · exact receiving_of_len decodeFrame_len
    · exact h
  · next hb =>
    split
    · next hlt =>
      refine ⟨hlt, ?_⟩
      rw [Writer.contents_put]
      simp [h.delimiter_notMem, Ne.symm hb]
    · exact receiving_of_len discard_len

theorem Receiving.foldl (h : Receiving capacity s) (bytes : List Byte) :
    Receiving capacity (bytes.foldl (CobsReceiver.receive capacity decode) s) := by
  induction bytes generalizing s with
  | nil => exact h
  | cons b bytes ih => exact ih (h.receive b)

/-- The machine takes the bytes one after the other. -/
theorem machine_run (bytes : List Byte) :
    (machine capacity decode).run s bytes = some (bytes.foldl (receive capacity decode) s) := by
  induction bytes generalizing s with
  | nil => rfl
  | cons b bytes ih =>
    rw [StateMachine.run_cons]
    exact ih

/-- After a delimiter there is nothing left of a frame. -/
theorem receive_delimiter_len : (s.receive capacity decode 0x00#8).rx.len = 0 := by
  rw [receive, if_pos rfl]
  split
  · rfl
  · omega

/-- Bytes that fit are collected. -/
theorem foldl_receive {bytes : List Byte} (hzero : 0#8 ∉ bytes)
    (hlen : s.rx.len + bytes.length ≤ capacity) :
    ∃ rx, bytes.foldl (receive capacity decode) s = { s with rx } ∧
      rx.contents = s.rx.contents ++ bytes := by
  induction bytes generalizing s with
  | nil => exact ⟨s.rx, rfl, (List.append_nil _).symm⟩
  | cons b bytes ih =>
    rw [List.mem_cons, not_or] at hzero
    rw [List.length_cons] at hlen
    have hstep : s.receive capacity decode b = { s with rx := s.rx.put b } := by
      rw [receive, if_neg (Ne.symm hzero.1), if_pos (by omega)]
    obtain ⟨rx, heq, hcontents⟩ := @ih { s with rx := s.rx.put b } hzero.2 (by
      rw [Writer.put_len]
      omega)
    refine ⟨rx, by rw [List.foldl_cons, hstep, heq], ?_⟩
    rw [hcontents, Writer.contents_put, List.append_assoc]
    rfl

/-- **A whole frame**, from one delimiter to the next. -/
theorem receive_frame (hidle : s.rx.len = 0) {frame : List Byte} (hne : frame ≠ [])
    (hzero : 0#8 ∉ frame) (hlen : frame.length ≤ capacity) :
    ∃ rx, (frame ++ [0x00#8]).foldl (receive capacity decode) s =
        { s with rx }.decodeFrame decode ∧ rx.contents = frame := by
  obtain ⟨rx, heq, hcontents⟩ := @foldl_receive capacity decode s frame hzero (by omega)
  rw [List.eq_nil_of_length_eq_zero (s.rx.length_contents.trans hidle), List.nil_append]
    at hcontents
  refine ⟨rx, ?_, hcontents⟩
  have hpos : 0 < rx.len := by
    rw [← rx.length_contents, hcontents]
    exact List.length_pos_iff.mpr hne
  rw [List.foldl_append, heq, List.foldl_cons, List.foldl_nil, receive, if_pos rfl, if_pos hpos]

/-- The decoder writes what `Cobs.decode` says, and hands on all that it has written or nothing. -/
structure Decodes (decode : FrameDecoder) : Prop where
  len_eq : ∀ input output, (decode input output).2.len = (Cobs.decode input).2.length
  packet_eq : ∀ {input output len}, (decode input output).1 = some len →
    len = (Cobs.decode input).2.length

/-- A decoded frame stays in bounds if what the decoder writes does. -/
theorem inBounds_decodeFrame_iff (hdecode : Decodes decode) {decodeSize : ℕ}
    (h : InBounds capacity s decodeSize) :
    InBounds capacity (s.decodeFrame decode) decodeSize ↔
      (Cobs.decode s.rx.contents).2.length ≤ decodeSize := by
  have hlen := hdecode.len_eq s.rx.contents s.decodeBuf
  constructor
  · intro hframe
    rw [← hlen]
    exact hframe.written_le _ (by simp [decodeFrame])
  · intro hle
    refine ⟨Nat.zero_le _, fun n hn => ?_, fun packet hpacket => ?_⟩
    · simp only [decodeFrame, List.mem_append, List.mem_singleton] at hn
      rcases hn with hold | rfl
      · exact h.written_le n hold
      · rwa [hlen]
    · simp only [decodeFrame] at hpacket
      split at hpacket
      · next len hsome =>
        rcases List.mem_append.mp hpacket with hold | hnew
        · exact h.length_le packet hold
        · rw [List.mem_singleton.mp hnew, length_slice, hdecode.packet_eq hsome]
          exact hle
      · exact h.length_le packet hpacket

/-- **One byte stays in bounds** unless it is a delimiter behind a frame of more than one byte
more than the decode buffer has. -/
theorem inBounds_receive_iff (hdecode : Decodes decode) (hcapacity : capacity ≤ 255)
    {decodeSize : ℕ} (h : InBounds capacity s decodeSize) (hs : Receiving capacity s) (b : Byte) :
    InBounds capacity (s.receive capacity decode b) decodeSize ↔
      (b = 0x00#8 → s.rx.len ≤ decodeSize + 1) := by
  rw [receive]
  by_cases hb : b = 0x00#8
  · rw [if_pos hb]
    by_cases hpos : 0 < s.rx.len
    · have hlen := hs.len_le
      have hne : s.rx.contents ≠ [] := by
        rw [← List.length_pos_iff, Writer.length_contents]
        exact hpos
      -- the decoder saves exactly one byte
      have hwritten := Cobs.length_decode hne hs.delimiter_notMem (by
        rw [Writer.length_contents]
        omega)
      rw [Writer.length_contents] at hwritten
      rw [if_pos hpos, inBounds_decodeFrame_iff hdecode h]
      simp only [hb, forall_const]
      omega
    · rw [if_neg hpos]
      exact iff_of_true h fun _ => by omega
  · rw [if_neg hb]
    refine iff_of_true ?_ fun h => absurd h hb
    split
    · next hlt => exact ⟨hlt, h.written_le, h.length_le⟩
    · exact ⟨Nat.zero_le _, h.written_le, h.length_le⟩

end CobsReceiver

/-! ### The YFR4 driver -/

/-- `RX_MAX_PKT_DECODED`, the size of a `StatusPacket`. -/
def rxMaxPktDecoded : ℕ := 48

/-- `RX_MAX_PKT_CODED`. -/
def rxMaxPktCoded : ℕ := rxMaxPktDecoded + rxMaxPktDecoded / 254 + 1

/-- `COBS_BUFFER_SIZE`. -/
def cobsBufferSize : ℕ := rxMaxPktCoded

/-- The call of `cobs_decode`: packets of at least three bytes are handed on. -/
def yfr4Decode : FrameDecoder := fun input output =>
  let dec := cobsDecode input output
  (if 3 ≤ dec.1 then some dec.1 else none, dec.2)

theorem decodes_yfr4Decode : CobsReceiver.Decodes yfr4Decode where
  len_eq input output := by
    rw [← (cobsDecode_eq input output).1, Writer.length_contents]
    rfl
  packet_eq {input output len} h := by
    obtain ⟨-, hreturned⟩ := cobsDecode_eq input output
    simp only [yfr4Decode, Option.ite_none_right_eq_some, Option.some.injEq] at h
    obtain ⟨hthree, rfl⟩ := h
    rw [hreturned] at hthree ⊢
    split at hthree
    · next hok => rw [if_pos hok]
    · omega

/-- `YFR4escDriver::ProcessRxBytes`. In raw mode the bytes go to the debug connection. -/
def yfr4ProcessRxBytes (rawMode : Bool) (s : CobsReceiver) (data : List Byte) : CobsReceiver :=
  if data = [] then s
  else if rawMode then s
  else data.foldl (CobsReceiver.receive cobsBufferSize yfr4Decode) s

/-! ### The cover UI -/

/-- `RX_BUF_SIZE`. -/
def rxBufSize : ℕ := 32

/-- `DECODE_BUF_SIZE`. -/
def decodeBufSize : ℕ := 24

/-- The call of `CobsDecode`. -/
def panelDecode : FrameDecoder := fun src dst =>
  let decoded := YfCoverUi.cobsDecode src dst
  (if decoded.1 then some decoded.2.len else none, decoded.2)

theorem decodes_panelDecode : CobsReceiver.Decodes panelDecode where
  len_eq src dst := by
    rw [← (YfCoverUi.cobsDecode_eq src dst).2, Writer.length_contents]
    rfl
  packet_eq {src dst len} h := by
    simp only [panelDecode, Option.ite_none_right_eq_some, Option.some.injEq] at h
    rw [← h.2, ← Writer.length_contents, (YfCoverUi.cobsDecode_eq src dst).2]

/-- `YFCoverUI::ProcessRxBytes`. -/
def YfCoverUi.processRxBytes (s : CobsReceiver) (data : List Byte) : CobsReceiver :=
  data.foldl (CobsReceiver.receive rxBufSize panelDecode) s

end OpenMower
