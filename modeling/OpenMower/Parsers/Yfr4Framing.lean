import OpenMower.Drivers.CobsReceiver

/-!
# The status packets of the YFR4 driver

A COBS buffer of 49 bytes belongs to a decode buffer of 48, and no stream makes the receiver
leave either of them. The delimiter at the end of any garbage makes the receiver empty, so that
the packets behind it are delivered, however the stream is cut into the pieces that the DMA
buffer is read in.
-/

namespace OpenMower

open Buffer CobsReceiver

/-- `ProcessRxBytes` outside raw mode for one piece of the stream after the other. -/
def yfr4ProcessChunks (s : CobsReceiver) (chunks : List (List Byte)) : CobsReceiver :=
  chunks.foldl (yfr4ProcessRxBytes false) s

/-- The loop of the YFR4 driver. -/
abbrev yfr4Machine : StateMachine CobsReceiver Byte := machine cobsBufferSize yfr4Decode

theorem yfr4ProcessRxBytes_eq (s : CobsReceiver) (data : List Byte) :
    yfr4ProcessRxBytes false s data = data.foldl (receive cobsBufferSize yfr4Decode) s := by
  rw [yfr4ProcessRxBytes]
  split
  · next hnil => rw [hnil, List.foldl_nil]
  · rfl

/-- It does not matter where the stream is cut. -/
theorem yfr4ProcessChunks_eq (s : CobsReceiver) (chunks : List (List Byte)) :
    yfr4ProcessChunks s chunks = chunks.flatten.foldl (receive cobsBufferSize yfr4Decode) s := by
  rw [yfr4ProcessChunks, List.foldl_flatten]
  exact congrArg (List.foldl · s chunks) (funext₂ yfr4ProcessRxBytes_eq)

/-- No byte of any stream leaves the buffers. -/
theorem yfr4_inBounds (stream : List Byte) :
    yfr4Machine.EveryStep (fun _ _ s' => InBounds cobsBufferSize s' rxMaxPktDecoded) start
      stream := by
  have hall : yfr4Machine.EveryStep (fun _ _ _ => True) start stream :=
    .of_forall fun _ _ _ _ _ => trivial
  refine hall.imp (I := fun s => InBounds cobsBufferSize s rxMaxPktDecoded ∧
    Receiving cobsBufferSize s) ⟨start_inBounds, start_receiving⟩ ?_
  rintro s b s' ⟨hbounds, hs⟩ hstep -
  obtain rfl := Option.some.inj hstep
  -- the buffer holds one byte more than a decoded frame has
  have hnext := (inBounds_receive_iff decodes_yfr4Decode (by decide) hbounds hs b).mpr
    fun _ => hs.len_le
  exact ⟨⟨hnext, hs.receive b⟩, hnext⟩

/-- A packet that is long enough to be handed on, and not longer than a `StatusPacket`. -/
abbrev Yfr4Packet : Type :=
  { packet : List Byte // 3 ≤ packet.length ∧ packet.length ≤ rxMaxPktDecoded }

/-- The packets on the wire. -/
def yfr4Frames (output : ℕ → Byte) (packets : List Yfr4Packet) : List Byte :=
  packets.flatMap fun packet => cobsEncode packet.val output ++ [0x00#8]

/-- The frame of a packet is decoded to it. -/
theorem decodeFrame_packets {s : CobsReceiver} {packet : List Byte} (hlen : 3 ≤ packet.length)
    (hframe : s.rx.contents = Cobs.encode packet) :
    (s.decodeFrame yfr4Decode).packets = s.packets ++ [packet] := by
  obtain ⟨hcontents, hreturned⟩ := cobsDecode_eq s.rx.contents s.decodeBuf
  rw [hframe, Cobs.decode_encode] at hcontents hreturned
  rw [if_pos rfl] at hreturned
  have hpacket : slice (cobsDecode s.rx.contents s.decodeBuf).2.buffer 0 packet.length =
      packet := by
    have hlength : (cobsDecode s.rx.contents s.decodeBuf).2.len = packet.length := by
      rw [← Writer.length_contents, hframe, hcontents]
    rw [← hlength, hframe]
    exact hcontents
  simp only [decodeFrame, yfr4Decode, hframe, hreturned, if_pos hlen]
  rw [← hframe, hpacket]

/-- **One packet**, behind a delimiter. -/
theorem receive_packet {s : CobsReceiver} (hidle : s.rx.len = 0) (packet : Yfr4Packet)
    (output : ℕ → Byte) {s' : CobsReceiver}
    (hs' : (cobsEncode packet.val output ++ [0x00#8]).foldl
      (receive cobsBufferSize yfr4Decode) s = s') :
    s'.rx.len = 0 ∧ s'.packets = s.packets ++ [packet.val] := by
  obtain ⟨packet, hthree, hmax⟩ := packet
  have hbound := Cobs.length_encode_le packet
  have hne : Cobs.encode packet ≠ [] := Cobs.encodeFrom_ne_nil [] packet
  rw [cobsEncode_eq] at hs'
  obtain ⟨rx, heq, hcontents⟩ := @receive_frame cobsBufferSize yfr4Decode s hidle
    (Cobs.encode packet) hne Cobs.zero_notMem_encode (by
      rw [show cobsBufferSize = 49 from rfl]
      rw [show rxMaxPktDecoded = 48 from rfl] at hmax
      omega)
  rw [← hs', heq]
  exact ⟨rfl, decodeFrame_packets hthree hcontents⟩

/-- **All packets.** -/
theorem receive_packets {s : CobsReceiver} (hidle : s.rx.len = 0) (output : ℕ → Byte)
    (packets : List Yfr4Packet) :
    ((yfr4Frames output packets).foldl (receive cobsBufferSize yfr4Decode) s).packets =
      s.packets ++ packets.map Subtype.val := by
  induction packets generalizing s with
  | nil => exact (List.append_nil _).symm
  | cons packet packets ih =>
    obtain ⟨hlen, hpackets⟩ := receive_packet hidle packet output rfl
    rw [yfr4Frames, List.flatMap_cons, List.foldl_append]
    exact (ih hlen).trans (by rw [hpackets, List.append_assoc, List.map_cons]; rfl)

/-- **Stream framing.** No byte of any stream makes the driver leave the COBS buffer or the
decode buffer. If a stream is garbage up to a zero byte and the frames of packets behind it,
then however it is cut, exactly these packets are handed on behind that zero byte, in order. -/
theorem yfr4_stream_framing :
    (∀ chunks : List (List Byte), yfr4Machine.EveryStep
      (fun _ _ s' => InBounds cobsBufferSize s' rxMaxPktDecoded) start chunks.flatten) ∧
    ∀ (output : ℕ → Byte) (garbage : List Byte) (packets : List Yfr4Packet)
      (chunks : List (List Byte)),
      chunks.flatten = garbage ++ 0x00#8 :: yfr4Frames output packets →
        (yfr4ProcessChunks start chunks).packets =
          (yfr4ProcessChunks start [garbage ++ [0x00#8]]).packets ++ packets.map Subtype.val := by
  refine ⟨fun chunks => yfr4_inBounds _, fun output garbage packets chunks hchunks => ?_⟩
  rw [yfr4ProcessChunks_eq, yfr4ProcessChunks_eq, hchunks, List.append_cons, List.foldl_append,
    List.flatten_singleton]
  refine receive_packets ?_ output packets
  -- whatever the garbage was, its zero byte leaves the receiver empty
  rw [List.foldl_append]
  exact @receive_delimiter_len cobsBufferSize yfr4Decode _

/-- Noise, and two packets of three bytes in four pieces. -/
theorem yfr4_stream_framing_twoPackets :
    (yfr4ProcessChunks start
        [[0x55#8, 0x00#8, 0x04#8], [0x01#8, 0x02#8, 0x03#8], [0x00#8, 0x02#8, 0x07#8, 0x02#8],
          [0x09#8, 0x00#8]]).packets =
      (yfr4ProcessChunks start [[0x55#8] ++ [0x00#8]]).packets ++
        [[0x01#8, 0x02#8, 0x03#8], [0x07#8, 0x00#8, 0x09#8]] :=
  yfr4_stream_framing.2 (fun _ => 0#8) [0x55#8]
    [⟨[0x01#8, 0x02#8, 0x03#8], by decide⟩, ⟨[0x07#8, 0x00#8, 0x09#8], by decide⟩] _ (by decide)

end OpenMower
