import OpenMower.Drivers.Yfr4Packets
import OpenMower.Library.WordMask
import OpenMower.Parsers.CobsStreams
import OpenMower.Parsers.Yfr4Framing

/-!
# The states that the YFR4 driver reports

A packet is taken for a status packet exactly if it is one: the bytes of its fields, with its type
and its CRC, and nothing else. So the driver's whole reaction to a stream, whatever the stream is
and however it is cut, is the reaction to the status packets among its bodies, one after the other
(`yfr4_reports`): each changes the state and is reported once, and one that says that the ESC
has not been set up is answered with the settings first.
-/

namespace OpenMower

open CobsReceiver LittleEndian

namespace StatusPacket

/-- **The checks** of `ProcessDecodedPacket` pass for status packets and for nothing else. -/
theorem eq_packet_iff (packet : List Byte) :
    packet = (ofBytes packet).packet ↔
      packet.length = size ∧ packet.headD 0#8 = Yfr4MessageType.status.code ∧
        BitVec.ofNat 16 (join (packet.drop (packet.length - 2))) =
          crc16CcittFalse (packet.take (packet.length - 2)) := by
  have hsize : size - 2 = widths.sum := rfl
  constructor
  · intro heq
    have hlen : packet.length = size := by rw [heq, length_packet]
    refine ⟨hlen, by rw [heq]; rfl, ?_⟩
    have htake : packet.take (packet.length - 2) = (ofBytes packet).payload := by
      conv_lhs => rw [hlen, hsize, heq]
      exact List.take_left' (length_payload _)
    rw [checked_iff (by rw [hlen]; decide), htake]
    exact heq
  · rintro ⟨hlen, htype, hcrc⟩
    rw [checked_iff (by rw [hlen]; decide), hlen, hsize] at hcrc
    rw [StatusPacket.packet, payload_ofBytes (by rw [hlen]; decide) htype]
    exact hcrc

end StatusPacket

/-- The status packet that a body of the stream has in it. -/
def report (body : List Byte) : Option StatusPacket :=
  (packetOf cobsBufferSize yfr4Accept body).bind fun packet =>
    if packet = (StatusPacket.ofBytes packet).packet then some (StatusPacket.ofBytes packet)
    else none

/-- **Which bodies are reported**: what is kept of them decodes to a status packet. -/
theorem report_eq_some_iff {body : List Byte} {sp : StatusPacket} :
    report body = some sp ↔ Cobs.decode (kept cobsBufferSize body) = (true, sp.packet) := by
  rw [report, Option.bind_eq_some_iff]
  constructor
  · rintro ⟨packet, hpacket, hreport⟩
    rw [Option.ite_none_right_eq_some] at hreport
    obtain ⟨heq, hsp⟩ := hreport
    rw [Option.some.inj hsp] at heq
    rw [packetOf, Option.ite_none_left_eq_some, yfr4Accept,
      Option.ite_none_right_eq_some] at hpacket
    obtain ⟨-, ⟨hok, -⟩, hdecoded⟩ := hpacket
    rw [← heq]
    exact Prod.ext hok (Option.some.inj hdecoded)
  · intro hdecode
    have hlen : 3 ≤ sp.packet.length := by
      rw [StatusPacket.length_packet]
      decide
    refine ⟨sp.packet, ?_, ?_⟩
    · rw [packetOf, if_neg, yfr4Accept, hdecode, if_pos ⟨rfl, hlen⟩]
      intro hempty
      rw [hempty, Cobs.decode_nil, Prod.mk.injEq] at hdecode
      rw [← hdecode.2] at hlen
      exact absurd hlen (by decide)
    · rw [StatusPacket.ofBytes_packet, if_pos rfl]

/-- The frame that `SendSettings` writes. -/
def settingsFrame : List Byte := Cobs.encode settingsPacket ++ [0x00#8]

section

variable {F : Type*}

/-- Whatever is in the transmit buffer, the settings fit it. -/
theorem sendSettings_eq (txBuffer : ℕ → Byte) :
    sendSettings txBuffer = [(.send settingsFrame : Yfr4Output F)] := by
  have hlen : settingsPacket.length = 15 := rfl
  have hbound := Cobs.length_encode_le settingsPacket
  rw [hlen] at hbound
  rw [sendSettings, sendPacked, cobsEncode_eq, if_neg, settingsFrame]
  rw [Yfr4EscDriver.txBufferSize]
  omega

variable [NatCast F] (toFloat : BitVec 64 → F)

/-- The reaction to status packets, one after the other. -/
def reactions : EscLatestState F → List StatusPacket → List (Yfr4Output F)
  | _, [] => []
  | latest, sp :: sps =>
    (if sp.faultCode.getLsbD faultBitUninitialized then [.send settingsFrame] else []) ++
      .notify (latest.update toFloat sp) :: reactions (latest.update toFloat sp) sps

variable {toFloat}

/-- **One packet.** -/
theorem processDecodedPacket_eq (txBuffer : ℕ → Byte) (latest : EscLatestState F)
    (packet : List Byte) :
    processDecodedPacket toFloat txBuffer latest packet =
      if packet = (StatusPacket.ofBytes packet).packet then
        (latest.update toFloat (StatusPacket.ofBytes packet),
          reactions toFloat latest [StatusPacket.ofBytes packet])
      else (latest, []) := by
  have hiff := StatusPacket.eq_packet_iff packet
  by_cases hpacket : packet = (StatusPacket.ofBytes packet).packet
  · obtain ⟨hlen, htype, hcrc⟩ := hiff.mp hpacket
    rw [if_pos hpacket, processDecodedPacket, if_neg (by rw [hlen]; decide)]
    dsimp only
    rw [if_neg (not_not_intro hcrc), if_pos htype, if_neg (not_not_intro hlen),
      processStatusPacket, sendSettings_eq]
    have hmask : 1#32 <<< faultBitUninitialized = BitVec.twoPow 32 faultBitUninitialized := rfl
    simp only [hmask, WordMask.and_twoPow_ne_zero_iff]
    rfl
  · rw [if_neg hpacket, processDecodedPacket]
    -- one of the checks fails
    split
    · rfl
    dsimp only
    split
    · rfl
    · next hcrc =>
      split
      · next htype =>
        rw [if_pos]
        exact fun hlen => hpacket (hiff.mpr ⟨hlen, htype, not_not.mp hcrc⟩)
      · rfl

/-- **All packets.** -/
theorem processPackets_eq (txBuffer : ℕ → ℕ → Byte) (latest : EscLatestState F)
    (bodies : List (List Byte)) :
    processPackets toFloat txBuffer latest
        (bodies.filterMap (packetOf cobsBufferSize yfr4Accept)) =
      ((bodies.filterMap report).foldl (EscLatestState.update toFloat) latest,
        reactions toFloat latest (bodies.filterMap report)) := by
  induction bodies generalizing latest with
  | nil => rfl
  | cons body bodies ih =>
    rw [List.filterMap_cons, List.filterMap_cons, report]
    cases hpacket : packetOf cobsBufferSize yfr4Accept body with
    | none => exact ih latest
    | some packet =>
      simp only [processPackets, processDecodedPacket_eq, Option.bind_some]
      split
      · rw [ih]
        exact Prod.ext rfl (List.append_assoc _ _ _)
      · rw [ih]
        rfl

end

/-- The frames of status packets. -/
def statusFrames (sps : List StatusPacket) : List Byte :=
  sps.flatMap fun sp => Cobs.encode sp.packet ++ [0x00#8]

/-- **What an ESC sends is reported.** -/
theorem report_encode (sp : StatusPacket) : report (Cobs.encode sp.packet) = some sp := by
  have hbound := Cobs.length_encode_le sp.packet
  have hcapacity : cobsBufferSize = 49 := rfl
  rw [StatusPacket.length_packet, show StatusPacket.size = 48 from rfl] at hbound
  rw [report_eq_some_iff, kept_of_le (by omega), Cobs.decode_encode]

theorem filterMap_report_statusFrames (sps : List StatusPacket) :
    (cut (statusFrames sps)).1.filterMap report = sps := by
  induction sps with
  | nil => rfl
  | cons sp sps ih =>
    rw [statusFrames, List.flatMap_cons, List.append_assoc]
    rw [statusFrames] at ih
    refine (congrArg (List.filterMap report) (cut_body Cobs.zero_notMem_encode _)).trans ?_
    rw [List.filterMap_cons_some (report_encode sp)]
    exact congrArg (sp :: ·) ih

/-- **What the driver makes of any stream**, outside raw mode. The bodies that hold a status packet
change the state and are reported one after the other, each once, with the settings in front of the
report if the ESC asks for them; nothing else has any effect. Such bodies are those whose last
bytes, as many as the buffer keeps, decode to the bytes of a status packet with its CRC. Behind any
garbage with a delimiter these are all the packets that an ESC sends. -/
theorem yfr4_reports {F : Type*} [NatCast F] (toFloat : BitVec 64 → F)
    (txBuffer : ℕ → ℕ → Byte) (latest : EscLatestState F) :
    (∀ chunks : List (List Byte),
      processPackets toFloat txBuffer latest (yfr4ProcessChunks start chunks).packets =
        (((cut chunks.flatten).1.filterMap report).foldl (EscLatestState.update toFloat) latest,
          reactions toFloat latest ((cut chunks.flatten).1.filterMap report))) ∧
    (∀ body sp, report body = some sp ↔
      Cobs.decode (kept cobsBufferSize body) = (true, sp.packet)) ∧
    ∀ garbage sps, (cut (garbage ++ 0x00#8 :: statusFrames sps)).1.filterMap report =
      (cut (garbage ++ [0x00#8])).1.filterMap report ++ sps := by
  refine ⟨fun chunks => ?_, fun body sp => report_eq_some_iff, fun garbage sps => ?_⟩
  · have hpackets := @packets_foldl cobsBufferSize yfr4Decode yfr4Accept start hands_yfr4Decode rfl
      chunks.flatten
    rw [yfr4ProcessChunks_eq, hpackets]
    exact processPackets_eq txBuffer latest _
  · rw [cut_append, List.filterMap_append, filterMap_report_statusFrames]

end OpenMower
