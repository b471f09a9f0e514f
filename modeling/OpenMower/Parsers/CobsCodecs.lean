import OpenMower.Drivers.Cobs

/-!
# What the senders and receivers of COBS frames rely on

An encoded packet fits into a buffer that is sized for the worst-case overhead, it does not
contain the delimiter, and it is decoded to the packet again (`Lossless`). Both codecs have
these properties for packets of every length, and since both compute the same functions they
can talk to each other, also as far as malformed frames are concerned.
-/

namespace OpenMower

/-- What `cobs_decode` has decoded, unless it returns on an error. -/
def cobsDecoded (input : List Byte) (output : ℕ → Byte) : Option (List Byte) :=
  let decoded := cobsDecodeLoop input (Buffer.Writer.ofBuffer output)
  if decoded.1 then some decoded.2.contents else none

/-- What `CobsDecode` has decoded, unless it returns false. -/
def YfCoverUi.cobsDecoded (src : List Byte) (dst : ℕ → Byte) : Option (List Byte) :=
  let decoded := cobsDecode src dst
  if decoded.1 then some decoded.2.contents else none

theorem cobsDecoded_eq (input : List Byte) (output : ℕ → Byte) :
    cobsDecoded input output =
      if (Cobs.decode input).1 then some (Cobs.decode input).2 else none := by
  obtain ⟨hok, hcontents⟩ := cobsDecodeLoop_eq input (Buffer.Writer.ofBuffer output)
  rw [Buffer.Writer.contents_ofBuffer, List.nil_append] at hcontents
  rw [cobsDecoded, hok, hcontents]

theorem YfCoverUi.cobsDecoded_eq (src : List Byte) (dst : ℕ → Byte) :
    cobsDecoded src dst =
      if (Cobs.decode src).1 then some (Cobs.decode src).2 else none := by
  obtain ⟨hok, hcontents⟩ := YfCoverUi.cobsDecode_eq src dst
  rw [cobsDecoded, hok, hcontents]

/-- A packet is encoded without loss, without a delimiter, and with the worst-case overhead at
most. -/
structure Lossless (packet encoded : List Byte) (decoded : Option (List Byte)) : Prop where
  decoded_eq : decoded = some packet
  delimiter_notMem : 0#8 ∉ encoded
  length_le : encoded.length ≤ packet.length + packet.length / 254 + 1

theorem lossless_encode (packet : List Byte) :
    Lossless packet (Cobs.encode packet) (if (Cobs.decode (Cobs.encode packet)).1 then
      some (Cobs.decode (Cobs.encode packet)).2 else none) := by
  refine ⟨?_, Cobs.zero_notMem_encode, Cobs.length_encode_le packet⟩
  rw [Cobs.decode_encode, if_pos rfl]

/-- **Round trips.** Both codecs are lossless for every packet, and `cobs_decode` returns the
length of the packet. -/
theorem cobs_codecs_lossless (packet : List Byte) (output output' dst dst' : ℕ → Byte) :
    Lossless packet (cobsEncode packet output) (cobsDecoded (cobsEncode packet output) output') ∧
      (cobsDecode (cobsEncode packet output) output').1 = packet.length ∧
      Lossless packet (YfCoverUi.cobsEncode packet dst)
        (YfCoverUi.cobsDecoded (YfCoverUi.cobsEncode packet dst) dst') := by
  rw [cobsEncode_eq, YfCoverUi.cobsEncode_eq, cobsDecoded_eq, YfCoverUi.cobsDecoded_eq]
  refine ⟨lossless_encode packet, ?_, lossless_encode packet⟩
  rw [(cobsDecode_eq _ _).2, Cobs.decode_encode, if_pos rfl]

/-- The results of the two decoders for the same frame: the first returns 0 where the second
fails or decodes nothing, and otherwise they write the same bytes and return their number. -/
structure Agree (first : ℕ × Buffer.Writer Byte) (second : Bool × Buffer.Writer Byte) : Prop where
  zero_iff : first.1 = 0 ↔ second.1 = false ∨ (second.1 = true ∧ second.2.len = 0)
  same : first.1 ≠ 0 → second.1 = true ∧ first.1 = second.2.len ∧
    first.2.contents = second.2.contents

/-- **The codecs agree** on every packet and on every frame, also on malformed ones and on the
empty one. -/
theorem cobs_codecs_agree (bytes : List Byte) (output dst : ℕ → Byte) :
    cobsEncode bytes output = YfCoverUi.cobsEncode bytes dst ∧
      Agree (cobsDecode bytes output) (YfCoverUi.cobsDecode bytes dst) := by
  refine ⟨by rw [cobsEncode_eq, YfCoverUi.cobsEncode_eq], ?_⟩
  obtain ⟨hcontents, hreturned⟩ := cobsDecode_eq bytes output
  obtain ⟨hok, hcontents'⟩ := YfCoverUi.cobsDecode_eq bytes dst
  have hlen : (YfCoverUi.cobsDecode bytes dst).2.len = (Cobs.decode bytes).2.length := by
    rw [← hcontents', Buffer.Writer.length_contents]
  constructor
  · rw [hreturned, hok, hlen]
    cases (Cobs.decode bytes).1 with
    | true => simp
    | false => simp
  · intro hne
    have hsuccess : (Cobs.decode bytes).1 = true := by
      by_contra hfail
      exact hne (by rw [hreturned, if_neg hfail])
    rw [hreturned, if_pos hsuccess, hok, hlen, hcontents, hcontents']
    exact ⟨hsuccess, rfl, rfl⟩

end OpenMower
