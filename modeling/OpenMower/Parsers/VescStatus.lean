import OpenMower.Drivers.VescValues
import OpenMower.Parsers.VescRoundTrip

/-!
# Frames that are too short for their fields

What `ProcessPayload` makes of a frame, in two buffers that differ behind it. The frames with the
values of the ESC are read up to index 55 of the buffer, so that the two states agree exactly if
the payload has at least 51 bytes (`sameStatus_iff`); with 51 to 53 bytes the last fields are the
checksum and the trailer. A frame that is too short is passed on all the same.
-/

namespace OpenMower

open Buffer

namespace VescParser

variable {s : VescParser} {payload : List Byte} {latest : EscReadings}

/-- The frame of a payload is complete in the buffer, with any bytes behind it. -/
structure Holds (s : VescParser) (payload : List Byte) : Prop where
  fill : s.workingBufferFill.toNat = payload.length + 5
  frame : slice s.workingBuffer 0 (payload.length + 5) = sendPacket crc16 payload

/-- `packet_id`: without a payload it is the first byte of the checksum. -/
def packetId (payload : List Byte) : Byte := (sendPacket crc16 payload).getD 2 0#8

/-- The payload has an id, and not the fields that belong to it. -/
def TooShort (payload : List Byte) : Prop :=
  (packetId payload = commGetValues ∧ payload.length < 54) ∨
    (packetId payload = commFwVersion ∧ payload.length < 3)

/-- Two parsers that hold the frame take the same from it. -/
def SameStatus (payload : List Byte) : Prop :=
  ∀ s s' : VescParser, s.Holds payload → s'.Holds payload →
    ∀ latest, s.processStatus latest = s'.processStatus latest

/-- The status depends on the frame only, and a frame that is too short is ignored. -/
structure StatusOfFrame (payload : List Byte) : Prop where
  sameStatus : SameStatus payload
  tooShort : TooShort payload → ∀ s : VescParser, s.Holds payload →
    ∀ latest, s.processStatus latest = (latest, false)

/-! ### The frame in the buffer -/

theorem Holds.length_le (h : s.Holds payload) : payload.length ≤ 250 := by
  have hfill : s.workingBufferFill.toNat < 256 := s.workingBufferFill.isLt
  have hcount := h.fill
  omega

/-- Two parsers that hold the frame agree on it. -/
theorem Holds.workingBuffer_eq (h : s.Holds payload) {i : ℕ} (hi : i < payload.length + 5) :
    s.workingBuffer i = (sendPacket crc16 payload).getD i 0#8 := by
  rw [← h.frame, slice, List.getD_eq_getElem _ _ (by simpa using hi)]
  simp

/-- What is in the buffer behind a frame does not keep it from being accepted. -/
theorem Holds.processStatus_eq (h : s.Holds payload) (latest : EscReadings) :
    s.processStatus latest = (readPayload s.workingBuffer latest, true) := by
  have haccepted := processPayload_accepted s latest
  rw [processPayload_frame h.length_le h.fill h.frame] at haccepted
  have hnotified : (s.processStatus latest).2 = true := by
    by_contra hne
    simp [hne] at haccepted
  revert hnotified
  unfold processStatus
  dsimp only
  split
  · simp
  split
  · simp
  split <;> simp

/-- A frame with arbitrary bytes behind it. -/
def hold (payload : List Byte) (stale : Byte) : VescParser where
  workingBuffer := fun i => (sendPacket crc16 payload).getD i stale
  workingBufferFill := BitVec.ofNat 8 (payload.length + 5)
  accepted := []

theorem hold_holds (hlen : payload.length ≤ 250) (stale : Byte) :
    (hold payload stale).Holds payload where
  fill := by
    rw [hold, BitVec.toNat_ofNat, Nat.mod_eq_of_lt (by omega)]
  frame := by
    refine List.ext_getElem (by simp) fun i hi hi' => ?_
    rw [← List.getD_eq_getElem _ stale hi']
    simp [hold, slice]

/-! ### What the status depends on -/

theorem packetId_of_holds (h : s.Holds payload) : s.workingBuffer 2 = packetId payload :=
  h.workingBuffer_eq (by omega)

/-- The status of a long enough frame is in the frame. -/
theorem sameStatus_of_length (hvalues : packetId payload = commGetValues → 51 ≤ payload.length) :
    SameStatus payload := by
  intro s s' hs hs' latest
  rw [hs.processStatus_eq, hs'.processStatus_eq]
  congr 1
  refine @readPayload_congr _ _ latest (payload.length + 5) (fun i hi => ?_) (by omega)
    (fun _ => by omega) (fun hid => ?_)
  · rw [hs.workingBuffer_eq hi, hs'.workingBuffer_eq hi]
  · rw [packetId_of_holds hs] at hid
    have hlen := hvalues hid
    omega

/-- The fault code of a short frame is what was in the buffer before. -/
theorem processStatus_hold (hid : packetId payload = commGetValues) (hlen : payload.length ≤ 50)
    (stale : Byte) (latest : EscReadings) :
    ((hold payload stale).processStatus latest).1.status =
      if stale ≠ faultCodeNone then .error else .ok := by
  have hholds := @hold_holds payload (by omega) stale
  have hstale : (hold payload stale).workingBuffer 55 = stale :=
    List.getD_eq_default _ _ (by rw [length_sendPacket]; omega)
  have hbuffer := packetId_of_holds hholds
  rw [hholds.processStatus_eq, readPayload]
  dsimp only
  rw [hbuffer, hid, if_neg (by decide), if_pos rfl, readValues]
  dsimp only
  rw [hstale]

theorem nonempty_readings : Nonempty EscReadings :=
  ⟨⟨0, 0, ⟨0, 1⟩, ⟨0, 1⟩, ⟨0, 1⟩, ⟨0, 1⟩, ⟨0, 1⟩, 0, 0, false, ⟨0, 1⟩, .ok⟩⟩

/-- **Exactly the frames whose fault code is missing have a status that is not theirs.** -/
theorem sameStatus_iff (payload : List Byte) :
    SameStatus payload ↔ (packetId payload = commGetValues → 51 ≤ payload.length) := by
  refine ⟨fun hsame hid => ?_, sameStatus_of_length⟩
  by_contra hlt
  have hlen : payload.length ≤ 50 := by omega
  obtain ⟨latest⟩ := nonempty_readings
  have heq := hsame _ _ (hold_holds (by omega) 0#8) (hold_holds (by omega) 1#8) latest
  have hstatus := congrArg (fun r => r.1.status) heq
  simp only [processStatus_hold hid hlen] at hstatus
  revert hstatus
  decide

/-- A frame that is too short is passed on like any other. -/
theorem not_ignored (hshort : TooShort payload) (latest : EscReadings) :
    ∃ s : VescParser, s.Holds payload ∧ s.processStatus latest ≠ (latest, false) := by
  have hlen : payload.length ≤ 250 := by
    rcases hshort with ⟨-, hlt⟩ | ⟨-, hlt⟩ <;> omega
  have hholds := @hold_holds payload hlen 0#8
  refine ⟨_, hholds, ?_⟩
  rw [hholds.processStatus_eq]
  simp

/-- A frame that is not too short has its status to itself. -/
theorem statusOfFrame_of_not_tooShort (hlong : ¬ TooShort payload) : StatusOfFrame payload where
  sameStatus := by
    refine (sameStatus_iff payload).mpr fun hid => ?_
    by_contra hlt
    exact hlong (.inl ⟨hid, by omega⟩)
  tooShort := fun hshort => absurd hshort hlong

end VescParser

open VescParser

/-- **The status of a frame.** For every payload, what is passed on depends on the frame only and
a frame that is too short is ignored, if and only if the frame is not too short. -/
theorem vesc_status_of_frame_iff (payload : List Byte) :
    StatusOfFrame payload ↔ ¬ TooShort payload := by
  refine ⟨fun h hshort => ?_, statusOfFrame_of_not_tooShort⟩
  obtain ⟨latest⟩ := nonempty_readings
  obtain ⟨s, hs, hne⟩ := not_ignored hshort latest
  exact hne (h.tooShort hshort s hs latest)

/-- The request for the values, sent back by the ESC: whether the status is an error is what the
byte behind the frame says. -/
theorem vesc_status_not_of_frame :
    sendPacket crc16 [0x04#8] = [0x02#8, 0x01#8, 0x04#8, 0x40#8, 0x84#8, 0x03#8] ∧
      (∀ latest, (((hold [0x04#8] 0x00#8).processStatus latest).1.status = .ok ∧
        ((hold [0x04#8] 0x01#8).processStatus latest).1.status = .error)) ∧
      ¬ StatusOfFrame [0x04#8] := by
  have hid : packetId [0x04#8] = commGetValues := by decide
  have hstatus := @processStatus_hold [0x04#8] hid (by decide)
  refine ⟨by decide, fun latest => ⟨hstatus 0x00#8 latest, hstatus 0x01#8 latest⟩, fun h => ?_⟩
  obtain ⟨latest⟩ := nonempty_readings
  obtain ⟨s, hs, hne⟩ := not_ignored (.inl ⟨hid, by decide⟩) latest
  exact hne (h.tooShort (.inl ⟨hid, by decide⟩) s hs latest)

end OpenMower
