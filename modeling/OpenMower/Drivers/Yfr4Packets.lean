import OpenMower.Drivers.Cobs
import OpenMower.Drivers.Yfr4Esc
import OpenMower.Library.Crc
import OpenMower.Library.LittleEndian
import OpenMower.Services.DiffDriveEscs

/-!
# The packets of the YFR4 driver

From `drivers/motor/yfr4esc`: what `ProcessDecodedPacket` does with a packet, and the bytes that
`SendControl` and `SendSettings` write. The structures are packed, and the machine is
little-endian, so that a packet is a record of the library with the CRC of its bytes behind it.
A `double` stands for itself as its 64 bits, and a `float` constant as its 32; what is cast to
`float` is taken as the values of any type with a conversion from `double`.
-/

namespace OpenMower

open LittleEndian

/-- `MessageType`. -/
inductive Yfr4MessageType
  | status
  | control
  | settings
  deriving DecidableEq, Repr

/-- The value of a message type on the wire. -/
def Yfr4MessageType.code : Yfr4MessageType → Byte
  | .status => 1#8
  | .control => 2#8
  | .settings => 3#8

/-- `FaultBit::UNINITIALIZED`. -/
def faultBitUninitialized : ℕ := 0

/-- `crc16_ccitt_false`: the CRC unit with the polynomial `0x1021` and the initial value `0xFFFF`,
which reverses nothing. -/
def crc16CcittFalse (data : List Byte) : BitVec 16 := Crc.run 0x1021#16 0xFFFF#16 data

/-- A payload with its CRC, as a packed structure has it. -/
def withCrc (payload : List Byte) : List Byte := withCheck crc16CcittFalse payload

/-- `StatusPacket`, without the message type and the CRC. -/
structure StatusPacket where
  seq : BitVec 32
  fwVersionMajor : Byte
  fwVersionMinor : Byte
  temperaturePcb : BitVec 64
  currentInput : BitVec 64
  dutyCycle : BitVec 64
  /-- A `bool`. -/
  direction : Byte
  tacho : BitVec 32
  tachoAbsolute : BitVec 32
  rpm : BitVec 16
  faultCode : BitVec 32
  deriving DecidableEq, Repr

namespace StatusPacket

/-- The sizes of the fields in front of the CRC. -/
def widths : List ℕ := [1, 4, 1, 1, 8, 8, 8, 1, 4, 4, 2, 4]

/-- `sizeof(StatusPacket)`. -/
def size : ℕ := widths.sum + 2

variable (sp : StatusPacket)

/-- The fields in front of the CRC. -/
def values : List ℕ :=
  [Yfr4MessageType.status.code.toNat, sp.seq.toNat, sp.fwVersionMajor.toNat,
    sp.fwVersionMinor.toNat, sp.temperaturePcb.toNat, sp.currentInput.toNat, sp.dutyCycle.toNat,
    sp.direction.toNat, sp.tacho.toNat, sp.tachoAbsolute.toNat, sp.rpm.toNat, sp.faultCode.toNat]

/-- The bytes in front of the CRC. -/
def payload : List Byte := pack (widths.zip sp.values)

/-- The packet with its CRC. -/
def packet : List Byte := withCrc sp.payload

/-- `memcpy` of a packet to a `StatusPacket`. -/
def ofBytes (packet : List Byte) : StatusPacket :=
  let field := fun i => (unpack widths packet).getD i 0
  { seq := .ofNat 32 (field 1)
    fwVersionMajor := .ofNat 8 (field 2)
    fwVersionMinor := .ofNat 8 (field 3)
    temperaturePcb := .ofNat 64 (field 4)
    currentInput := .ofNat 64 (field 5)
    dutyCycle := .ofNat 64 (field 6)
    direction := .ofNat 8 (field 7)
    tacho := .ofNat 32 (field 8)
    tachoAbsolute := .ofNat 32 (field 9)
    rpm := .ofNat 16 (field 10)
    faultCode := .ofNat 32 (field 11) }

end StatusPacket

/-- All fields of an `ESCState`. -/
structure EscLatestState (F : Type*) extends EscState F where
  fwMajor : Byte
  fwMinor : Byte
  voltageInput : F
  temperatureMotor : F
  dutyCycle : F
  tachoAbsolute : BitVec 32
  direction : F
  rpm : F

/-- What the driver does besides its state. -/
inductive Yfr4Output (F : Type*)
  /-- `uartSendFullTimeout`. -/
  | send (data : List Byte)
  /-- `NotifyCallback` with `latest_state_`. -/
  | notify (state : EscLatestState F)

section

variable {F : Type*}

/-- `cobs_encode` into the transmit buffer, and the end marker, if there is room for it. -/
def sendPacked (packet : List Byte) (txBuffer : ℕ → Byte) : List (Yfr4Output F) :=
  let encoded := cobsEncode packet txBuffer
  if Yfr4EscDriver.txBufferSize < encoded.length + 1 then [] else [.send (encoded ++ [0x00#8])]

/-- The `ControlPacket` of a duty. -/
def controlPacket (dutyCycle : BitVec 64) : List Byte :=
  withCrc (pack [(1, Yfr4MessageType.control.code.toNat), (8, dutyCycle.toNat)])

/-- The `SettingsPacket` of `SendSettings`, with the limits `2.5f`, `0.0f` and `70.0f`. -/
def settingsPacket : List Byte :=
  withCrc (pack [(1, Yfr4MessageType.settings.code.toNat), (4, 0x40200000), (4, 0x00000000),
    (4, 0x428C0000)])

/-- `SendControl`. -/
def sendControl (dutyCycle : BitVec 64) (txBuffer : ℕ → Byte) : List (Yfr4Output F) :=
  sendPacked (controlPacket dutyCycle) txBuffer

/-- `SendSettings`. -/
def sendSettings (txBuffer : ℕ → Byte) : List (Yfr4Output F) := sendPacked settingsPacket txBuffer

variable [NatCast F] (toFloat : BitVec 64 → F)

/-- What a status packet changes of `latest_state_`. -/
def EscLatestState.update (latest : EscLatestState F) (sp : StatusPacket) : EscLatestState F :=
  { latest with
    fwMajor := sp.fwVersionMajor
    fwMinor := sp.fwVersionMinor
    temperaturePcb := toFloat sp.temperaturePcb
    currentInput := toFloat sp.currentInput
    dutyCycle := toFloat sp.dutyCycle
    direction := if sp.direction ≠ 0#8 then ((1 : ℕ) : F) else ((0 : ℕ) : F)
    tacho := sp.tacho
    tachoAbsolute := sp.tachoAbsolute
    rpm := (sp.rpm.toNat : F)
    status := if sp.faultCode = 0#32 then .ok else .error }

/-- The case `STATUS` of `ProcessDecodedPacket` for a packet of the right length. -/
def processStatusPacket (txBuffer : ℕ → Byte) (latest : EscLatestState F) (sp : StatusPacket) :
    EscLatestState F × List (Yfr4Output F) :=
  let latest := latest.update toFloat sp
  (latest, (if sp.faultCode &&& 1#32 <<< faultBitUninitialized ≠ 0#32 then sendSettings txBuffer
    else []) ++ [.notify latest])

/-- `ProcessDecodedPacket`. -/
def processDecodedPacket (txBuffer : ℕ → Byte) (latest : EscLatestState F) (packet : List Byte) :
    EscLatestState F × List (Yfr4Output F) :=
  if packet.length < 4 then (latest, [])
  else
    let crcRx := BitVec.ofNat 16 (join (packet.drop (packet.length - 2)))
    if crcRx ≠ crc16CcittFalse (packet.take (packet.length - 2)) then (latest, [])
    else if packet.headD 0#8 = Yfr4MessageType.status.code then
      if packet.length ≠ StatusPacket.size then (latest, [])
      else processStatusPacket toFloat txBuffer latest (StatusPacket.ofBytes packet)
    else (latest, [])

/-- `ProcessDecodedPacket` for the packets that are handed on, one after the other; the transmit
buffer holds something else each time. -/
def processPackets (txBuffer : ℕ → ℕ → Byte) :
    EscLatestState F → List (List Byte) → EscLatestState F × List (Yfr4Output F)
  | latest, [] => (latest, [])
  | latest, packet :: packets =>
    let processed := processDecodedPacket toFloat (txBuffer packets.length) latest packet
    let rest := processPackets txBuffer processed.1 packets
    (rest.1, processed.2 ++ rest.2)

end

namespace StatusPacket

theorem length_payload (sp : StatusPacket) : sp.payload.length = widths.sum := length_pack _

theorem length_packet (sp : StatusPacket) : sp.packet.length = size := by
  rw [packet, withCrc, length_withCheck, length_payload, size]

/-- **A status packet is read back.** -/
theorem ofBytes_packet (sp : StatusPacket) : ofBytes sp.packet = sp := by
  have hrange : ∀ field ∈ widths.zip sp.values, field.2 < 256 ^ field.1 := by
    have hlt : ∀ {w : ℕ} (x : BitVec w), x.toNat < 2 ^ w := fun x => x.isLt
    simp only [widths, values, List.zip_cons_cons, List.zip_nil_right, List.forall_mem_cons,
      List.not_mem_nil, false_imp_iff, implies_true, and_true]
    exact ⟨hlt _, hlt _, hlt _, hlt _, hlt _, hlt _, hlt _, hlt _, hlt _, hlt _, hlt _, hlt _⟩
  have hlen : widths.length = sp.values.length := rfl
  have hunpack : unpack widths sp.packet = sp.values :=
    unpack_pack_zip hlen hrange (split 2 (crc16CcittFalse sp.payload).toNat)
  simp only [ofBytes, hunpack, values, List.getD_cons_zero, List.getD_cons_succ,
    BitVec.ofNat_toNat, BitVec.setWidth_eq]

/-- **As many bytes as a status packet has**, with its type, are one. -/
theorem payload_ofBytes {bytes : List Byte} (hlen : widths.sum ≤ bytes.length)
    (htype : bytes.headD 0#8 = Yfr4MessageType.status.code) :
    (ofBytes bytes).payload = bytes.take widths.sum := by
  have hfield := fun {i n : ℕ} => @toNat_getD_unpack widths bytes i n
  have hfirst : Yfr4MessageType.status.code.toNat = (unpack widths bytes).getD 0 0 := by
    rw [← htype]
    exact (getD_unpack_head _ bytes).symm
  have hvalues : (ofBytes bytes).values = unpack widths bytes := by
    rw [values, hfirst]
    simp only [ofBytes]
    rw [@hfield 1 4 rfl, @hfield 2 1 rfl, @hfield 3 1 rfl, @hfield 4 8 rfl, @hfield 5 8 rfl,
      @hfield 6 8 rfl, @hfield 7 1 rfl, @hfield 8 4 rfl, @hfield 9 4 rfl, @hfield 10 2 rfl,
      @hfield 11 4 rfl]
    rfl
  rw [payload, hvalues, pack_unpack hlen]

end StatusPacket

end OpenMower
