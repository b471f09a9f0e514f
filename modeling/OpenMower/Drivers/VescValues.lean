import OpenMower.Drivers.Vesc
import OpenMower.Services.DiffDriveEscs

/-!
# The VESC driver: values

From `drivers/motor/vesc`: the checksum of a frame, and what `ProcessPayload` reads from an accepted
frame into `latest_state_`. The fields are at fixed offsets behind the id of the packet, and nothing
compares them with the length of the payload.

A `float` that is read from a frame is an integer divided by a scale, and is kept as this pair. A
state is passed on with `NotifyCallback` after every accepted frame.
-/

namespace OpenMower

open Buffer

namespace VescParser

/-- `crc16_tab`. -/
def crc16Tab : List (BitVec 16) :=
  [0x0000#16, 0x1021#16, 0x2042#16, 0x3063#16, 0x4084#16, 0x50A5#16, 0x60C6#16, 0x70E7#16,
    0x8108#16, 0x9129#16, 0xA14A#16, 0xB16B#16, 0xC18C#16, 0xD1AD#16, 0xE1CE#16, 0xF1EF#16,
    0x1231#16, 0x0210#16, 0x3273#16, 0x2252#16, 0x52B5#16, 0x4294#16, 0x72F7#16, 0x62D6#16,
    0x9339#16, 0x8318#16, 0xB37B#16, 0xA35A#16, 0xD3BD#16, 0xC39C#16, 0xF3FF#16, 0xE3DE#16,
    0x2462#16, 0x3443#16, 0x0420#16, 0x1401#16, 0x64E6#16, 0x74C7#16, 0x44A4#16, 0x5485#16,
    0xA56A#16, 0xB54B#16, 0x8528#16, 0x9509#16, 0xE5EE#16, 0xF5CF#16, 0xC5AC#16, 0xD58D#16,
    0x3653#16, 0x2672#16, 0x1611#16, 0x0630#16, 0x76D7#16, 0x66F6#16, 0x5695#16, 0x46B4#16,
    0xB75B#16, 0xA77A#16, 0x9719#16, 0x8738#16, 0xF7DF#16, 0xE7FE#16, 0xD79D#16, 0xC7BC#16,
    0x48C4#16, 0x58E5#16, 0x6886#16, 0x78A7#16, 0x0840#16, 0x1861#16, 0x2802#16, 0x3823#16,
    0xC9CC#16, 0xD9ED#16, 0xE98E#16, 0xF9AF#16, 0x8948#16, 0x9969#16, 0xA90A#16, 0xB92B#16,
    0x5AF5#16, 0x4AD4#16, 0x7AB7#16, 0x6A96#16, 0x1A71#16, 0x0A50#16, 0x3A33#16, 0x2A12#16,
    0xDBFD#16, 0xCBDC#16, 0xFBBF#16, 0xEB9E#16, 0x9B79#16, 0x8B58#16, 0xBB3B#16, 0xAB1A#16,
    0x6CA6#16, 0x7C87#16, 0x4CE4#16, 0x5CC5#16, 0x2C22#16, 0x3C03#16, 0x0C60#16, 0x1C41#16,
    0xEDAE#16, 0xFD8F#16, 0xCDEC#16, 0xDDCD#16, 0xAD2A#16, 0xBD0B#16, 0x8D68#16, 0x9D49#16,
    0x7E97#16, 0x6EB6#16, 0x5ED5#16, 0x4EF4#16, 0x3E13#16, 0x2E32#16, 0x1E51#16, 0x0E70#16,
    0xFF9F#16, 0xEFBE#16, 0xDFDD#16, 0xCFFC#16, 0xBF1B#16, 0xAF3A#16, 0x9F59#16, 0x8F78#16,
    0x9188#16, 0x81A9#16, 0xB1CA#16, 0xA1EB#16, 0xD10C#16, 0xC12D#16, 0xF14E#16, 0xE16F#16,
    0x1080#16, 0x00A1#16, 0x30C2#16, 0x20E3#16, 0x5004#16, 0x4025#16, 0x7046#16, 0x6067#16,
    0x83B9#16, 0x9398#16, 0xA3FB#16, 0xB3DA#16, 0xC33D#16, 0xD31C#16, 0xE37F#16, 0xF35E#16,
    0x02B1#16, 0x1290#16, 0x22F3#16, 0x32D2#16, 0x4235#16, 0x5214#16, 0x6277#16, 0x7256#16,
    0xB5EA#16, 0xA5CB#16, 0x95A8#16, 0x8589#16, 0xF56E#16, 0xE54F#16, 0xD52C#16, 0xC50D#16,
    0x34E2#16, 0x24C3#16, 0x14A0#16, 0x0481#16, 0x7466#16, 0x6447#16, 0x5424#16, 0x4405#16,
    0xA7DB#16, 0xB7FA#16, 0x8799#16, 0x97B8#16, 0xE75F#16, 0xF77E#16, 0xC71D#16, 0xD73C#16,
    0x26D3#16, 0x36F2#16, 0x0691#16, 0x16B0#16, 0x6657#16, 0x7676#16, 0x4615#16, 0x5634#16,
    0xD94C#16, 0xC96D#16, 0xF90E#16, 0xE92F#16, 0x99C8#16, 0x89E9#16, 0xB98A#16, 0xA9AB#16,
    0x5844#16, 0x4865#16, 0x7806#16, 0x6827#16, 0x18C0#16, 0x08E1#16, 0x3882#16, 0x28A3#16,
    0xCB7D#16, 0xDB5C#16, 0xEB3F#16, 0xFB1E#16, 0x8BF9#16, 0x9BD8#16, 0xABBB#16, 0xBB9A#16,
    0x4A75#16, 0x5A54#16, 0x6A37#16, 0x7A16#16, 0x0AF1#16, 0x1AD0#16, 0x2AB3#16, 0x3A92#16,
    0xFD2E#16, 0xED0F#16, 0xDD6C#16, 0xCD4D#16, 0xBDAA#16, 0xAD8B#16, 0x9DE8#16, 0x8DC9#16,
    0x7C26#16, 0x6C07#16, 0x5C64#16, 0x4C45#16, 0x3CA2#16, 0x2C83#16, 0x1CE0#16, 0x0CC1#16,
    0xEF1F#16, 0xFF3E#16, 0xCF5D#16, 0xDF7C#16, 0xAF9B#16, 0xBFBA#16, 0x8FD9#16, 0x9FF8#16,
    0x6E17#16, 0x7E36#16, 0x4E55#16, 0x5E74#16, 0x2E93#16, 0x3EB2#16, 0x0ED1#16, 0x1EF0#16]

/-- `crc16`. -/
def crc16 (buf : List Byte) : BitVec 16 :=
  buf.foldl (fun cksum b =>
    crc16Tab.getD (((cksum >>> 8) ^^^ b.setWidth 16) &&& 0xFF#16).toNat 0x0000#16 ^^^
      cksum <<< 8) 0x0000#16

/-- `COMM_FW_VERSION`. -/
def commFwVersion : Byte := 0#8

/-- `COMM_GET_VALUES`. -/
def commGetValues : Byte := 4#8

/-- `FAULT_CODE_NONE`. -/
def faultCodeNone : Byte := 0#8

end VescParser

/-- A `float` that is an integer divided by a scale. -/
structure ScaledNumber where
  number : ℤ
  scale : ℕ
  deriving DecidableEq, Repr

/-- `ESCState`. -/
structure EscReadings where
  fwMajor : Byte
  fwMinor : Byte
  voltageInput : ScaledNumber
  temperaturePcb : ScaledNumber
  temperatureMotor : ScaledNumber
  currentInput : ScaledNumber
  dutyCycle : ScaledNumber
  tacho : BitVec 32
  tachoAbsolute : BitVec 32
  /-- 1 for backwards, else 0. -/
  direction : Bool
  rpm : ScaledNumber
  status : EscStatus
  deriving DecidableEq, Repr

namespace VescParser

variable (buffer : ℕ → Byte) (index : ℕ)

/-- `buffer_get_int16`. -/
def getInt16 : BitVec 16 :=
  (buffer index).setWidth 16 <<< 8 ||| (buffer (index + 1)).setWidth 16

/-- `buffer_get_int32`. -/
def getInt32 : BitVec 32 :=
  (buffer index).setWidth 32 <<< 24 ||| (buffer (index + 1)).setWidth 32 <<< 16 |||
    (buffer (index + 2)).setWidth 32 <<< 8 ||| (buffer (index + 3)).setWidth 32

/-- `buffer_get_float16`. -/
def getFloat16 (scale : ℕ) : ScaledNumber := ⟨(getInt16 buffer index).toInt, scale⟩

/-- `buffer_get_float32`. -/
def getFloat32 (scale : ℕ) : ScaledNumber := ⟨(getInt32 buffer index).toInt, scale⟩

/-- The case `COMM_FW_VERSION`. -/
def readFwVersion (message : ℕ → Byte) (latest : EscReadings) : EscReadings :=
  { latest with fwMajor := message 0, fwMinor := message 1 }

/-- The case `COMM_GET_VALUES`, with the index after the fields that are skipped. -/
def readValues (message : ℕ → Byte) (latest : EscReadings) : EscReadings :=
  { latest with
    temperaturePcb := getFloat16 message 0 10
    temperatureMotor := getFloat16 message 2 10
    currentInput := getFloat32 message 8 100
    dutyCycle := getFloat16 message 20 1000
    rpm := getFloat32 message 22 1
    voltageInput := getFloat16 message 26 10
    tacho := getInt32 message 44
    tachoAbsolute := getInt32 message 48
    status := if message 52 ≠ faultCodeNone then .error else .ok
    direction := decide ((getFloat32 message 22 1).number < 0) }

/-- What `ProcessPayload` reads after the checks, from the byte behind the length on. -/
def readPayload (latest : EscReadings) : EscReadings :=
  let packetId := buffer 2
  let message := fun i => buffer (3 + i)
  if packetId = commFwVersion then readFwVersion message latest
  else if packetId = commGetValues then readValues message latest
  else latest

/-- `ProcessPayload` on `latest_state_`: the state afterwards, and whether `NotifyCallback` is
called. -/
def processStatus (s : VescParser) (latest : EscReadings) : EscReadings × Bool :=
  let fill := s.workingBufferFill.toNat
  let payloadLength := (s.workingBuffer 1).toNat
  if payloadLength + 5 ≠ fill then (latest, false)
  else if s.workingBuffer 0 ≠ 0x02#8 ∨ s.workingBuffer (fill - 1) ≠ 0x03#8 then (latest, false)
  else
    let actualCRC := (s.workingBuffer (fill - 3)).setWidth 16 <<< 8 |||
      (s.workingBuffer (fill - 2)).setWidth 16
    if crc16 (slice s.workingBuffer 2 payloadLength) ≠ actualCRC then (latest, false)
    else (readPayload s.workingBuffer latest, true)

/-- The callback is notified of exactly the frames that are accepted. -/
theorem processPayload_accepted (s : VescParser) (latest : EscReadings) :
    (s.processPayload crc16).accepted = s.accepted ++
      if (s.processStatus latest).2 then [slice s.workingBuffer 2 (s.workingBuffer 1).toNat]
      else [] := by
  unfold processPayload processStatus
  dsimp only
  split
  · simp
  split
  · simp
  split <;> simp

/-! ### What the values depend on -/

variable {buffer} {buffer' : ℕ → Byte} {latest : EscReadings}

theorem getInt16_congr (hzero : buffer index = buffer' index)
    (hone : buffer (index + 1) = buffer' (index + 1)) :
    getInt16 buffer index = getInt16 buffer' index := by
  rw [getInt16, getInt16, hzero, hone]

theorem getInt32_congr (h : ∀ i, i < 4 → buffer (index + i) = buffer' (index + i)) :
    getInt32 buffer index = getInt32 buffer' index := by
  have hzero := h 0 (by decide)
  rw [Nat.add_zero] at hzero
  rw [getInt32, getInt32, hzero, h 1 (by decide), h 2 (by decide), h 3 (by decide)]

/-- The values are in the first 53 bytes of the message. -/
theorem readValues_congr {message message' : ℕ → Byte}
    (h : ∀ i, i < 53 → message i = message' i) :
    readValues message latest = readValues message' latest := by
  have hint16 : ∀ index, index + 1 < 53 → getInt16 message index = getInt16 message' index :=
    fun index hlt => getInt16_congr index (h _ (by omega)) (h _ hlt)
  have hint32 : ∀ index, index + 3 < 53 → getInt32 message index = getInt32 message' index :=
    fun index hlt => getInt32_congr index fun i hi => h _ (by omega)
  have hfault := h 52 (by decide)
  unfold readValues getFloat16 getFloat32
  rw [hint16 0 (by decide), hint16 2 (by decide), hint16 20 (by decide), hint16 26 (by decide),
    hint32 8 (by decide), hint32 22 (by decide), hint32 44 (by decide), hint32 48 (by decide),
    hfault]

/-- A status depends on the bytes up to the last field of its packet. -/
theorem readPayload_congr {n : ℕ} (h : ∀ i, i < n → buffer i = buffer' i) (hid : 2 < n)
    (hversion : buffer 2 = commFwVersion → 5 ≤ n) (hvalues : buffer 2 = commGetValues → 56 ≤ n) :
    readPayload buffer latest = readPayload buffer' latest := by
  have hsame := h 2 hid
  unfold readPayload
  dsimp only
  rw [← hsame]
  split
  · next heq =>
    have hlen := hversion heq
    rw [readFwVersion, readFwVersion, h _ (by omega), h _ (by omega)]
  split
  · next heq =>
    have hlen := hvalues heq
    exact readValues_congr fun i hi => h _ (by omega)
  · rfl

end VescParser

end OpenMower
