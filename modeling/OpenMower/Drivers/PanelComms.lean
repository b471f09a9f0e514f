import OpenMower.Drivers.CobsReceiver
import OpenMower.Drivers.YfCoverUi
import OpenMower.Library.LittleEndian
import OpenMower.Library.StateMachine

/-!
# The thread of the cover UI

From `drivers/ui/yf_cover_ui`: the messages of the panel and what `HandleMessage` does with them,
and the passes of `ThreadFunc`. In a pass the received bytes are processed, and then the verdict
about the presence, the timeout for the version, the poll for the version and the update of the
LEDs each compare the clock with the time of something earlier.

The clock has 32 bits and ticks every 100 µs. The times of an event are true times in ticks. The
CRC is that of a library. What the LEDs show is a parameter of a pass, and so is what the DMA has
delivered until then.
-/

namespace OpenMower

open CobsReceiver LittleEndian ModularClock

/-- The messages of the panel, with all fields but the type and the CRC. -/
inductive PanelMessage
  | version (reserved : Byte) (version : BitVec 16)
  | button (buttonId : BitVec 16) (pressDuration : Byte)
  | emergency (state : Byte)
  | rain (reserved : Byte) (value threshold : BitVec 32)
  | subscribe (topicBitmask : Byte) (interval : BitVec 16)
  deriving DecidableEq, Repr

/-- The types of messages, by the members of `PanelMessage`. -/
inductive PanelMessageType
  | getVersion
  | getButton
  | getEmergency
  | getRain
  | getSubscribe
  deriving DecidableEq, Repr

namespace PanelMessageType

/-- `YFCoverUIType`. -/
def code : PanelMessageType → Byte
  | getVersion => 0xB0#8
  | getButton => 0xB3#8
  | getEmergency => 0xB4#8
  | getRain => 0xB5#8
  | getSubscribe => 0xB6#8

/-- The sizes of the fields in front of the CRC. -/
def widths : PanelMessageType → List ℕ
  | getVersion => [1, 1, 2]
  | getButton => [1, 2, 1]
  | getEmergency => [1, 1]
  | getRain => [1, 1, 4, 4]
  | getSubscribe => [1, 1, 2]

/-- `sizeof` the message. -/
def size (t : PanelMessageType) : ℕ := t.widths.sum + 2

/-- The fields of a message of this type. -/
def read (t : PanelMessageType) (buf : List Byte) : PanelMessage :=
  let field := fun i => (unpack t.widths buf).getD i 0
  match t with
  | getVersion => .version (.ofNat 8 (field 1)) (.ofNat 16 (field 2))
  | getButton => .button (.ofNat 16 (field 1)) (.ofNat 8 (field 2))
  | getEmergency => .emergency (.ofNat 8 (field 1))
  | getRain => .rain (.ofNat 8 (field 1)) (.ofNat 32 (field 2)) (.ofNat 32 (field 3))
  | getSubscribe => .subscribe (.ofNat 8 (field 1)) (.ofNat 16 (field 2))

/-- The case of the `switch` in `HandleMessage`. -/
def ofCode (b : Byte) : Option PanelMessageType :=
  if b = getVersion.code then some getVersion
  else if b = getButton.code then some getButton
  else if b = getEmergency.code then some getEmergency
  else if b = getRain.code then some getRain
  else if b = getSubscribe.code then some getSubscribe
  else none

end PanelMessageType

namespace PanelMessage

/-- The type of a message. -/
def type : PanelMessage → PanelMessageType
  | version .. => .getVersion
  | button .. => .getButton
  | emergency .. => .getEmergency
  | rain .. => .getRain
  | subscribe .. => .getSubscribe

/-- The fields in front of the CRC. -/
def values (m : PanelMessage) : List ℕ :=
  m.type.code.toNat :: match m with
    | .version reserved firmware => [reserved.toNat, firmware.toNat]
    | .button buttonId pressDuration => [buttonId.toNat, pressDuration.toNat]
    | .emergency state => [state.toNat]
    | .rain reserved value threshold => [reserved.toNat, value.toNat, threshold.toNat]
    | .subscribe topicBitmask interval => [topicBitmask.toNat, interval.toNat]

/-- The bytes in front of the CRC. -/
def payload (m : PanelMessage) : List Byte := pack (m.type.widths.zip m.values)

end PanelMessage

section

variable (crc16 : List Byte → BitVec 16)

/-- A message with its CRC. -/
def PanelMessage.packet (m : PanelMessage) : List Byte := withCheck crc16 m.payload

/-- The checks of `HandleMessage`, and what it passes to a handler. -/
def checkMessage (buf : List Byte) : Option PanelMessage :=
  if buf.length < 1 then none
  else if buf.length < 3 then none
  else
    let receivedCrc := BitVec.ofNat 16 (join (buf.drop (buf.length - 2)))
    if receivedCrc ≠ crc16 (buf.take (buf.length - 2)) then none
    else
      (PanelMessageType.ofCode (buf.headD 0#8)).bind fun t =>
        if buf.length = t.size then some (t.read buf) else none

/-- `TX_BUF_SIZE`. -/
def panelTxBufSize : ℕ := 32

/-- `SendMessage`, with what is in the transmit buffer: the bytes for the UART. -/
def sendPanelMessage (msg : List Byte) (txBuf : ℕ → Byte) : Option (List Byte) :=
  if panelTxBufSize < msg.length + msg.length / 254 + 2 then none
  else some (YfCoverUi.cobsEncode msg txBuf ++ [0x00#8])

/-- The `msg_get_version` of `SendVersionRequest`. -/
def versionRequestMessage : List Byte :=
  withCheck crc16 (pack [(1, 0xB0), (1, 0), (2, 0)])

/-- The `msg_set_leds` of `SendLeds`. -/
def ledsMessage (leds : BitVec 64) : List Byte :=
  withCheck crc16 (pack [(1, 0xB2), (1, 0), (8, leds.toNat)])

end

/-- `YFCoverUI` with the local variables of `ThreadFunc`. -/
structure PanelComms where
  ui : YfCoverUi := {}
  rainDetected : Bool := false
  uiInterval : BitVec 16 := 1000#16
  rx : CobsReceiver := start
  service : InputService
  lastVersionPoll : BitVec 32
  versionRequest : BitVec 32 := 0#32
  lastLedUpdate : BitVec 32
  probeStart : BitVec 32
  /-- History: what has been written to the UART. -/
  transmitted : List (List Byte) := []
  /-- History: the messages that have been handled. -/
  handled : List PanelMessage := []
  /-- History: when a version message has been handled last. -/
  answered : Option ℤ := none
  /-- History: the times of the version requests. -/
  requests : List ℤ := []
  /-- History: the time stored in `last_version_poll`, and of the last comparison with it. -/
  polled : ℤ
  checked : ℤ
  /-- History: the time stored in `probe_start`, and the present time. -/
  started : ℤ
  time : ℤ

/-- What a pass of the loop meets. -/
structure PanelPass where
  /-- The bytes that are given to `ProcessRxBytes`, and when. -/
  bytes : List Byte
  drained : ℤ
  /-- What the handler of each message reads from the microsecond clock for each input. -/
  clock : ℕ → ℕ → Micros × Micros
  /-- The times of the comparisons, and of the readings that are stored. -/
  probe : ℤ
  timeout : ℤ
  timeoutClock : ℕ → Micros
  poll : ℤ
  requested : ℤ
  led : ℤ
  updated : ℤ
  /-- What the LEDs show, and what is in the transmit buffer. -/
  leds : BitVec 64
  txBuf : ℕ → Byte

namespace PanelPass

/-- The order of a pass in time. -/
structure InOrder (p : PanelPass) (time : ℤ) : Prop where
  drained : time ≤ p.drained
  probe : p.drained ≤ p.probe
  timeout : p.probe ≤ p.timeout
  poll : p.timeout ≤ p.poll
  requested : p.poll ≤ p.requested
  led : p.requested ≤ p.led
  updated : p.led ≤ p.updated

instance (p : PanelPass) (time : ℤ) : Decidable (p.InOrder time) :=
  decidable_of_iff (time ≤ p.drained ∧ p.drained ≤ p.probe ∧ p.probe ≤ p.timeout ∧
      p.timeout ≤ p.poll ∧ p.poll ≤ p.requested ∧ p.requested ≤ p.led ∧ p.led ≤ p.updated)
    ⟨fun ⟨h₁, h₂, h₃, h₄, h₅, h₆, h₇⟩ => ⟨h₁, h₂, h₃, h₄, h₅, h₆, h₇⟩,
      fun h => ⟨h.drained, h.probe, h.timeout, h.poll, h.requested, h.led, h.updated⟩⟩

end PanelPass

/-- `TIME_MS2I`. -/
def timeMs2i (ms : ℕ) : BitVec 32 := BitVec.ofNat 32 (ms * 10)

/-- `chVTTimeElapsedSinceX(since) >= interval`, at a true time. -/
def elapsed (now : ℤ) (since interval : BitVec 32) : Bool :=
  decide (interval ≤ reading 32 now - since)

namespace PanelComms

/-- `VERSION_POLL_MS`. -/
def versionPollMs : ℕ := 5000

/-- `VERSION_TIMEOUT_MS`. -/
def versionTimeoutMs : ℕ := 250

/-- `PRESENCE_PROBE_MS`. -/
def presenceProbeMs : ℕ := 3000

section

variable (E : EmergencyReason) (crc16 : List Byte → BitVec 16) (pressDelay : Bool → Micros)

/-- The handler of a message. -/
def handle (clock : ℕ → Micros × Micros) (now : ℤ) (s : PanelComms) : PanelMessage → PanelComms
  | .version .. => { s with ui := s.ui.handleVersion, answered := some now }
  | .button buttonId pressDuration =>
    { s with service := s.ui.handleButton E pressDelay buttonId pressDuration clock s.service }
  | .emergency state =>
    let handled := s.ui.handleEmergency E state (fun i => (clock i).1) s.service
    { s with ui := handled.1, service := handled.2 }
  | .rain _ value threshold => { s with rainDetected := decide (value < threshold) }
  | .subscribe _ interval =>
    if 100#16 ≤ interval ∧ interval ≤ 10000#16 then { s with uiInterval := interval } else s

/-- `HandleMessage`. -/
def handleMessage (clock : ℕ → Micros × Micros) (now : ℤ) (s : PanelComms) (buf : List Byte) :
    PanelComms :=
  match checkMessage crc16 buf with
  | some m =>
    { s.handle E pressDelay clock now m with handled := s.handled ++ [m] }
  | none => s

/-- `HandleMessage` for the packets of a drain. -/
def handleMessages (clock : ℕ → ℕ → Micros × Micros) (now : ℤ) (s : PanelComms)
    (packets : List (List Byte)) : PanelComms :=
  packets.zipIdx.foldl (fun s packet =>
    s.handleMessage E crc16 pressDelay (clock packet.2) now packet.1) s

/-- The new bytes of the DMA buffer. -/
def drain (p : PanelPass) (s : PanelComms) : PanelComms :=
  let rx := YfCoverUi.processRxBytes s.rx p.bytes
  { s with rx := rx }.handleMessages E crc16 pressDelay p.clock p.drained
    (rx.packets.drop s.rx.packets.length)

end

/-- The verdict about the presence. -/
def probePresence (p : PanelPass) (s : PanelComms) : PanelComms :=
  if s.ui.presenceDetermined = false ∧ s.ui.uiPresent = false ∧
      elapsed p.probe s.probeStart (timeMs2i presenceProbeMs) then
    { s with ui := { s.ui with presenceDetermined := true } }
  else s

/-- The timeout for the version. -/
def checkTimeout (E : EmergencyReason) (p : PanelPass) (s : PanelComms) : PanelComms :=
  if s.ui.versionPending ∧ elapsed p.timeout s.versionRequest (timeMs2i versionTimeoutMs) then
    let result := s.ui.versionTimeout E p.timeoutClock s.service
    { s with ui := result.1, service := result.2 }
  else s

section

variable (crc16 : List Byte → BitVec 16)

/-- The poll for the version. -/
def pollVersion (p : PanelPass) (s : PanelComms) : PanelComms :=
  if elapsed p.poll s.lastVersionPoll (timeMs2i versionPollMs) then
    { s with
      transmitted := s.transmitted ++
        (sendPanelMessage (versionRequestMessage crc16) p.txBuf).toList
      lastVersionPoll := reading 32 p.requested
      versionRequest := reading 32 p.requested
      ui := { s.ui with versionPending := true }
      requests := s.requests ++ [p.requested]
      polled := p.requested
      checked := p.poll }
  else { s with checked := p.poll }

/-- The update of the LEDs. -/
def updateLeds (p : PanelPass) (s : PanelComms) : PanelComms :=
  if elapsed p.led s.lastLedUpdate (timeMs2i s.uiInterval.toNat) then
    { s with
      transmitted := s.transmitted ++ (sendPanelMessage (ledsMessage crc16 p.leds) p.txBuf).toList
      lastLedUpdate := reading 32 p.updated }
  else s

end

/-- A pass of the loop in `ThreadFunc`, with the protocol of OpenMower. -/
def pass (E : EmergencyReason) (crc16 : List Byte → BitVec 16) (pressDelay : Bool → Micros)
    (s : PanelComms) (p : PanelPass) : PanelComms :=
  let s := s.drain E crc16 pressDelay p
  let s := (s.probePresence p).checkTimeout E p
  { (s.pollVersion crc16 p).updateLeds crc16 p with time := p.updated }

/-- The thread begins: three readings of the clock at these times. -/
structure IsStart (s : PanelComms) (poll led probe : ℤ) : Prop where
  order : poll ≤ led ∧ led ≤ probe
  ui : ∃ inputs, s.ui = { inputs := inputs }
  rx : s.rx = start
  lastVersionPoll : s.lastVersionPoll = reading 32 poll - timeMs2i versionPollMs
  lastLedUpdate : s.lastLedUpdate = reading 32 led - timeMs2i 500
  probeStart : s.probeStart = reading 32 probe
  answered : s.answered = none
  requests : s.requests = []
  polled : s.polled = poll - versionPollMs * 10
  checked : s.checked = poll
  started : s.started = probe
  time : s.time = probe
  interval : s.uiInterval = 1000#16
  rain : s.rainDetected = false
  histories : s.handled = [] ∧ s.transmitted = []

end PanelComms

/-- What happens to the panel's thread and its data. -/
inductive PanelCommsEvent
  | pass (p : PanelPass)
  /-- The protocol is another one, and the thread sleeps until this time. -/
  | sleep (time : ℤ)
  /-- The inputs are configured anew. -/
  | configure (service : InputService) (inputs : List ℕ)

/-- The thread of the cover UI. -/
def panelComms (E : EmergencyReason) (crc16 : List Byte → BitVec 16)
    (pressDelay : Bool → Micros) : StateMachine PanelComms PanelCommsEvent where
  Init s := ∃ poll led probe, s.IsStart poll led probe
  step s
    | .pass p => if p.InOrder s.time then some (s.pass E crc16 pressDelay p) else none
    | .sleep time => if s.time ≤ time then some { s with time := time } else none
    | .configure service inputs =>
      some { s with service := service, ui := { s.ui with inputs := inputs } }

end OpenMower
