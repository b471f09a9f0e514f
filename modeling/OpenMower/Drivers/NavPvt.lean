import Mathlib.Algebra.Order.Floor.Ring
import Mathlib.Data.Rat.Floor
import OpenMower.Drivers.Ubx
import OpenMower.Library.LittleEndian

/-!
# The solutions of the u-blox driver

From `drivers/gps/ublox_gps_driver`, `drivers/gps/ubx_datatypes` and `services/gps_service`: what
`ProcessUbxPacket` makes of a packet, and what `GpsStateCallback` sends. `UbxNavPvt` is packed, and
the machine is little-endian, so that a message is a record of the library.

A `double` is taken without rounding, and an angle as a multiple of π.
-/

namespace OpenMower

open LittleEndian

/-- `UbxNavPvt`, with the bits of its signed fields. -/
structure UbxNavPvt where
  iTOW : BitVec 32
  year : BitVec 16
  month : Byte
  day : Byte
  hour : Byte
  min : Byte
  sec : Byte
  valid : Byte
  tAcc : BitVec 32
  nano : BitVec 32
  fixType : Byte
  flags : Byte
  flags2 : Byte
  numSV : Byte
  lon : BitVec 32
  lat : BitVec 32
  height : BitVec 32
  hMSL : BitVec 32
  hAcc : BitVec 32
  vAcc : BitVec 32
  velN : BitVec 32
  velE : BitVec 32
  velD : BitVec 32
  gSpeed : BitVec 32
  headMot : BitVec 32
  sAcc : BitVec 32
  headAcc : BitVec 32
  pDOP : BitVec 16
  flags3 : BitVec 16
  /-- Four bytes. -/
  reserved1 : BitVec 32
  headVeh : BitVec 32
  magDec : BitVec 16
  magAcc : BitVec 16
  deriving DecidableEq, Repr

namespace UbxNavPvt

/-- `CLASS_ID`. -/
def classId : Byte := 1#8

/-- `MESSAGE_ID`. -/
def messageId : Byte := 7#8

/-- The sizes of the fields. -/
def widths : List ℕ :=
  [4, 2, 1, 1, 1, 1, 1, 1, 4, 4, 1, 1, 1, 1, 4, 4, 4, 4, 4, 4, 4, 4, 4, 4, 4, 4, 4, 2, 2, 4, 4, 2,
    2]

/-- `sizeof(UbxNavPvt)`. -/
def size : ℕ := widths.sum

variable (msg : UbxNavPvt)

/-- The fields. -/
def values : List ℕ :=
  [msg.iTOW.toNat, msg.year.toNat, msg.month.toNat, msg.day.toNat, msg.hour.toNat, msg.min.toNat,
    msg.sec.toNat, msg.valid.toNat, msg.tAcc.toNat, msg.nano.toNat, msg.fixType.toNat,
    msg.flags.toNat, msg.flags2.toNat, msg.numSV.toNat, msg.lon.toNat, msg.lat.toNat,
    msg.height.toNat, msg.hMSL.toNat, msg.hAcc.toNat, msg.vAcc.toNat, msg.velN.toNat,
    msg.velE.toNat, msg.velD.toNat, msg.gSpeed.toNat, msg.headMot.toNat, msg.sAcc.toNat,
    msg.headAcc.toNat, msg.pDOP.toNat, msg.flags3.toNat, msg.reserved1.toNat, msg.headVeh.toNat,
    msg.magDec.toNat, msg.magAcc.toNat]

/-- The message on the wire. -/
def payload : List Byte := pack (widths.zip msg.values)

/-- The `reinterpret_cast` of a payload. -/
def ofBytes (payload : List Byte) : UbxNavPvt :=
  let field := fun i => (unpack widths payload).getD i 0
  { iTOW := .ofNat 32 (field 0)
    year := .ofNat 16 (field 1)
    month := .ofNat 8 (field 2)
    day := .ofNat 8 (field 3)
    hour := .ofNat 8 (field 4)
    min := .ofNat 8 (field 5)
    sec := .ofNat 8 (field 6)
    valid := .ofNat 8 (field 7)
    tAcc := .ofNat 32 (field 8)
    nano := .ofNat 32 (field 9)
    fixType := .ofNat 8 (field 10)
    flags := .ofNat 8 (field 11)
    flags2 := .ofNat 8 (field 12)
    numSV := .ofNat 8 (field 13)
    lon := .ofNat 32 (field 14)
    lat := .ofNat 32 (field 15)
    height := .ofNat 32 (field 16)
    hMSL := .ofNat 32 (field 17)
    hAcc := .ofNat 32 (field 18)
    vAcc := .ofNat 32 (field 19)
    velN := .ofNat 32 (field 20)
    velE := .ofNat 32 (field 21)
    velD := .ofNat 32 (field 22)
    gSpeed := .ofNat 32 (field 23)
    headMot := .ofNat 32 (field 24)
    sAcc := .ofNat 32 (field 25)
    headAcc := .ofNat 32 (field 26)
    pDOP := .ofNat 16 (field 27)
    flags3 := .ofNat 16 (field 28)
    reserved1 := .ofNat 32 (field 29)
    headVeh := .ofNat 32 (field 30)
    magDec := .ofNat 16 (field 31)
    magAcc := .ofNat 16 (field 32) }

end UbxNavPvt

/-- `GpsState::FixType`. -/
inductive GpsFixType
  | noFix
  | drOnly
  | fix2d
  | fix3d
  | gnssDrCombined
  deriving DecidableEq, Repr

/-- `GpsState::RTKType`. -/
inductive RtkType
  | rtkNone
  | rtkFloat
  | rtkFix
  deriving DecidableEq, Repr

/-- `GpsState`. -/
structure GpsState where
  sensorTime : BitVec 32 := 0#32
  receivedTime : BitVec 32 := 0#32
  positionValid : Bool := false
  positionHAccuracy : ℚ := 0
  positionVAccuracy : ℚ := 0
  posLat : ℚ := 0
  posLon : ℚ := 0
  posHeight : ℚ := 0
  motionHeadingValid : Bool := false
  velE : ℚ := 0
  velN : ℚ := 0
  velU : ℚ := 0
  motionHeadingAccuracy : ℚ := 0
  motionHeading : ℚ := 0
  vehicleHeadingValid : Bool := false
  vehicleHeadingAccuracy : ℚ := 0
  vehicleHeading : ℚ := 0
  fixType : GpsFixType := .noFix
  rtkType : RtkType := .rtkNone
  numSv : Byte := 0#8

/-- What `GpsStateCallback` sends in a transaction. -/
structure GpsTransaction where
  position : ℚ × ℚ × ℚ
  positionHorizontalAccuracy : ℚ
  positionVerticalAccuracy : ℚ
  /-- It is not always sent. -/
  fixType : Option String
  motionVectorENU : ℚ × ℚ × ℚ

/-- `GpsStateCallback`. -/
def gpsStateCallback (state : GpsState) : GpsTransaction where
  position := (state.posLat, state.posLon, state.posHeight)
  positionHorizontalAccuracy := state.positionHAccuracy
  positionVerticalAccuracy := state.positionVAccuracy
  fixType :=
    if state.rtkType = .rtkFix then some "FIX"
    else if state.rtkType = .rtkFloat then some "FLOAT"
    else none
  motionVectorENU := (state.velE, state.velN, state.velU)

/-- The driver, with what its callback has sent. -/
structure UbxGpsDriver where
  gpsState : GpsState := {}
  gpsStateValid : Bool := false
  sent : List GpsTransaction := []

/-- `fmod`, for a positive `y`: the quotient is cut towards zero. -/
def fmod (x y : ℚ) : ℚ := x - y * if 0 ≤ x / y then (⌊x / y⌋ : ℚ) else (⌈x / y⌉ : ℚ)

/-- `while (heading < 0) heading += M_PI * 2.0`. -/
def addTurns (heading : ℚ) : ℚ := if heading < 0 then addTurns (heading + 2) else heading
termination_by ⌈-heading⌉.toNat
decreasing_by
  have hpos : 0 < ⌈-heading⌉ := Int.ceil_pos.mpr (by linarith)
  have hstep : ⌈-(heading + 2)⌉ = ⌈-heading⌉ - 2 := by
    rw [show -(heading + 2) = -heading - (2 : ℤ) by push_cast; ring, Int.ceil_sub_intCast]
  omega

/-- A heading of a message, clockwise from the north in `1e-5` degrees, for the state:
counterclockwise from the east. -/
def toHeading (head : BitVec 32) : ℚ :=
  addTurns (fmod (-((head.toInt : ℚ) / 100000) * (1 / 180) + 1 / 2) 2)

namespace UbxGpsDriver

variable (s : UbxGpsDriver)

/-- `TriggerStateCallback`. -/
def triggerStateCallback : UbxGpsDriver :=
  { s with sent := s.sent ++ [gpsStateCallback s.gpsState] }

/-- `HandleNavPvt`. -/
def handleNavPvt (msg : UbxNavPvt) : UbxGpsDriver :=
  let gnssFixOK := msg.flags &&& 0b0000001#8 ≠ 0#8
  let invalidLlh := msg.flags3 &&& 0b1#16 ≠ 0#16
  if ¬ gnssFixOK then { s with gpsStateValid := false }
  else if invalidLlh then { s with gpsStateValid := false }
  else
    let diffSoln := (msg.flags &&& 0b0000010#8) >>> 1 ≠ 0#8
    let carrSoln := (msg.flags &&& 0b11000000#8) >>> 6
    let headAcc := (msg.headAcc.toNat : ℚ) / 100000 * (1 / 180)
    triggerStateCallback
      { s with
        gpsState :=
          { s.gpsState with
            fixType :=
              if msg.fixType = 1#8 then .drOnly
              else if msg.fixType = 2#8 then .fix2d
              else if msg.fixType = 3#8 then .fix3d
              else if msg.fixType = 4#8 then .gnssDrCombined
              else .noFix
            rtkType :=
              if diffSoln then
                if carrSoln = 1#8 then .rtkFloat
                else if carrSoln = 2#8 then .rtkFix
                else .rtkNone
              else .rtkNone
            posLat := (msg.lat.toInt : ℚ) / 10000000
            posLon := (msg.lon.toInt : ℚ) / 10000000
            posHeight := (msg.hMSL.toInt : ℚ) / 1000
            positionValid := true
            positionHAccuracy := (msg.hAcc.toNat : ℚ) / 1000
            positionVAccuracy := (msg.vAcc.toNat : ℚ) / 1000
            velE := (msg.velE.toInt : ℚ) / 1000
            velN := (msg.velN.toInt : ℚ) / 1000
            -- negated before it is converted
            velU := ((-msg.velD).toInt : ℚ) / 1000
            numSv := msg.numSV
            motionHeadingValid := true
            motionHeading := toHeading msg.headMot
            motionHeadingAccuracy := headAcc
            vehicleHeadingValid := (msg.flags &&& 0b100000#8) >>> 5 ≠ 0#8
            vehicleHeadingAccuracy := headAcc
            vehicleHeading := toHeading msg.headVeh
            sensorTime := msg.iTOW
            receivedTime := 0#32 }
        gpsStateValid := true }

/-- `ProcessUbxPacket`, for the bytes from the class to the end of the payload. -/
def processUbxPacket (data : List Byte) : UbxGpsDriver :=
  let packetId := (data.getD 0 0#8).setWidth 16 <<< 8 ||| (data.getD 1 0#8).setWidth 16
  if packetId = UbxNavPvt.classId.setWidth 16 <<< 8 ||| UbxNavPvt.messageId.setWidth 16 then
    if sizeSub data.length 4 = UbxNavPvt.size then
      s.handleNavPvt (UbxNavPvt.ofBytes (data.drop 4))
    else s
  else s

end UbxGpsDriver

end OpenMower
