import OpenMower.Services.InputConfig

/-!
# The Sabo and Worx input drivers

From `drivers/input/sabo_input_driver` and `drivers/input/worx_input_driver`: the configuration of
their inputs. Both look names up in tables whose keys are strings of a fixed capacity. A longer name
is truncated before it is looked up, unless the library is built to check for that.

The data of a Sabo input are its type and its id, one byte each, and those of a Worx input are the
number of a bit.
-/

namespace OpenMower

namespace Input

variable (input : Input)

/-- `sabo.type`. -/
def saboType : BitVec 8 := input.driverData.extractLsb' 0 8

/-- Stores `sabo.type`. -/
def setSaboType (type : BitVec 8) : Input :=
  { input with driverData := input.driverData &&& ~~~0xFF#64 ||| type.setWidth 64 }

/-- Stores `sabo.id`. -/
def setSaboId (id : BitVec 8) : Input :=
  { input with driverData := input.driverData &&& ~~~0xFF00#64 ||| id.setWidth 64 <<< 8 }

/-- Stores `worx.bit`. -/
def setWorxBit (bit : BitVec 8) : Input :=
  { input with driverData := input.driverData &&& ~~~0xFF#64 ||| bit.setWidth 64 }

end Input

namespace SaboInput

/-- `InputType::SENSOR`. -/
def sensor : BitVec 8 := 0#8

/-- `InputType::BUTTON`. -/
def button : BitVec 8 := 1#8

/-- `INPUT_TYPES`. -/
def inputTypes : List (CString × BitVec 8) :=
  [("sensor".toList, sensor), ("button".toList, button)]

/-- `SENSOR_IDS`. -/
def sensorIds : List (CString × BitVec 8) :=
  [("lift_fl".toList, 0#8), ("lift_fr".toList, 1#8), ("stop_top".toList, 2#8),
    ("stop_rear".toList, 3#8)]

/-- `BUTTON_IDS`. -/
def buttonIds : List (CString × BitVec 8) :=
  [("up".toList, 0#8), ("down".toList, 1#8), ("left".toList, 2#8), ("right".toList, 3#8),
    ("ok".toList, 4#8), ("play".toList, 5#8), ("select".toList, 6#8), ("menu".toList, 8#8),
    ("back".toList, 9#8), ("auto".toList, 10#8), ("mow".toList, 11#8), ("home".toList, 12#8)]

/-- The type with this name. -/
def findType (name : CString) : Option (BitVec 8) := inputTypes.lookup (name.take 6)

/-- The sensor with this name. -/
def findSensor (name : CString) : Option (BitVec 8) := sensorIds.lookup (name.take 9)

/-- The button with this name. -/
def findButton (name : CString) : Option (BitVec 8) := buttonIds.lookup (name.take 6)

/-- The id with this name, for an input of this type. -/
def findId (type : BitVec 8) (name : CString) : Option (BitVec 8) :=
  if type = sensor then findSensor name
  else if type = button then findButton name
  else none

/-- `SaboInputDriver::OnInputConfigValue`. -/
def inputConfigValue (event : JsonEvent) (input : Input) : Bool × Input :=
  if event.key = "type".toList then
    if event.type ≠ .string then (false, input)
    else
      match findType event.buff with
      | some type => (true, input.setSaboType type)
      | none => (false, input)
  else if event.key = "id".toList then
    if event.type ≠ .string then (false, input)
    else
      match findId input.saboType event.buff with
      | some id => (true, input.setSaboId id)
      | none => (false, input)
  else (false, input)

/-- `SaboInputDriver`. -/
def inputDriver : InputDriver where
  onInputConfigValue := inputConfigValue
  sets_own event input := by
    unfold inputConfigValue
    repeat' split
    all_goals exact ⟨_, _, rfl⟩

end SaboInput

namespace WorxInput

/-- `INPUT_BITS`. -/
def inputBits : List (CString × BitVec 8) :=
  [("start".toList, 1#8), ("home".toList, 2#8), ("back".toList, 3#8),
    ("battery_cover".toList, 9#8), ("stop1".toList, 10#8), ("trapped1".toList, 12#8),
    ("trapped2".toList, 13#8), ("stop2".toList, 15#8)]

/-- `WorxInputDriver::OnInputConfigValue`. -/
def inputConfigValue (event : JsonEvent) (input : Input) : Bool × Input :=
  if event.key = "id".toList then
    if event.type ≠ .string then (false, input)
    else
      match inputBits.lookup (event.buff.take 13) with
      | some bit => (true, input.setWorxBit bit)
      | none => (false, input)
  else (false, input)

/-- `WorxInputDriver`. -/
def inputDriver : InputDriver where
  onInputConfigValue := inputConfigValue
  sets_own event input := by
    unfold inputConfigValue
    repeat' split
    all_goals exact ⟨_, _, rfl⟩

end WorxInput

end OpenMower
