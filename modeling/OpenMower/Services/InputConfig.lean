import OpenMower.JsonStream
import OpenMower.Services.InputCounting

/-!
# The input service: configuration

`OnRegisterInputConfigsChanged` builds the inputs from a JSON document. `InputConfigsJsonCallback`
is called by the parser with one event after the other and changes the current input;
`inputConfigsJsonCallback` returns what the source returns, `false` for an error, together with
the state that the call leaves. A failed call may leave a change behind as well.

What a driver does with the keys of its own is described by `InputDriver`. It may set the
inversion of the input and its own data of the input, and nothing else; the settings of a
driver as a whole are left out.
-/

namespace OpenMower

/-- An input driver, reduced to `OnInputConfigValue`. -/
structure InputDriver where
  onInputConfigValue : JsonEvent → Input → Bool × Input
  /-- A driver sets the inversion and its own fields only. -/
  sets_own : ∀ event input, ∃ invert driverData,
    (onInputConfigValue event input).2 = { input with invert := invert, driverData := driverData }

/-- `GpioInputDriver::OnInputConfigValue`, for the table of lines and `PAL_NOLINE`. -/
def gpioInputConfigValue (getIoLineByName : CString → BitVec 64) (noLine : BitVec 64)
    (event : JsonEvent) (input : Input) : Bool × Input :=
  if event.key = "line".toList then
    if event.type ≠ .string then (false, input)
    else
      let line := getIoLineByName event.buff
      (decide (line ≠ noLine), { input with driverData := line })
  else if event.key = "active".toList then
    if event.type ≠ .string then (false, input)
    else if event.buff = "high".toList then (true, { input with invert := false })
    else if event.buff = "low".toList then (true, { input with invert := true })
    else (false, input)
  else (false, input)

/-- `GpioInputDriver`. -/
def gpioInputDriver (getIoLineByName : CString → BitVec 64) (noLine : BitVec 64) :
    InputDriver where
  onInputConfigValue := gpioInputConfigValue getIoLineByName noLine
  sets_own event input := by
    unfold gpioInputConfigValue
    split
    · split
      · exact ⟨_, _, rfl⟩
      · exact ⟨_, _, rfl⟩
    · repeat' split
      all_goals exact ⟨_, _, rfl⟩

/-- What a configuration depends on besides the document: the generated constants, the
registered drivers, the configured delays, and the conversion of numbers. -/
structure InputConfigEnv where
  reason : EmergencyReason
  drivers : List (CString × InputDriver)
  liftMultipleDelay : BitVec 16
  collisionMultipleDelay : BitVec 16
  toArithmetic : CString → Option (BitVec 16)

/-- The state of a configuration: the service and `input_config_json_data_t`. -/
structure InputConfig where
  service : InputService
  driver : Option InputDriver
  /-- The position of `current_input`. -/
  currentInput : Option ℕ
  nextIdx : BitVec 8
  redundancyGroupMap : List (CString × BitVec 8)
  nextRedundancyGroupId : BitVec 8
  /-- History: the group name that an input has been configured with. -/
  groupName : ℕ → Option CString

namespace InputConfig

variable (env : InputConfigEnv) (s : InputConfig)

/-- The capacity of `all_inputs_`. -/
def maxInputs : ℕ := 32

/-- `MAX_REDUNDANCY_GROUPS`. -/
def maxRedundancyGroups : BitVec 8 := 4#8

/-- A change of the current input. -/
def modifyInput (i : ℕ) (f : Input → Input) : InputConfig :=
  { s with service := { s.service with allInputs := s.service.allInputs.modify i f } }

/-- The current input joins a redundancy group. -/
def setGroup (i : ℕ) (name : CString) (id : BitVec 8) : InputConfig :=
  { s.modifyInput i ({ · with redundancyGroup := id }) with
    groupName := Function.update s.groupName i (some name) }

/-- The key `redundancy_group`: known names have an id, and new ones get the next one. -/
def redundancyGroupValue (event : JsonEvent) (i : ℕ) : Bool × InputConfig :=
  if event.type ≠ .string then (false, s)
  else if 10 < event.buffPos then (false, s)
  else
    let name := event.buff.take 10
    match s.redundancyGroupMap.lookup name with
    | some id => (true, s.setGroup i event.buff id)
    | none =>
      if maxRedundancyGroups < s.nextRedundancyGroupId then (false, s)
      else
        (true, { s.setGroup i event.buff s.nextRedundancyGroupId with
          redundancyGroupMap := (name, s.nextRedundancyGroupId) :: s.redundancyGroupMap
          nextRedundancyGroupId := s.nextRedundancyGroupId + 1 })

/-- A key of the driver. -/
def driverValue (event : JsonEvent) (i : ℕ) : Bool × InputConfig :=
  match s.driver, s.service.allInputs[i]? with
  | some driver, some input =>
    let (ok, input') := driver.onInputConfigValue event input
    (ok, s.modifyInput i fun _ => input')
  -- an input is only current while its driver is
  | _, _ => (false, s)

/-- A value inside an input. -/
def inputValue (event : JsonEvent) (i : ℕ) : Bool × InputConfig :=
  if event.key = "invert".toList then
    match jsonGetBool event.type with
    | some invert => (true, s.modifyInput i ({ · with invert := invert }))
    | none => (false, s)
  else if event.key = "redundancy_group".toList then s.redundancyGroupValue event i
  else if event.key = "emergency".toList then
    if event.type = .object then
      (true, s.modifyInput i ({ · with emergencyReason := env.reason.mask .latch }))
    else (decide (event.type = .objectEnd), s)
  else s.driverValue event i

/-- Adds to the emergency reasons of an input. -/
def addReason (i : ℕ) (r : Reason) : InputConfig :=
  s.modifyInput i fun input =>
    { input with emergencyReason := input.emergencyReason ||| env.reason.mask r }

/-- The key `emergency.reason`. -/
def reasonValue (event : JsonEvent) (i : ℕ) : Bool × InputConfig :=
  if event.type ≠ .string then (false, s)
  else if event.buff = "stop".toList then (true, s.addReason env i .stop)
  else if event.buff = "lift".toList then (true, s.addReason env i .lift)
  else if event.buff = "collision".toList then (true, s.addReason env i .collision)
  else (false, s)

/-- A value inside `emergency`. -/
def emergencyValue (event : JsonEvent) (i : ℕ) : Bool × InputConfig :=
  if event.key ≠ "emergency".toList then (false, s)
  else if event.innerKey = "reason".toList then s.reasonValue env event i
  else if event.innerKey = "delay".toList then
    match jsonGetNumber env.toArithmetic event with
    | some delay => (true, s.modifyInput i ({ · with emergencyDelayMs := delay }))
    | none => (false, s)
  else if event.innerKey = "latch".toList then
    if event.type = .false then
      (true, s.modifyInput i fun input =>
        { input with emergencyReason := input.emergencyReason &&& ~~~env.reason.mask .latch })
    else (decide (event.type = .true), s)
  else (false, s)

/-- A new input. -/
def addInput : InputConfig :=
  { s with
    service := { s.service with allInputs := s.service.allInputs ++ [{ idx := s.nextIdx }] }
    currentInput := some s.service.allInputs.length
    nextIdx := s.nextIdx + 1 }

/-- The start or the end of an input. -/
def inputObject (event : JsonEvent) : Bool × InputConfig :=
  if event.type ≠ .object ∧ event.type ≠ .objectEnd then (false, s)
  else if s.driver.isNone then (true, { s with currentInput := none })
  else if event.type = .object then
    if s.service.allInputs.length = maxInputs then (false, s) else (true, s.addInput)
  else (true, { s with currentInput := none })

/-- `InputConfigsJsonCallback`. -/
def inputConfigsJsonCallback (event : JsonEvent) : Bool × InputConfig :=
  match event.stackPos with
  | 0 => (decide (event.type = .object ∨ event.type = .objectEnd), s)
  | 1 =>
    -- a longer name is not looked up
    (true, { s with
      driver := if event.buff.length ≤ 15 then env.drivers.lookup event.buff else none })
  | 2 => (decide (event.type = .array ∨ event.type = .arrayEnd), s)
  | 3 => s.inputObject event
  | 5 =>
    match s.currentInput with
    | none => (true, s)
    | some i => s.inputValue env event i
  | 7 =>
    match s.currentInput with
    | none => (true, s)
    | some i => s.emergencyValue env event i
  | _ => (true, s)

/-- The virtual input for more than one active lift sensor. -/
def liftMultiple : Input where
  idx := Input.virtualIdx
  emergencyReason := env.reason.mask .liftMultiple ||| env.reason.mask .latch
  emergencyDelayMs := env.liftMultipleDelay

/-- The virtual input for more than one active collision sensor. -/
def collisionMultiple : Input where
  idx := Input.virtualIdx
  emergencyReason := env.reason.mask .collisionMultiple ||| env.reason.mask .latch
  emergencyDelayMs := env.collisionMultipleDelay

/-- What `OnRegisterInputConfigsChanged` starts with: everything is reset and the virtual
inputs are added. -/
def start : InputConfig where
  service :=
    { allInputs := [liftMultiple env, collisionMultiple env]
      numActiveLift := 0#8
      numActiveCollision := 0#8
      liftMultipleInput := 0
      collisionMultipleInput := 1
      redundancyGroupRefcount := fun _ => 0#8
      inputsConfigured := false }
  driver := none
  currentInput := none
  nextIdx := 0#8
  redundancyGroupMap := []
  nextRedundancyGroupId := 1#8
  groupName := fun _ => none

end InputConfig

/-- `OnRegisterInputConfigsChanged`: the result of the parser, which is also stored in
`inputs_configured_`, and the state that it leaves. -/
def onRegisterInputConfigsChanged (env : InputConfigEnv) (parser : JsonParser) (json : CString) :
    Bool × InputConfig :=
  let (ok, s) := processJson (InputConfig.inputConfigsJsonCallback env) parser parser.init json
    { data := InputConfig.start env }
  (ok, { s with service := { s.service with inputsConfigured := ok } })

end OpenMower
