import OpenMower.Drivers.Input

/-!
# The input service: multi-sensor counting

From `services/input_service`. `InputService` has the inputs, the counters of active lift and
collision sensors, and the two virtual inputs that are active while there is more than one.
`onInputChanged` maintains them when an input changes, and `update` is a complete call of
`Input::Update`: a virtual input is updated in the same way, but the call of `OnInputChanged`
that this makes returns at once.

The events that `OnInputChanged` sends to the high level are left out.
-/

namespace OpenMower

/-- The state of `InputService`. The virtual inputs are given by their positions, and the
reference counts of the redundancy groups by group id. -/
structure InputService where
  allInputs : List Input
  numActiveLift : BitVec 8
  numActiveCollision : BitVec 8
  liftMultipleInput : ℕ
  collisionMultipleInput : ℕ
  redundancyGroupRefcount : BitVec 8 → BitVec 8
  inputsConfigured : Bool

namespace InputService

variable (E : EmergencyReason) (s : InputService)

/-- A lift sensor has changed: without a group it counts for itself, and a group counts as one
sensor while its reference count is positive. -/
def countLift (group : BitVec 8) (active : Bool) : InputService :=
  if group = 0#8 then
    { s with numActiveLift := if active then s.numActiveLift + 1 else s.numActiveLift - 1 }
  else if active then
    { s with
      numActiveLift :=
        if s.redundancyGroupRefcount group = 0#8 then s.numActiveLift + 1 else s.numActiveLift
      redundancyGroupRefcount := Function.update s.redundancyGroupRefcount group
        (s.redundancyGroupRefcount group + 1) }
  else
    { s with
      numActiveLift :=
        if s.redundancyGroupRefcount group - 1 = 0#8 then s.numActiveLift - 1 else s.numActiveLift
      redundancyGroupRefcount := Function.update s.redundancyGroupRefcount group
        (s.redundancyGroupRefcount group - 1) }

/-- A collision sensor has changed. -/
def countCollision (active : Bool) : InputService :=
  { s with
    numActiveCollision :=
      if active then s.numActiveCollision + 1 else s.numActiveCollision - 1 }

/-- `Update` of a virtual input. -/
def updateVirtual (i : ℕ) (newActive : Bool) (time : Micros) : InputService :=
  { s with allInputs := Input.updateAt s.allInputs i newActive time 0#32 }

/-- The part of `OnInputChanged` about lift sensors. -/
def liftChanged (input : Input) (active : Bool) (time : Micros) : InputService :=
  if E.mem .lift input.emergencyReason then
    let s := s.countLift input.redundancyGroup active
    s.updateVirtual s.liftMultipleInput (decide (2#8 ≤ s.numActiveLift)) time
  else s

/-- The part of `OnInputChanged` about collision sensors. -/
def collisionChanged (input : Input) (active : Bool) (time : Micros) : InputService :=
  if E.mem .collision input.emergencyReason then
    let s := s.countCollision active
    s.updateVirtual s.collisionMultipleInput (decide (2#8 ≤ s.numActiveCollision)) time
  else s

/-- `OnInputChanged`. -/
def onInputChanged (input : Input) (active : Bool) (time : Micros) : InputService :=
  if input.idx = Input.virtualIdx then s
  else (s.liftChanged E input active time).collisionChanged E input active time

/-- `Input::Update` of the input at position `i`. -/
def update (i : ℕ) (newActive : Bool) (time predate : Micros) : InputService :=
  match s.allInputs[i]? with
  | none => s
  | some input =>
    match input.update newActive time predate with
    | none => s
    | some (input', active, _) =>
      { s with allInputs := s.allInputs.set i input' }.onInputChanged E input' active time

end InputService

end OpenMower
