import OpenMower.Portable.SystemTime

/-!
# The services that command motors

From `services/diff_drive_service` and `services/mower_service`. The two services have the
same structure: a stored duty for each driver, the flag `duty_sent_`, a tick that zeroes the
duty when no command has come for some time, a handler for commands, and a handler for
`EMERGENCY_CHANGED`. They differ in their drivers, in the timeout of a command, in the message
that carries a command, and in that the mower service also drops its duty at the end of a tick
without recent ESC data.

The methods hold a mutex and call `SetDuty` in their middle, which reads the emergency
reasons and then calls the drivers. Since other threads run in between, the definitions here
are the parts before and after `SetDuty`; `Call` and `Stage` are the places at which the
holder of the mutex can be.

Duties are `float`s. Nothing depends on how these round, so the model takes any type with the
operations that the source uses.
-/

namespace OpenMower

/-- The services that command motors. -/
inductive MotorServiceId
  | diffDrive
  | mower
  deriving DecidableEq, Repr

/-- The motor drivers. -/
inductive MotorDriver
  | left
  | right
  | mower
  deriving DecidableEq, Repr

/-- The service that owns a driver. -/
def MotorDriver.service : MotorDriver → MotorServiceId
  | .left => .diffDrive
  | .right => .diffDrive
  | .mower => .mower

namespace MotorServiceId

/-- The drivers in the order in which `SetDuty` calls them. -/
def drivers : MotorServiceId → List MotorDriver
  | .diffDrive => [.left, .right]
  | .mower => [.mower]

/-- How long a command stays in force. -/
def dutyTimeout : MotorServiceId → Micros
  | .diffDrive => 1000000#32
  | .mower => 10000000#32

/-- Whether a tick without recent ESC data drops the duty. -/
def needsEscState : MotorServiceId → Bool
  | .diffDrive => false
  | .mower => true

theorem mem_drivers {c : MotorServiceId} {d : MotorDriver} : d ∈ c.drivers ↔ d.service = c := by
  cases c <;> cases d <;> decide

end MotorServiceId

variable {D : Type*}

/-- The constants of the twist conversion: the configured `WheelDistance` and `0.5f`. -/
structure DriveConfig (D : Type*) where
  wheelDistance : D
  half : D

/-- A message with a command, `ControlTwist` or `MowerEnabled`. -/
inductive MotorMessage (D : Type*)
  | controlTwist (newValue : List D)
  | mowerEnabled (newValue : BitVec 8)

namespace MotorMessage

/-- The service that a message is for. -/
def service : MotorMessage D → MotorServiceId
  | .controlTwist _ => .diffDrive
  | .mowerEnabled _ => .mower

/-- `if (length != 6) return`. -/
def accepted : MotorMessage D → Bool
  | .controlTwist newValue => newValue.length = 6
  | .mowerEnabled _ => true

variable [Zero D] [One D] [Neg D] [Add D] [Sub D] [Mul D] [LE D] [DecidableLE D]

/-- The speed limit of `OnControlTwistChanged`. -/
def limitSpeed (speed : D) : D := if 1 ≤ speed then 1 else if speed ≤ -1 then -1 else speed

/-- The duties that a message asks for. -/
def duty (config : DriveConfig D) : MotorMessage D → MotorDriver → D
  | .controlTwist newValue, driver =>
    let linear := newValue.getD 0 0
    let angular := newValue.getD 5 0
    match driver with
    | .left => limitSpeed (linear - config.half * config.wheelDistance * angular)
    | .right => limitSpeed (-(linear + config.half * config.wheelDistance * angular))
    | .mower => 0
  | .mowerEnabled newValue, _ => if newValue ≠ 0#8 then 1 else 0

end MotorMessage

/-- The fields of a service that its duties depend on: `speed_l_` and `speed_r_` or
`mower_duty_`, and the flags and times. The ESC fields are those of the mower service. -/
structure MotorService (D : Type*) where
  duty : MotorDriver → D
  dutySent : Bool := false
  lastDutyReceivedMicros : Micros := 0#32
  escStateValid : Bool := false
  lastValidEscStateMicros : Micros := 0#32

namespace MotorService

variable (s : MotorService D)

/-- `MowerService::ESCCallback`. -/
def escCallback (now : Micros) : MotorService D :=
  { s with escStateValid := true, lastValidEscStateMicros := now }

variable [Zero D]

/-- The duties are set to 0, as in `OnStart`, `OnStop` and `OnEmergencyChangedEvent`. -/
def zeroDuty : MotorService D := { s with duty := fun _ => 0 }

/-- `tick` up to `SetDuty`. -/
def beginTick (c : MotorServiceId) (now : Micros) : MotorService D :=
  if c.dutyTimeout < now - s.lastDutyReceivedMicros then s.zeroDuty else s

/-- `tick` after `SetDuty`. -/
def endTick (c : MotorServiceId) (now : Micros) : MotorService D :=
  let s' := if c.needsEscState ∧
      (1000000#32 < now - s.lastValidEscStateMicros ∨ s.escStateValid = false) then s.zeroDuty
    else s
  { s' with dutySent := false }

/-- `OnControlTwistChanged` and `OnMowerEnabledChanged` up to `SetDuty`. -/
def takeCommand [One D] [Neg D] [Add D] [Sub D] [Mul D] [LE D] [DecidableLE D]
    (config : DriveConfig D) (message : MotorMessage D) (now : Micros) : MotorService D :=
  { s with lastDutyReceivedMicros := now, duty := message.duty config }

/-- What `SetDuty` passes to a driver. -/
def dutyFor (emergency : Bool) (driver : MotorDriver) : D :=
  if emergency then 0 else s.duty driver

variable {s}

@[simp] theorem zeroDuty_duty {d : MotorDriver} : s.zeroDuty.duty d = 0 := rfl

/-- A tick keeps a duty or sets it to 0. -/
theorem beginTick_duty (c : MotorServiceId) (now : Micros) :
    (s.beginTick c now).duty = s.duty ∨ (s.beginTick c now).duty = fun _ => 0 := by
  unfold beginTick
  split
  · exact .inr rfl
  · exact .inl rfl

theorem endTick_duty (c : MotorServiceId) (now : Micros) :
    (s.endTick c now).duty = s.duty ∨ (s.endTick c now).duty = fun _ => 0 := by
  unfold endTick
  dsimp only
  split
  · exact .inr rfl
  · exact .inl rfl

@[simp] theorem dutyFor_true {d : MotorDriver} : s.dutyFor true d = 0 := rfl

@[simp] theorem dutyFor_false {d : MotorDriver} : s.dutyFor false d = s.duty d := rfl

end MotorService

/-- Who holds the mutex of a service: its own thread in `tick` or in the handler of a command,
or the main thread in `OnEmergencyChangedEvent`. -/
inductive Call
  | tick
  | command
  | emergency
  deriving DecidableEq, Repr

/-- How far the holder of the mutex has come. `sending` is inside `SetDuty`, after it has read
the emergency reasons in a given epoch, with the drivers that it has not called yet. -/
inductive Stage
  | free
  | beforeSetDuty (call : Call)
  | sending (call : Call) (emergency : Bool) (epoch : ℕ) (rest : List MotorDriver)
  | afterSetDuty (call : Call)
  deriving DecidableEq, Repr

namespace Stage

/-- The method that holds the mutex. -/
def call? : Stage → Option Call
  | .free => none
  | .beforeSetDuty call => some call
  | .sending call _ _ _ => some call
  | .afterSetDuty call => some call

/-- The stage after the first part of a method, which calls `SetDuty` unless the duty has been
sent since the last tick. -/
def enter (call : Call) (dutySent : Bool) : Stage :=
  if dutySent then .afterSetDuty call else .beforeSetDuty call

/-- The holder of the mutex is inside `SetDuty`, after its read of the reasons. -/
def IsSending : Stage → Bool
  | .sending _ _ _ _ => true
  | _ => false

/-- The own thread of the service is not in one of its methods. -/
def ServiceIdle (stage : Stage) : Prop := stage.call? = none ∨ stage.call? = some .emergency

instance (stage : Stage) : Decidable stage.ServiceIdle := inferInstanceAs (Decidable (_ ∨ _))

end Stage

end OpenMower
