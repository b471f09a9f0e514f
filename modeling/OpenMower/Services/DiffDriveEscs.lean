import OpenMower.Portable.SystemTime
import Mathlib.Logic.Function.Basic

/-!
# The ESCs of the diff drive

From `services/diff_drive_service` and `drivers/motor/motor_driver`, how the diff drive service
handles the states of its two ESCs. A state is kept with a flag until the other ESC has
delivered one as well; then both are sent, with the twist and the wheel ticks, and the flags are
cleared. A tick reports an ESC as disconnected when the last such pair is more than a second
old and the ESC has no state waiting.

What a method sends is the list of its messages. Nothing depends on how `float`s round, so the
model takes any type with the operations that the source uses.
-/

namespace OpenMower

/-- `ESCState::ESCStatus`. -/
inductive EscStatus
  | disconnected
  | error
  | stalled
  | ok
  | running
  deriving DecidableEq, Repr

/-- The value of a status on the wire. -/
def EscStatus.code : EscStatus → BitVec 8
  | .disconnected => 99#8
  | .error => 100#8
  | .stalled => 150#8
  | .ok => 200#8
  | .running => 201#8

/-- The fields of an `ESCState` that the service uses. -/
structure EscState (F : Type*) where
  temperaturePcb : F
  currentInput : F
  tacho : BitVec 32
  status : EscStatus

/-- The two ESCs. -/
inductive EscSide
  | left
  | right
  deriving DecidableEq, Repr

namespace EscSide

/-- The other ESC. -/
def other : EscSide → EscSide
  | .left => .right
  | .right => .left

/-- `ESC_LEFT` and `ESC_RIGHT`. -/
def mask : EscSide → BitVec 8
  | .left => 1#8
  | .right => 2#8

theorem other_ne (side : EscSide) : side.other ≠ side := by
  cases side <;> decide

end EscSide

/-- What the service sends about its ESCs. -/
inductive DriveMessage (F : Type*)
  | escTemperature (side : EscSide) (value : F)
  | escCurrent (side : EscSide) (value : F)
  | escStatus (side : EscSide) (value : BitVec 8)
  | actualTwist (vx vr : F)
  | wheelTicks (left right : BitVec 32)

/-- The ESC fields of the service; `state`, `valid` and `lastTicks` are pairs of fields. -/
structure DiffDriveEscs (F : Type*) where
  state : EscSide → EscState F
  valid : EscSide → Bool
  lastValidEscStateMicros : Micros
  escsConnected : BitVec 8
  lastTicks : EscSide → BitVec 32
  lastTicksValid : Bool
  lastTicksMicros : Micros

namespace DiffDriveEscs

variable {F : Type*} (s : DiffDriveEscs F)

/-- The service as it is created, with any states in the unused fields. -/
def initial (state : EscSide → EscState F) : DiffDriveEscs F where
  state := state
  valid := fun _ => false
  lastValidEscStateMicros := 0#32
  escsConnected := 0#8
  lastTicks := fun _ => 0#32
  lastTicksValid := false
  lastTicksMicros := 0#32

/-- What `tick` sends about the ESCs. -/
def tickStatus (now : Micros) : List (DriveMessage F) :=
  if 1000000#32 < now - s.lastValidEscStateMicros then
    (if s.valid .left then [] else [.escStatus .left EscStatus.disconnected.code]) ++
      (if s.valid .right then [] else [.escStatus .right EscStatus.disconnected.code])
  else []

/-- The messages about one ESC in `ProcessStatusUpdate`. -/
def sendState (side : EscSide) : List (DriveMessage F) :=
  [.escTemperature side (s.state side).temperaturePcb,
    .escCurrent side (s.state side).currentInput, .escStatus side (s.state side).status.code]

variable [Neg F] [Mul F] [Div F] [NatCast F] [IntCast F]

/-- The twist and the wheel ticks in `ProcessStatusUpdate`. -/
def sendTwist (wheelTicksPerMeter : F) (now : Micros) : List (DriveMessage F) :=
  if s.lastTicksValid then
    let dt : F := ((now - s.lastTicksMicros).toNat : F) / (1000000 : ℕ)
    let dLeft := (s.state .left).tacho - s.lastTicks .left
    let dRight := (s.state .right).tacho - s.lastTicks .right
    let scale := ((2 : ℕ) : F) * dt * wheelTicksPerMeter
    [.actualTwist (((dLeft - dRight).toInt : F) / scale) (-((dLeft + dRight).toInt : F) / scale),
      .wheelTicks (s.state .left).tacho (s.state .right).tacho]
  else []

/-- `ProcessStatusUpdate`. -/
def processStatusUpdate (wheelTicksPerMeter : F) (now : Micros) :
    DiffDriveEscs F × List (DriveMessage F) :=
  ({ s with
      lastValidEscStateMicros := now
      lastTicksValid := true
      lastTicks := fun side => (s.state side).tacho
      lastTicksMicros := now
      valid := fun _ => false },
    s.sendState .left ++ s.sendState .right ++ s.sendTwist wheelTicksPerMeter now)

/-- `LeftESCCallback` and `RightESCCallback`. -/
def escCallback (wheelTicksPerMeter : F) (side : EscSide) (state : EscState F) (now : Micros) :
    DiffDriveEscs F × List (DriveMessage F) :=
  let s' := { s with
    state := Function.update s.state side state
    valid := Function.update s.valid side true
    escsConnected := s.escsConnected ||| side.mask }
  if s'.valid side.other then s'.processStatusUpdate wheelTicksPerMeter now else (s', [])

/-- `OnStop`. -/
def onStop : DiffDriveEscs F := { s with lastTicksValid := false, escsConnected := 0#8 }

omit [Neg F] [Mul F] [Div F] [NatCast F] [IntCast F]

/-- A tick reports the ESCs without a waiting state once the last pair is too old. -/
theorem disconnected_mem_tickStatus {side : EscSide} {now : Micros} :
    .escStatus side EscStatus.disconnected.code ∈ s.tickStatus now ↔
      1000000#32 < now - s.lastValidEscStateMicros ∧ s.valid side = false := by
  rw [tickStatus]
  split_ifs with hage hleft hright hright <;> cases side <;> simp [*]

end DiffDriveEscs

end OpenMower
