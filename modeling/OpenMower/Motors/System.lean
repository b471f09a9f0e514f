import OpenMower.Library.StateMachine
import OpenMower.Services.EmergencyService
import OpenMower.Services.MotorService
import Mathlib.Logic.Function.Basic

/-!
# Emergencies, event dispatch and motor commands

The machine of this file interleaves the threads that matter for the motors: any thread that
runs `UpdateEmergency`, which changes the reasons under a mutex and broadcasts
`EMERGENCY_CHANGED` afterwards; the main thread in `DispatchEvents`; and the threads of the
diff drive and the mower service with their ticks and commands.

The event listener of the main thread keeps a set of flags and one pending event, so
broadcasts coalesce. What the main thread has left to do before it waits again is a list of
`MainTask`s. The threads of the services are described by the stages of their mutexes.

The history counts the epochs that begin whenever the reasons become non-zero, and records
the epoch in which each service last received a command.
-/

namespace OpenMower

open WordMask

variable {ι D : Type*}

/-- What the main thread still has to do: read the flags of its listener, check whether there
is an emergency for a service, run the rest of the service's `OnEmergencyChangedEvent`, run
`CheckInputs`, and broadcast the change that this has made. -/
inductive MainTask
  | getFlags
  | checkEmergency (c : MotorServiceId)
  | stopMotors (c : MotorServiceId)
  | checkInputs
  | broadcast
  deriving DecidableEq, Repr

/-- The state of the threads. -/
structure MotorState (ι D : Type*) where
  emergency : EmergencyService ι
  /-- The number of threads, the main thread apart, that have changed the reasons and have not
  broadcast this yet. -/
  owed : ℕ
  /-- The flag `EMERGENCY_CHANGED` of the listener. -/
  emergencyChanged : Bool
  /-- The flag `INPUTS_CHANGED` of the listener. -/
  inputsChanged : Bool
  /-- The event of the listener is pending. -/
  eventPending : Bool
  main : List MainTask
  service : MotorServiceId → MotorService D
  stage : MotorServiceId → Stage
  /-- A command that the service thread has received but not begun to process. -/
  waiting : MotorServiceId → Option (MotorMessage D)
  /-- The last duty passed to each driver. -/
  lastDuty : MotorDriver → Option D
  /-- How often the reasons have become non-zero. -/
  epoch : ℕ
  /-- The epoch in which a service last received a command. -/
  received : MotorServiceId → ℕ

/-- The atomic steps. -/
inductive MotorEvent (D : Type*)
  | updateEmergency (add clear : Reasons)
  | broadcast
  | inputUpdated
  | waitAny
  | getAndClearFlags
  | checkEmergency
  | checkInputs (add clear : Reasons)
  | mainBroadcast
  | receive (message : MotorMessage D)
  | lock (c : MotorServiceId) (call : Call) (now : Micros)
  | readReasons (c : MotorServiceId)
  | setDriverDuty (c : MotorServiceId)
  | setDutyReturns (c : MotorServiceId)
  | unlock (c : MotorServiceId) (now : Micros)
  | escCallback (now : Micros)
  | startOrStop (c : MotorServiceId)

/-- The steps of the emergency thread, and those of the main thread outside of the services. -/
def MotorEvent.IsSignal : MotorEvent D → Prop
  | .updateEmergency _ _ => True
  | .broadcast => True
  | .inputUpdated => True
  | .waitAny => True
  | .getAndClearFlags => True
  | .checkEmergency => True
  | .checkInputs _ _ => True
  | .mainBroadcast => True
  | _ => False

/-- What the machine is configured with: whether the robot has a mower motor, and the
constants of the twist conversion. -/
structure Robot (D : Type*) where
  needsMower : Bool
  drive : DriveConfig D

/-- `NeedsService` for the motor services. -/
def Robot.needsService (robot : Robot D) : MotorServiceId → Bool
  | .diffDrive => true
  | .mower => robot.needsMower

/-- What `DispatchEvents` does for a set of flags. -/
def dispatchTasks (robot : Robot D) (emergencyChanged inputsChanged : Bool) : List MainTask :=
  (if emergencyChanged then
    .checkEmergency .diffDrive ::
      (if robot.needsService .mower then [.checkEmergency .mower] else [])
   else []) ++ (if inputsChanged then [.checkInputs] else [])

/-- Every needed service is dispatched to when the flag is set. -/
theorem checkEmergency_mem_dispatchTasks {robot : Robot D} {c : MotorServiceId}
    {inputsChanged : Bool} (hneeds : robot.needsService c = true) :
    .checkEmergency c ∈ dispatchTasks robot true inputsChanged := by
  cases c with
  | diffDrive => simp [dispatchTasks]
  | mower => simp [dispatchTasks, hneeds]

/-- Only needed services are dispatched to. -/
theorem needed_of_mem_dispatchTasks {robot : Robot D} {c : MotorServiceId}
    {emergencyChanged inputsChanged : Bool}
    (h : .checkEmergency c ∈ dispatchTasks robot emergencyChanged inputsChanged ∨
      .stopMotors c ∈ dispatchTasks robot emergencyChanged inputsChanged) :
    robot.needsService c = true := by
  cases c with
  | diffDrive => rfl
  | mower =>
    cases hmower : robot.needsService .mower with
    | true => rfl
    | false =>
      cases emergencyChanged <;> cases inputsChanged <;> simp [dispatchTasks, hmower] at h

namespace MotorState

variable (s : MotorState ι D)

/-- The locked section of `UpdateEmergency`, with its history. -/
def writeReasons (add clear : Reasons) : MotorState ι D :=
  { s with
    emergency := s.emergency.updateEmergency add clear
    epoch := if s.emergency.reasons = 0#16 ∧ (s.emergency.updateEmergency add clear).reasons ≠ 0#16
      then s.epoch + 1 else s.epoch }

/-- A broadcast of `EMERGENCY_CHANGED`. -/
def signalEmergency : MotorState ι D := { s with emergencyChanged := true, eventPending := true }

/-- A service with its stage. -/
def setService (c : MotorServiceId) (service : MotorService D) (stage : Stage) :
    MotorState ι D :=
  { s with
    service := Function.update s.service c service
    stage := Function.update s.stage c stage }

variable [Zero D]

/-- The services as they are created, with the listener of the main thread registered. -/
def initial (emergency : EmergencyService ι) : MotorState ι D where
  emergency := emergency
  owed := 0
  emergencyChanged := false
  inputsChanged := false
  eventPending := false
  main := []
  service := fun _ => { duty := fun _ => 0 }
  stage := fun _ => .free
  waiting := fun _ => none
  lastDuty := fun _ => none
  epoch := if emergency.reasons = 0#16 then 0 else 1
  received := fun _ => 0

variable [One D] [Neg D] [Add D] [Sub D] [Mul D] [LE D] [DecidableLE D]

/-- A thread takes the mutex of a service and runs its method up to `SetDuty`. -/
def lock (robot : Robot D) (c : MotorServiceId) (now : Micros) : Call → Option (MotorState ι D)
  | .tick =>
    if robot.needsService c ∧ s.waiting c = none then
      some (s.setService c ((s.service c).beginTick c now)
        (.enter .tick (s.service c).dutySent))
    else none
  | .command =>
    if robot.needsService c then
      (s.waiting c).map fun message =>
        { s.setService c ((s.service c).takeCommand robot.drive message now)
            (.enter .command (s.service c).dutySent) with
          waiting := Function.update s.waiting c none }
    else none
  | .emergency =>
    if s.main.head? = some (.stopMotors c) then
      some (s.setService c (s.service c).zeroDuty (.beforeSetDuty .emergency))
    else none

/-- What a method does after `SetDuty`; then it gives the mutex back. -/
def unlock (c : MotorServiceId) (now : Micros) : Call → MotorState ι D
  | .tick => s.setService c ((s.service c).endTick c now) .free
  | .command => s.setService c (s.service c) .free
  | .emergency => { s.setService c (s.service c) .free with main := s.main.tail }

/-- One atomic step. -/
def step (robot : Robot D) : MotorEvent D → Option (MotorState ι D)
  | .updateEmergency add clear =>
    if s.emergency.notifies add clear then
      some { s.writeReasons add clear with owed := s.owed + 1 }
    else some s
  | .broadcast =>
    if 0 < s.owed then some { s.signalEmergency with owed := s.owed - 1 } else none
  | .inputUpdated => some { s with inputsChanged := true, eventPending := true }
  | .waitAny =>
    if s.main = [] ∧ s.eventPending then
      some { s with eventPending := false, main := [.getFlags] }
    else none
  | .getAndClearFlags =>
    if s.main.head? = some .getFlags then
      some { s with
        emergencyChanged := false
        inputsChanged := false
        main := dispatchTasks robot s.emergencyChanged s.inputsChanged ++ s.main.tail }
    else none
  | .checkEmergency =>
    match s.main with
    | .checkEmergency c :: rest =>
      -- only a present emergency stops the motors, not one that has been cleared
      if s.emergency.reasons = 0#16 then some { s with main := rest }
      else some { s with main := .stopMotors c :: rest }
    | _ => none
  | .checkInputs add clear =>
    if s.main.head? = some .checkInputs then
      if s.emergency.notifies add clear then
        some { s.writeReasons add clear with main := .broadcast :: s.main.tail }
      else some { s with main := s.main.tail }
    else none
  | .mainBroadcast =>
    if s.main.head? = some .broadcast then
      some { s.signalEmergency with main := s.main.tail }
    else none
  | .receive message =>
    let c := message.service
    if robot.needsService c ∧ s.waiting c = none ∧ (s.stage c).ServiceIdle then
      if message.accepted then
        some { s with
          waiting := Function.update s.waiting c (some message)
          received := Function.update s.received c s.epoch }
      else some s
    else none
  | .lock c call now => if s.stage c = .free then s.lock robot c now call else none
  | .readReasons c =>
    match s.stage c with
    | .beforeSetDuty call =>
      some (s.setService c (s.service c)
        (.sending call (decide (s.emergency.getReasons ≠ 0#16)) s.epoch c.drivers))
    | _ => none
  | .setDriverDuty c =>
    match s.stage c with
    | .sending call emergency epoch (d :: rest) =>
      some { s.setService c (s.service c) (.sending call emergency epoch rest) with
        lastDuty := Function.update s.lastDuty d (some ((s.service c).dutyFor emergency d)) }
    | _ => none
  | .setDutyReturns c =>
    match s.stage c with
    | .sending call _ _ [] =>
      some (s.setService c { s.service c with dutySent := true } (.afterSetDuty call))
    | _ => none
  | .unlock c now =>
    match s.stage c with
    | .afterSetDuty call => some (s.unlock c now call)
    | _ => none
  | .escCallback now =>
    some (s.setService .mower ((s.service .mower).escCallback now) (s.stage .mower))
  | .startOrStop c =>
    if robot.needsService c ∧ s.waiting c = none ∧ (s.stage c).ServiceIdle then
      some (s.setService c (s.service c).zeroDuty (s.stage c))
    else none

variable {s} {s' : MotorState ι D} {robot : Robot D} {c : MotorServiceId}

/-- A signal changes the reasons, the flags and the tasks of the main thread, at most. -/
theorem step_signal {e : MotorEvent D} (he : e.IsSignal) (hs : s.step robot e = some s') :
    ∃ s₁ owed emergencyChanged inputsChanged eventPending main,
      (s₁ = s ∨ ∃ add clear, s₁ = s.writeReasons add clear) ∧
      s' = { s₁ with
        owed := owed
        emergencyChanged := emergencyChanged
        inputsChanged := inputsChanged
        eventPending := eventPending
        main := main } := by
  cases e with
  | updateEmergency add clear =>
    rw [step] at hs
    split at hs
    · obtain rfl := Option.some.inj hs
      exact ⟨_, _, _, _, _, _, .inr ⟨add, clear, rfl⟩, rfl⟩
    · obtain rfl := Option.some.inj hs
      exact ⟨_, _, _, _, _, _, .inl rfl, rfl⟩
  | broadcast | waitAny | getAndClearFlags | mainBroadcast =>
    obtain ⟨-, hnext⟩ := Option.ite_none_right_eq_some.mp hs
    obtain rfl := Option.some.inj hnext
    exact ⟨_, _, _, _, _, _, .inl rfl, rfl⟩
  | inputUpdated =>
    obtain rfl := Option.some.inj hs
    exact ⟨_, _, _, _, _, _, .inl rfl, rfl⟩
  | checkEmergency =>
    simp only [step] at hs
    split at hs
    · split at hs
      · obtain rfl := Option.some.inj hs
        exact ⟨_, _, _, _, _, _, .inl rfl, rfl⟩
      · obtain rfl := Option.some.inj hs
        exact ⟨_, _, _, _, _, _, .inl rfl, rfl⟩
    · cases hs
  | checkInputs add clear =>
    obtain ⟨-, hnext⟩ := Option.ite_none_right_eq_some.mp hs
    split at hnext
    · obtain rfl := Option.some.inj hnext
      exact ⟨_, _, _, _, _, _, .inr ⟨add, clear, rfl⟩, rfl⟩
    · obtain rfl := Option.some.inj hnext
      exact ⟨_, _, _, _, _, _, .inl rfl, rfl⟩
  | _ => exact he.elim

/-! ### What the steps of a method do -/

theorem readReasons_eq_some (h : s.step robot (.readReasons c) = some s') :
    ∃ call, s.stage c = .beforeSetDuty call ∧
      s' = s.setService c (s.service c)
        (.sending call (decide (s.emergency.getReasons ≠ 0#16)) s.epoch c.drivers) := by
  simp only [step] at h
  split at h
  · next call hstage => exact ⟨call, hstage, (Option.some.inj h).symm⟩
  · exact absurd h (by simp)

theorem setDriverDuty_eq_some (h : s.step robot (.setDriverDuty c) = some s') :
    ∃ call emergency epoch d rest, s.stage c = .sending call emergency epoch (d :: rest) ∧
      s' = { s.setService c (s.service c) (.sending call emergency epoch rest) with
        lastDuty := Function.update s.lastDuty d (some ((s.service c).dutyFor emergency d)) } := by
  simp only [step] at h
  split at h
  · next call emergency epoch d rest hstage =>
    exact ⟨call, emergency, epoch, d, rest, hstage, (Option.some.inj h).symm⟩
  · exact absurd h (by simp)

theorem setDutyReturns_eq_some (h : s.step robot (.setDutyReturns c) = some s') :
    ∃ call emergency epoch, s.stage c = .sending call emergency epoch [] ∧
      s' = s.setService c { s.service c with dutySent := true } (.afterSetDuty call) := by
  simp only [step] at h
  split at h
  · next call emergency epoch hstage =>
    exact ⟨call, emergency, epoch, hstage, (Option.some.inj h).symm⟩
  · exact absurd h (by simp)

theorem unlock_eq_some {now : Micros} (h : s.step robot (.unlock c now) = some s') :
    ∃ call, s.stage c = .afterSetDuty call ∧ s' = s.unlock c now call := by
  simp only [step] at h
  split at h
  · next call hstage => exact ⟨call, hstage, (Option.some.inj h).symm⟩
  · exact absurd h (by simp)

end MotorState

end OpenMower
