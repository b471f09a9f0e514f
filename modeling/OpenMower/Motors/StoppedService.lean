import OpenMower.Motors.Stop
import Mathlib.Algebra.Order.Ring.Rat
import Mathlib.Tactic.NormNum

/-!
# Stopped services

The threads of `Motors.System` with the status of each service, which the framework changes in
`OnStart` and `OnStop`, and ticks only of running services. A driver repeats its last duty by
itself, so the motors of a stopped service should have got 0 (`StoppedMotorsOff`).

`OnStop` zeroes the stored duty, but it does not send it, and no tick follows that would. A
command that comes later is sent as if the service were running. `stopped_service_motors_off`
shows that nothing else leaves a motor of a stopped service on.
-/

namespace OpenMower

variable {ι D : Type*}

theorem Stage.eq_free {stage : Stage} (h : stage.call? = none) : stage = .free := by
  cases stage with
  | free => rfl
  | beforeSetDuty | sending | afterSetDuty => simp [Stage.call?] at h

/-- What the framework has last done with a service. -/
inductive ServiceStatus
  | created
  | running
  | stopped
  deriving DecidableEq, Repr

/-- The service whose method a step belongs to. -/
def MotorEvent.method : MotorEvent D → Option MotorServiceId
  | .lock c _ _ => some c
  | .readReasons c => some c
  | .setDriverDuty c => some c
  | .setDutyReturns c => some c
  | .unlock c _ => some c
  | _ => none

/-- The threads and the status of each service. -/
structure StatusState (ι D : Type*) where
  motors : MotorState ι D
  status : MotorServiceId → ServiceStatus

/-- The steps of the threads, with `OnStart` and `OnStop` told apart. -/
inductive StatusEvent (D : Type*)
  | motor (e : MotorEvent D)
  | onStart (c : MotorServiceId)
  | onStop (c : MotorServiceId)

namespace StatusState

variable (s : StatusState ι D)

/-- A service with its new status. -/
def setStatus (c : MotorServiceId) (status : ServiceStatus) (motors : MotorState ι D) :
    StatusState ι D :=
  { motors := motors, status := Function.update s.status c status }

/-- The steps of the threads that may happen: a tick only while the service is running. -/
def allowed : MotorEvent D → Bool
  | .lock c .tick _ => s.status c = .running
  | .startOrStop _ => false
  | _ => true

variable [Zero D] [One D] [Neg D] [Add D] [Sub D] [Mul D] [LE D] [DecidableLE D]

/-- One atomic step. -/
def step (robot : Robot D) : StatusEvent D → Option (StatusState ι D)
  | .motor e =>
    if s.allowed e then (s.motors.step robot e).map fun motors => { s with motors := motors }
    else none
  | .onStart c => (s.motors.step robot (.startOrStop c)).map (s.setStatus c .running)
  | .onStop c => (s.motors.step robot (.startOrStop c)).map (s.setStatus c .stopped)

omit [One D] [Neg D] [Add D] [Sub D] [Mul D] [LE D] [DecidableLE D]

/-- No driver of the service has got a duty other than 0. -/
def MotorsOff (c : MotorServiceId) : Prop :=
  ∀ d, d.service = c → s.motors.lastDuty d = none ∨ s.motors.lastDuty d = some 0

/-- A stopped service none of whose methods is mid-way has its motors off. -/
def StoppedMotorsOff : Prop :=
  ∀ c, s.status c = .stopped → s.motors.stage c = .free → s.MotorsOff c

/-- `OnStop` finds the motors off, unless the main thread is stopping them. A command that is
sent while the service is stopped finds an emergency, or asks for 0. -/
def StopsMotors (s : StatusState ι D) (e : StatusEvent D) (_ : StatusState ι D) : Prop :=
  (∀ c, e = .onStop c → s.motors.stage c = .free → s.MotorsOff c) ∧
  (∀ c, e = .motor (.readReasons c) → s.status c = .stopped →
    s.motors.stage c = .beforeSetDuty .command →
      s.motors.emergency.reasons ≠ 0#16 ∨ ∀ d, (s.motors.service c).duty d = 0)

/-- The invariant of a stopped service: it does not tick, its motors are off unless the main
thread is stopping them, and a command does not switch them on. -/
structure StopInv (s : StatusState ι D) (c : MotorServiceId) : Prop where
  notTick : (s.motors.stage c).call? ≠ some .tick
  off : (s.motors.stage c).call? ≠ some .emergency → s.MotorsOff c
  sending : ∀ emergency epoch rest,
    s.motors.stage c = .sending .command emergency epoch rest →
      emergency = true ∨ ∀ d, (s.motors.service c).duty d = 0

variable {robot : Robot D} {s s' : StatusState ι D} {c : MotorServiceId}

/-- A step that does not touch the mutex of the service or its drivers, and sets no duty that
was 0. -/
theorem StopInv.frame (h : StopInv s c) (hstage : s'.motors.stage c = s.motors.stage c)
    (hlast : ∀ d, d.service = c → s'.motors.lastDuty d = s.motors.lastDuty d)
    (hduty : (∀ d, (s.motors.service c).duty d = 0) →
      ∀ d, (s'.motors.service c).duty d = 0) : StopInv s' c := by
  constructor
  · rw [hstage]
    exact h.notTick
  · rw [hstage]
    intro hcall d hd
    rw [hlast d hd]
    exact h.off hcall d hd
  · rw [hstage]
    intro emergency epoch rest hsending
    exact (h.sending emergency epoch rest hsending).imp_right hduty

/-- Outside the critical part of `SetDuty` and outside ticks it is enough that the motors are
off. -/
theorem StopInv.of_motorsOff (htick : (s.motors.stage c).call? ≠ some .tick)
    (hsending : (s.motors.stage c).IsSending = false)
    (hoff : (s.motors.stage c).call? ≠ some .emergency → s.MotorsOff c) : StopInv s c := by
  constructor
  · exact htick
  · exact hoff
  · intro emergency epoch rest hstage
    simp [hstage, Stage.IsSending] at hsending

section

variable [One D] [Neg D] [Add D] [Sub D] [Mul D] [LE D] [DecidableLE D]

/-- **Frame.** A step of another thread leaves the mutex of the service and its drivers alone,
and sets no duty that was 0. -/
theorem motors_frame {e : MotorEvent D} {m m' : MotorState ι D} (hs : m.step robot e = some m')
    (hrest : ∀ c, MotorState.ServiceInv robot m c) (he : e.method ≠ some c) :
    m'.stage c = m.stage c ∧ (∀ d, d.service = c → m'.lastDuty d = m.lastDuty d) ∧
      ((∀ d, (m.service c).duty d = 0) → ∀ d, (m'.service c).duty d = 0) := by
  by_cases hsignal : e.IsSignal
  · obtain ⟨m₁, _, _, _, _, _, hm₁, rfl⟩ := MotorState.step_signal hsignal hs
    rcases hm₁ with rfl | ⟨add, clear, rfl⟩
    · exact ⟨rfl, fun _ _ => rfl, id⟩
    · exact ⟨rfl, fun _ _ => rfl, id⟩
  cases e with
  | receive message =>
    simp only [MotorState.step, Option.ite_none_right_eq_some] at hs
    obtain ⟨-, hs⟩ := hs
    split at hs <;> obtain rfl := Option.some.inj hs <;> exact ⟨rfl, fun _ _ => rfl, id⟩
  | lock c₀ call now =>
    have hne : c ≠ c₀ := fun heq => he (by rw [heq]; rfl)
    simp only [MotorState.step, Option.ite_none_right_eq_some] at hs
    obtain ⟨-, hs⟩ := hs
    cases call with
    | tick | emergency =>
      simp only [MotorState.lock, Option.ite_none_right_eq_some, Option.some.injEq] at hs
      obtain ⟨-, rfl⟩ := hs
      simp [MotorState.setService, Function.update_of_ne hne]
    | command =>
      simp only [MotorState.lock, Option.ite_none_right_eq_some, Option.map_eq_some_iff] at hs
      obtain ⟨-, message, -, rfl⟩ := hs
      simp [MotorState.setService, Function.update_of_ne hne]
  | readReasons c₀ =>
    have hne : c ≠ c₀ := fun heq => he (by rw [heq]; rfl)
    obtain ⟨call, -, rfl⟩ := MotorState.readReasons_eq_some hs
    simp [MotorState.setService, Function.update_of_ne hne]
  | setDriverDuty c₀ =>
    have hne : c ≠ c₀ := fun heq => he (by rw [heq]; rfl)
    obtain ⟨call, emergency, epoch, d₀, rest, hstage, rfl⟩ := MotorState.setDriverDuty_eq_some hs
    have hd₀ : d₀.service = c₀ := (hrest c₀).rest _ _ _ _ hstage d₀ (by simp)
    refine ⟨Function.update_of_ne hne _ _, fun d hd => Function.update_of_ne ?_ _ _, ?_⟩
    · rintro rfl
      exact hne (hd.symm.trans hd₀)
    · simp [MotorState.setService]
  | setDutyReturns c₀ =>
    have hne : c ≠ c₀ := fun heq => he (by rw [heq]; rfl)
    obtain ⟨call, emergency, epoch, -, rfl⟩ := MotorState.setDutyReturns_eq_some hs
    simp [MotorState.setService, Function.update_of_ne hne]
  | unlock c₀ now =>
    have hne : c ≠ c₀ := fun heq => he (by rw [heq]; rfl)
    obtain ⟨call, -, rfl⟩ := MotorState.unlock_eq_some hs
    cases call <;> exact ⟨Function.update_of_ne hne _ _, fun _ _ => rfl,
      by simp [MotorState.unlock, MotorState.setService, Function.update_of_ne hne]⟩
  | escCallback now =>
    obtain rfl := Option.some.inj hs
    by_cases hc : c = .mower
    · subst hc
      simp [MotorState.setService, MotorService.escCallback]
    · simp [MotorState.setService, Function.update_of_ne hc]
  | startOrStop c₀ =>
    simp only [MotorState.step, Option.ite_none_right_eq_some, Option.some.injEq] at hs
    obtain ⟨-, rfl⟩ := hs
    by_cases hc : c = c₀
    · subst hc
      simp [MotorState.setService]
    · simp [MotorState.setService, Function.update_of_ne hc]
  | _ => exact absurd trivial hsignal

/-- A stopped service takes its mutex for a command, or the main thread does. -/
theorem StopInv.lock {call : Call} {now : Micros} {m' : MotorState ι D} (h : StopInv s c)
    (hstopped : s.status c = .stopped) (hallowed : s.allowed (.lock c call now) = true)
    (hs : s.motors.step robot (.lock c call now) = some m') :
    StopInv { s with motors := m' } c := by
  simp only [MotorState.step, Option.ite_none_right_eq_some] at hs
  obtain ⟨hfree, hs⟩ := hs
  have hoff : s.MotorsOff c := h.off (by simp [hfree, Stage.call?])
  cases call with
  | tick => simp [allowed, hstopped] at hallowed
  | command =>
    simp only [MotorState.lock, Option.ite_none_right_eq_some, Option.map_eq_some_iff] at hs
    obtain ⟨-, message, -, rfl⟩ := hs
    refine StopInv.of_motorsOff ?_ ?_ fun _ => hoff <;>
      cases (s.motors.service c).dutySent <;>
        simp [MotorState.setService, Stage.enter, Stage.IsSending, Stage.call?]
  | emergency =>
    simp only [MotorState.lock, Option.ite_none_right_eq_some, Option.some.injEq] at hs
    obtain ⟨-, rfl⟩ := hs
    refine StopInv.of_motorsOff ?_ ?_ fun _ => hoff <;>
      simp [MotorState.setService, Stage.IsSending, Stage.call?]

/-- `SetDuty` of a stopped service reads the reasons: this is where a command has to find an
emergency, or ask for 0. -/
theorem StopInv.readReasons {m' : MotorState ι D} (h : StopInv s c)
    (hquiet : s.motors.stage c = .beforeSetDuty .command →
      s.motors.emergency.reasons ≠ 0#16 ∨ ∀ d, (s.motors.service c).duty d = 0)
    (hs : s.motors.step robot (.readReasons c) = some m') :
    StopInv { s with motors := m' } c := by
  obtain ⟨call, hstage, rfl⟩ := MotorState.readReasons_eq_some hs
  constructor
  · simpa [hstage, MotorState.setService, Stage.call?] using h.notTick
  · simpa [hstage, MotorState.setService, Stage.call?, MotorsOff] using h.off
  · intro emergency epoch rest hsending
    simp only [MotorState.setService, Function.update_self, Stage.sending.injEq] at hsending ⊢
    obtain ⟨rfl, rfl, -, -⟩ := hsending
    exact (hquiet hstage).imp_left decide_eq_true

/-- `SetDuty` of a stopped service passes 0 to a driver. -/
theorem StopInv.setDriverDuty {m' : MotorState ι D} (h : StopInv s c)
    (hs : s.motors.step robot (.setDriverDuty c) = some m') :
    StopInv { s with motors := m' } c := by
  obtain ⟨call, emergency, epoch, d₀, rest, hstage, rfl⟩ := MotorState.setDriverDuty_eq_some hs
  constructor
  · simpa [hstage, MotorState.setService, Stage.call?] using h.notTick
  · intro hcall d hd
    have hcommand : call = .command := by
      have hnot := h.notTick
      simp only [MotorState.setService, Function.update_self, Stage.call?] at hcall
      simp only [hstage, Stage.call?] at hnot
      cases call <;> simp_all
    subst hcommand
    by_cases heq : d = d₀
    · subst heq
      have hzero : (s.motors.service c).dutyFor emergency d = 0 := by
        rcases h.sending _ _ _ hstage with rfl | hduty
        · rfl
        · cases emergency <;> simp [hduty]
      exact .inr (by simp [hzero])
    · have hoff := h.off (by simp [hstage, Stage.call?]) d hd
      simpa [Function.update_of_ne heq] using hoff
  · intro emergency' epoch' rest' hsending
    simp only [MotorState.setService, Function.update_self, Stage.sending.injEq] at hsending ⊢
    obtain ⟨rfl, rfl, -, -⟩ := hsending
    exact h.sending _ _ _ hstage

theorem StopInv.setDutyReturns {m' : MotorState ι D} (h : StopInv s c)
    (hs : s.motors.step robot (.setDutyReturns c) = some m') :
    StopInv { s with motors := m' } c := by
  obtain ⟨call, emergency, epoch, hstage, rfl⟩ := MotorState.setDutyReturns_eq_some hs
  refine StopInv.of_motorsOff ?_ ?_ ?_
  · simpa [hstage, MotorState.setService, Stage.call?] using h.notTick
  · simp [MotorState.setService, Stage.IsSending]
  · simpa [hstage, MotorState.setService, Stage.call?, MotorsOff] using h.off

/-- A method returns: if it was the handler of the main thread, it has passed 0 to all drivers. -/
theorem StopInv.unlock {now : Micros} {m' : MotorState ι D} (h : StopInv s c)
    (hservice : MotorState.ServiceInv robot s.motors c)
    (hs : s.motors.step robot (.unlock c now) = some m') :
    StopInv { s with motors := m' } c := by
  obtain ⟨call, hstage, rfl⟩ := MotorState.unlock_eq_some hs
  have hoff : s.MotorsOff c := by
    cases call with
    | tick | command => exact h.off (by simp [hstage, Stage.call?])
    | emergency => exact fun d hd => .inr (hservice.handled.2 hstage d hd)
  refine StopInv.of_motorsOff ?_ ?_ fun _ => ?_
  · cases call <;> simp [MotorState.unlock, MotorState.setService, Stage.call?]
  · cases call <;> simp [MotorState.unlock, MotorState.setService, Stage.IsSending]
  · cases call <;> exact hoff

/-- `OnStop`, which the service thread calls while it is in none of its other methods: the motors
are off, or the main thread is stopping them. -/
theorem StopInv.onStop {m' : MotorState ι D} (h : ∀ c, MotorState.ServiceInv robot s.motors c)
    (hs : s.motors.step robot (.startOrStop c) = some m')
    (hoff : s.motors.stage c = .free → s.MotorsOff c) :
    StopInv (s.setStatus c .stopped m') c := by
  have hnone : MotorEvent.method (.startOrStop c : MotorEvent D) ≠ some c := by
    simp [MotorEvent.method]
  obtain ⟨hstage, hlast, -⟩ := motors_frame hs h hnone
  simp only [MotorState.step, Option.ite_none_right_eq_some] at hs
  obtain ⟨⟨-, -, hidle⟩, -⟩ := hs
  constructor
  · change (m'.stage c).call? ≠ _
    rw [hstage]
    rintro hcall
    simp [Stage.ServiceIdle, hcall] at hidle
  · change (m'.stage c).call? ≠ _ → _
    rw [hstage]
    intro hcall d hd
    have hfree : s.motors.stage c = .free := Stage.eq_free (hidle.resolve_right hcall)
    change m'.lastDuty d = none ∨ m'.lastDuty d = some 0
    rw [hlast d hd]
    exact hoff hfree d hd
  · change ∀ emergency epoch rest, m'.stage c = _ → _
    rw [hstage]
    intro emergency epoch rest hsending
    simp [Stage.ServiceIdle, hsending, Stage.call?] at hidle

/-- The invariants of the services, and of those that are stopped. -/
structure StatusInv (robot : Robot D) (s : StatusState ι D) : Prop where
  services : ∀ c, MotorState.ServiceInv robot s.motors c
  stopped : ∀ c, s.status c = .stopped → StopInv s c

/-- A step of the threads. -/
theorem StatusInv.motor (h : StatusInv robot s) {e : MotorEvent D} {m' : MotorState ι D}
    (hallowed : s.allowed e = true) (hs : s.motors.step robot e = some m')
    (hquiet : ∀ c, e = .readReasons c → s.status c = .stopped →
      s.motors.stage c = .beforeSetDuty .command →
        s.motors.emergency.reasons ≠ 0#16 ∨ ∀ d, (s.motors.service c).duty d = 0) :
    StatusInv robot { s with motors := m' } := by
  refine ⟨MotorState.ServiceInv.step h.services hs, fun c hstopped => ?_⟩
  have hinv : StopInv s c := h.stopped c hstopped
  by_cases he : e.method = some c
  · cases e with
    | lock c₀ call now =>
      obtain rfl : c₀ = c := Option.some.inj he
      exact hinv.lock hstopped hallowed hs
    | readReasons c₀ =>
      obtain rfl : c₀ = c := Option.some.inj he
      exact hinv.readReasons (hquiet c₀ rfl hstopped) hs
    | setDriverDuty c₀ =>
      obtain rfl : c₀ = c := Option.some.inj he
      exact hinv.setDriverDuty hs
    | setDutyReturns c₀ =>
      obtain rfl : c₀ = c := Option.some.inj he
      exact hinv.setDutyReturns hs
    | unlock c₀ now =>
      obtain rfl : c₀ = c := Option.some.inj he
      exact hinv.unlock (h.services c₀) hs
    | _ => simp [MotorEvent.method] at he
  · obtain ⟨hstage, hlast, hduty⟩ := motors_frame hs h.services he
    exact hinv.frame hstage hlast hduty

/-- `OnStart` and `OnStop` keep the invariants of the other services. -/
theorem StatusInv.setStatus (h : StatusInv robot s) {c : MotorServiceId} {status : ServiceStatus}
    {m' : MotorState ι D} (hs : s.motors.step robot (.startOrStop c) = some m')
    (hstop : status = .stopped → StopInv (s.setStatus c status m') c) :
    StatusInv robot (s.setStatus c status m') := by
  refine ⟨MotorState.ServiceInv.step h.services hs, fun c' hstopped => ?_⟩
  by_cases hc : c' = c
  · subst hc
    exact hstop (by simpa [StatusState.setStatus] using hstopped)
  · have hold : s.status c' = .stopped := by
      simpa [StatusState.setStatus, Function.update_of_ne hc] using hstopped
    have hnone : MotorEvent.method (.startOrStop c : MotorEvent D) ≠ some c' := by
      simp [MotorEvent.method]
    obtain ⟨hstage, hlast, hduty⟩ := motors_frame hs h.services hnone
    exact (h.stopped c' hold).frame hstage hlast hduty

/-- **Every step that stops the motors keeps the invariant.** -/
theorem StatusInv.step (h : StatusInv robot s) {e : StatusEvent D}
    (hs : s.step robot e = some s') (hstops : StopsMotors s e s') : StatusInv robot s' := by
  cases e with
  | motor e =>
    simp only [StatusState.step, Option.ite_none_right_eq_some, Option.map_eq_some_iff] at hs
    obtain ⟨hallowed, m', hs, rfl⟩ := hs
    exact h.motor hallowed hs fun c hc => hstops.2 c (by rw [hc])
  | onStart c =>
    simp only [StatusState.step, Option.map_eq_some_iff] at hs
    obtain ⟨m', hs, rfl⟩ := hs
    exact h.setStatus hs (by simp)
  | onStop c =>
    simp only [StatusState.step, Option.map_eq_some_iff] at hs
    obtain ⟨m', hs, rfl⟩ := hs
    exact h.setStatus hs fun _ => StopInv.onStop h.services hs (hstops.1 c rfl)

end

end StatusState

open StatusState

variable [Zero D] [One D] [Neg D] [Add D] [Sub D] [Mul D] [LE D] [DecidableLE D]

/-- The threads from the registration of the listener on. No service has been stopped before. -/
def statusSystem (ι : Type*) (robot : Robot D) :
    StateMachine (StatusState ι D) (StatusEvent D) where
  Init s := MotorState.Registered robot s.motors ∧ ∀ c, s.status c ≠ .stopped
  step s e := s.step robot e

/-- **A stopped service leaves its motors stopped.** In every run in which `OnStop` finds the
motors off, or the main thread stopping them, and in which no command switches them on while
the service is stopped, every stopped service none of whose methods is mid-way has its motors
off. -/
theorem stopped_service_motors_off {robot : Robot D} {s s' : StatusState ι D}
    (h : (statusSystem ι robot).Init s) {es : List (StatusEvent D)}
    (hr : (statusSystem ι robot).run s es = some s')
    (hstops : (statusSystem ι robot).EveryStep StopsMotors s es) : StoppedMotorsOff s' := by
  have hinit : StatusInv robot s := by
    obtain ⟨hregistered, hnot⟩ := h
    exact ⟨hregistered.serviceInv, fun c hstopped => absurd hstopped (hnot c)⟩
  have hinv : StatusInv robot s' :=
    hstops.invariant hr hinit fun s e s' hI hs hstops => hI.step hs hstops
  intro c hstopped hfree
  exact (hinv.stopped c hstopped).off (by simp [hfree, Stage.call?])

/-- The threads of a robot without a mower motor, with its diff drive service running. -/
def runningWheels : StatusState ℕ ℚ where
  motors := noEmergency
  status := fun _ => .running

/-- A command drives the wheels. -/
def driveRun : List (StatusEvent ℚ) :=
  [.motor (.receive (.controlTwist [1 / 4, 0, 0, 0, 0, 0])),
    .motor (.lock .diffDrive .command 0#32), .motor (.readReasons .diffDrive),
    .motor (.setDriverDuty .diffDrive), .motor (.setDriverDuty .diffDrive),
    .motor (.setDutyReturns .diffDrive), .motor (.unlock .diffDrive 0#32)]

theorem runningWheels_init : (statusSystem ℕ wheelsOnly).Init runningWheels := by
  refine ⟨⟨rfl, rfl, fun _ => rfl, fun _ => rfl, fun _ => ?_, fun _ _ => rfl⟩, fun _ => ?_⟩
  · simp [runningWheels, noEmergency, MotorState.initial, Stage.call?]
  · simp [runningWheels]

/-- When the service is stopped after this run, the wheels go on. -/
theorem stopped_service_motors_on :
    ∃ s, (statusSystem ℕ wheelsOnly).Init runningWheels ∧
      (statusSystem ℕ wheelsOnly).run runningWheels (driveRun ++ [.onStop .diffDrive]) = some s ∧
      ¬ StoppedMotorsOff s := by
  have hspeed : MotorMessage.limitSpeed ((1 / 4 : ℚ) - 1 / 2 * (1 / 2) * 0) ≠ 0 := by
    norm_num [MotorMessage.limitSpeed]
  refine ⟨_, runningWheels_init, rfl, fun hoff => ?_⟩
  rcases hoff .diffDrive rfl rfl .left rfl with hnone | hzero
  · exact Option.some_ne_none _ hnone
  · exact hspeed (Option.some.inj hzero)

/-- A service that is stopped before any command leaves its motors off. -/
theorem stopped_service_motors_off_onStop :
    ∃ s, (statusSystem ℕ wheelsOnly).run runningWheels [.onStop .diffDrive] = some s ∧
      StoppedMotorsOff s := by
  obtain ⟨s, hrun⟩ : ∃ s, (statusSystem ℕ wheelsOnly).run runningWheels [.onStop .diffDrive] =
      some s := ⟨_, rfl⟩
  refine ⟨s, hrun, stopped_service_motors_off runningWheels_init hrun fun s' _ => ⟨?_, trivial⟩⟩
  constructor
  · exact fun c _ _ d _ => .inl rfl
  · exact fun c hc => absurd hc (by simp)

end OpenMower
