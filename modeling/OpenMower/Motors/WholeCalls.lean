import OpenMower.Motors.Stop

/-!
# Whole calls of a motor service

The methods of a motor service without interruption: a tick, the handler of a command,
`OnEmergencyChangedEvent` and `ESCCallback`, with changes of the reasons between them.
`run_setDuty`, `run_tick` and `run_command` show that these calls are runs of the threads of
`Motors.System` in which nothing else happens.

`SetDuty` is called at most once between two ticks, so what a driver has got can be out of date
at the end of a tick: when the duty or the reasons have changed since that call, or when the
tick changes the duty itself. `tick_leaves_command_iff` is the exact condition.
-/

namespace OpenMower

variable {ι D : Type*}

/-- The state of a service between two calls. The history is what `SetDuty` found when it was
last called: whether there was an emergency, and the stored duties. -/
structure CallState (D : Type*) where
  service : MotorService D
  reasons : Reasons
  lastDuty : MotorDriver → Option D
  sentEmergency : Bool
  sentDuty : MotorDriver → D

/-- The calls, and a change of the reasons between two of them. A tick reads the clock before
and after `SetDuty`. -/
inductive CallEvent (D : Type*)
  | tick (now later : Micros)
  | command (message : MotorMessage D) (now : Micros)
  | emergencyChangedEvent
  | escCallback (now : Micros)
  | setReasons (reasons : Reasons)

namespace MotorService

variable (s : MotorService D)

/-- The last command is too old. -/
def CommandTimedOut (c : MotorServiceId) (now : Micros) : Prop :=
  c.dutyTimeout < now - s.lastDutyReceivedMicros

/-- The service drops its duty because there is no recent ESC data. -/
def EscTimedOut (c : MotorServiceId) (now : Micros) : Prop :=
  c.needsEscState ∧ (1000000#32 < now - s.lastValidEscStateMicros ∨ s.escStateValid = false)

instance (c : MotorServiceId) (now : Micros) : Decidable (s.CommandTimedOut c now) :=
  inferInstanceAs (Decidable (_ < _))

instance (c : MotorServiceId) (now : Micros) : Decidable (s.EscTimedOut c now) :=
  inferInstanceAs (Decidable (_ ∧ _))

variable [Zero D] {s}

theorem beginTick_duty_eq (c : MotorServiceId) (now : Micros) (d : MotorDriver) :
    (s.beginTick c now).duty d = if s.CommandTimedOut c now then 0 else s.duty d := by
  have hbegin : s.beginTick c now = if s.CommandTimedOut c now then s.zeroDuty else s := rfl
  rw [hbegin]
  split_ifs
  · rfl
  · rfl

theorem endTick_duty_eq (c : MotorServiceId) (now : Micros) (d : MotorDriver) :
    (s.endTick c now).duty d = if s.EscTimedOut c now then 0 else s.duty d := by
  have hend : (s.endTick c now).duty = (if s.EscTimedOut c now then s.zeroDuty else s).duty := rfl
  rw [hend]
  split_ifs
  · rfl
  · rfl

/-- The first part of a tick only touches the duty. -/
theorem beginTick_eq (c : MotorServiceId) (now : Micros) :
    s.beginTick c now = { s with duty := (s.beginTick c now).duty } := by
  rw [beginTick]
  split_ifs
  · rfl
  · rfl

theorem beginTick_dutySent (c : MotorServiceId) (now : Micros) :
    (s.beginTick c now).dutySent = s.dutySent := by
  rw [beginTick_eq]

theorem escTimedOut_beginTick {c : MotorServiceId} {now later : Micros} :
    (s.beginTick c now).EscTimedOut c later ↔ s.EscTimedOut c later := by
  rw [beginTick_eq]
  exact Iff.rfl

end MotorService

namespace CallState

variable [Zero D] (s : CallState D)

/-- What `SetDuty` passes to the drivers, one after the other. -/
def driversAfter (service : MotorService D) (emergency : Bool)
    (lastDuty : MotorDriver → Option D) (rest : List MotorDriver) : MotorDriver → Option D :=
  rest.foldl (fun last d => Function.update last d (some (service.dutyFor emergency d))) lastDuty

/-- `SetDuty`. -/
def setDuty (c : MotorServiceId) : CallState D :=
  let emergency := decide (s.reasons ≠ 0#16)
  { s with
    service := { s.service with dutySent := true }
    lastDuty := driversAfter s.service emergency s.lastDuty c.drivers
    sentEmergency := emergency
    sentDuty := s.service.duty }

/-- `if (!duty_sent_) SetDuty()`. -/
def setDutyUnlessSent (c : MotorServiceId) : CallState D :=
  if s.service.dutySent then s else s.setDuty c

/-- `tick`. -/
def tick (c : MotorServiceId) (now later : Micros) : CallState D :=
  let s' := { s with service := s.service.beginTick c now }.setDutyUnlessSent c
  { s' with service := s'.service.endTick c later }

/-- `OnEmergencyChangedEvent`. -/
def onEmergencyChangedEvent (c : MotorServiceId) : CallState D :=
  if s.reasons = 0#16 then s else { s with service := s.service.zeroDuty }.setDuty c

variable [One D] [Neg D] [Add D] [Sub D] [Mul D] [LE D] [DecidableLE D]

/-- `OnControlTwistChanged` and `OnMowerEnabledChanged`. -/
def onCommand (config : DriveConfig D) (c : MotorServiceId) (message : MotorMessage D)
    (now : Micros) : CallState D :=
  if message.accepted then
    { s with service := s.service.takeCommand config message now }.setDutyUnlessSent c
  else s

/-- One call of a service, or a change of the reasons. -/
def step (config : DriveConfig D) (c : MotorServiceId) : CallEvent D → Option (CallState D)
  | .tick now later => some (s.tick c now later)
  | .command message now =>
    if message.service = c then some (s.onCommand config c message now) else none
  | .emergencyChangedEvent => some (s.onEmergencyChangedEvent c)
  | .escCallback now =>
    if c = .mower then some { s with service := s.service.escCallback now } else none
  | .setReasons reasons => some { s with reasons := reasons }

/-! ### Ticks -/

omit [One D] [Neg D] [Add D] [Sub D] [Mul D] [LE D] [DecidableLE D]

/-- At the end of a tick each driver of the service has got 0 if there is an emergency, and the
stored duty otherwise. -/
def LeavesCommand (c : MotorServiceId) (_ : CallState D) (e : CallEvent D) (s' : CallState D) :
    Prop :=
  ∀ now later, e = .tick now later → ∀ d, d.service = c →
    s'.lastDuty d = some (if s'.reasons ≠ 0#16 then 0 else s'.service.duty d)

/-- When a tick begins with `duty_sent_` set, what the last `SetDuty` found asks for the same
duties as the reasons and the stored duties do now, timeouts included. When it begins with the
flag clear, it does not have to drop a duty for lack of ESC data. -/
def NothingMissed (c : MotorServiceId) (s : CallState D) (e : CallEvent D) (_ : CallState D) :
    Prop :=
  ∀ now later, e = .tick now later → ∀ d, d.service = c →
    if s.service.dutySent then
      (if s.sentEmergency then 0 else s.sentDuty d) =
        if s.reasons ≠ 0#16 ∨ s.service.CommandTimedOut c now ∨ s.service.EscTimedOut c later
        then 0 else s.service.duty d
    else s.reasons = 0#16 → s.service.EscTimedOut c later → ¬ s.service.CommandTimedOut c now →
      s.service.duty d = 0

/-- While `duty_sent_` is set, the drivers have got what the last `SetDuty` found. -/
def SentInv (c : MotorServiceId) (s : CallState D) : Prop :=
  s.service.dutySent = true → ∀ d, d.service = c →
    s.lastDuty d = some (if s.sentEmergency then 0 else s.sentDuty d)

variable {s} {c : MotorServiceId}

theorem driversAfter_of_not_mem {service : MotorService D} {emergency : Bool}
    {lastDuty : MotorDriver → Option D} {rest : List MotorDriver} {d : MotorDriver}
    (hd : d ∉ rest) : driversAfter service emergency lastDuty rest d = lastDuty d := by
  induction rest generalizing lastDuty with
  | nil => rfl
  | cons d' rest ih =>
    obtain ⟨hne, hrest⟩ := not_or.mp (mt List.mem_cons.mpr hd)
    rw [driversAfter, List.foldl_cons]
    exact (ih hrest).trans (Function.update_of_ne hne _ _)

theorem driversAfter_of_mem {service : MotorService D} {emergency : Bool}
    {lastDuty : MotorDriver → Option D} {rest : List MotorDriver} {d : MotorDriver}
    (hd : d ∈ rest) :
    driversAfter service emergency lastDuty rest d = some (service.dutyFor emergency d) := by
  induction rest generalizing lastDuty with
  | nil => exact absurd hd List.not_mem_nil
  | cons d' rest ih =>
    rw [driversAfter, List.foldl_cons]
    by_cases hrest : d ∈ rest
    · exact ih hrest
    · obtain rfl : d = d' := (List.mem_cons.mp hd).resolve_right hrest
      exact (driversAfter_of_not_mem hrest).trans (Function.update_self _ _ _)

/-- After `SetDuty` the drivers have got what the reasons and the stored duties ask for. -/
theorem setDuty_lastDuty {d : MotorDriver} (hd : d.service = c) :
    (s.setDuty c).lastDuty d = some (if s.reasons ≠ 0#16 then 0 else s.service.duty d) := by
  have hpassed : (s.setDuty c).lastDuty d =
      some (s.service.dutyFor (decide (s.reasons ≠ 0#16)) d) :=
    driversAfter_of_mem (MotorServiceId.mem_drivers.mpr hd)
  rw [hpassed, MotorService.dutyFor]
  simp only [decide_eq_true_eq]

theorem SentInv.setDuty (s : CallState D) : SentInv c (s.setDuty c) := by
  intro _ d hd
  rw [setDuty_lastDuty hd]
  simp [CallState.setDuty]

/-- A call that keeps the flag and the drivers keeps the invariant. -/
theorem SentInv.keep {s' : CallState D} (h : SentInv c s)
    (hsent : s'.service.dutySent = s.service.dutySent) (hlast : s'.lastDuty = s.lastDuty)
    (hem : s'.sentEmergency = s.sentEmergency) (hduty : s'.sentDuty = s.sentDuty) :
    SentInv c s' := by
  rw [SentInv, hsent, hlast, hem, hduty]
  exact h

theorem SentInv.setDutyUnlessSent (h : SentInv c s) : SentInv c (s.setDutyUnlessSent c) := by
  rw [CallState.setDutyUnlessSent]
  split_ifs
  · exact h
  · exact SentInv.setDuty s

theorem tick_dutySent (now later : Micros) :
    (s.tick c now later).service.dutySent = false := rfl

theorem setDutyUnlessSent_duty : (s.setDutyUnlessSent c).service.duty = s.service.duty := by
  rw [CallState.setDutyUnlessSent]
  split_ifs
  · rfl
  · rfl

theorem setDutyUnlessSent_reasons : (s.setDutyUnlessSent c).reasons = s.reasons := by
  rw [CallState.setDutyUnlessSent]
  split_ifs
  · rfl
  · rfl

theorem escTimedOut_setDutyUnlessSent {later : Micros} :
    (s.setDutyUnlessSent c).service.EscTimedOut c later ↔ s.service.EscTimedOut c later := by
  rw [CallState.setDutyUnlessSent]
  split_ifs
  · exact Iff.rfl
  · exact Iff.rfl

/-- The stored duty at the end of a tick. -/
theorem tick_duty (now later : Micros) (d : MotorDriver) :
    (s.tick c now later).service.duty d =
      if s.service.CommandTimedOut c now ∨ s.service.EscTimedOut c later then 0
      else s.service.duty d := by
  simp only [tick, MotorService.endTick_duty_eq, escTimedOut_setDutyUnlessSent,
    setDutyUnlessSent_duty, MotorService.escTimedOut_beginTick, MotorService.beginTick_duty_eq]
  by_cases hcommand : s.service.CommandTimedOut c now
  · simp [hcommand]
  · simp [hcommand]

theorem tick_reasons (now later : Micros) : (s.tick c now later).reasons = s.reasons := by
  simp only [tick, setDutyUnlessSent_reasons]

/-- A tick that begins with the flag set passes nothing to the drivers. -/
theorem tick_lastDuty_of_sent (hsent : s.service.dutySent = true) (now later : Micros) :
    (s.tick c now later).lastDuty = s.lastDuty := by
  simp [tick, setDutyUnlessSent, MotorService.beginTick_dutySent, hsent]

/-- A tick that begins with the flag clear passes on the duty from before its check of the ESC
data. -/
theorem tick_lastDuty_of_not_sent (hsent : s.service.dutySent = false) (now later : Micros)
    {d : MotorDriver} (hd : d.service = c) :
    (s.tick c now later).lastDuty d =
      some (if s.reasons ≠ 0#16 then 0
        else if s.service.CommandTimedOut c now then 0 else s.service.duty d) := by
  have hbegin : (s.service.beginTick c now).dutySent = false := by
    rw [MotorService.beginTick_dutySent, hsent]
  simp only [tick, setDutyUnlessSent, hbegin, Bool.false_eq_true, if_false]
  rw [setDuty_lastDuty hd, ← MotorService.beginTick_duty_eq]

/-- One tick leaves a driver with the current command if and only if nothing was missed. -/
theorem SentInv.leavesCommand_iff (h : SentInv c s) (now later : Micros) :
    LeavesCommand c s (.tick now later) (s.tick c now later) ↔
      NothingMissed c s (.tick now later) (s.tick c now later) := by
  have hiff : ∀ d, d.service = c →
      ((s.tick c now later).lastDuty d = some (if (s.tick c now later).reasons ≠ 0#16 then 0
        else (s.tick c now later).service.duty d) ↔
      if s.service.dutySent then
        (if s.sentEmergency then 0 else s.sentDuty d) =
          if s.reasons ≠ 0#16 ∨ s.service.CommandTimedOut c now ∨ s.service.EscTimedOut c later
          then 0 else s.service.duty d
      else s.reasons = 0#16 → s.service.EscTimedOut c later →
        ¬ s.service.CommandTimedOut c now → s.service.duty d = 0) := by
    intro d hd
    rw [tick_reasons, tick_duty]
    cases hsent : s.service.dutySent with
    | true =>
      rw [tick_lastDuty_of_sent hsent, h hsent d hd, Option.some_inj, if_pos rfl]
      by_cases hr : s.reasons ≠ 0#16
      · simp [hr]
      · simp [not_not.mp hr]
    | false =>
      rw [tick_lastDuty_of_not_sent hsent now later hd, Option.some_inj,
        if_neg Bool.false_ne_true]
      by_cases hr : s.reasons = 0#16
      · by_cases hcommand : s.service.CommandTimedOut c now
        · simp [hr, hcommand]
        · by_cases hesc : s.service.EscTimedOut c later
          · simp [hr, hcommand, hesc]
          · simp [hr, hcommand, hesc]
      · simp [hr]
  constructor
  · rintro hleaves _ _ ⟨⟩ d hd
    exact (hiff d hd).mp (hleaves now later rfl d hd)
  · rintro hmissed _ _ ⟨⟩ d hd
    exact (hiff d hd).mpr (hmissed now later rfl d hd)

section

variable [One D] [Neg D] [Add D] [Sub D] [Mul D] [LE D] [DecidableLE D]

/-- Every call keeps the invariant. -/
theorem SentInv.step {config : DriveConfig D} {e : CallEvent D} {s' : CallState D}
    (h : SentInv c s) (hs : s.step config c e = some s') : SentInv c s' := by
  cases e with
  | tick now later =>
    obtain rfl := Option.some.inj hs
    intro hsent
    rw [tick_dutySent] at hsent
    exact absurd hsent Bool.false_ne_true
  | command message now =>
    simp only [CallState.step, Option.ite_none_right_eq_some, Option.some.injEq, onCommand] at hs
    obtain ⟨-, rfl⟩ := hs
    split_ifs
    · have htake : SentInv c { s with service := s.service.takeCommand config message now } :=
        h.keep rfl rfl rfl rfl
      exact htake.setDutyUnlessSent
    · exact h
  | emergencyChangedEvent =>
    obtain rfl := Option.some.inj hs
    rw [onEmergencyChangedEvent]
    split_ifs
    · exact h
    · exact SentInv.setDuty _
  | escCallback now =>
    simp only [CallState.step, Option.ite_none_right_eq_some, Option.some.injEq] at hs
    obtain ⟨-, rfl⟩ := hs
    exact h.keep rfl rfl rfl rfl
  | setReasons reasons =>
    obtain rfl := Option.some.inj hs
    exact h.keep rfl rfl rfl rfl

/-! ### Calls as runs of the threads -/

variable (robot : Robot D) {m : MotorState ι D}

/-- The thread that holds the mutex is at the stage, and everything that the states share
agrees. -/
structure At (c : MotorServiceId) (stage : Stage) (m : MotorState ι D) (s : CallState D) :
    Prop where
  stage : m.stage c = stage
  service : m.service c = s.service
  reasons : m.emergency.reasons = s.reasons
  lastDuty : m.lastDuty = s.lastDuty

/-- The driver calls of `SetDuty`, one after the other. -/
theorem At.setDriverDuty {call : Call} {emergency : Bool} {epoch : ℕ} {rest : List MotorDriver}
    (h : At c (.sending call emergency epoch rest) m s) :
    ∃ m', (motorSystem ι robot).Leads m m' ∧ At c (.sending call emergency epoch []) m'
      { s with lastDuty := driversAfter s.service emergency s.lastDuty rest } := by
  induction rest generalizing m s with
  | nil => exact ⟨m, ⟨[], rfl⟩, h⟩
  | cons d rest ih =>
    have hstep : (motorSystem ι robot).step m (.setDriverDuty c) =
        some { m.setService c (m.service c) (.sending call emergency epoch rest) with
          lastDuty := Function.update m.lastDuty d
            (some ((m.service c).dutyFor emergency d)) } := by
      simp only [motorSystem, MotorState.step, h.stage]
    have hnext : At c (.sending call emergency epoch rest)
        { m.setService c (m.service c) (.sending call emergency epoch rest) with
          lastDuty := Function.update m.lastDuty d (some ((m.service c).dutyFor emergency d)) }
        { s with lastDuty := driversAfter s.service emergency s.lastDuty [d] } := by
      constructor
      · exact Function.update_self _ _ _
      · exact (Function.update_self _ _ _).trans h.service
      · exact h.reasons
      · rw [h.lastDuty, h.service]
        rfl
    obtain ⟨m', hleads, hat⟩ := ih hnext
    exact ⟨m', (StateMachine.Leads.of_step hstep).trans hleads, hat⟩

/-- `SetDuty` without interruption. -/
theorem At.setDuty {call : Call} (h : At c (.beforeSetDuty call) m s) :
    ∃ m', (motorSystem ι robot).Leads m m' ∧ At c (.afterSetDuty call) m' (s.setDuty c) := by
  have hread : (motorSystem ι robot).step m (.readReasons c) =
      some (m.setService c (m.service c)
        (.sending call (decide (m.emergency.getReasons ≠ 0#16)) m.epoch c.drivers)) := by
    simp only [motorSystem, MotorState.step, h.stage]
  have hsending : At c (.sending call (decide (s.reasons ≠ 0#16)) m.epoch c.drivers)
      (m.setService c (m.service c)
        (.sending call (decide (m.emergency.getReasons ≠ 0#16)) m.epoch c.drivers)) s := by
    constructor
    · rw [← h.reasons]
      exact Function.update_self _ _ _
    · exact (Function.update_self _ _ _).trans h.service
    · exact h.reasons
    · exact h.lastDuty
  obtain ⟨m₁, hleads, hat⟩ := hsending.setDriverDuty robot
  have hreturn : (motorSystem ι robot).step m₁ (.setDutyReturns c) =
      some (m₁.setService c { m₁.service c with dutySent := true } (.afterSetDuty call)) := by
    simp only [motorSystem, MotorState.step, hat.stage]
  refine ⟨_, ((StateMachine.Leads.of_step hread).trans hleads).trans
    (StateMachine.Leads.of_step hreturn), ?_⟩
  constructor
  · exact Function.update_self _ _ _
  · rw [hat.service]
    exact Function.update_self _ _ _
  · exact hat.reasons
  · exact hat.lastDuty

theorem At.setDutyUnlessSent {call : Call} {sent : Bool} (h : At c (.enter call sent) m s)
    (hsent : s.service.dutySent = sent) :
    ∃ m', (motorSystem ι robot).Leads m m' ∧
      At c (.afterSetDuty call) m' (s.setDutyUnlessSent c) := by
  rw [CallState.setDutyUnlessSent, hsent]
  cases sent with
  | true => exact ⟨m, ⟨[], rfl⟩, h⟩
  | false => exact h.setDuty robot

/-- **Ticks.** A tick is a run of the threads in which only the thread of the service moves. -/
theorem At.tick (h : At c .free m s) (hneeds : robot.needsService c = true)
    (hwaiting : m.waiting c = none) (now later : Micros) :
    ∃ m', (motorSystem ι robot).Leads m m' ∧ At c .free m' (s.tick c now later) := by
  have hlock : (motorSystem ι robot).step m (.lock c .tick now) =
      some (m.setService c ((m.service c).beginTick c now)
        (.enter .tick (m.service c).dutySent)) := by
    simp [motorSystem, MotorState.step, MotorState.lock, h.stage, hneeds, hwaiting]
  have hbegin : At c (.enter .tick (s.service.beginTick c now).dutySent)
      (m.setService c ((m.service c).beginTick c now) (.enter .tick (m.service c).dutySent))
      { s with service := s.service.beginTick c now } := by
    rw [h.service, MotorService.beginTick_dutySent]
    exact ⟨Function.update_self _ _ _, Function.update_self _ _ _, h.reasons, h.lastDuty⟩
  obtain ⟨m₁, hleads, hat⟩ := hbegin.setDutyUnlessSent robot rfl
  have hunlock : (motorSystem ι robot).step m₁ (.unlock c later) =
      some (m₁.setService c ((m₁.service c).endTick c later) .free) := by
    simp only [motorSystem, MotorState.step, hat.stage, MotorState.unlock]
  refine ⟨_, ((StateMachine.Leads.of_step hlock).trans hleads).trans
    (StateMachine.Leads.of_step hunlock), ?_⟩
  rw [hat.service]
  exact ⟨Function.update_self _ _ _, Function.update_self _ _ _, hat.reasons, hat.lastDuty⟩

/-- **Commands.** So is the handling of a command. -/
theorem At.onCommand (h : At c .free m s) (hneeds : robot.needsService c = true)
    {message : MotorMessage D} (hwaiting : m.waiting c = some message)
    (haccepted : message.accepted = true) (now : Micros) :
    ∃ m', (motorSystem ι robot).Leads m m' ∧
      At c .free m' (s.onCommand robot.drive c message now) := by
  have hlock : (motorSystem ι robot).step m (.lock c .command now) =
      some { m.setService c ((m.service c).takeCommand robot.drive message now)
          (.enter .command (m.service c).dutySent) with
        waiting := Function.update m.waiting c none } := by
    simp [motorSystem, MotorState.step, MotorState.lock, h.stage, hneeds, hwaiting]
  have htake : At c (.enter .command (s.service.takeCommand robot.drive message now).dutySent)
      { m.setService c ((m.service c).takeCommand robot.drive message now)
          (.enter .command (m.service c).dutySent) with
        waiting := Function.update m.waiting c none }
      { s with service := s.service.takeCommand robot.drive message now } := by
    rw [h.service]
    exact ⟨Function.update_self _ _ _, Function.update_self _ _ _, h.reasons, h.lastDuty⟩
  obtain ⟨m₁, hleads, hat⟩ := htake.setDutyUnlessSent robot rfl
  have hunlock : (motorSystem ι robot).step m₁ (.unlock c now) =
      some (m₁.setService c (m₁.service c) .free) := by
    simp only [motorSystem, MotorState.step, hat.stage, MotorState.unlock]
  refine ⟨_, ((StateMachine.Leads.of_step hlock).trans hleads).trans
    (StateMachine.Leads.of_step hunlock), ?_⟩
  rw [CallState.onCommand, if_pos haccepted]
  exact ⟨Function.update_self _ _ _, (Function.update_self _ _ _).trans hat.service, hat.reasons,
    hat.lastDuty⟩

/-- **Emergencies.** So is `OnEmergencyChangedEvent` in the main thread, once it has found an
emergency. -/
theorem At.onEmergencyChangedEvent (h : At c .free m s)
    (hmain : m.main.head? = some (.stopMotors c)) (hreasons : s.reasons ≠ 0#16) (now : Micros) :
    ∃ m', (motorSystem ι robot).Leads m m' ∧ At c .free m' (s.onEmergencyChangedEvent c) := by
  have hlock : (motorSystem ι robot).step m (.lock c .emergency now) =
      some (m.setService c (m.service c).zeroDuty (.beforeSetDuty .emergency)) := by
    simp [motorSystem, MotorState.step, MotorState.lock, h.stage, hmain]
  have hzero : At c (.beforeSetDuty .emergency)
      (m.setService c (m.service c).zeroDuty (.beforeSetDuty .emergency))
      { s with service := s.service.zeroDuty } := by
    rw [h.service]
    exact ⟨Function.update_self _ _ _, Function.update_self _ _ _, h.reasons, h.lastDuty⟩
  obtain ⟨m₁, hleads, hat⟩ := hzero.setDuty robot
  have hunlock : (motorSystem ι robot).step m₁ (.unlock c now) =
      some { m₁.setService c (m₁.service c) .free with main := m₁.main.tail } := by
    simp only [motorSystem, MotorState.step, hat.stage, MotorState.unlock]
  refine ⟨_, ((StateMachine.Leads.of_step hlock).trans hleads).trans
    (StateMachine.Leads.of_step hunlock), ?_⟩
  rw [CallState.onEmergencyChangedEvent, if_neg hreasons]
  exact ⟨Function.update_self _ _ _, (Function.update_self _ _ _).trans hat.service, hat.reasons,
    hat.lastDuty⟩

end

end CallState

open CallState

section

variable [Zero D] [One D] [Neg D] [Add D] [Sub D] [Mul D] [LE D] [DecidableLE D]

/-- The calls of one service, from any state in which the flag is clear, as when it is
created. -/
def callSystem (config : DriveConfig D) (c : MotorServiceId) :
    StateMachine (CallState D) (CallEvent D) where
  Init s := s.service.dutySent = false
  step s e := s.step config c e

/-- **Ticks leave the driver with the current command.** In a run of whole calls of the diff
drive or the mower service every tick leaves its drivers with the current command if and only
if no tick misses a change: none begins with `duty_sent_` set and with reasons and duties that,
timeouts included, ask for something else than the last `SetDuty` found, and none drops a
non-zero duty for lack of ESC data after it has sent it. -/
theorem tick_leaves_command_iff {config : DriveConfig D} {c : MotorServiceId} {s : CallState D}
    (h : (callSystem config c).Init s) (es : List (CallEvent D)) :
    (callSystem config c).EveryStep (LeavesCommand c) s es ↔
      (callSystem config c).EveryStep (NothingMissed c) s es := by
  have hinit : ∀ s, (callSystem config c).Init s → SentInv c s := by
    intro s hs hsent
    exact absurd (hs.symm.trans hsent) Bool.false_ne_true
  refine StateMachine.everyStep_congr (fun s e s' hreach hs => ?_) (.init h) es
  have hinv : SentInv c s := hreach.invariant hinit fun _ _ _ hI hs => hI.step hs
  cases e with
  | tick now later =>
    obtain rfl := Option.some.inj hs
    exact hinv.leavesCommand_iff now later
  | command | emergencyChangedEvent | escCallback | setReasons =>
    simp [LeavesCommand, NothingMissed]

end

/-- A mower service as it is created, without an emergency. -/
def createdMower : CallState ℚ where
  service := { duty := fun _ => 0 }
  reasons := 0#16
  lastDuty := fun _ => none
  sentEmergency := false
  sentDuty := fun _ => 0

/-- Between two ticks the mower is switched on and off again; the second message does not send
anything because the first one has. -/
def onAndOffRun : List (CallEvent ℚ) :=
  [.command (.mowerEnabled 1#8) 0#32, .command (.mowerEnabled 0#8) 0#32]

/-- The tick after this run does not send the 0 either. -/
theorem tick_not_leaves_command :
    (callSystem wheelsOnly.drive .mower).Init createdMower ∧
      ¬ (callSystem wheelsOnly.drive .mower).EveryStep (LeavesCommand .mower) createdMower
        (onAndOffRun ++ [.tick 0#32 0#32]) := by
  refine ⟨rfl, fun hrun => ?_⟩
  have hleaves := hrun.of_run rfl rfl
  have hlast : some (1 : ℚ) = some 0 := hleaves 0#32 0#32 rfl .mower rfl
  exact one_ne_zero (Option.some.inj hlast)

/-- A run in which a tick sends a command again. -/
def twoTicksRun : List (CallEvent ℚ) :=
  [.command (.mowerEnabled 1#8) 0#32, .tick 0#32 0#32, .tick 0#32 0#32]

/-- Whether its ticks leave the driver with the command depends on the ESC data. -/
theorem tick_leaves_command_twoTicksRun :
    (callSystem wheelsOnly.drive .mower).EveryStep (LeavesCommand .mower) createdMower twoTicksRun ↔
      (callSystem wheelsOnly.drive .mower).EveryStep (NothingMissed .mower) createdMower
        twoTicksRun := by
  have hinit : (callSystem wheelsOnly.drive .mower).Init createdMower := rfl
  exact tick_leaves_command_iff hinit twoTicksRun

end OpenMower
