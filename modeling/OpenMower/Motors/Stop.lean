import OpenMower.Motors.System

/-!
# Motors are stopped in an emergency

`SetDuty` reads the reasons and passes non-zero duties if there is no emergency, but the
emergency may begin between the read and the driver calls. What stops the motors then is the
`EMERGENCY_CHANGED` event: `UpdateEmergency` broadcasts it after every change, and the main
thread handles it with a `SetDuty` of its own, for which it needs the mutex of the service.

The invariant `ServiceInv` says that in an emergency a service with non-zero duties, or with a
`SetDuty` that has seen no emergency, still has a notification coming (`Notified`).
-/

namespace OpenMower

variable {ι D : Type*}

namespace MainTask

/-- The task belongs to a change of the reasons that is still to be noticed or handled. -/
def notifies : MainTask → Bool
  | .getFlags => false
  | .checkInputs => false
  | _ => true

end MainTask

namespace MotorState

/-- The service will still be told of a change of the reasons. -/
def Notified (s : MotorState ι D) (c : MotorServiceId) : Prop :=
  0 < s.owed ∨ s.emergencyChanged = true ∨ .broadcast ∈ s.main ∨ .checkEmergency c ∈ s.main ∨
    .stopMotors c ∈ s.main

/-- The reasons and everything that notifies of their changes are the same. -/
structure SameSignals (s s' : MotorState ι D) : Prop where
  main : s'.main = s.main
  owed : s'.owed = s.owed
  emergencyChanged : s'.emergencyChanged = s.emergencyChanged
  emergency : s'.emergency = s.emergency

theorem SameSignals.notified {s s' : MotorState ι D} (h : SameSignals s s') {c : MotorServiceId} :
    s'.Notified c ↔ s.Notified c := by
  rw [Notified, Notified, h.main, h.owed, h.emergencyChanged]

variable [Zero D]

/-- The main thread has just registered its listener: nothing is flagged, no duty has been
passed to a driver, and no `SetDuty` is between its read and its driver calls. -/
structure Registered (robot : Robot D) (s : MotorState ι D) : Prop where
  main : s.main = []
  emergencyChanged : s.emergencyChanged = false
  lastDuty : ∀ d, s.lastDuty d = none
  notSending : ∀ c, (s.stage c).IsSending = false
  stage : ∀ c, (s.stage c).call? ≠ some .emergency
  unneeded : ∀ c, robot.needsService c = false → s.stage c = .free

/-- If there is an emergency, no broadcast is owed, no `EMERGENCY_CHANGED` is flagged or being
handled and no `SetDuty` is on its way, then the last duty passed to each driver is 0, or none
was. -/
def MotorsStopped (s : MotorState ι D) : Prop :=
  s.emergency.reasons ≠ 0#16 → s.owed = 0 → s.emergencyChanged = false →
    (∀ task ∈ s.main, task.notifies = false) → (∀ c, (s.stage c).IsSending = false) →
      ∀ d, s.lastDuty d = none ∨ s.lastDuty d = some 0

/-- The service is stopped, and nothing is on its way that could start it. -/
structure ServiceStopped (s : MotorState ι D) (c : MotorServiceId) : Prop where
  stage : ∀ call epoch rest, s.stage c ≠ .sending call false epoch rest
  lastDuty : ∀ d, d.service = c → s.lastDuty d = none ∨ s.lastDuty d = some 0

/-- The drivers that `OnEmergencyChangedEvent` has called already got 0. -/
def Handled (s : MotorState ι D) (c : MotorServiceId) : Prop :=
  (∀ emergency epoch rest, s.stage c = .sending .emergency emergency epoch rest →
    ∀ d, d.service = c → d ∉ rest → s.lastDuty d = some 0) ∧
  (s.stage c = .afterSetDuty .emergency → ∀ d, d.service = c → s.lastDuty d = some 0)

/-- The invariant of one service. -/
structure ServiceInv (robot : Robot D) (s : MotorState ι D) (c : MotorServiceId) : Prop where
  unneeded : robot.needsService c = false →
    s.stage c = .free ∧ ∀ d, d.service = c → s.lastDuty d = none
  tasks : .checkEmergency c ∈ s.main ∨ .stopMotors c ∈ s.main → robot.needsService c = true
  handler : (s.stage c).call? = some .emergency → s.main.head? = some (.stopMotors c) ∧
    ∀ d, (s.service c).duty d = 0
  rest : ∀ call emergency epoch rest, s.stage c = .sending call emergency epoch rest →
    ∀ d ∈ rest, d.service = c
  handled : Handled s c
  stopped : s.emergency.reasons ≠ 0#16 → ¬ s.Notified c → ServiceStopped s c

variable {robot : Robot D} {s s' : MotorState ι D} {c : MotorServiceId}

theorem Registered.serviceInv (h : Registered robot s) (c : MotorServiceId) :
    ServiceInv robot s c := by
  have hsending : ∀ call emergency epoch rest, s.stage c ≠ .sending call emergency epoch rest := by
    intro call emergency epoch rest hstage
    have hnot := h.notSending c
    simp [hstage, Stage.IsSending] at hnot
  refine ⟨fun hn => ⟨h.unneeded c hn, fun d _ => h.lastDuty d⟩, ?_, ?_, ?_, ⟨?_, ?_⟩, ?_⟩
  · simp [h.main]
  · exact fun hcall => absurd hcall (h.stage c)
  · exact fun call emergency epoch rest hstage => absurd hstage (hsending _ _ _ _)
  · exact fun emergency epoch rest hstage => absurd hstage (hsending _ _ _ _)
  · intro hstage
    have hcall := h.stage c
    simp [hstage, Stage.call?] at hcall
  · exact fun _ _ => ⟨fun call epoch rest => hsending _ _ _ _, fun d _ => .inl (h.lastDuty d)⟩

/-- **Frame.** A step that does not touch the mutex of the service or its drivers, and sets no
duty that was 0, keeps the invariant if a handler keeps its place and no notification gets lost. -/
theorem ServiceInv.frame (h : ServiceInv robot s c)
    (hduty : (∀ d, (s.service c).duty d = 0) → ∀ d, (s'.service c).duty d = 0)
    (hstage : s'.stage c = s.stage c)
    (hlast : ∀ d, d.service = c → s'.lastDuty d = s.lastDuty d)
    (htasks : .checkEmergency c ∈ s'.main ∨ .stopMotors c ∈ s'.main →
      robot.needsService c = true)
    (hhead : s.main.head? = some (.stopMotors c) → (s.stage c).call? = some .emergency →
      s'.main.head? = some (.stopMotors c))
    (hnotified : robot.needsService c = true → s'.emergency.reasons ≠ 0#16 → ¬ s'.Notified c →
      s.emergency.reasons ≠ 0#16 ∧ ¬ s.Notified c) :
    ServiceInv robot s' c := by
  refine ⟨?_, htasks, ?_, ?_, ⟨?_, ?_⟩, fun hr hn => ?_⟩
  · intro hneeds
    rw [hstage]
    exact ⟨(h.unneeded hneeds).1, fun d hd => by rw [hlast d hd, (h.unneeded hneeds).2 d hd]⟩
  · rw [hstage]
    intro hcall
    obtain ⟨hmain, hzero⟩ := h.handler hcall
    exact ⟨hhead hmain hcall, hduty hzero⟩
  · rw [hstage]
    exact h.rest
  · intro emergency epoch rest hs d hd hrest
    rw [hlast d hd]
    exact h.handled.1 emergency epoch rest (hstage ▸ hs) d hd hrest
  · intro hs d hd
    rw [hlast d hd]
    exact h.handled.2 (hstage ▸ hs) d hd
  · cases hneeds : robot.needsService c with
    | false =>
      -- a service that is not needed never moves
      obtain ⟨hfree, hnone⟩ := h.unneeded hneeds
      refine ⟨by simp [hstage, hfree], fun d hd => .inl ?_⟩
      rw [hlast d hd, hnone d hd]
    | true =>
      obtain ⟨hr', hn'⟩ := hnotified hneeds hr hn
      have hstopped := h.stopped hr' hn'
      refine ⟨fun call epoch rest => hstage ▸ hstopped.stage call epoch rest, fun d hd => ?_⟩
      rw [hlast d hd]
      exact hstopped.lastDuty d hd

/-- A step of one service keeps the invariant of the other. -/
theorem ServiceInv.other {c₀ : MotorServiceId} (h : ServiceInv robot s c) (hne : c ≠ c₀)
    {service : MotorService D} {stage : Stage}
    (hservice : s'.service = Function.update s.service c₀ service)
    (hstage : s'.stage = Function.update s.stage c₀ stage)
    (hlast : ∀ d, d.service ≠ c₀ → s'.lastDuty d = s.lastDuty d) (hsame : SameSignals s s') :
    ServiceInv robot s' c := by
  refine h.frame ?_ ?_ (fun d hd => hlast d (hd ▸ hne)) ?_ ?_ fun _ => ?_
  · rw [hservice, Function.update_of_ne hne]
    exact id
  · rw [hstage, Function.update_of_ne hne]
  · rw [hsame.main]
    exact h.tasks
  · rw [hsame.main]
    exact fun hmain _ => hmain
  · rw [hsame.emergency, hsame.notified]
    exact fun hr hn => ⟨hr, hn⟩

/-- A needed service may go to any stage outside the critical part of `SetDuty`, provided that
a handler of the main thread has zeroed the duty, and the drivers when it is through. -/
theorem ServiceInv.notSending (h : ServiceInv robot s c) (hneeds : robot.needsService c = true)
    (hsame : SameSignals s s') (hlast : s'.lastDuty = s.lastDuty)
    (hsending : (s'.stage c).IsSending = false)
    (hhandler : (s'.stage c).call? = some .emergency →
      s.main.head? = some (.stopMotors c) ∧ ∀ d, (s'.service c).duty d = 0)
    (hafter : s'.stage c = .afterSetDuty .emergency →
      ∀ d, d.service = c → s.lastDuty d = some 0) :
    ServiceInv robot s' c := by
  have hnot : ∀ call emergency epoch rest,
      s'.stage c ≠ .sending call emergency epoch rest := by
    intro call emergency epoch rest hstage
    simp [hstage, Stage.IsSending] at hsending
  refine ⟨by simp [hneeds], fun _ => hneeds, ?_, ?_, ⟨?_, ?_⟩, ?_⟩
  · rw [hsame.main]
    exact hhandler
  · exact fun call emergency epoch rest hstage => absurd hstage (hnot _ _ _ _)
  · exact fun emergency epoch rest hstage => absurd hstage (hnot _ _ _ _)
  · rw [hlast]
    exact hafter
  · rw [hsame.emergency, hsame.notified]
    refine fun hr hn => ⟨fun call epoch rest => hnot _ _ _ _, ?_⟩
    rw [hlast]
    exact (h.stopped hr hn).lastDuty

/-- A service whose mutex is taken is needed. -/
theorem ServiceInv.needed (h : ServiceInv robot s c) (hstage : s.stage c ≠ .free) :
    robot.needsService c = true := by
  by_contra hn
  exact hstage (h.unneeded (Bool.eq_false_iff.mpr hn)).1

/-- The two callbacks that do not wait for the mutex only set duties to 0. -/
theorem ServiceInv.keepStage {c₀ : MotorServiceId} {service : MotorService D}
    (h : ∀ c, ServiceInv robot s c)
    (hduty : (∀ d, (s.service c₀).duty d = 0) → ∀ d, service.duty d = 0) :
    ∀ c, ServiceInv robot (s.setService c₀ service (s.stage c₀)) c := by
  intro c
  have hstage : (s.setService c₀ service (s.stage c₀)).stage c = s.stage c := by
    simp [setService]
  refine (h c).frame ?_ hstage (fun _ _ => rfl) (h c).tasks (fun hmain _ => hmain)
    fun _ hr hn => ⟨hr, hn⟩
  by_cases hc : c = c₀
  · subst hc
    simpa [setService] using hduty
  · simp [setService, Function.update_of_ne hc]

/-- A needed service begins a call that is not the handler's. -/
theorem ServiceInv.enter {c₀ : MotorServiceId} {service : MotorService D} {call : Call}
    {dutySent : Bool} (h : ∀ c, ServiceInv robot s c) (hneeds : robot.needsService c₀ = true)
    (hcall : call ≠ .emergency) (waiting : MotorServiceId → Option (MotorMessage D)) :
    ∀ c, ServiceInv robot
      { s.setService c₀ service (.enter call dutySent) with waiting } c := by
  intro c
  by_cases hc : c = c₀
  · subst hc
    refine (h c).notSending hneeds ⟨rfl, rfl, rfl, rfl⟩ rfl ?_ ?_ ?_ <;>
      cases dutySent <;>
        simp [setService, Stage.enter, Stage.IsSending, Stage.call?, hcall]
  · exact (h c).other hc rfl rfl (fun _ _ => rfl) ⟨rfl, rfl, rfl, rfl⟩

/-! ### The steps of the services -/

section ServiceSteps

variable [One D] [Neg D] [Add D] [Sub D] [Mul D] [LE D] [DecidableLE D]

theorem ServiceInv.lock {c₀ : MotorServiceId} {call : Call} {now : Micros}
    (h : ∀ c, ServiceInv robot s c) (hs : s.step robot (.lock c₀ call now) = some s') :
    ∀ c, ServiceInv robot s' c := by
  simp only [step, Option.ite_none_right_eq_some] at hs
  obtain ⟨-, hs⟩ := hs
  intro c
  cases call with
  | tick =>
    simp only [MotorState.lock, Option.ite_none_right_eq_some, Option.some.injEq] at hs
    obtain ⟨⟨hneeds, -⟩, rfl⟩ := hs
    have hcall : Call.tick ≠ .emergency := by decide
    exact ServiceInv.enter h hneeds hcall s.waiting c
  | command =>
    simp only [MotorState.lock, Option.ite_none_right_eq_some, Option.map_eq_some_iff] at hs
    obtain ⟨hneeds, message, -, rfl⟩ := hs
    have hcall : Call.command ≠ .emergency := by decide
    exact ServiceInv.enter h hneeds hcall _ c
  | emergency =>
    simp only [MotorState.lock, Option.ite_none_right_eq_some, Option.some.injEq] at hs
    obtain ⟨hhead, rfl⟩ := hs
    have hmem : MainTask.stopMotors c₀ ∈ s.main := List.mem_of_head? hhead
    by_cases hc : c = c₀
    · subst hc
      refine (h c).notSending ((h c).tasks (.inr hmem)) ⟨rfl, rfl, rfl, rfl⟩ rfl ?_ ?_ ?_
      · simp [setService, Stage.IsSending]
      · exact fun _ => ⟨hhead, by simp [setService]⟩
      · simp [setService]
    · exact (h c).other hc rfl rfl (fun _ _ => rfl) ⟨rfl, rfl, rfl, rfl⟩

/-- The read of the reasons: in an emergency it is noted, so that the drivers get 0. -/
theorem ServiceInv.readReasons {c₀ : MotorServiceId} (h : ∀ c, ServiceInv robot s c)
    (hs : s.step robot (.readReasons c₀) = some s') : ∀ c, ServiceInv robot s' c := by
  obtain ⟨call, hstage, rfl⟩ := readReasons_eq_some hs
  intro c
  by_cases hc : c = c₀
  · subst hc
    have hneeds : robot.needsService c = true := (h c).needed (by simp [hstage])
    refine ⟨by simp [hneeds], fun _ => hneeds, fun hcall => ?_, ?_, ⟨?_, ?_⟩, fun hr hn => ?_⟩
    · have hcall' : (s.stage c).call? = some .emergency := by
        simpa [hstage, setService, Stage.call?] using hcall
      simpa [setService] using (h c).handler hcall'
    · intro call' emergency epoch rest hs' d hd
      simp only [setService, Function.update_self, Stage.sending.injEq] at hs'
      obtain ⟨-, -, -, rfl⟩ := hs'
      exact MotorServiceId.mem_drivers.mp hd
    · intro emergency epoch rest hs' d hd hrest
      simp only [setService, Function.update_self, Stage.sending.injEq] at hs'
      obtain ⟨-, -, -, rfl⟩ := hs'
      exact absurd (MotorServiceId.mem_drivers.mpr hd) hrest
    · simp [setService]
    · have hread : s.emergency.getReasons ≠ 0#16 := hr
      refine ⟨?_, ((h c).stopped hr hn).lastDuty⟩
      simp [setService, hread]
  · exact (h c).other hc rfl rfl (fun _ _ => rfl) ⟨rfl, rfl, rfl, rfl⟩

/-- A driver call: in an emergency without a notification `SetDuty` has noted the emergency,
and the handler passes 0 in any case. -/
theorem ServiceInv.setDriverDuty {c₀ : MotorServiceId} (h : ∀ c, ServiceInv robot s c)
    (hs : s.step robot (.setDriverDuty c₀) = some s') : ∀ c, ServiceInv robot s' c := by
  obtain ⟨call, emergency, epoch, d, rest, hstage, rfl⟩ := setDriverDuty_eq_some hs
  have hd : d.service = c₀ := (h c₀).rest _ _ _ _ hstage d (by simp)
  intro c
  by_cases hc : c = c₀
  · subst hc
    have hneeds : robot.needsService c = true := (h c).needed (by simp [hstage])
    refine ⟨by simp [hneeds], fun _ => hneeds, fun hcall => ?_, ?_, ⟨?_, ?_⟩, fun hr hn => ?_⟩
    · have hcall' : (s.stage c).call? = some .emergency := by
        simpa [hstage, setService, Stage.call?] using hcall
      simpa [setService] using (h c).handler hcall'
    · intro call' emergency' epoch' rest' hs' d' hd'
      simp only [setService, Function.update_self, Stage.sending.injEq] at hs'
      obtain ⟨-, -, -, rfl⟩ := hs'
      exact (h c).rest _ _ _ _ hstage d' (by simp [hd'])
    · intro emergency' epoch' rest' hs' d' hd' hrest
      simp only [setService, Function.update_self, Stage.sending.injEq] at hs'
      obtain ⟨rfl, rfl, rfl, rfl⟩ := hs'
      by_cases hdd : d' = d
      · subst hdd
        -- the handler has zeroed the duties, so either branch of `SetDuty` passes 0
        have hzero := ((h c).handler (by simp [hstage, Stage.call?])).2
        cases emergency <;> simp [hzero]
      · simpa [Function.update_of_ne hdd] using
          (h c).handled.1 _ _ _ hstage d' hd' (by simp [hdd, hrest])
    · simp [setService]
    · have hstopped := (h c).stopped hr hn
      -- a `SetDuty` that has seen no emergency would have a notification coming
      have hem : emergency = true := by
        cases emergency with
        | true => rfl
        | false => exact absurd hstage (hstopped.stage _ _ _)
      subst hem
      refine ⟨by simp [setService], fun d' hd' => ?_⟩
      by_cases hdd : d' = d
      · subst hdd
        simp
      · simpa [Function.update_of_ne hdd] using hstopped.lastDuty d' hd'
  · refine (h c).other hc rfl rfl (fun d' hd' => ?_) ⟨rfl, rfl, rfl, rfl⟩
    -- the driver belongs to the service that moves
    have hne : d' ≠ d := fun heq => hd' (by rw [heq, hd])
    exact Function.update_of_ne hne _ _

theorem ServiceInv.setDutyReturns {c₀ : MotorServiceId} (h : ∀ c, ServiceInv robot s c)
    (hs : s.step robot (.setDutyReturns c₀) = some s') : ∀ c, ServiceInv robot s' c := by
  obtain ⟨call, emergency, epoch, hstage, rfl⟩ := setDutyReturns_eq_some hs
  intro c
  by_cases hc : c = c₀
  · subst hc
    have hneeds : robot.needsService c = true := (h c).needed (by simp [hstage])
    refine (h c).notSending hneeds ⟨rfl, rfl, rfl, rfl⟩ rfl (by simp [setService, Stage.IsSending])
      (fun hcall => ?_) fun hafter => ?_
    · have hcall' : (s.stage c).call? = some .emergency := by
        simpa [hstage, setService, Stage.call?] using hcall
      simpa [setService] using (h c).handler hcall'
    · obtain rfl : call = .emergency := by simpa [setService] using hafter
      exact fun d hd => (h c).handled.1 _ _ _ hstage d hd (by simp)
  · exact (h c).other hc rfl rfl (fun _ _ => rfl) ⟨rfl, rfl, rfl, rfl⟩

/-- A method gives the mutex back. The handler of the main thread has passed 0 to all drivers
by then, so its notification may go. -/
theorem ServiceInv.unlock {c₀ : MotorServiceId} {now : Micros} (h : ∀ c, ServiceInv robot s c)
    (hs : s.step robot (.unlock c₀ now) = some s') : ∀ c, ServiceInv robot s' c := by
  obtain ⟨call, hstage, rfl⟩ := unlock_eq_some hs
  have hneeds : robot.needsService c₀ = true := (h c₀).needed (by simp [hstage])
  intro c
  cases call with
  | tick | command =>
    by_cases hc : c = c₀
    · subst hc
      refine (h c).notSending hneeds ⟨rfl, rfl, rfl, rfl⟩ rfl ?_ ?_ ?_
      · simp [MotorState.unlock, setService, Stage.IsSending]
      · simp [MotorState.unlock, setService, Stage.call?]
      · simp [MotorState.unlock, setService]
    · exact (h c).other hc rfl rfl (fun _ _ => rfl) ⟨rfl, rfl, rfl, rfl⟩
  | emergency =>
    obtain ⟨hhead, -⟩ := (h c₀).handler (by simp [hstage, Stage.call?])
    obtain ⟨rest, hmain⟩ := List.head?_eq_some_iff.mp hhead
    by_cases hc : c = c₀
    · subst hc
      -- the notification goes, but by then the drivers have got 0
      refine ⟨by simp [hneeds], fun _ => hneeds, ?_, ?_, ⟨?_, ?_⟩, fun _ _ => ⟨?_, fun d hd => ?_⟩⟩
      · simp [MotorState.unlock, setService, Stage.call?]
      · simp [MotorState.unlock, setService]
      · simp [MotorState.unlock, setService]
      · simp [MotorState.unlock, setService]
      · simp [MotorState.unlock, setService]
      · exact .inr ((h c).handled.2 hstage d hd)
    · have hne : c₀ ≠ c := fun heq => hc heq.symm
      refine (h c).frame ?_ ?_ (fun _ _ => rfl) ?_ ?_ ?_
      · simp [MotorState.unlock, setService]
      · simp [MotorState.unlock, setService, Function.update_of_ne hc]
      · have htasks := (h c).tasks
        rw [hmain] at htasks
        simpa [MotorState.unlock, setService, hmain, hc] using htasks
      · simp [hmain, hne]
      · intro _ hr hn
        exact ⟨hr, by simpa [MotorState.unlock, setService, Notified, hmain, hc] using hn⟩

end ServiceSteps

/-! ### The steps of the other threads -/

/-- A step that leaves the services and their drivers alone keeps the invariant if no
notification gets lost. -/
theorem ServiceInv.global (h : ∀ c, ServiceInv robot s c) (hservice : s'.service = s.service)
    (hstage : s'.stage = s.stage) (hlast : s'.lastDuty = s.lastDuty)
    (htasks : ∀ c, .checkEmergency c ∈ s'.main ∨ .stopMotors c ∈ s'.main →
      robot.needsService c = true)
    (hhead : ∀ c, s.main.head? = some (.stopMotors c) → s'.main.head? = some (.stopMotors c))
    (hnotified : ∀ c, robot.needsService c = true → s'.emergency.reasons ≠ 0#16 →
      ¬ s'.Notified c → s.emergency.reasons ≠ 0#16 ∧ ¬ s.Notified c) :
    ∀ c, ServiceInv robot s' c := fun c =>
  (h c).frame (by rw [hservice]; exact id) (by rw [hstage]) (fun d _ => by rw [hlast]) (htasks c)
    (fun hmain _ => hhead c hmain) (hnotified c)

section OtherSteps

variable [One D] [Neg D] [Add D] [Sub D] [Mul D] [LE D] [DecidableLE D]

theorem ServiceInv.updateEmergency {add clear : Reasons} (h : ∀ c, ServiceInv robot s c)
    (hs : s.step robot (.updateEmergency add clear) = some s') : ∀ c, ServiceInv robot s' c := by
  simp only [step] at hs
  split at hs
  · obtain rfl := Option.some.inj hs
    refine ServiceInv.global h rfl rfl rfl (fun c => (h c).tasks) (fun _ hmain => hmain) ?_
    exact fun c _ _ hn => absurd (.inl (Nat.succ_pos _)) hn
  · obtain rfl := Option.some.inj hs
    exact h

theorem ServiceInv.broadcast (h : ∀ c, ServiceInv robot s c)
    (hs : s.step robot .broadcast = some s') : ∀ c, ServiceInv robot s' c := by
  simp only [step, Option.ite_none_right_eq_some, Option.some.injEq] at hs
  obtain ⟨-, rfl⟩ := hs
  refine ServiceInv.global h rfl rfl rfl (fun c => (h c).tasks) (fun _ hmain => hmain) ?_
  exact fun c _ _ hn => absurd (.inr (.inl rfl)) hn

/-- The main thread takes the flags: what was flagged becomes tasks. -/
theorem ServiceInv.getAndClearFlags (h : ∀ c, ServiceInv robot s c)
    (hs : s.step robot .getAndClearFlags = some s') : ∀ c, ServiceInv robot s' c := by
  simp only [step, Option.ite_none_right_eq_some, Option.some.injEq] at hs
  obtain ⟨hhead, rfl⟩ := hs
  obtain ⟨rest, hmain⟩ := List.head?_eq_some_iff.mp hhead
  refine ServiceInv.global h rfl rfl rfl (fun c hc => ?_) (fun c hc => by simp [hhead] at hc) ?_
  · have htasks := (h c).tasks
    simp only [hmain, List.tail_cons, List.mem_append, List.mem_cons, reduceCtorEq, false_or]
      at hc htasks
    rcases hc with (hnew | hold) | (hnew | hold)
    · exact needed_of_mem_dispatchTasks (.inl hnew)
    · exact htasks (.inl hold)
    · exact needed_of_mem_dispatchTasks (.inr hnew)
    · exact htasks (.inr hold)
  · intro c hneeds hr hn
    refine ⟨hr, fun hold => hn ?_⟩
    simp only [Notified, hmain, List.tail_cons, List.mem_append, List.mem_cons, reduceCtorEq,
      false_or] at hold ⊢
    rcases hold with howed | hflag | hbroadcast | hcheck | hstop
    · exact .inl howed
    · -- the flag becomes the task of this service
      refine .inr (.inr (.inl (.inl ?_)))
      rw [hflag]
      exact checkEmergency_mem_dispatchTasks hneeds
    · exact .inr (.inl (.inr hbroadcast))
    · exact .inr (.inr (.inl (.inr hcheck)))
    · exact .inr (.inr (.inr (.inr hstop)))

/-- The check of the main thread: the task only goes if there is no emergency. -/
theorem ServiceInv.checkEmergency (h : ∀ c, ServiceInv robot s c)
    (hs : s.step robot .checkEmergency = some s') : ∀ c, ServiceInv robot s' c := by
  simp only [step] at hs
  split at hs
  · next c₀ rest hmain =>
    have htasks := fun c => (h c).tasks
    simp only [hmain, List.mem_cons, MainTask.checkEmergency.injEq, reduceCtorEq,
      false_or] at htasks
    split at hs
    · next hr =>
      obtain rfl := Option.some.inj hs
      refine ServiceInv.global h rfl rfl rfl (fun c hc => ?_) (fun c hc => by simp [hmain] at hc)
        fun c _ hr' => absurd hr hr'
      exact htasks c (hc.imp_left .inr)
    · next hr =>
      obtain rfl := Option.some.inj hs
      refine ServiceInv.global h rfl rfl rfl (fun c hc => ?_) (fun c hc => by simp [hmain] at hc) ?_
      · simp only [List.mem_cons, MainTask.stopMotors.injEq, reduceCtorEq, false_or] at hc
        rcases hc with hc | hc | hc
        · exact htasks c (.inl (.inr hc))
        · exact htasks c (.inl (.inl hc))
        · exact htasks c (.inr hc)
      · intro c _ hr' hn
        refine ⟨hr', fun hold => hn ?_⟩
        simp only [Notified, hmain, List.mem_cons, MainTask.checkEmergency.injEq,
          MainTask.stopMotors.injEq, reduceCtorEq, false_or] at hold ⊢
        tauto
  · simp at hs

/-- The main thread's own `CheckInputs`: what it has changed it broadcasts next. -/
theorem ServiceInv.checkInputs {add clear : Reasons} (h : ∀ c, ServiceInv robot s c)
    (hs : s.step robot (.checkInputs add clear) = some s') : ∀ c, ServiceInv robot s' c := by
  simp only [step, Option.ite_none_right_eq_some] at hs
  obtain ⟨hhead, hs⟩ := hs
  obtain ⟨rest, hmain⟩ := List.head?_eq_some_iff.mp hhead
  have htasks := fun c => (h c).tasks
  simp only [hmain, List.mem_cons, reduceCtorEq, false_or] at htasks
  split at hs
  · obtain rfl := Option.some.inj hs
    refine ServiceInv.global h rfl rfl rfl (fun c hc => htasks c (by simpa [hmain] using hc))
      (fun c hc => by simp [hhead] at hc) fun c _ _ hn => absurd ?_ hn
    exact .inr (.inr (.inl (by simp)))
  · obtain rfl := Option.some.inj hs
    refine ServiceInv.global h rfl rfl rfl (fun c hc => htasks c (by simpa [hmain] using hc))
      (fun c hc => by simp [hhead] at hc) fun c _ hr hn => ⟨hr, ?_⟩
    simpa [Notified, hmain] using hn

theorem ServiceInv.mainBroadcast (h : ∀ c, ServiceInv robot s c)
    (hs : s.step robot .mainBroadcast = some s') : ∀ c, ServiceInv robot s' c := by
  simp only [step, Option.ite_none_right_eq_some, Option.some.injEq] at hs
  obtain ⟨hhead, rfl⟩ := hs
  obtain ⟨rest, hmain⟩ := List.head?_eq_some_iff.mp hhead
  have htasks := fun c => (h c).tasks
  simp only [hmain, List.mem_cons, reduceCtorEq, false_or] at htasks
  refine ServiceInv.global h rfl rfl rfl (fun c hc => htasks c ?_)
    (fun c hc => by simp [hhead] at hc)
    fun c _ _ hn => absurd (.inr (.inl rfl)) hn
  simpa [signalEmergency, hmain] using hc

/-- **Every step keeps the invariants of both services.** -/
theorem ServiceInv.step {e : MotorEvent D} (h : ∀ c, ServiceInv robot s c)
    (hs : s.step robot e = some s') : ∀ c, ServiceInv robot s' c := by
  cases e with
  | updateEmergency add clear => exact updateEmergency h hs
  | broadcast => exact broadcast h hs
  | inputUpdated =>
    obtain rfl := Option.some.inj hs
    exact ServiceInv.global h rfl rfl rfl (fun c => (h c).tasks) (fun _ hmain => hmain)
      fun c _ hr hn => ⟨hr, hn⟩
  | waitAny =>
    simp only [MotorState.step, Option.ite_none_right_eq_some, Option.some.injEq] at hs
    obtain ⟨⟨hmain, -⟩, rfl⟩ := hs
    refine ServiceInv.global h rfl rfl rfl (by simp) (by simp [hmain]) fun c _ hr hn => ⟨hr, ?_⟩
    simpa [Notified, hmain] using hn
  | getAndClearFlags => exact getAndClearFlags h hs
  | checkEmergency => exact checkEmergency h hs
  | checkInputs add clear => exact checkInputs h hs
  | mainBroadcast => exact mainBroadcast h hs
  | receive message =>
    simp only [MotorState.step, Option.ite_none_right_eq_some] at hs
    obtain ⟨-, hs⟩ := hs
    split at hs
    · obtain rfl := Option.some.inj hs
      exact ServiceInv.global h rfl rfl rfl (fun c => (h c).tasks) (fun _ hmain => hmain)
        fun c _ hr hn => ⟨hr, hn⟩
    · obtain rfl := Option.some.inj hs
      exact h
  | lock c call now => exact ServiceInv.lock h hs
  | readReasons c => exact readReasons h hs
  | setDriverDuty c => exact setDriverDuty h hs
  | setDutyReturns c => exact setDutyReturns h hs
  | unlock c now => exact ServiceInv.unlock h hs
  | escCallback now =>
    obtain rfl := Option.some.inj hs
    exact keepStage h id
  | startOrStop c =>
    simp only [MotorState.step, Option.ite_none_right_eq_some, Option.some.injEq] at hs
    obtain ⟨-, rfl⟩ := hs
    exact keepStage h fun _ _ => rfl

end OtherSteps

/-- With the invariant, an emergency that nothing is going to report any more has stopped the
motors. -/
theorem ServiceInv.motorsStopped (h : ∀ c, ServiceInv robot s c) : MotorsStopped s := by
  intro hr howed hflag htasks _ d
  have hn : ¬ s.Notified d.service := by
    rintro (hpos | hset | hmem | hmem | hmem)
    · omega
    · simp [hflag] at hset
    all_goals simpa [MainTask.notifies] using htasks _ hmem
  exact ((h d.service).stopped hr hn).lastDuty d rfl

end MotorState

open MotorState

variable [Zero D] [One D] [Neg D] [Add D] [Sub D] [Mul D] [LE D] [DecidableLE D]

/-- The threads from the registration of the listener on. -/
def motorSystem (ι : Type*) (robot : Robot D) : StateMachine (MotorState ι D) (MotorEvent D) where
  Init s := Registered robot s
  step s e := s.step robot e

/-- **Motors are stopped in an emergency.** In every state that the threads can reach after
the main thread has registered its listener, if there is an emergency and no notification of
it is under way, the last duty passed to each driver is 0, or none has been passed. -/
theorem motors_stopped {robot : Robot D} {s : MotorState ι D}
    (h : (motorSystem ι robot).Reachable s) : MotorsStopped s := by
  have hinv : ∀ c, ServiceInv robot s c :=
    h.invariant (fun s hinit => hinit.serviceInv) fun s e s' hI hs => ServiceInv.step hI hs
  exact ServiceInv.motorsStopped hinv

/-- A robot without a mower motor. -/
def wheelsOnly : Robot ℚ where
  needsMower := false
  drive := { wheelDistance := 1 / 2, half := 1 / 2 }

/-- The listener is registered and there is no emergency. -/
def noEmergency : MotorState ℕ ℚ :=
  .initial { EmergencyService.initial .standard with reasons := 0#16 }

/-- The diff drive service has seen no emergency and is about to call its drivers when the
stop button is pressed. It starts the motors, and the main thread stops them. -/
def stopWhileDrivingRun : List (MotorEvent ℚ) :=
  [.receive (.controlTwist [1 / 4, 0, 0, 0, 0, 0]), .lock .diffDrive .command 0#32,
    .readReasons .diffDrive, .updateEmergency (EmergencyReason.standard.mask .stop) 0#16,
    .setDriverDuty .diffDrive, .setDriverDuty .diffDrive, .setDutyReturns .diffDrive,
    .unlock .diffDrive 0#32, .broadcast, .waitAny, .getAndClearFlags, .checkEmergency,
    .lock .diffDrive .emergency 0#32, .readReasons .diffDrive, .setDriverDuty .diffDrive,
    .setDriverDuty .diffDrive, .setDutyReturns .diffDrive, .unlock .diffDrive 0#32]

/-- After this run there is an emergency, and the wheels have stopped. -/
theorem motors_stopped_stopWhileDrivingRun :
    ∃ s, (motorSystem ℕ wheelsOnly).run noEmergency stopWhileDrivingRun = some s ∧
      s.emergency.reasons ≠ 0#16 ∧ (s.lastDuty .left = none ∨ s.lastDuty .left = some 0) := by
  have hinit : Registered wheelsOnly noEmergency :=
    ⟨rfl, rfl, fun _ => rfl, fun _ => rfl,
      fun _ => by simp [noEmergency, MotorState.initial, Stage.call?], fun _ _ => rfl⟩
  have hreach : (motorSystem ℕ wheelsOnly).Reachable noEmergency := .init hinit
  refine ⟨_, rfl, by decide, ?_⟩
  refine motors_stopped (@hreach.run _ _ _ _ _ stopWhileDrivingRun rfl) (by decide) rfl rfl ?_ ?_
    .left
  · exact fun task htask => absurd htask (show task ∉ [] from List.not_mem_nil)
  · intro c
    cases c <;> rfl

end OpenMower
