import OpenMower.Motors.Stop
import Mathlib.Algebra.Order.Ring.Rat
import Mathlib.Tactic.NormNum

/-!
# Commands from before an emergency

Once the reasons have become non-zero, a non-zero duty should only be passed to a driver after
a new command has been received (`FreshCommand`); a `SetDuty` that has read the reasons
before is excepted, which is why the stage of a `SetDuty` remembers the epoch of its read.

The stored duty is only zeroed by the handler of `EMERGENCY_CHANGED`, which looks at the
reasons as they are by then. If they have been cleared again, the old command stays in force.
`stale_command_not_sent` shows that the property holds in every run in which no clearing of
the reasons finds such a command (`ClearedAfterStop`).
-/

namespace OpenMower

variable {ι D : Type*} [Zero D]

namespace MotorState

/-- When `SetDuty` passes a non-zero duty to a driver, its service has received a command
since the reasons last became non-zero before `SetDuty` read them. -/
def FreshCommand (s : MotorState ι D) (e : MotorEvent D) (_ : MotorState ι D) : Prop :=
  ∀ c call emergency epoch d rest, e = .setDriverDuty c →
    s.stage c = .sending call emergency epoch (d :: rest) →
      (s.service c).dutyFor emergency d ≠ 0 → epoch ≤ s.received c

/-- The service has received a command in this epoch, or it has no non-zero duty and no
command that it has not begun to process. -/
def NoStaleCommand (s : MotorState ι D) (c : MotorServiceId) : Prop :=
  s.received c = s.epoch ∨ (s.waiting c = none ∧ ∀ d, (s.service c).duty d = 0)

/-- The step does not clear the emergency, or no service has a command from before it. -/
def ClearedAfterStop (s : MotorState ι D) (_ : MotorEvent D) (s' : MotorState ι D) : Prop :=
  s.emergency.reasons ≠ 0#16 → s'.emergency.reasons = 0#16 → ∀ c, s.NoStaleCommand c

/-- The invariant of one service: without an emergency it has no command from before the last
one, and a `SetDuty` that has seen no emergency passes a command of its epoch, or nothing. -/
structure FreshInv (s : MotorState ι D) (c : MotorServiceId) : Prop where
  received_le : s.received c ≤ s.epoch
  noStale : s.emergency.reasons = 0#16 → s.NoStaleCommand c
  sending : ∀ call epoch rest, s.stage c = .sending call false epoch rest →
    epoch ≤ s.received c ∨ ∀ d, (s.service c).duty d = 0

variable {robot : Robot D} {s s' : MotorState ι D} {c : MotorServiceId}

theorem FreshInv.of_initial (emergency : EmergencyService ι) (c : MotorServiceId) :
    FreshInv (initial emergency : MotorState ι D) c :=
  ⟨Nat.zero_le _, fun _ => .inr ⟨rfl, fun _ => rfl⟩, by simp [initial]⟩

/-- A step of a service that sets no duty that was 0, and leaves `SetDuty` or goes on in it. -/
theorem FreshInv.setService {c₀ : MotorServiceId} {service : MotorService D} {stage : Stage}
    (h : ∀ c, FreshInv s c)
    (hduty : (∀ d, (s.service c₀).duty d = 0) → ∀ d, service.duty d = 0)
    (hstage : ∀ call epoch rest, stage = .sending call false epoch rest →
      epoch ≤ s.received c₀ ∨ ∀ d, service.duty d = 0) :
    ∀ c, FreshInv (s.setService c₀ service stage) c := by
  intro c
  obtain ⟨hle, hstale, hsending⟩ := h c
  by_cases hc : c = c₀
  · subst hc
    refine ⟨hle, fun hr => ?_, ?_⟩
    · refine (hstale hr).imp id fun ⟨hwait, hzero⟩ => ⟨hwait, ?_⟩
      have hzero' : ∀ d, service.duty d = 0 := hduty hzero
      simpa [MotorState.setService] using hzero'
    · simpa [MotorState.setService] using hstage
  · refine ⟨hle, ?_, ?_⟩
    · simpa [MotorState.setService, NoStaleCommand, Function.update_of_ne hc] using hstale
    · simpa [MotorState.setService, Function.update_of_ne hc] using hsending

/-- A change of the reasons: if it begins an epoch there is an emergency, and if it ends an
emergency no command is stale by assumption. -/
theorem FreshInv.writeReasons {add clear : Reasons} (h : FreshInv s c)
    (hcleared : s.emergency.reasons ≠ 0#16 →
      (s.emergency.updateEmergency add clear).reasons = 0#16 → s.NoStaleCommand c) :
    FreshInv (s.writeReasons add clear) c := by
  obtain ⟨hle, hstale, hsending⟩ := h
  refine ⟨?_, fun hr => ?_, hsending⟩
  · refine hle.trans ?_
    simp only [MotorState.writeReasons]
    split <;> omega
  · have hr' : (s.emergency.updateEmergency add clear).reasons = 0#16 := hr
    have hepoch : (s.writeReasons add clear).epoch = s.epoch := by
      rw [MotorState.writeReasons, if_neg fun hnew => hnew.2 hr']
    have hold : s.NoStaleCommand c := by
      by_cases hs : s.emergency.reasons = 0#16
      · exact hstale hs
      · exact hcleared hs hr'
    rw [NoStaleCommand, hepoch]
    exact hold

section Steps

variable [One D] [Neg D] [Add D] [Sub D] [Mul D] [LE D] [DecidableLE D]

/-- A received command belongs to the current epoch. -/
theorem FreshInv.receive {message : MotorMessage D} (h : ∀ c, FreshInv s c)
    (hs : s.step robot (.receive message) = some s') : ∀ c, FreshInv s' c := by
  simp only [step, Option.ite_none_right_eq_some] at hs
  obtain ⟨-, hs⟩ := hs
  split at hs
  · obtain rfl := Option.some.inj hs
    intro c
    obtain ⟨hle, hstale, hsending⟩ := h c
    by_cases hc : c = message.service
    · subst hc
      refine ⟨by simp, fun _ => .inl (by simp), fun call epoch rest hstage => ?_⟩
      have hsend := hsending call epoch rest hstage
      simp only [Function.update_self]
      exact hsend.imp (fun hepoch => hepoch.trans hle) id
    · refine ⟨?_, ?_, ?_⟩
      · simpa [Function.update_of_ne hc] using hle
      · simpa [NoStaleCommand, Function.update_of_ne hc] using hstale
      · simpa [Function.update_of_ne hc] using hsending
  · obtain rfl := Option.some.inj hs
    exact h

/-- Taking the mutex: a command that is processed without an emergency has been received in
this epoch, since it was waiting. -/
theorem FreshInv.lock {c₀ : MotorServiceId} {call : Call} {now : Micros}
    (h : ∀ c, FreshInv s c) (hs : s.step robot (.lock c₀ call now) = some s') :
    ∀ c, FreshInv s' c := by
  have henter : ∀ call' epoch rest (dutySent : Bool),
      Stage.enter call dutySent ≠ .sending call' false epoch rest := by
    intro call' epoch rest dutySent
    cases dutySent <;> simp [Stage.enter]
  simp only [step, Option.ite_none_right_eq_some] at hs
  obtain ⟨-, hs⟩ := hs
  cases call with
  | tick =>
    simp only [MotorState.lock, Option.ite_none_right_eq_some, Option.some.injEq] at hs
    obtain ⟨-, rfl⟩ := hs
    refine FreshInv.setService h (fun hzero => ?_) fun _ _ _ hst => absurd hst (henter _ _ _ _)
    rcases (s.service c₀).beginTick_duty c₀ now with hd | hd
    · rwa [hd]
    · simp [hd]
  | command =>
    simp only [MotorState.lock, Option.ite_none_right_eq_some, Option.map_eq_some_iff] at hs
    obtain ⟨-, message, hwait, rfl⟩ := hs
    intro c
    obtain ⟨hle, hstale, hsending⟩ := h c
    by_cases hc : c = c₀
    · subst hc
      -- a command was waiting, so the service had received one in this epoch
      refine ⟨hle, fun hr => .inl ?_, ?_⟩
      · exact (hstale hr).resolve_right fun hnone => by simp [hwait] at hnone
      · intro _ _ _ hst
        exact absurd (by simpa [MotorState.setService] using hst) (henter _ _ _ _)
    · refine ⟨hle, ?_, ?_⟩
      · simpa [MotorState.setService, NoStaleCommand, Function.update_of_ne hc] using hstale
      · simpa [MotorState.setService, Function.update_of_ne hc] using hsending
  | emergency =>
    simp only [MotorState.lock, Option.ite_none_right_eq_some, Option.some.injEq] at hs
    obtain ⟨-, rfl⟩ := hs
    exact FreshInv.setService h (fun _ _ => rfl) (by simp)

/-- The read of the reasons: if there is no emergency, the command is of the current epoch. -/
theorem FreshInv.readReasons {c₀ : MotorServiceId} (h : ∀ c, FreshInv s c)
    (hs : s.step robot (.readReasons c₀) = some s') : ∀ c, FreshInv s' c := by
  obtain ⟨call, -, rfl⟩ := readReasons_eq_some hs
  refine FreshInv.setService h id fun call epoch rest hst => ?_
  obtain ⟨-, hread, rfl, -⟩ := Stage.sending.inj hst
  have hr : s.emergency.reasons = 0#16 := by
    rwa [decide_eq_false_iff_not, not_not] at hread
  exact ((h c₀).noStale hr).imp (fun hrec => hrec.ge) And.right

theorem FreshInv.setDriverDuty {c₀ : MotorServiceId} (h : ∀ c, FreshInv s c)
    (hs : s.step robot (.setDriverDuty c₀) = some s') : ∀ c, FreshInv s' c := by
  obtain ⟨call, emergency, epoch, d, rest, hstage, rfl⟩ := setDriverDuty_eq_some hs
  have hnext : ∀ c, FreshInv (s.setService c₀ (s.service c₀)
      (.sending call emergency epoch rest)) c := by
    refine FreshInv.setService h id fun call' epoch' rest' hst => ?_
    obtain ⟨rfl, rfl, rfl, rfl⟩ := Stage.sending.inj hst
    exact (h c₀).sending _ _ _ hstage
  exact fun c => ⟨(hnext c).received_le, (hnext c).noStale, (hnext c).sending⟩

/-- Every step that clears no emergency with a stale command keeps the invariants. -/
theorem FreshInv.step {e : MotorEvent D} (h : ∀ c, FreshInv s c)
    (hs : s.step robot e = some s') (hg : ClearedAfterStop s e s') : ∀ c, FreshInv s' c := by
  by_cases hsignal : e.IsSignal
  · obtain ⟨s₁, _, _, _, _, _, hs₁, rfl⟩ := step_signal hsignal hs
    intro c
    rcases hs₁ with rfl | ⟨add, clear, rfl⟩
    · exact ⟨(h c).received_le, (h c).noStale, (h c).sending⟩
    · obtain ⟨hle, hstale, hsending⟩ := (h c).writeReasons fun hr hr' => hg hr hr' c
      exact ⟨hle, hstale, hsending⟩
  cases e with
  | receive message => exact receive h hs
  | lock c call now => exact FreshInv.lock h hs
  | readReasons c => exact readReasons h hs
  | setDriverDuty c => exact setDriverDuty h hs
  | setDutyReturns c =>
    obtain ⟨call, emergency, epoch, -, rfl⟩ := setDutyReturns_eq_some hs
    exact FreshInv.setService h id (by simp)
  | unlock c now =>
    obtain ⟨call, -, rfl⟩ := unlock_eq_some hs
    cases call with
    | tick =>
      refine FreshInv.setService h (fun hzero => ?_) (by simp)
      rcases (s.service c).endTick_duty c now with hd | hd
      · rwa [hd]
      · simp [hd]
    | command => exact FreshInv.setService h id (by simp)
    | emergency =>
      have hfree := @FreshInv.setService _ _ _ _ c (s.service c) .free h id (by simp)
      exact fun c => ⟨(hfree c).received_le, (hfree c).noStale, (hfree c).sending⟩
  | escCallback now =>
    obtain rfl := Option.some.inj hs
    exact FreshInv.setService h id ((h .mower).sending)
  | startOrStop c =>
    -- all duties are 0 afterwards
    simp only [MotorState.step, Option.ite_none_right_eq_some, Option.some.injEq] at hs
    obtain ⟨-, rfl⟩ := hs
    exact FreshInv.setService h (fun _ _ => rfl) fun _ _ _ _ => .inr fun _ => rfl
  | _ => exact absurd trivial hsignal

end Steps

/-- With the invariant, a driver only gets a non-zero duty of the epoch of the read. -/
theorem FreshInv.freshCommand {e : MotorEvent D} (h : ∀ c, FreshInv s c) :
    FreshCommand s e s' := by
  rintro c call emergency epoch d rest - hstage hne
  cases emergency with
  | true => simp at hne
  | false => exact ((h c).sending _ _ _ hstage).resolve_right fun hzero => hne (hzero d)

end MotorState

open MotorState

variable [One D] [Neg D] [Add D] [Sub D] [Mul D] [LE D] [DecidableLE D]

/-- **No stale command.** In every run from the start of the services in which the reasons are
only cleared when each service has received a command since they became non-zero, or has
stopped, a driver gets a non-zero duty only from a command received after the last emergency
before `SetDuty` read the reasons. -/
theorem stale_command_not_sent (robot : Robot D) (emergency : EmergencyService ι)
    (es : List (MotorEvent D))
    (hes : (motorSystem ι robot).EveryStep ClearedAfterStop (.initial emergency) es) :
    (motorSystem ι robot).EveryStep FreshCommand (.initial emergency) es := by
  have hinit : ∀ c, FreshInv (initial emergency : MotorState ι D) c := .of_initial emergency
  exact hes.imp hinit fun _ _ _ hI hs hg => ⟨FreshInv.step hI hs hg, FreshInv.freshCommand hI⟩

/-- The services are created with the emergencies of the start. These are cleared, a twist
command starts the wheels, and a tick ends. Then the stop button is pressed and released before
the main thread gets to see it, and the next tick runs. -/
def releasedBeforeDispatchRun : List (MotorEvent ℚ) :=
  [.updateEmergency 0#16 (BitVec.allOnes 16), .receive (.controlTwist [1 / 4, 0, 0, 0, 0, 0]),
    .lock .diffDrive .command 0#32, .readReasons .diffDrive, .setDriverDuty .diffDrive,
    .setDriverDuty .diffDrive, .setDutyReturns .diffDrive, .unlock .diffDrive 0#32,
    .lock .diffDrive .tick 40000#32, .unlock .diffDrive 40000#32,
    .updateEmergency (EmergencyReason.standard.mask .stop) 0#16,
    .updateEmergency 0#16 (EmergencyReason.standard.mask .stop),
    .lock .diffDrive .tick 80000#32, .readReasons .diffDrive]

/-- The tick passes the old duty to the left wheel. -/
theorem not_freshCommand_releasedBeforeDispatchRun :
    ¬ (motorSystem ℕ wheelsOnly).EveryStep FreshCommand (.initial (.initial .standard))
      (releasedBeforeDispatchRun ++ [.setDriverDuty .diffDrive]) := by
  intro h
  have hspeed : MotorMessage.limitSpeed ((1 / 4 : ℚ) - 1 / 2 * (1 / 2) * 0) ≠ 0 := by
    norm_num [MotorMessage.limitSpeed]
  have hlast := h.of_run rfl rfl
  have hle : 2 ≤ 1 := hlast .diffDrive .tick false 2 .left [.right] rfl rfl hspeed
  exact absurd hle (by decide)

/-- The emergencies of the start are cleared, and a twist command is received and sent. -/
def commandAfterStartRun : List (MotorEvent ℚ) :=
  [.updateEmergency 0#16 (BitVec.allOnes 16), .receive (.controlTwist [1 / 4, 0, 0, 0, 0, 0]),
    .lock .diffDrive .command 0#32, .readReasons .diffDrive, .setDriverDuty .diffDrive]

/-- The clearing finds no command, and the command that is sent is fresh. -/
theorem stale_command_not_sent_commandAfterStartRun :
    (motorSystem ℕ wheelsOnly).EveryStep FreshCommand (.initial (.initial .standard))
      commandAfterStartRun := by
  refine stale_command_not_sent wheelsOnly _ commandAfterStartRun ?_
  rintro s₁ ⟨⟩
  refine ⟨fun _ _ c => .inr ⟨rfl, fun _ => rfl⟩, ?_⟩
  rintro s₂ ⟨⟩
  refine ⟨fun hr => absurd rfl hr, ?_⟩
  rintro s₃ ⟨⟩
  refine ⟨fun hr => absurd rfl hr, ?_⟩
  rintro s₄ ⟨⟩
  refine ⟨fun hr => absurd rfl hr, ?_⟩
  rintro s₅ ⟨⟩
  exact ⟨fun hr => absurd rfl hr, trivial⟩

end OpenMower
