import OpenMower.Emergency.System

/-!
# When `TIMEOUT_HIGH_LEVEL` tells the truth

After a `CheckTimeouts` at the true time `T` the bit `TIMEOUT_HIGH_LEVEL` should be clear
only if a high-level message was handled less than a second before `T`
(`TimeoutTruthful`). The check compares a 32-bit clock difference with a time stamp that
starts at zero, which goes wrong in two kinds of states (`FalselyFresh`): before the first
message, whenever the clock shows less than a second, in particular right after boot; and
after the last message, whenever the age of that message is back below a second modulo
`2 ^ 32` µs.

`timeoutHighLevel_truthful_iff` shows that these are the only ones: in every run, the bit
is truthful after every `CheckTimeouts` exactly when none of them falls into such a state.
The invariant behind it, `TimeoutInv`, ties the time stamp to the history of messages.
-/

namespace OpenMower

open ModularClock WordMask

variable {ι : Type*} {E : EmergencyReason}

namespace EmergencyState

/-- The true time of the latest message, or the value the time stamp starts with. -/
def lastHandled (s : EmergencyState ι) : ℤ := s.handled.head?.getD 0

/-- The step, if it ends a `CheckTimeouts` at `T`, leaves the bit clear only if a message was
handled in the second before `T`. -/
def TimeoutTruthful (E : EmergencyReason) (s : EmergencyState ι) (e : EmergencyEvent ι)
    (s' : EmergencyState ι) : Prop :=
  ∀ T reasons, e = .finish .emergency → s.pending .emergency = .checkTimeouts T reasons →
    E.mem .timeoutHighLevel s'.service.reasons = false →
      ∃ T' ∈ s'.handled, T - 1000000 < T' ∧ T' ≤ T

/-- At `T` the time stamp looks less than a second old although no message was handled in
that second. -/
def FalselyFresh (handled : List ℤ) (T : ℤ) : Prop :=
  match handled with
  | [] => T % 2 ^ 32 < 1000000
  | last :: _ => InWrapWindow 32 1000000 (T - last)

/-- The step does not end a `CheckTimeouts` that found a falsely fresh time stamp. -/
def AvoidsFalselyFresh (s : EmergencyState ι) (e : EmergencyEvent ι) (_ : EmergencyState ι) :
    Prop :=
  ∀ T reasons, e = .finish .emergency → s.pending .emergency = .checkTimeouts T reasons →
    ¬ FalselyFresh s.handled T

/-- The time stamp is the reading of the latest message, and a sampled `CheckTimeouts` holds
the comparison with it. -/
structure TimeoutInv (E : EmergencyReason) (s : EmergencyState ι) : Prop where
  stamp : s.service.lastHighLevelEmergencyMessage = micros s.lastHandled
  latest : ∀ T ∈ s.handled, T ≤ s.lastHandled
  le_clock : s.lastHandled ≤ s.clock
  sampled : ∀ T reasons, s.pending .emergency = .checkTimeouts T reasons →
    s.lastHandled ≤ T ∧ E.mem .timeoutHighLevel reasons =
      decide (1000000 ≤ (T - s.lastHandled) % 2 ^ 32)

theorem TimeoutInv.of_isInitial {s : EmergencyState ι} (h : s.IsInitial E) : TimeoutInv E s := by
  obtain ⟨inputs, -, rfl⟩ := h
  refine ⟨?_, ?_, ?_, ?_⟩
  · simp [initial, lastHandled, EmergencyService.initial]
  · simp [initial]
  · simp [initial, lastHandled]
  · simp [initial]

/-- A step that leaves the time stamp, the history and the pending check alone and does not
turn the clock back keeps the invariant. -/
theorem TimeoutInv.of_frame {s s' : EmergencyState ι} (h : TimeoutInv E s)
    (hlast : s'.service.lastHighLevelEmergencyMessage = s.service.lastHighLevelEmergencyMessage)
    (hhandled : s'.handled = s.handled) (hclock : s.clock ≤ s'.clock)
    (hpending : ∀ T reasons, s'.pending .emergency = .checkTimeouts T reasons →
      s.pending .emergency = .checkTimeouts T reasons) : TimeoutInv E s' := by
  have hl : s'.lastHandled = s.lastHandled := by rw [lastHandled, lastHandled, hhandled]
  refine ⟨?_, ?_, ?_, ?_⟩
  · rw [hlast, hl]
    exact h.stamp
  · rw [hhandled, hl]
    exact h.latest
  · rw [hl]
    exact h.le_clock.trans hclock
  · intro T reasons hp
    rw [hl]
    exact h.sampled T reasons (hpending T reasons hp)

theorem checkRequiredServices_lastMessage {service : EmergencyService ι} {isHealthy : ι → Bool} :
    (service.checkRequiredServices E isHealthy).1.lastHighLevelEmergencyMessage =
      service.lastHighLevelEmergencyMessage := by
  unfold EmergencyService.checkRequiredServices
  split <;> rfl

theorem requireService_lastMessage {service service' : EmergencyService ι} {svc : ι}
    (h : service.requireService E svc = some service') :
    service'.lastHighLevelEmergencyMessage = service.lastHighLevelEmergencyMessage := by
  unfold EmergencyService.requireService at h
  split at h
  · obtain rfl := Option.some.inj h
    rfl
  · simp at h

/-- Handling a message makes it the latest one. -/
theorem TimeoutInv.stampMessage {s s' : EmergencyState ι} {newValue0 newValue1 : Reasons}
    {time : ℤ} (h : TimeoutInv E s)
    (hs : s.step E (.stampMessage newValue0 newValue1 time) = some s') : TimeoutInv E s' := by
  simp only [step, Option.ite_none_right_eq_some, Option.some.injEq] at hs
  obtain ⟨⟨-, hc⟩, rfl⟩ := hs
  have hl := h.le_clock
  refine ⟨rfl, ?_, le_refl _, ?_⟩
  · intro T hT
    rcases List.mem_cons.mp hT with rfl | hT
    · exact le_refl _
    · exact (h.latest T hT).trans (hl.trans hc)
  · intro T reasons hp
    simp at hp

/-- Sampling compares the true age of the latest message modulo `2 ^ 32` µs. -/
theorem TimeoutInv.sampleTimeouts {s s' : EmergencyState ι} {time : ℤ} (h : TimeoutInv E s)
    (hs : s.step E (.sampleTimeouts time) = some s') : TimeoutInv E s' := by
  simp only [step, Option.ite_none_right_eq_some, Option.some.injEq] at hs
  obtain ⟨⟨-, hc⟩, rfl⟩ := hs
  have hl := h.le_clock
  refine ⟨h.stamp, h.latest, hl.trans hc, ?_⟩
  intro T reasons hp
  simp only [Function.update_self, Pending.checkTimeouts.injEq] at hp
  obtain ⟨rfl, rfl⟩ := hp
  refine ⟨hl.trans hc, ?_⟩
  rw [EmergencyService.mem_sampleTimeouts, h.stamp, decide_eq_decide]
  exact le_reading_sub_iff

theorem TimeoutInv.step {s s' : EmergencyState ι} {e : EmergencyEvent ι} (h : TimeoutInv E s)
    (hs : s.step E e = some s') : TimeoutInv E s' := by
  cases e with
  | stampMessage newValue0 newValue1 time => exact h.stampMessage hs
  | sampleTimeouts time => exact h.sampleTimeouts hs
  | poll t now =>
    simp only [EmergencyState.step, Option.ite_none_right_eq_some, Option.some.injEq] at hs
    obtain ⟨-, rfl⟩ := hs
    refine h.of_frame rfl rfl (le_refl _) fun T reasons hp => ?_
    cases t with
    | main => simpa using hp
    | emergency => simp at hp
  | finish t =>
    simp only [EmergencyState.step, Option.ite_none_left_eq_some, Option.some.injEq] at hs
    obtain ⟨-, rfl⟩ := hs
    refine h.of_frame (by rw [applyPending_eq]; rfl) rfl (le_refl _) fun T reasons hp => ?_
    cases t with
    | main => simpa using hp
    | emergency => simp at hp
  | checkRequiredServices isHealthy =>
    simp only [EmergencyState.step, Option.ite_none_right_eq_some, Option.some.injEq] at hs
    obtain ⟨-, rfl⟩ := hs
    exact h.of_frame checkRequiredServices_lastMessage rfl (le_refl _) fun _ _ hp => hp
  | requireService svc =>
    simp only [EmergencyState.step, Option.ite_none_right_eq_some, Option.map_eq_some_iff] at hs
    obtain ⟨-, service, hr, rfl⟩ := hs
    exact h.of_frame (requireService_lastMessage hr) rfl (le_refl _) fun _ _ hp => hp
  | onStop =>
    simp only [EmergencyState.step, Option.ite_none_right_eq_some, Option.some.injEq] at hs
    obtain ⟨-, rfl⟩ := hs
    exact h.of_frame rfl rfl (le_refl _) fun _ _ hp => hp
  | updateInput i newActive predate time =>
    simp only [EmergencyState.step, Option.ite_none_right_eq_some, Option.some.injEq] at hs
    obtain ⟨hc, rfl⟩ := hs
    exact h.of_frame rfl rfl hc fun _ _ hp => hp
  | configureInputs inputs =>
    simp only [EmergencyState.step, Option.ite_none_right_eq_some, Option.some.injEq] at hs
    obtain ⟨-, rfl⟩ := hs
    exact h.of_frame rfl rfl (le_refl _) fun _ _ hp => hp

theorem Reachable.timeoutInv {s : EmergencyState ι} (h : (emergencySystem E ι).Reachable s) :
    TimeoutInv E s :=
  h.invariant (fun _ => .of_isInitial) fun _ _ _ hI hs => hI.step hs

/-- The end of a `CheckTimeouts` leaves the bit clear exactly when the wrapped age of the
latest message is below a second. -/
theorem TimeoutInv.mem_finish {s s' : EmergencyState ι} {T : ℤ} {reasons : Reasons}
    (h : TimeoutInv E s) (hp : s.pending .emergency = .checkTimeouts T reasons)
    (hs : s.step E (.finish .emergency) = some s') :
    s'.handled = s.handled ∧ (E.mem .timeoutHighLevel s'.service.reasons = false ↔
      (T - s.lastHandled) % 2 ^ 32 < 1000000) := by
  simp only [EmergencyState.step, hp, Option.ite_none_left_eq_some, Option.some.injEq] at hs
  obtain ⟨-, rfl⟩ := hs
  refine ⟨rfl, ?_⟩
  simp only [applyPending, EmergencyService.mem_updateEmergency, EmergencyReason.mem_timeouts,
    (h.sampled T reasons hp).2]
  simp

/-- One `CheckTimeouts` in a reachable state. -/
theorem timeoutTruthful_iff {s s' : EmergencyState ι} {e : EmergencyEvent ι}
    (h : TimeoutInv E s) (hs : s.step E e = some s') :
    TimeoutTruthful E s e s' ↔ AvoidsFalselyFresh s e s' := by
  refine forall_congr' fun T => forall_congr' fun reasons => forall_congr' fun he =>
    forall_congr' fun hp => ?_
  subst he
  obtain ⟨hhandled, hclear⟩ := h.mem_finish hp hs
  obtain ⟨hle, -⟩ := h.sampled T reasons hp
  rw [hclear, hhandled]
  cases hl : s.handled with
  | nil =>
    have h0 : s.lastHandled = 0 := by simp [lastHandled, hl]
    simp [FalselyFresh, h0]
  | cons last rest =>
    have hlast : s.lastHandled = last := by simp [lastHandled, hl]
    have hlatest := h.latest
    rw [hl, hlast] at hlatest
    rw [hlast] at hle
    simp only [FalselyFresh, hlast, InWrapWindow, not_and, not_lt]
    constructor
    · intro htrue hold
      by_contra hwrap
      obtain ⟨T', hT', hgt, -⟩ := htrue (by omega)
      have := hlatest T' hT'
      omega
    · intro havoid hfresh
      refine ⟨last, List.mem_cons_self, ?_, hle⟩
      by_contra hold
      have := havoid (by omega)
      omega

end EmergencyState

open EmergencyState

/-- **Truthful timeouts.** In every run from the initial field values, `TIMEOUT_HIGH_LEVEL`
is truthful after every `CheckTimeouts` if and only if no `CheckTimeouts` meets a falsely
fresh time stamp: none runs before the first message at a time whose low 32 bits are below
one second, and none runs at a time when the latest message is at least one second old but
less than one second modulo `2 ^ 32` µs. -/
theorem timeoutHighLevel_truthful_iff {s : EmergencyState ι} (h : s.IsInitial E)
    (es : List (EmergencyEvent ι)) :
    (emergencySystem E ι).EveryStep (TimeoutTruthful E) s es ↔
      (emergencySystem E ι).EveryStep AvoidsFalselyFresh s es :=
  StateMachine.everyStep_congr
    (fun _ _ _ hr hs => timeoutTruthful_iff (Reachable.timeoutInv hr) hs) (.init h) es

/-- A message handled five seconds after boot, and a check `2 ^ 32` µs after it. -/
def staleMessageRun : List (EmergencyEvent ℕ) :=
  [.stampMessage 0#16 0#16 5000000, .finish .emergency,
    .sampleTimeouts (5000000 + 2 ^ 32), .finish .emergency]

/-- The only message of this run is more than an hour old when the check finds it fresh. -/
theorem not_timeoutTruthful_staleMessageRun :
    ¬ (emergencySystem .standard ℕ).EveryStep (TimeoutTruthful .standard)
      (EmergencyState.initial .standard []) staleMessageRun := by
  intro h
  have hlast := ((((h _ rfl).2 _ rfl).2 _ rfl).2 _ rfl).1
  exact absurd (hlast _ _ rfl rfl (by decide)) (by decide)

/-- The criterion on the same run. -/
theorem timeoutHighLevel_truthful_iff_staleMessageRun :
    (emergencySystem .standard ℕ).EveryStep (TimeoutTruthful .standard)
        (EmergencyState.initial .standard []) staleMessageRun ↔
      (emergencySystem .standard ℕ).EveryStep AvoidsFalselyFresh
        (EmergencyState.initial .standard []) staleMessageRun :=
  timeoutHighLevel_truthful_iff ⟨[], by decide, rfl⟩ staleMessageRun

end OpenMower
