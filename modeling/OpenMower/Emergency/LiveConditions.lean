import OpenMower.Emergency.System

/-!
# High-level messages and live physical conditions

The reasons word is meant to keep the bits of a physical condition for as long as the
condition lasts, next to a sticky `LATCH` bit. A high-level message clears every bit of its
second word except `SERVICE_NOT_READY`, hence also bits of conditions that still hold:
`live_condition_kept_iff` says that the bits of a live condition survive a message exactly
when the message clears none of them without adding it back.

What was cleared comes back with the next `CheckInputs` (`live_condition_restored`).
-/

namespace OpenMower

open ModularClock WordMask

variable {ι : Type*} {E : EmergencyReason}

/-- The bits of physical conditions among the reasons of an input. -/
def Input.conditionBits (E : EmergencyReason) (input : Input) : Reasons :=
  input.emergencyReason &&& E.conditions

namespace EmergencyState

/-- The input is active past its delay at the true time `now`, and its condition bits have
been reported into the reasons. -/
structure LiveCondition (E : EmergencyReason) (s : EmergencyState ι) (now : ℤ) (input : Input) :
    Prop where
  mem : input ∈ s.inputs
  active : input.active = true
  elapsed : input.emergencyDelay ≤ input.activeDuration (micros now)
  reported : Covers s.service.reasons (input.conditionBits E)

/-- The service still has the condition bits of the input, so that an emergency remains. -/
def KeepsCondition (E : EmergencyReason) (service : EmergencyService ι) (input : Input) : Prop :=
  Covers service.reasons (input.conditionBits E) ∧
    (input.conditionBits E ≠ 0#16 → service.getReasons ≠ 0#16)

/-- The two sections of `OnHighLevelEmergencyChanged` in a row are the whole method. -/
theorem run_highLevelEmergency {s : EmergencyState ι} {newValue0 newValue1 : Reasons} {time : ℤ}
    (hp : s.pending .emergency = .idle) (hc : s.clock ≤ time) :
    ∃ s', (emergencySystem E ι).run s [.stampMessage newValue0 newValue1 time,
        .finish .emergency] = some s' ∧
      s'.service = s.service.onHighLevelEmergencyChanged E newValue0 newValue1 (micros time) := by
  simp [StateMachine.run, emergencySystem, step, hp, hc, applyPending,
    EmergencyService.onHighLevelEmergencyChanged]

/-- Clearing `SERVICE_NOT_READY` or not makes no difference to the condition bits. -/
theorem conditionBits_and_highLevelClear {input : Input} {newValue0 newValue1 : Reasons} :
    input.conditionBits E &&& (EmergencyService.highLevelClear E newValue1 &&& ~~~newValue0) =
      input.conditionBits E &&& (newValue1 &&& ~~~newValue0) := by
  have hsnr : E.conditions &&& ~~~E.mask .serviceNotReady = E.conditions := by
    refine BitVec.eq_of_getLsbD_eq fun i hi => ?_
    rw [BitVec.getLsbD_and, BitVec.getLsbD_not, EmergencyReason.getLsbD_mask]
    by_cases hb : (E.bit .serviceNotReady : ℕ) = i
    · have hno : E.mem .serviceNotReady E.conditions = false := by simp
      rw [← hb, show E.conditions.getLsbD (E.bit .serviceNotReady) = false from hno]
      rfl
    · simp [hi, hb]
  calc input.conditionBits E &&& (EmergencyService.highLevelClear E newValue1 &&& ~~~newValue0)
      = input.emergencyReason &&& (E.conditions &&& ~~~E.mask .serviceNotReady)
          &&& (newValue1 &&& ~~~newValue0) := by
        rw [Input.conditionBits, EmergencyService.highLevelClear]
        refine BitVec.eq_of_getLsbD_eq fun i _ => ?_
        simp only [BitVec.getLsbD_and]
        ac_rfl
    _ = input.conditionBits E &&& (newValue1 &&& ~~~newValue0) := by
        rw [hsnr, Input.conditionBits]

end EmergencyState

open EmergencyState

/-- **Live conditions under high-level messages.** In every state with a live condition,
reachable or not, and for every two words, the condition bits survive
`OnHighLevelEmergencyChanged` if and only if every one of them that the second word names is
also in the first word. -/
theorem live_condition_kept_iff {s : EmergencyState ι} {now : ℤ} {input : Input}
    (hl : LiveCondition E s now input) (newValue0 newValue1 : Reasons) (time : ℤ) :
    KeepsCondition E
        (s.service.onHighLevelEmergencyChanged E newValue0 newValue1 (micros time)) input ↔
      input.conditionBits E &&& (newValue1 &&& ~~~newValue0) = 0#16 := by
  rw [← conditionBits_and_highLevelClear, ← covers_rewrite_iff hl.reported]
  exact ⟨fun h => h.1, fun h => ⟨h, fun hne => h.ne_zero hne⟩⟩

/-- A stop button without delay, pressed and reported. -/
def stopButton : Input where
  idx := 0#8
  emergencyReason := EmergencyReason.standard.mask .stop ||| EmergencyReason.standard.mask .latch

/-- The stop button is pressed at one second and reported. -/
def stopPressedRun : List (EmergencyEvent ℕ) :=
  [.updateInput 0 true 0#32 1000000, .poll .main (micros 1000000), .finish .main]

/-- The same button while it is pressed. -/
def pressedStopButton : Input :=
  { stopButton with active := true, activeSince := micros 1000000 }

/-- The run makes the stop button a live condition. -/
private theorem stopPressedRun_live {s : EmergencyState ℕ}
    (h : (emergencySystem .standard ℕ).run (.initial .standard [stopButton]) stopPressedRun =
      some s) :
    (emergencySystem .standard ℕ).Reachable s ∧
      LiveCondition .standard s 1000000 pressedStopButton := by
  refine ⟨StateMachine.Reachable.run (.init ⟨[stopButton], by decide, rfl⟩) h, ?_⟩
  obtain rfl := Option.some.inj h
  exact ⟨by decide, by decide, by decide, by decide⟩

/-- A message that clears everything clears the emergency of a stop button that is still
pressed. -/
theorem not_live_condition_kept :
    ∃ s, (emergencySystem .standard ℕ).Reachable s ∧
      LiveCondition .standard s 1000000 pressedStopButton ∧
      (s.service.onHighLevelEmergencyChanged .standard 0#16 0xFFFF#16
        (micros 1000000)).getReasons = 0#16 ∧
      ¬ KeepsCondition .standard (s.service.onHighLevelEmergencyChanged .standard 0#16 0xFFFF#16
        (micros 1000000)) pressedStopButton := by
  have hlive := stopPressedRun_live rfl
  exact ⟨_, hlive.1, hlive.2, by decide, fun h => h.2 (by decide) (by decide)⟩

/-- The criterion for the same button and message. -/
theorem live_condition_kept_iff_stopButton :
    ∃ s : EmergencyState ℕ, LiveCondition .standard s 1000000 pressedStopButton ∧
      (KeepsCondition .standard (s.service.onHighLevelEmergencyChanged .standard 0#16 0xFFFF#16
        (micros 1000000)) pressedStopButton ↔
        pressedStopButton.conditionBits .standard &&& (0xFFFF#16 &&& ~~~0#16) = 0#16) :=
  have hlive := (stopPressedRun_live rfl).2
  ⟨_, hlive, live_condition_kept_iff hlive 0#16 0xFFFF#16 1000000⟩

/-- **A condition comes back.** As long as the input stays active past its delay, the next
`CheckInputs` sets its condition bits again, whatever has been cleared before. -/
theorem live_condition_restored {s : EmergencyService ι} {inputs : List Input} {input : Input}
    {now : Micros} (hmem : input ∈ inputs) (ha : input.active = true)
    (hd : input.emergencyDelay ≤ input.activeDuration now) :
    KeepsCondition E (s.checkInputs E inputs now).1 input := by
  have hcov : Covers (s.checkInputs E inputs now).1.reasons (input.conditionBits E) := by
    intro i hi
    rw [Input.conditionBits, BitVec.getLsbD_and, Bool.and_eq_true] at hi
    have hr : input.emergencyReason ≠ 0#16 := by
      rintro h0
      simp [h0] at hi
    have hrep : (getEmergencyReasons now inputs).2.1.getLsbD i = true :=
      covers_of_reports hmem ⟨hr, .inr ⟨ha, hd⟩⟩ i hi.1
    rw [EmergencyService.checkInputs, EmergencyService.updateEmergency_reasons, getLsbD_rewrite,
      hrep, Bool.or_true]
  exact ⟨hcov, fun hne => hcov.ne_zero hne⟩

end OpenMower
