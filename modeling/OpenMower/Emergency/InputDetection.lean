import OpenMower.Library.StateMachine
import OpenMower.Services.InputService

/-!
# No configured emergency input is dropped

Updates of the inputs and polls by `GetEmergencyReasons` alternate in any way, every call
reading the clock at a true time that never decreases. The history of `DetectionState`
records, independently of the fields of the inputs, since when each input has been logically
active and whether it has become inactive after its full delay since the last poll.

A poll should return the reasons of every input that has been active for its delay, and of
every input that has become inactive after its delay since the poll before (`Detects`). Both
comparisons use the 32-bit age of the activation, so they fail for ages that have passed the
delay but are below it again modulo `2 ^ 32` µs. `emergency_detected` shows that a run
without such ages detects everything; the invariant `DetectionInv` ties the fields of the
inputs to the history.
-/

namespace OpenMower

open ModularClock WordMask

/-- The inputs, the true time, and the history of each input. -/
structure DetectionState where
  inputs : List Input
  clock : ℤ
  /-- The true time since which an input has been logically active. -/
  since : ℕ → Option ℤ
  /-- Since the last poll the input has become inactive after its full delay. -/
  overdue : ℕ → Bool

/-- The calls. -/
inductive DetectionEvent
  | update (i : ℕ) (newActive : Bool) (predate : Micros) (time : ℤ)
  | poll (time : ℤ)

namespace DetectionState

variable (s : DetectionState)

/-- Freshly configured inputs, none of them active yet. -/
def initial (inputs : List Input) : DetectionState where
  inputs := inputs
  clock := 0
  since := fun _ => none
  overdue := fun _ => false

/-- The history of input `i` after it was told to be active or not at the true time `t`. -/
def recordLevel (i : ℕ) (input : Input) (level : Bool) (t : ℤ) : DetectionState :=
  if level then { s with since := Function.update s.since i (some ((s.since i).getD t)) }
  else
    { s with
      since := Function.update s.since i none
      overdue := Function.update s.overdue i
        (s.overdue i || (s.since i).any fun t₀ => decide (t₀ + input.delayMicros ≤ t)) }

/-- One call. -/
def step : DetectionEvent → Option DetectionState
  | .update i newActive predate time =>
    if s.clock ≤ time then
      match s.inputs[i]? with
      | none => some { s with clock := time }
      | some input =>
        some { s.recordLevel i input (input.applyInvert newActive) (time - predate.toNat) with
          inputs := Input.updateAt s.inputs i newActive (micros time) predate
          clock := time }
    else none
  | .poll time =>
    if s.clock ≤ time then
      some { s with
        inputs := (getEmergencyReasons (micros time) s.inputs).1
        clock := time
        overdue := fun _ => false }
    else none

/-- A poll returns the reasons of every input that has been active for its delay, or that has
become inactive after its delay since the poll before. -/
def Detects (s : DetectionState) (e : DetectionEvent) (_ : DetectionState) : Prop :=
  ∀ time, e = .poll time → ∀ i input, s.inputs[i]? = some input →
    input.emergencyReason ≠ 0#16 →
    ((∃ t₀, s.since i = some t₀ ∧ t₀ + input.delayMicros ≤ time) ∨ s.overdue i = true) →
      Covers (getEmergencyReasons (micros time) s.inputs).2.1 input.emergencyReason

/-- No poll and no deactivation meets an activation of an emergency input whose age has
passed the delay but is below it again modulo `2 ^ 32` µs. -/
def AvoidsWrap (s : DetectionState) (e : DetectionEvent) (_ : DetectionState) : Prop :=
  ∀ i input t₀, s.inputs[i]? = some input → input.emergencyReason ≠ 0#16 →
    s.since i = some t₀ →
    (∀ time, e = .poll time → ¬ InWrapWindow 32 input.delayMicros (time - t₀)) ∧
      ∀ newActive predate time, e = .update i newActive predate time →
        input.applyInvert newActive = false →
          ¬ InWrapWindow 32 input.delayMicros (time - predate.toNat - t₀)

/-- The fields of one input agree with its history. -/
structure Agrees (input : Input) (since : Option ℤ) (overdue : Bool) : Prop where
  active : input.active = since.isSome
  activeSince : ∀ t₀, since = some t₀ → input.activeSince = micros t₀
  pending : overdue = true → input.emergencyReason ≠ 0#16 → input.emergencyPending = true

/-- Every input agrees with its history. -/
def DetectionInv (s : DetectionState) : Prop :=
  ∀ i input, s.inputs[i]? = some input → Agrees input (s.since i) (s.overdue i)

/-- Past its delay and outside the wrap window, the 32-bit age reaches the delay. -/
theorem delay_le_activeDuration {input : Input} {t₀ t : ℤ} (hsince : input.activeSince = micros t₀)
    (hdelay : t₀ + input.delayMicros ≤ t)
    (hwrap : ¬ InWrapWindow 32 input.delayMicros (t - t₀)) :
    input.emergencyDelay ≤ input.activeDuration (micros t) := by
  have h0 : 0 ≤ input.delayMicros := by
    rw [← input.toNat_emergencyDelay]
    exact Int.natCast_nonneg _
  rw [Input.activeDuration, hsince, le_reading_sub_iff, input.toNat_emergencyDelay,
    le_emod_iff_of_not_inWrapWindow (by omega) hwrap]
  omega

/-! ### The invariant -/

theorem DetectionInv.of_initial {inputs : List Input} (h : ∀ input ∈ inputs, input.Fresh) :
    DetectionInv (initial inputs) := by
  intro i input hi
  have hf := h input (List.mem_of_getElem? hi)
  exact ⟨by simp [initial, hf.1], by simp [initial], by simp [initial]⟩

/-- An update that activates an inactive input starts a new activation. -/
theorem Agrees.activate {input : Input} {overdue : Bool} {t : ℤ} (h : Agrees input none overdue) :
    Agrees ({ input with active := true }.recordEdge true (micros t)) (some t) overdue := by
  refine ⟨by simp [Input.recordEdge], ?_, ?_⟩
  · rintro t₀ ⟨⟩
    simp [Input.recordEdge]
  · intro ho hr
    simpa [Input.recordEdge] using h.pending ho (by simpa [Input.recordEdge] using hr)

/-- An update that deactivates an input makes its emergency pending if the delay has passed,
unless the age is in the wrap window. -/
theorem Agrees.deactivate {input : Input} {overdue : Bool} {t₀ t : ℤ}
    (h : Agrees input (some t₀) overdue)
    (hwrap : input.emergencyReason ≠ 0#16 → ¬ InWrapWindow 32 input.delayMicros (t - t₀)) :
    Agrees ({ input with active := false }.recordEdge false (micros t)) none
      (overdue || decide (t₀ + input.delayMicros ≤ t)) := by
  refine ⟨by simp, by simp, fun ho hr => ?_⟩
  have hr' : input.emergencyReason ≠ 0#16 := by
    have hconf : Input.SameConfig ({ input with active := false }.recordEdge false (micros t))
      { input with active := false } := Input.recordEdge_sameConfig
    rwa [hconf.2.2.2.1] at hr
  rw [Bool.or_eq_true, decide_eq_true_eq] at ho
  simp only [Input.recordEdge, Bool.false_eq_true, if_false]
  split
  · rfl
  · next hno =>
    rcases ho with ho | hdelay
    · exact h.pending ho hr'
    · exact absurd ⟨hr', delay_le_activeDuration (h.activeSince t₀ rfl) hdelay (hwrap hr')⟩ hno

/-- An update of one input: the flag moves together with the history, and an update without
effect finds them in agreement already. -/
theorem Agrees.update {input : Input} {since : Option ℤ} {overdue : Bool}
    (h : Agrees input since overdue) {newActive : Bool} {predate : Micros} {time : ℤ}
    (hwrap : ∀ t₀, since = some t₀ → input.emergencyReason ≠ 0#16 →
      input.applyInvert newActive = false →
        ¬ InWrapWindow 32 input.delayMicros (time - predate.toNat - t₀)) :
    Agrees (((input.update newActive (micros time) predate).map Prod.fst).getD input)
      (if input.applyInvert newActive then some (since.getD (time - predate.toNat)) else none)
      (if input.applyInvert newActive then overdue
        else overdue || since.any fun t₀ =>
          decide (t₀ + input.delayMicros ≤ time - predate.toNat)) := by
  have hactive := h.active
  cases hu : input.update newActive (micros time) predate with
  | none =>
    have hsame := Input.update_eq_none.mp hu
    rw [hsame] at hactive
    cases hl : input.applyInvert newActive <;> cases hsince : since <;>
      simp_all
  | some r =>
    obtain ⟨hflip, hr, -⟩ := Input.update_eq_some hu
    rw [hactive] at hflip
    simp only [micros, reading_sub_eq] at hr
    cases hl : input.applyInvert newActive with
    | true =>
      obtain rfl : since = none := by simpa [hl] using hflip
      simpa [hr, hl] using h.activate
    | false =>
      obtain ⟨t₀, rfl⟩ : ∃ t₀, since = some t₀ := by
        simpa [hl, Option.isSome_iff_exists] using hflip
      simpa [hr, hl] using h.deactivate fun hne => hwrap t₀ rfl hne hl

/-- A poll clears what is pending together with the history of it. -/
theorem Agrees.polled {input : Input} {since : Option ℤ} {overdue : Bool}
    (h : Agrees input since overdue) : Agrees input.polled since false :=
  ⟨by rw [Input.polled_active, h.active], by simpa using h.activeSince, by simp⟩

theorem DetectionInv.step {s s' : DetectionState} {e : DetectionEvent} (h : DetectionInv s)
    (hs : s.step e = some s') (hw : AvoidsWrap s e s') : DetectionInv s' := by
  cases e with
  | poll time =>
    simp only [DetectionState.step, Option.ite_none_right_eq_some, Option.some.injEq] at hs
    obtain ⟨-, rfl⟩ := hs
    intro i input hi
    simp only [getEmergencyReasons_inputs, List.getElem?_map, Option.map_eq_some_iff] at hi
    obtain ⟨input₀, hi, rfl⟩ := hi
    exact (h i input₀ hi).polled
  | update i newActive predate time =>
    simp only [DetectionState.step, Option.ite_none_right_eq_some] at hs
    obtain ⟨-, hs⟩ := hs
    cases hi : s.inputs[i]? with
    | none =>
      simp only [hi, Option.some.injEq] at hs
      subst hs
      exact h
    | some input =>
      simp only [hi, Option.some.injEq] at hs
      subst hs
      intro j input' hj
      rw [Input.getElem?_updateAt] at hj
      split at hj
      · next heq =>
        subst heq
        rw [hi, Option.map_some, Option.some.injEq] at hj
        subst hj
        have hagrees := (h i input hi).update fun t₀ ht hr hl =>
          (hw i input t₀ hi hr ht).2 newActive predate time rfl hl
        simp only [recordLevel]
        split at hagrees <;> simp_all
      · next hne =>
        have hold := h j input' hj
        have hne' : j ≠ i := fun hji => hne hji.symm
        simp only [recordLevel]
        split <;> simpa [Function.update_of_ne hne'] using hold

/-- With the invariant, a poll outside the wrap window detects. -/
theorem DetectionInv.detects {s s' : DetectionState} {e : DetectionEvent} (h : DetectionInv s)
    (hw : AvoidsWrap s e s') : Detects s e s' := by
  rintro time rfl i input hi hr hcase
  have hagrees := h i input hi
  refine covers_of_reports (List.mem_of_getElem? hi) ⟨hr, ?_⟩
  rcases hcase with ⟨t₀, hsince, hdelay⟩ | hoverdue
  · refine .inr ⟨by rw [hagrees.active, hsince, Option.isSome_some], ?_⟩
    exact delay_le_activeDuration (hagrees.activeSince t₀ hsince) hdelay
      ((hw i input t₀ hi hr hsince).1 time rfl)
  · exact .inl (hagrees.pending hoverdue hr)

end DetectionState

open DetectionState

/-- Updates and polls of a list of inputs. -/
def detectionSystem : StateMachine DetectionState DetectionEvent where
  Init s := ∃ inputs : List Input, (∀ input ∈ inputs, input.Fresh) ∧ s = .initial inputs
  step s e := s.step e

/-- **Detection.** In every run of updates and polls that meets no wrapped age, every poll
returns the reasons of each emergency input that has been active for its delay, however long,
and of each one that has become inactive after its delay since the poll before. -/
theorem emergency_detected {s : DetectionState} (h : detectionSystem.Init s)
    (es : List DetectionEvent) (hes : detectionSystem.EveryStep AvoidsWrap s es) :
    detectionSystem.EveryStep Detects s es := by
  obtain ⟨inputs, hfresh, rfl⟩ := h
  exact hes.imp (DetectionInv.of_initial hfresh)
    fun _ _ _ hI hs hw => ⟨hI.step hs hw, hI.detects hw⟩

/-- A stop input with a delay of half a second. -/
def delayedStop : Input where
  idx := 0#8
  emergencyReason := EmergencyReason.standard.mask .stop ||| EmergencyReason.standard.mask .latch
  emergencyDelayMs := 500#16

/-- The stop input is held for `2 ^ 32` µs, a good hour, and then polled. -/
def heldAcrossWrapRun : List DetectionEvent := [.update 0 true 0#32 0, .poll (2 ^ 32)]

/-- The poll just after the wrap misses the stop input that is still held. -/
theorem not_detects_heldAcrossWrapRun :
    ¬ detectionSystem.EveryStep Detects (.initial [delayedStop]) heldAcrossWrapRun := by
  intro h
  have hpoll := ((h _ rfl).2 _ rfl).1
  exact absurd (hpoll (2 ^ 32) rfl 0 _ rfl (by decide) (.inl ⟨0, rfl, by decide⟩)) (by decide)

/-- Polled once a second, the same input is detected. -/
theorem emergency_detected_one_second :
    detectionSystem.EveryStep Detects (.initial [delayedStop])
      [.update 0 true 0#32 0, .poll 1000000] := by
  refine emergency_detected ⟨[delayedStop], by decide, rfl⟩ _ ?_
  rintro s₁ ⟨⟩
  refine ⟨by simp [AvoidsWrap, DetectionState.initial], ?_⟩
  rintro s₂ ⟨⟩
  refine ⟨fun i input t₀ hi hr hsince => ⟨?_, by simp⟩, trivial⟩
  rintro time ⟨⟩
  obtain rfl : i = 0 := by
    by_contra hne
    have hne' : 0 ≠ i := fun h => hne h.symm
    simp [Input.getElem?_updateAt, hne', DetectionState.initial, List.getElem?_singleton] at hi
    omega
  obtain rfl : t₀ = 0 := by
    have h0 : (some 0 : Option ℤ) = some t₀ := hsince
    exact (Option.some.inj h0).symm
  refine not_inWrapWindow_of_lt ?_ ?_ <;> decide

end OpenMower
