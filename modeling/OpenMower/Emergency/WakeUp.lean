import OpenMower.Library.StateMachine
import OpenMower.Services.EmergencyService

/-!
# Wake-ups for running delays

The emergency thread sleeps for at most the block time that its last `OnLoop` returned, and
`OnLoop` takes the delays of all active inputs into account. An input that becomes active
while the thread is asleep is only seen by the main thread, whose `CheckInputs` computes the
same block time and throws it away.

The machine of this file interleaves the updates of the inputs, the main thread's handling
of `INPUTS_CHANGED` and the emergency thread's `OnLoop`, each of the two calls with separate
steps for reading the clock, polling and writing; nothing that `OnLoop` does after its poll
concerns the inputs, so the rest of it is one step. The framework is assumed to wake the
emergency thread at the latest when the block time has elapsed since the `now_micros` that
`OnLoop` was called with.

In a quiet state every running delay should have a wake-up (`Scheduled`). By the invariant
`WakeUpInv` this holds in every run in which each activation finds a wake-up in time
(`ActivatedInTime`).
-/

namespace OpenMower

open ModularClock

variable {ι : Type*} {E : EmergencyReason}

/-- The emergency thread: asleep until at most a true time, called with the clock reading at
a true time, or after its poll of the inputs. -/
inductive EmergencyThread
  | asleep (next : ℤ)
  | woken (now : ℤ)
  | polled (now : ℤ) (reasons : Reasons) (blockTime : Micros)

/-- The main thread in `DispatchEvents`: waiting, with the flag taken, in `CheckInputs` with
its clock reading, or after the poll. -/
inductive MainThread
  | waiting
  | flagTaken
  | called (now : ℤ)
  | polled (reasons : Reasons)

/-- The inputs, the service and the two threads. -/
structure WakeUpState (ι : Type*) where
  inputs : List Input
  service : EmergencyService ι
  clock : ℤ
  /-- The flag `INPUTS_CHANGED` is pending. -/
  inputsChanged : Bool
  emergency : EmergencyThread
  main : MainThread
  /-- The true time of the last activation of an input. -/
  start : ℕ → ℤ

/-- The atomic steps. -/
inductive WakeUpStep (ι : Type*)
  | update (i : ℕ) (newActive : Bool) (predate : Micros)
  | message (newValue0 newValue1 : Reasons)
  | takeFlag
  | mainCheckInputs
  | mainPoll
  | mainFinish
  | onLoop
  | onLoopPoll
  | onLoopFinish (isHealthy : ι → Bool)

namespace EmergencyThread

/-- The time that must not pass before the thread is woken. -/
def next? : EmergencyThread → Option ℤ
  | .asleep next => some next
  | _ => none

/-- The thread polls or sleeps in such a way that an activation that begins at `start` is
polled no later than `deadline`. -/
def InTime (start deadline : ℤ) : EmergencyThread → Prop
  | .asleep next => next ≤ deadline
  | .woken now => start ≤ now
  | .polled now _ blockTime => now + blockTime.toNat ≤ deadline

instance (start deadline : ℤ) (thread : EmergencyThread) :
    Decidable (thread.InTime start deadline) :=
  match thread with
  | .asleep _ => inferInstanceAs (Decidable (_ ≤ _))
  | .woken _ => inferInstanceAs (Decidable (_ ≤ _))
  | .polled _ _ _ => inferInstanceAs (Decidable (_ ≤ _))

/-- The clock reading of a running `OnLoop` is not from the future. -/
def NowLe (clock : ℤ) : EmergencyThread → Prop
  | .asleep _ => True
  | .woken now => now ≤ clock
  | .polled now _ _ => now ≤ clock

end EmergencyThread

namespace WakeUpState

variable (s : WakeUpState ι)

/-- Freshly configured inputs, with the first `OnLoop` due at `next`. -/
def initial (E : EmergencyReason) (inputs : List Input) (next : ℤ) : WakeUpState ι where
  inputs := inputs
  service := .initial E
  clock := 0
  inputsChanged := false
  emergency := .asleep next
  main := .waiting
  start := fun _ => 0

/-- One atomic step at the true time `time`. -/
def stepAt (E : EmergencyReason) (time : ℤ) : WakeUpStep ι → Option (WakeUpState ι)
  | .update i newActive predate =>
    s.inputs[i]?.map fun input =>
      match input.update newActive (micros time) predate with
      | none => { s with clock := time }
      | some r =>
        { s with
          inputs := s.inputs.set i r.1
          clock := time
          inputsChanged := true
          start := if r.2.1 then Function.update s.start i (time - predate.toNat) else s.start }
  | .message newValue0 newValue1 =>
    some { s with
      service := s.service.onHighLevelEmergencyChanged E newValue0 newValue1 (micros time)
      clock := time }
  | .takeFlag =>
    match s.main with
    | .waiting =>
      if s.inputsChanged then
        some { s with clock := time, inputsChanged := false, main := .flagTaken }
      else none
    | _ => none
  | .mainCheckInputs =>
    match s.main with
    | .flagTaken => some { s with clock := time, main := .called time }
    | _ => none
  | .mainPoll =>
    match s.main with
    | .called now =>
      let r := getEmergencyReasons (micros now) s.inputs
      -- the block time `r.2.2` is not used
      some { s with inputs := r.1, clock := time, main := .polled r.2.1 }
    | _ => none
  | .mainFinish =>
    match s.main with
    | .polled reasons =>
      some { s with
        service := s.service.updateEmergency reasons E.conditions
        clock := time
        main := .waiting }
    | _ => none
  | .onLoop =>
    match s.emergency with
    | .asleep _ => some { s with clock := time, emergency := .woken time }
    | _ => none
  | .onLoopPoll =>
    match s.emergency with
    | .woken now =>
      let r := getEmergencyReasons (micros now) s.inputs
      some { s with inputs := r.1, clock := time, emergency := .polled now r.2.1 r.2.2 }
    | _ => none
  | .onLoopFinish isHealthy =>
    match s.emergency with
    | .polled now reasons blockTime =>
      let r := s.service.afterPoll E (reasons, blockTime) isHealthy (micros now)
      some { s with
        service := r.1
        clock := time
        emergency := .asleep (now + r.2.toNat) }
    | _ => none

/-- One atomic step. Time does not go backwards, and it does not pass the wake-up of a
sleeping emergency thread unless the wake-up is late already. -/
def step (E : EmergencyReason) (e : ℤ × WakeUpStep ι) : Option (WakeUpState ι) :=
  if s.clock ≤ e.1 ∧ s.emergency.next?.all (fun next => decide (e.1 ≤ max next s.clock)) then
    s.stepAt E e.1 e.2
  else none

/-- If no flag is pending, no `CheckInputs` is running and the emergency thread is asleep,
then it is woken before the delay of any active emergency input elapses. -/
def Scheduled (s : WakeUpState ι) : Prop :=
  s.inputsChanged = false → s.main = .waiting → ∀ next, s.emergency = .asleep next →
    ∀ i input, s.inputs[i]? = some input → input.active = true → input.emergencyReason ≠ 0#16 →
      s.clock < s.start i + input.delayMicros → next ≤ s.start i + input.delayMicros

/-- The step does not activate an emergency input with a delay, or it does so when the
emergency thread is asleep until at most the end of the delay, is about to poll with a clock
reading that is not older than the activation, or has polled and will sleep until at most
the end of the delay. -/
def ActivatedInTime (s : WakeUpState ι) (e : ℤ × WakeUpStep ι) (_ : WakeUpState ι) : Prop :=
  ∀ i newActive predate, e.2 = .update i newActive predate → ∀ input, s.inputs[i]? = some input →
    input.active = false → input.applyInvert newActive = true → input.emergencyReason ≠ 0#16 →
      0 < input.delayMicros →
        s.emergency.InTime (e.1 - predate.toNat) (e.1 - predate.toNat + input.delayMicros)

/-! ### The invariant -/

/-- What holds of an active input: its time stamp, and a wake-up in time if it is an emergency
input whose delay is running. -/
structure Covered (clock : ℤ) (emergency : EmergencyThread) (start : ℤ) (input : Input) :
    Prop where
  activeSince : input.activeSince = micros start
  start_le : start ≤ clock
  inTime : input.emergencyReason ≠ 0#16 → clock < start + input.delayMicros →
    emergency.InTime start (start + input.delayMicros)

/-- The invariant of the runs in which every activation is in time. -/
structure WakeUpInv (s : WakeUpState ι) : Prop where
  now_le : s.emergency.NowLe s.clock
  covered : ∀ i input, s.inputs[i]? = some input → input.active = true →
    Covered s.clock s.emergency (s.start i) input

theorem WakeUpInv.of_initial {inputs : List Input} {next : ℤ}
    (h : ∀ input ∈ inputs, input.Fresh) : WakeUpInv (initial E inputs next : WakeUpState ι) := by
  refine ⟨trivial, fun i input hi ha => ?_⟩
  have hf := (h input (List.mem_of_getElem? hi)).1
  simp [hf] at ha

theorem NowLe.mono {clock time : ℤ} {emergency : EmergencyThread}
    (h : emergency.NowLe clock) (ht : clock ≤ time) : emergency.NowLe time := by
  cases emergency with
  | asleep next => trivial
  | woken now => exact le_trans h ht
  | polled now reasons blockTime => exact le_trans h ht

namespace Covered

variable {clock time now start : ℤ} {emergency : EmergencyThread} {input : Input}

theorem mono (h : Covered clock emergency start input) (ht : clock ≤ time) :
    Covered time emergency start input :=
  ⟨h.activeSince, h.start_le.trans ht, fun hr hlt => h.inTime hr (by omega)⟩

theorem afterPoll (h : Covered clock emergency start input) :
    Covered clock emergency start input.polled := by
  obtain ⟨hsince, hle, htime⟩ := h
  have hconf : Input.SameConfig input.polled input := Input.polled_sameConfig
  refine ⟨by simpa using hsince, hle, ?_⟩
  rw [hconf.2.2.2.1, hconf.delayMicros_eq]
  exact htime

/-- A call of `OnLoop` reads the clock after the activations it finds. -/
theorem onLoop (h : Covered clock emergency start input) (ht : clock ≤ time) :
    Covered time (.woken time) start input :=
  ⟨h.activeSince, h.start_le.trans ht, fun _ _ => h.start_le.trans ht⟩

/-- The poll of `OnLoop` computes a block time that ends no later than the delay. -/
theorem onLoopPoll {inputs : List Input} (h : Covered clock (.woken now) start input)
    (hnow : now ≤ clock) (hmem : input ∈ inputs) (ha : input.active = true) :
    Covered clock (.polled now (getEmergencyReasons (micros now) inputs).2.1
      (getEmergencyReasons (micros now) inputs).2.2) start input := by
  refine ⟨h.activeSince, h.start_le, fun hr hlt => ?_⟩
  have hstart : start ≤ now := h.inTime hr hlt
  have hdelay : (input.emergencyDelay.toNat : ℤ) = input.delayMicros := input.toNat_emergencyDelay
  have hbound : input.emergencyDelay.toNat < 2 ^ 32 := input.emergencyDelay.isLt
  have hage : ((input.activeDuration (micros now)).toNat : ℤ) = now - start := by
    rw [Input.activeDuration, h.activeSince]
    exact toNat_reading_sub_of_lt hstart (by omega)
  -- the delay is below 2^32 µs, so the age has not wrapped
  have hrunning : input.activeDuration (micros now) < input.emergencyDelay := by
    rw [BitVec.lt_def]
    omega
  have hblock := BitVec.le_def.mp (blockTime_le_remaining hmem hr ha hrunning)
  rw [BitVec.toNat_sub_of_le (BitVec.le_of_lt hrunning)] at hblock
  simp only [EmergencyThread.InTime]
  omega

/-- The block time that `OnLoop` returns is at most that of its poll. -/
theorem onLoopFinish {reasons : Reasons} {blockTime returned : Micros}
    (h : Covered clock (.polled now reasons blockTime) start input)
    (hle : returned ≤ blockTime) :
    Covered clock (.asleep (now + returned.toNat)) start input := by
  refine ⟨h.activeSince, h.start_le, fun hr hlt => ?_⟩
  have hpolled : now + blockTime.toNat ≤ start + input.delayMicros := h.inTime hr hlt
  have hle' : returned.toNat ≤ blockTime.toNat := BitVec.le_def.mp hle
  simp only [EmergencyThread.InTime]
  omega

end Covered

/-- A poll by either thread keeps what holds of the active inputs. -/
theorem covered_poll {inputs : List Input} {clock now : ℤ} {emergency : EmergencyThread}
    {start : ℕ → ℤ}
    (h : ∀ i input, inputs[i]? = some input → input.active = true →
      Covered clock emergency (start i) input) :
    ∀ i input, (getEmergencyReasons (micros now) inputs).1[i]? = some input →
      input.active = true → Covered clock emergency (start i) input := by
  intro i input hi ha
  simp only [getEmergencyReasons_inputs, List.getElem?_map, Option.map_eq_some_iff] at hi
  obtain ⟨input₀, hi, rfl⟩ := hi
  exact (h i input₀ hi (by simpa using ha)).afterPoll

/-- An update gives the input it activates its time stamp, and by assumption a wake-up. -/
theorem WakeUpInv.update {s s' : WakeUpState ι} {time : ℤ} {i : ℕ} {newActive : Bool}
    {predate : Micros} (h : WakeUpInv s) (ht : s.clock ≤ time)
    (hs : s.stepAt E time (.update i newActive predate) = some s')
    (hg : ActivatedInTime s (time, .update i newActive predate) s') : WakeUpInv s' := by
  simp only [stepAt, Option.map_eq_some_iff] at hs
  obtain ⟨input, hi, hs⟩ := hs
  cases hu : input.update newActive (micros time) predate with
  | none =>
    simp only [hu] at hs
    subst hs
    exact ⟨NowLe.mono h.now_le ht, fun j inputⱼ hj ha => (h.covered j inputⱼ hj ha).mono ht⟩
  | some r =>
    simp only [hu] at hs
    subst hs
    refine ⟨NowLe.mono h.now_le ht, fun j inputⱼ hj ha => ?_⟩
    dsimp only at hj ⊢
    rw [List.getElem?_set] at hj
    split at hj
    · next heq =>
      -- the input that is updated
      subst heq
      split at hj
      · obtain rfl := Option.some.inj hj
        obtain ⟨hflip, -, hlevel⟩ := Input.update_eq_some hu
        have hactive : input.applyInvert newActive = true := by
          rw [← Input.update_active hu, ha]
        have hconf : Input.SameConfig r.1 input := Input.update_sameConfig hu
        rw [hactive] at hlevel
        simp only [hlevel, if_true, Function.update_self]
        refine ⟨?_, by omega, fun hr hlt => ?_⟩
        · rw [Input.update_activeSince hu, hlevel, if_pos rfl, micros, reading_sub_eq]
        · rw [hconf.delayMicros_eq] at hlt ⊢
          exact hg i newActive predate rfl input hi (by simpa [hactive] using hflip) hactive
            (hconf.2.2.2.1 ▸ hr) (by omega)
      · simp at hj
    · next hne =>
      have hold := (h.covered j inputⱼ hj ha).mono ht
      split
      · simpa [Function.update_of_ne (Ne.symm hne)] using hold
      · exact hold

theorem WakeUpInv.step {s s' : WakeUpState ι} {e : ℤ × WakeUpStep ι} (h : WakeUpInv s)
    (hs : s.step E e = some s') (hg : ActivatedInTime s e s') : WakeUpInv s' := by
  obtain ⟨time, e⟩ := e
  simp only [WakeUpState.step, Option.ite_none_right_eq_some] at hs
  obtain ⟨⟨ht, -⟩, hs⟩ := hs
  have hcovered : ∀ i input, s.inputs[i]? = some input → input.active = true →
      Covered time s.emergency (s.start i) input :=
    fun i input hi ha => (h.covered i input hi ha).mono ht
  have hnow := NowLe.mono h.now_le ht
  cases e with
  | update i newActive predate => exact h.update ht hs hg
  | message newValue0 newValue1 =>
    obtain rfl := Option.some.inj hs
    exact ⟨hnow, hcovered⟩
  | takeFlag =>
    simp only [stepAt] at hs
    split at hs
    · simp only [Option.ite_none_right_eq_some, Option.some.injEq] at hs
      obtain ⟨-, rfl⟩ := hs
      exact ⟨hnow, hcovered⟩
    · simp at hs
  | mainCheckInputs =>
    simp only [stepAt] at hs
    split at hs
    · obtain rfl := Option.some.inj hs
      exact ⟨hnow, hcovered⟩
    · simp at hs
  | mainPoll =>
    simp only [stepAt] at hs
    split at hs
    · obtain rfl := Option.some.inj hs
      exact ⟨hnow, covered_poll hcovered⟩
    · simp at hs
  | mainFinish =>
    simp only [stepAt] at hs
    split at hs
    · obtain rfl := Option.some.inj hs
      exact ⟨hnow, hcovered⟩
    · simp at hs
  | onLoop =>
    simp only [stepAt] at hs
    split at hs
    · obtain rfl := Option.some.inj hs
      exact ⟨le_rfl, fun i input hi ha => (h.covered i input hi ha).onLoop ht⟩
    · simp at hs
  | onLoopPoll =>
    simp only [stepAt] at hs
    split at hs
    · next now hemergency =>
      obtain rfl := Option.some.inj hs
      rw [hemergency] at hcovered hnow
      refine ⟨hnow, covered_poll fun i input hi ha => ?_⟩
      exact (hcovered i input hi ha).onLoopPoll hnow (List.mem_of_getElem? hi) ha
    · simp at hs
  | onLoopFinish isHealthy =>
    simp only [stepAt] at hs
    split at hs
    · next now reasons blockTime hemergency =>
      obtain rfl := Option.some.inj hs
      rw [hemergency] at hcovered
      refine ⟨trivial, fun i input hi ha => ?_⟩
      exact (hcovered i input hi ha).onLoopFinish EmergencyService.afterPoll_blockTime_le
    · simp at hs

/-- With the invariant, quiet states have their wake-ups. -/
theorem WakeUpInv.scheduled {s : WakeUpState ι} (h : WakeUpInv s) : Scheduled s := by
  intro _ _ next hasleep i input hi ha hr hlt
  have hcovered := h.covered i input hi ha
  -- for a sleeping thread `InTime` is the bound on its wake-up
  rw [hasleep] at hcovered
  exact hcovered.inTime hr hlt

end WakeUpState

open WakeUpState

/-- The emergency thread, the main thread and the threads that update the inputs. -/
def wakeUpSystem (E : EmergencyReason) (ι : Type*) :
    StateMachine (WakeUpState ι) (ℤ × WakeUpStep ι) where
  Init s := ∃ inputs next, (∀ input ∈ inputs, input.Fresh) ∧ s = .initial E inputs next
  step s e := s.step E e

/-- **Wake-ups.** In every run in which each activation of an emergency input with a delay
finds the emergency thread due in time, every quiet state has a wake-up for every running
delay. -/
theorem wakeUp_scheduled {s : WakeUpState ι} (h : (wakeUpSystem E ι).Init s)
    (es : List (ℤ × WakeUpStep ι)) (hes : (wakeUpSystem E ι).EveryStep ActivatedInTime s es) :
    (wakeUpSystem E ι).EveryStep (fun _ _ s' => Scheduled s') s es := by
  obtain ⟨inputs, next, hfresh, rfl⟩ := h
  exact hes.imp (WakeUpInv.of_initial hfresh) fun _ _ _ hI hs hg =>
    have hI' := hI.step hs hg
    ⟨hI', hI'.scheduled⟩

/-- A collision input with a delay of half a second. -/
def delayedCollision : Input where
  idx := 0#8
  emergencyReason := EmergencyReason.standard.mask .collision
  emergencyDelayMs := 500#16

/-- `OnLoop` runs at the start and returns one second. After 100 ms the input becomes active,
and the main thread handles the flag. -/
def sleepingRun : List (ℤ × WakeUpStep ℕ) :=
  [(0, .onLoop), (0, .onLoopPoll), (0, .onLoopFinish fun _ => true),
    (100000, .update 0 true 0#32), (100000, .takeFlag), (100000, .mainCheckInputs),
    (100000, .mainPoll), (100000, .mainFinish)]

/-- The emergency thread sleeps for another 900 ms, past the end of the delay. -/
theorem not_scheduled_sleepingRun :
    ¬ (wakeUpSystem .standard ℕ).EveryStep (fun _ _ s' => Scheduled s')
      (.initial .standard [delayedCollision] 0) sleepingRun := by
  intro h
  have hlast := ((((((((h _ rfl).2 _ rfl).2 _ rfl).2 _ rfl).2 _ rfl).2 _ rfl).2 _ rfl).2 _ rfl).1
  exact absurd (hlast rfl rfl _ rfl 0 _ rfl rfl (by decide) (by decide)) (by decide)

/-- The input becomes active 600 ms later, before a wake-up that is due in time. -/
def dueInTimeRun : List (ℤ × WakeUpStep ℕ) :=
  [(0, .onLoop), (0, .onLoopPoll), (0, .onLoopFinish fun _ => true),
    (700000, .update 0 true 0#32), (700000, .takeFlag), (700000, .mainCheckInputs),
    (700000, .mainPoll), (700000, .mainFinish)]

/-- Then the delay has its wake-up. -/
theorem wakeUp_scheduled_dueInTimeRun :
    (wakeUpSystem .standard ℕ).EveryStep (fun _ _ s' => Scheduled s')
      (.initial .standard [delayedCollision] 0) dueInTimeRun := by
  refine wakeUp_scheduled ⟨[delayedCollision], 0, by decide, rfl⟩ dueInTimeRun ?_
  rintro s₁ ⟨⟩
  refine ⟨by simp [ActivatedInTime], ?_⟩
  rintro s₂ ⟨⟩
  refine ⟨by simp [ActivatedInTime], ?_⟩
  rintro s₃ ⟨⟩
  refine ⟨by simp [ActivatedInTime], ?_⟩
  rintro s₄ ⟨⟩
  refine ⟨?_, ?_⟩
  · rintro i newActive predate ⟨⟩ input ⟨⟩ - - - -
    decide
  rintro s₅ ⟨⟩
  refine ⟨by simp [ActivatedInTime], ?_⟩
  rintro s₆ ⟨⟩
  refine ⟨by simp [ActivatedInTime], ?_⟩
  rintro s₇ ⟨⟩
  refine ⟨by simp [ActivatedInTime], ?_⟩
  rintro s₈ ⟨⟩
  exact ⟨by simp [ActivatedInTime], trivial⟩

end OpenMower
