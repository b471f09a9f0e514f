import OpenMower.Library.StateMachine
import OpenMower.Services.InputService

/-!
# Emergency delays and the time stamps of racing threads

`Input::Update` sets `active`, then reads the clock, then stores `active_since`, and a caller
of `CheckInputs` reads the clock before `GetEmergencyReasons` takes the lock. The machine of
this file interleaves these steps of any number of threads in any way, several updates of one
input included. The history records since when each input has really been active and which of
its activations the stored time stamp belongs to.

An input that is reported without a pending emergency should have been active for its delay
(`HonoursDelay`). The unsigned difference `now - active_since` is wrong in two ways: `now` may
be older than the time stamp, and the time stamp may be that of an earlier activation.
`delay_honoured` shows that a run in which neither occurs (`StampedInTime`) honours every
delay, over any up-time.
-/

namespace OpenMower

open ModularClock

/-- A call of `Update` after its compare-exchange. The true time at which it has read the
clock is `none` until then. -/
structure UpdateCall where
  i : ℕ
  newActive : Bool
  predate : Micros
  /-- How often the input had become active when this call changed it. -/
  activation : ℕ
  readAt : Option ℤ := none

/-- The inputs and the threads, by number, with the history of each input. -/
structure DelayState where
  inputs : List Input
  clock : ℤ
  updates : ℕ → Option UpdateCall
  /-- The true time at which a caller of `CheckInputs` has read the clock. -/
  callers : ℕ → Option ℤ
  /-- The true time since which an input has been active. -/
  since : ℕ → Option ℤ
  /-- How often an input has become active. -/
  activation : ℕ → ℕ
  /-- The activation that the stored time stamp belongs to, and its true time. -/
  stamped : ℕ → ℕ × ℤ

/-- The atomic steps of the threads. -/
inductive DelayStep
  | sampleNow (caller : ℕ)
  | getReasons (caller : ℕ)
  | exchange (thread i : ℕ) (newActive : Bool) (predate : Micros)
  | readClock (thread : ℕ)
  | store (thread : ℕ)

namespace DelayState

variable (s : DelayState)

/-- Freshly configured inputs, and no call in progress. -/
def initial (inputs : List Input) : DelayState where
  inputs := inputs
  clock := 0
  updates := fun _ => none
  callers := fun _ => none
  since := fun _ => none
  activation := fun _ => 0
  stamped := fun _ => (0, 0)

/-- The history of input `i` after its flag was flipped to `newActive` at the true time `t`. -/
def recordFlip (i : ℕ) (newActive : Bool) (t : ℤ) : DelayState :=
  if newActive then
    { s with
      since := Function.update s.since i (some t)
      activation := Function.update s.activation i (s.activation i + 1) }
  else { s with since := Function.update s.since i none }

/-- The history of the time stamp after a call has stored what it read at `readAt`. -/
def recordStamp (u : UpdateCall) (readAt : ℤ) : DelayState :=
  if u.newActive then
    { s with stamped := Function.update s.stamped u.i (u.activation, readAt - u.predate.toNat) }
  else s

/-- One atomic step at the true time `time`. -/
def stepAt (time : ℤ) : DelayStep → Option DelayState
  | .sampleNow caller =>
    some { s with clock := time, callers := Function.update s.callers caller (some time) }
  | .getReasons caller =>
    (s.callers caller).map fun now =>
      { s with
        clock := time
        inputs := (getEmergencyReasons (micros now) s.inputs).1
        callers := Function.update s.callers caller none }
  | .exchange thread i newActive predate =>
    if s.updates thread = none then
      s.inputs[i]?.map fun input =>
        match input.exchangeActive (input.applyInvert newActive) with
        | none => { s with clock := time }
        | some input' =>
          let s₁ := s.recordFlip i (input.applyInvert newActive) (time - predate.toNat)
          { s₁ with
            inputs := s.inputs.set i input'
            clock := time
            updates := Function.update s.updates thread
              (some ⟨i, input.applyInvert newActive, predate, s₁.activation i, none⟩) }
    else none
  | .readClock thread =>
    (s.updates thread).bind fun u =>
      if u.readAt = none then
        some { s with
          clock := time
          updates := Function.update s.updates thread (some { u with readAt := some time }) }
      else none
  | .store thread =>
    (s.updates thread).bind fun u => u.readAt.map fun readAt =>
      { s.recordStamp u readAt with
        inputs := s.inputs.modify u.i (·.recordEdge u.newActive (micros readAt - u.predate))
        clock := time
        updates := Function.update s.updates thread none }

/-- One atomic step, at a true time that is not earlier than the step before. -/
def step (e : ℤ × DelayStep) : Option DelayState :=
  if s.clock ≤ e.1 then s.stepAt e.1 e.2 else none

/-- What `GetEmergencyReasons` reports of an input with a delay and nothing pending has been
active without interruption for the delay. -/
def HonoursDelay (s : DelayState) (e : ℤ × DelayStep) (_ : DelayState) : Prop :=
  ∀ caller, e.2 = .getReasons caller → ∀ now, s.callers caller = some now →
    ∀ i input, s.inputs[i]? = some input → 0 < input.delayMicros →
      input.emergencyPending = false → input.Reports (micros now) →
        ∃ t₀, s.since i = some t₀ ∧ t₀ + input.delayMicros ≤ e.1

/-- When `GetEmergencyReasons` runs, the time stamp of every active emergency input with a
delay is that of its current activation, and the caller has read the clock no earlier than
that. -/
def StampedInTime (s : DelayState) (e : ℤ × DelayStep) (_ : DelayState) : Prop :=
  ∀ caller, e.2 = .getReasons caller → ∀ now, s.callers caller = some now →
    ∀ i input, s.inputs[i]? = some input → 0 < input.delayMicros →
      input.emergencyReason ≠ 0#16 → input.active = true →
        (s.stamped i).1 = s.activation i ∧ (s.stamped i).2 ≤ now

/-! ### The invariant -/

/-- The fields of an input agree with its history: since when it has been active, how often
it became so, and which time stamp is stored. -/
structure StampInv (input : Input) (since : Option ℤ) (activation : ℕ) (stamped : ℕ × ℤ) :
    Prop where
  active : input.active = since.isSome
  activeSince : input.activeSince = micros stamped.2
  activation_le : stamped.1 ≤ activation
  began : stamped.1 = activation → ∀ t₀, since = some t₀ → t₀ ≤ stamped.2

/-- A call in progress has not read a time in the future, and if it has set the current
activation of its input, then it reads the clock no earlier than that activation began. -/
structure CallInv (u : UpdateCall) (clock : ℤ) (since : Option ℤ) (activation : ℕ) : Prop where
  readAt_le : u.readAt.getD clock ≤ clock
  activation_le : u.activation ≤ activation
  began : u.newActive = true → u.activation = activation → ∀ t₀, since = some t₀ →
    t₀ + u.predate.toNat ≤ u.readAt.getD clock

/-- The invariant of all steps. -/
structure DelayInv (s : DelayState) : Prop where
  stamp : ∀ i input, s.inputs[i]? = some input →
    StampInv input (s.since i) (s.activation i) (s.stamped i)
  call : ∀ thread u, s.updates thread = some u →
    CallInv u s.clock (s.since u.i) (s.activation u.i)
  caller_le : ∀ caller now, s.callers caller = some now → now ≤ s.clock

theorem DelayInv.of_initial {inputs : List Input} (h : ∀ input ∈ inputs, input.Fresh) :
    DelayInv (initial inputs) := by
  refine ⟨fun i input hi => ?_, by simp [initial], by simp [initial]⟩
  obtain ⟨hactive, -, hsince⟩ := h input (List.mem_of_getElem? hi)
  exact ⟨by simp [initial, hactive], by simp [initial, hsince], le_rfl, by simp [initial]⟩

/-- Time passes during a call. -/
theorem CallInv.mono {u : UpdateCall} {clock time : ℤ} {since : Option ℤ} {activation : ℕ}
    (h : CallInv u clock since activation) (ht : clock ≤ time) :
    CallInv u time since activation := by
  obtain ⟨hread, hle, hbegan⟩ := h
  cases hr : u.readAt with
  | none =>
    refine ⟨by simp [hr], hle, fun hn ha t₀ h₀ => ?_⟩
    have := hbegan hn ha t₀ h₀
    simp only [hr, Option.getD_none] at this ⊢
    omega
  | some t =>
    refine ⟨by simp only [hr, Option.getD_some] at hread ⊢; omega, hle, fun hn ha t₀ h₀ => ?_⟩
    simpa [hr] using hbegan hn ha t₀ h₀

/-- A flip of the flag by another call ends the activation this call may have set, or begins a
new one. -/
theorem CallInv.flip {u : UpdateCall} {clock : ℤ} {since : Option ℤ} {activation : ℕ}
    (h : CallInv u clock since activation) (newActive : Bool) (t : ℤ) :
    CallInv u clock (if newActive then some t else none)
      (if newActive then activation + 1 else activation) := by
  obtain ⟨hread, hle, -⟩ := h
  cases newActive with
  | true => exact ⟨hread, Nat.le_succ_of_le hle, fun _ ha => absurd ha (by simp; omega)⟩
  | false => exact ⟨hread, hle, by simp⟩

/-- A flip of the flag outdates the time stamp. -/
theorem StampInv.flip {input : Input} {since : Option ℤ} {activation : ℕ} {stamped : ℕ × ℤ}
    (h : StampInv input since activation stamped) (newActive : Bool) (t : ℤ) :
    StampInv { input with active := newActive } (if newActive then some t else none)
      (if newActive then activation + 1 else activation) stamped := by
  obtain ⟨-, hsince, hle, -⟩ := h
  cases newActive with
  | true => exact ⟨rfl, hsince, Nat.le_succ_of_le hle, fun ha => absurd ha (by simp; omega)⟩
  | false => exact ⟨rfl, hsince, hle, by simp⟩

/-- The store of a call gives the input the time stamp that the call has read. -/
theorem StampInv.store {input : Input} {u : UpdateCall} {clock readAt : ℤ} {since : Option ℤ}
    {activation : ℕ} {stamped : ℕ × ℤ} (h : StampInv input since activation stamped)
    (hu : CallInv u clock since activation) (hread : u.readAt = some readAt) :
    StampInv (input.recordEdge u.newActive (micros readAt - u.predate)) since activation
      (if u.newActive then (u.activation, readAt - u.predate.toNat) else stamped) := by
  refine ⟨by simpa using h.active, ?_, ?_, ?_⟩
  · cases hn : u.newActive with
    | true => simp [Input.recordEdge, micros, reading_sub_eq]
    | false =>
      simp only [Input.recordEdge, Bool.false_eq_true, if_false]
      split <;> exact h.activeSince
  · cases hn : u.newActive with
    | true => simpa using hu.activation_le
    | false => simpa using h.activation_le
  · cases hn : u.newActive with
    | true =>
      intro ha t₀ h₀
      have := hu.began hn ha t₀ h₀
      simp only [hread, Option.getD_some] at this
      simp only [if_true]
      omega
    | false => simpa using h.began

/-! ### The steps -/

theorem recordFlip_since {s : DelayState} {i j : ℕ} {newActive : Bool} {t : ℤ} :
    (s.recordFlip i newActive t).since j =
      if j = i then (if newActive then some t else none) else s.since j := by
  unfold recordFlip
  cases newActive <;> by_cases hj : j = i <;> simp [hj]

theorem recordFlip_activation {s : DelayState} {i j : ℕ} {newActive : Bool} {t : ℤ} :
    (s.recordFlip i newActive t).activation j =
      if j = i then (if newActive then s.activation i + 1 else s.activation i)
      else s.activation j := by
  unfold recordFlip
  cases newActive <;> by_cases hj : j = i <;> simp [hj]

/-- A flip touches nothing but the history of its input. -/
theorem recordFlip_frame {s : DelayState} {i : ℕ} {newActive : Bool} {t : ℤ} :
    (s.recordFlip i newActive t).stamped = s.stamped ∧
      (s.recordFlip i newActive t).callers = s.callers := by
  unfold recordFlip
  cases newActive <;> exact ⟨rfl, rfl⟩

theorem recordStamp_stamped {s : DelayState} {u : UpdateCall} {readAt : ℤ} {j : ℕ} :
    (s.recordStamp u readAt).stamped j =
      if j = u.i then (if u.newActive then (u.activation, readAt - u.predate.toNat)
        else s.stamped u.i)
      else s.stamped j := by
  unfold recordStamp
  cases u.newActive <;> by_cases hj : j = u.i <;> simp [hj]

/-- A time stamp touches nothing but the history of time stamps. -/
theorem recordStamp_frame {s : DelayState} {u : UpdateCall} {readAt : ℤ} :
    (s.recordStamp u readAt).since = s.since ∧
      (s.recordStamp u readAt).activation = s.activation ∧
        (s.recordStamp u readAt).callers = s.callers := by
  unfold recordStamp
  cases u.newActive <;> exact ⟨rfl, rfl, rfl⟩

theorem DelayInv.sampleNow {s s' : DelayState} {time : ℤ} {caller : ℕ} (h : DelayInv s)
    (ht : s.clock ≤ time) (hs : s.stepAt time (.sampleNow caller) = some s') : DelayInv s' := by
  simp only [stepAt, Option.some.injEq] at hs
  subst hs
  refine ⟨h.stamp, fun thread u hu => (h.call thread u hu).mono ht, fun c now hc => ?_⟩
  by_cases hcc : c = caller
  · subst hcc
    obtain rfl : time = now := by simpa using hc
    exact le_rfl
  · exact (h.caller_le c now (by simpa [Function.update_of_ne hcc] using hc)).trans ht

theorem DelayInv.getReasons {s s' : DelayState} {time : ℤ} {caller : ℕ} (h : DelayInv s)
    (ht : s.clock ≤ time) (hs : s.stepAt time (.getReasons caller) = some s') : DelayInv s' := by
  simp only [stepAt, Option.map_eq_some_iff] at hs
  obtain ⟨now, -, rfl⟩ := hs
  refine ⟨fun i input hi => ?_, fun thread u hu => (h.call thread u hu).mono ht,
    fun c now' hc => ?_⟩
  · simp only [getEmergencyReasons_inputs, List.getElem?_map, Option.map_eq_some_iff] at hi
    obtain ⟨input₀, hi, rfl⟩ := hi
    obtain ⟨hactive, hsince, hle, hbegan⟩ := h.stamp i input₀ hi
    exact ⟨by simpa using hactive, by simpa using hsince, hle, hbegan⟩
  · by_cases hcc : c = caller
    · simp [hcc] at hc
    · exact (h.caller_le c now' (by simpa [Function.update_of_ne hcc] using hc)).trans ht

theorem DelayInv.readClock {s s' : DelayState} {time : ℤ} {thread : ℕ} (h : DelayInv s)
    (ht : s.clock ≤ time) (hs : s.stepAt time (.readClock thread) = some s') : DelayInv s' := by
  simp only [stepAt, Option.bind_eq_some_iff, Option.ite_none_right_eq_some,
    Option.some.injEq] at hs
  obtain ⟨u, hu, hnone, rfl⟩ := hs
  refine ⟨h.stamp, fun thread' u' hu' => ?_, fun c now hc => (h.caller_le c now hc).trans ht⟩
  by_cases hth : thread' = thread
  · subst hth
    obtain rfl : { u with readAt := some time } = u' := by simpa using hu'
    obtain ⟨hread, hle, hbegan⟩ := (h.call _ u hu).mono ht
    simp only [hnone, Option.getD_none] at hbegan
    exact ⟨le_rfl, hle, hbegan⟩
  · exact (h.call thread' u' (by simpa [Function.update_of_ne hth] using hu')).mono ht

/-- The compare-exchange of an update flips the flag and begins a call, or does nothing. -/
theorem DelayInv.exchange {s s' : DelayState} {time : ℤ} {thread i : ℕ} {newActive : Bool}
    {predate : Micros} (h : DelayInv s) (ht : s.clock ≤ time)
    (hs : s.stepAt time (.exchange thread i newActive predate) = some s') : DelayInv s' := by
  simp only [stepAt, Option.ite_none_right_eq_some, Option.map_eq_some_iff] at hs
  obtain ⟨-, input, hi, hs⟩ := hs
  cases hx : input.exchangeActive (input.applyInvert newActive) with
  | none =>
    -- the flag has the new level already
    simp only [hx] at hs
    subst hs
    exact ⟨h.stamp, fun thread' u hu => (h.call thread' u hu).mono ht,
      fun c now hc => (h.caller_le c now hc).trans ht⟩
  | some input' =>
    obtain ⟨-, rfl⟩ := Input.exchangeActive_eq_some.mp hx
    simp only [hx] at hs
    subst hs
    refine ⟨fun j inputⱼ hj => ?_, fun thread' u hu => ?_, fun c now hc => ?_⟩
    · simp only [recordFlip_since, recordFlip_activation, recordFlip_frame]
      rw [List.getElem?_set] at hj
      split at hj
      · next heq =>
        subst heq
        split at hj
        · obtain rfl := Option.some.inj hj
          simpa using (h.stamp i input hi).flip (input.applyInvert newActive)
            (time - predate.toNat)
        · simp at hj
      · next hne => simpa [Ne.symm hne] using h.stamp j inputⱼ hj
    · simp only [recordFlip_since, recordFlip_activation]
      -- the new call, or an older one, perhaps of the same input
      by_cases hth : thread' = thread
      · subst hth
        simp only [Function.update_self, Option.some.injEq] at hu
        subst hu
        refine ⟨le_rfl, by simp [recordFlip_activation], ?_⟩
        rintro hn - t₀ h₀
        have hlevel : input.applyInvert newActive = true := hn
        simp only [if_true, hlevel, Option.some.injEq] at h₀
        simp only [Option.getD_none]
        omega
      · simp only [Function.update_of_ne hth] at hu
        have hcall := (h.call thread' u hu).mono ht
        by_cases hui : u.i = i
        · simpa [hui] using (hui ▸ hcall).flip (input.applyInvert newActive)
            (time - predate.toNat)
        · simpa [hui] using hcall
    · simp only [recordFlip_frame] at hc
      exact (h.caller_le c now hc).trans ht

/-- The store of an update writes its time stamp and ends the call. -/
theorem DelayInv.store {s s' : DelayState} {time : ℤ} {thread : ℕ} (h : DelayInv s)
    (ht : s.clock ≤ time) (hs : s.stepAt time (.store thread) = some s') : DelayInv s' := by
  simp only [stepAt, Option.bind_eq_some_iff, Option.map_eq_some_iff] at hs
  obtain ⟨u, hu, readAt, hread, rfl⟩ := hs
  refine ⟨fun j input hj => ?_, fun thread' u' hu' => ?_, fun c now hc => ?_⟩
  · simp only [recordStamp_stamped, recordStamp_frame]
    rw [List.getElem?_modify] at hj
    by_cases hji : j = u.i
    · subst hji
      simp only [if_true, Option.map_eq_map, Option.map_eq_some_iff] at hj
      obtain ⟨input₀, hj, rfl⟩ := hj
      simpa using (h.stamp _ input₀ hj).store (h.call thread u hu) hread
    · simpa [hji, Ne.symm hji] using h.stamp j input (by simpa [Ne.symm hji] using hj)
  · simp only [recordStamp_frame]
    by_cases hth : thread' = thread
    · simp [hth] at hu'
    · exact (h.call thread' u' (by simpa [Function.update_of_ne hth] using hu')).mono ht
  · simp only [recordStamp_frame] at hc
    exact (h.caller_le c now hc).trans ht

theorem DelayInv.step {s s' : DelayState} {e : ℤ × DelayStep} (h : DelayInv s)
    (hs : s.step e = some s') : DelayInv s' := by
  obtain ⟨time, e⟩ := e
  simp only [DelayState.step, Option.ite_none_right_eq_some] at hs
  obtain ⟨ht, hs⟩ := hs
  cases e with
  | sampleNow caller => exact h.sampleNow ht hs
  | getReasons caller => exact h.getReasons ht hs
  | exchange thread i newActive predate => exact h.exchange ht hs
  | readClock thread => exact h.readClock ht hs
  | store thread => exact h.store ht hs

/-- With the invariant, a reported delay has really passed if the time stamp is that of the
current activation and not in the future of the caller: the wrapped difference is then at
most the age of the activation. -/
theorem DelayInv.honoursDelay {s s' : DelayState} {e : ℤ × DelayStep} (h : DelayInv s)
    (hs : s.step e = some s') (hstamp : StampedInTime s e s') : HonoursDelay s e s' := by
  intro caller he now hnow i input hi hd hp hrep
  simp only [DelayState.step, Option.ite_none_right_eq_some] at hs
  obtain ⟨ht, -⟩ := hs
  obtain ⟨hr, hpend | ⟨hactive, hdelay⟩⟩ := hrep
  · simp [hp] at hpend
  obtain ⟨hcur, hle⟩ := hstamp caller he now hnow i input hi hd hr hactive
  have hinv := h.stamp i input hi
  obtain ⟨t₀, h₀⟩ := Option.isSome_iff_exists.mp (hinv.active ▸ hactive)
  refine ⟨t₀, h₀, ?_⟩
  have hbegan : t₀ ≤ (s.stamped i).2 := hinv.began hcur t₀ h₀
  have hcaller : now ≤ s.clock := h.caller_le caller now hnow
  -- no underflow: the caller's reading is not older than the stamp
  have hage : ((input.activeDuration (micros now)).toNat : ℤ) ≤ now - (s.stamped i).2 := by
    rw [Input.activeDuration, hinv.activeSince]
    exact toNat_reading_sub_le hle
  have hdelay' : input.delayMicros ≤ (input.activeDuration (micros now)).toNat := by
    rw [← input.toNat_emergencyDelay]
    exact_mod_cast BitVec.le_def.mp hdelay
  omega

end DelayState

open DelayState

/-- The threads that update and poll a list of inputs. -/
def delaySystem : StateMachine DelayState (ℤ × DelayStep) where
  Init s := ∃ inputs : List Input, (∀ input ∈ inputs, input.Fresh) ∧ s = .initial inputs
  step s e := s.step e

/-- **Delays.** In every interleaving in which `GetEmergencyReasons` only meets time stamps
of the current activations that its caller has not read the clock before, what it reports
without a pending emergency has been active for the full delay. -/
theorem delay_honoured {s : DelayState} (h : delaySystem.Init s) (es : List (ℤ × DelayStep))
    (hes : delaySystem.EveryStep StampedInTime s es) :
    delaySystem.EveryStep HonoursDelay s es := by
  obtain ⟨inputs, hfresh, rfl⟩ := h
  exact hes.imp (DelayInv.of_initial hfresh) fun _ _ _ hI hs hg =>
    ⟨hI.step hs, hI.honoursDelay hs hg⟩

/-- A lift input with a delay of one second. -/
def delayedLift : Input where
  idx := 0#8
  emergencyReason := EmergencyReason.standard.mask .lift
  emergencyDelayMs := 1000#16

/-- A caller reads the clock, 10 µs later the input becomes active, and then the caller
continues with `GetEmergencyReasons`. -/
def olderNowRun : List (ℤ × DelayStep) :=
  [(0, .sampleNow 0), (10, .exchange 1 0 true 0#32), (10, .readClock 1), (10, .store 1),
    (10, .getReasons 0)]

/-- The input is reported in the moment in which it becomes active. -/
theorem not_honoursDelay_olderNowRun :
    ¬ delaySystem.EveryStep HonoursDelay (.initial [delayedLift]) olderNowRun := by
  intro h
  have hget := (((((h _ rfl).2 _ rfl).2 _ rfl).2 _ rfl).2 _ rfl).1
  obtain ⟨t₀, h₀, hle⟩ := hget 0 rfl 0 rfl 0 _ rfl (by decide) rfl (by decide)
  obtain rfl : 10 = t₀ := Option.some.inj h₀
  exact absurd hle (by decide)

/-- The caller reads the clock after the update. -/
def newerNowRun : List (ℤ × DelayStep) :=
  [(10, .exchange 1 0 true 0#32), (10, .readClock 1), (10, .store 1), (1000010, .sampleNow 0),
    (1000010, .getReasons 0)]

/-- In this order the lift input is reported after one second. -/
theorem delay_honoured_newerNowRun :
    delaySystem.EveryStep HonoursDelay (.initial [delayedLift]) newerNowRun := by
  refine delay_honoured ⟨[delayedLift], by decide, rfl⟩ newerNowRun ?_
  rintro s₁ ⟨⟩
  refine ⟨by simp [StampedInTime], ?_⟩
  rintro s₂ ⟨⟩
  refine ⟨by simp [StampedInTime], ?_⟩
  rintro s₃ ⟨⟩
  refine ⟨by simp [StampedInTime], ?_⟩
  rintro s₄ ⟨⟩
  refine ⟨by simp [StampedInTime], ?_⟩
  rintro s₅ ⟨⟩
  refine ⟨?_, trivial⟩
  rintro caller ⟨⟩ now hnow i input hi - - -
  obtain rfl : 1000010 = now := Option.some.inj hnow
  match i, hi with
  | 0, _ => exact ⟨rfl, by decide⟩

end OpenMower
