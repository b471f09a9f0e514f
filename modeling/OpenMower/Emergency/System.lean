import OpenMower.Library.StateMachine
import OpenMower.Services.EmergencyService

/-!
# The emergency system as a state machine

Two threads run methods of the emergency service: its own thread (`OnLoop`, the high-level
message, `OnStop`) and the main thread, which runs `CheckInputs` when an input has changed.
The input drivers update the inputs from further threads. An event of `emergencySystem` is
one critical section of one of them, or a whole method that has only one:

* `poll`, `stampMessage` and `sampleTimeouts` are the first sections of `CheckInputs`,
  `OnHighLevelEmergencyChanged` and `CheckTimeouts`, and `finish` is the `UpdateEmergency`
  that ends them; in between the thread is `pending`;
* `checkRequiredServices`, `requireService`, `onStop`, `updateInput` and `configureInputs`
  are single events.

The three checks of an `OnLoop` pass may come in any order, since the source leaves the order
of evaluation of the arguments of `etl::min` open. The true time of the clock readings is an
integer number of microseconds that never decreases. The fields `handled` and `lastPoll` are
history: they record when messages were handled and what the last poll returned.
-/

namespace OpenMower

open ModularClock WordMask

/-- The threads that run methods of the emergency service. -/
inductive Thread
  | main
  | emergency
  deriving DecidableEq, Repr

/-- What a thread has read and still has to pass to `UpdateEmergency`. -/
inductive Pending
  | idle
  | checkInputs (reasons : Reasons)
  | highLevel (newValue0 newValue1 : Reasons)
  | checkTimeouts (time : ℤ) (reasons : Reasons)
  deriving DecidableEq

/-- The state of the emergency system. -/
structure EmergencyState (ι : Type*) where
  service : EmergencyService ι
  inputs : List Input
  pending : Thread → Pending
  /-- The true time of the last clock reading. -/
  clock : ℤ
  /-- The true times at which high-level messages were handled, the latest first. -/
  handled : List ℤ
  /-- The thread and the result of the last poll of the inputs. -/
  lastPoll : Option (Thread × Reasons)

/-- The atomic steps. -/
inductive EmergencyEvent (ι : Type*)
  | poll (t : Thread) (now : Micros)
  | stampMessage (newValue0 newValue1 : Reasons) (time : ℤ)
  | sampleTimeouts (time : ℤ)
  | finish (t : Thread)
  | checkRequiredServices (isHealthy : ι → Bool)
  | requireService (svc : ι)
  | onStop
  | updateInput (i : ℕ) (newActive : Bool) (predate : Micros) (time : ℤ)
  | configureInputs (inputs : List Input)

namespace EmergencyState

variable {ι : Type*} (E : EmergencyReason) (s : EmergencyState ι)

/-- The initial field values, for some list of inputs. -/
def initial (inputs : List Input) : EmergencyState ι where
  service := EmergencyService.initial E
  inputs := inputs
  pending := fun _ => .idle
  clock := 0
  handled := []
  lastPoll := none

/-- The states before any event: initial field values and freshly configured inputs. -/
def IsInitial : Prop :=
  ∃ inputs : List Input, (∀ input ∈ inputs, input.Fresh) ∧ s = initial E inputs

/-- `Input::Update` on the input at position `i`. -/
def updateInput (i : ℕ) (newActive : Bool) (predate : Micros) (time : ℤ) : EmergencyState ι :=
  { s with
    clock := time
    inputs := Input.updateAt s.inputs i newActive (micros time) predate }

/-- The `UpdateEmergency` call that ends a method, with the masks of that method. -/
def applyPending : Pending → EmergencyService ι
  | .idle => s.service
  | .checkInputs reasons => s.service.updateEmergency reasons E.conditions
  | .highLevel newValue0 newValue1 =>
    s.service.updateEmergency newValue0 (EmergencyService.highLevelClear E newValue1)
  | .checkTimeouts _ reasons => s.service.updateEmergency reasons E.timeouts

/-- One atomic step. -/
def step : EmergencyEvent ι → Option (EmergencyState ι)
  | .poll t now =>
    if s.pending t = .idle then
      let r := getEmergencyReasons now s.inputs
      some { s with
        inputs := r.1
        pending := Function.update s.pending t (.checkInputs r.2.1)
        lastPoll := some (t, r.2.1) }
    else none
  | .stampMessage newValue0 newValue1 time =>
    if s.pending .emergency = .idle ∧ s.clock ≤ time then
      some { s with
        service := s.service.stampHighLevelMessage (micros time)
        pending := Function.update s.pending .emergency (.highLevel newValue0 newValue1)
        clock := time
        handled := time :: s.handled }
    else none
  | .sampleTimeouts time =>
    if s.pending .emergency = .idle ∧ s.clock ≤ time then
      some { s with
        pending := Function.update s.pending .emergency
          (.checkTimeouts time (s.service.sampleTimeouts E (micros time)).1)
        clock := time }
    else none
  | .finish t =>
    if s.pending t = .idle then none
    else
      some { s with
        service := s.applyPending E (s.pending t)
        pending := Function.update s.pending t .idle }
  | .checkRequiredServices isHealthy =>
    if s.pending .emergency = .idle then
      some { s with service := (s.service.checkRequiredServices E isHealthy).1 }
    else none
  | .requireService svc =>
    if s.pending .main = .idle then
      (s.service.requireService E svc).map fun service => { s with service := service }
    else none
  | .onStop =>
    if s.pending .emergency = .idle then some { s with service := s.service.onStop E } else none
  | .updateInput i newActive predate time =>
    if s.clock ≤ time then some (s.updateInput i newActive predate time) else none
  | .configureInputs inputs =>
    if ∀ input ∈ inputs, input.Fresh then some { s with inputs := inputs } else none

/-! ### What a step does to the reasons -/

/-- The add and clear masks of the `UpdateEmergency` call that ends a method. -/
def pendingMasks : Pending → Reasons × Reasons
  | .idle => (0#16, 0#16)
  | .checkInputs reasons => (reasons, E.conditions)
  | .highLevel newValue0 newValue1 => (newValue0, EmergencyService.highLevelClear E newValue1)
  | .checkTimeouts _ reasons => (reasons, E.timeouts)

/-- The add and clear masks of an event; both are zero where the event does not touch the
reasons. -/
def masks : EmergencyEvent ι → Reasons × Reasons
  | .finish t => pendingMasks E (s.pending t)
  | .checkRequiredServices isHealthy =>
    if s.service.requiredServices.isEmpty then (0#16, 0#16)
    else
      (if s.service.requiredServices.all isHealthy then 0#16 else E.mask .serviceNotReady,
        E.mask .serviceNotReady)
  | .requireService _ => (E.mask .serviceNotReady, 0#16)
  | .onStop => (E.mask .timeoutHighLevel, 0#16)
  | _ => (0#16, 0#16)

variable {E s}

/-- Every method ends in one `UpdateEmergency` with its masks. -/
theorem applyPending_eq {p : Pending} :
    s.applyPending E p =
      s.service.updateEmergency (pendingMasks E p).1 (pendingMasks E p).2 := by
  cases p with
  | idle => simp [applyPending, pendingMasks, EmergencyService.updateEmergency]
  | checkInputs reasons => rfl
  | highLevel newValue0 newValue1 => rfl
  | checkTimeouts time reasons => rfl

/-- **One step, one rewrite.** Every event rewrites the reasons with its own two masks. -/
theorem step_reasons {s' : EmergencyState ι} {e : EmergencyEvent ι}
    (hs : s.step E e = some s') :
    s'.service.reasons = rewrite s.service.reasons (s.masks E e).1 (s.masks E e).2 := by
  cases e with
  | finish t =>
    simp only [step, Option.ite_none_left_eq_some, Option.some.injEq] at hs
    obtain ⟨-, rfl⟩ := hs
    simp only [applyPending_eq, EmergencyService.updateEmergency_reasons, masks]
  | checkRequiredServices isHealthy =>
    simp only [step, Option.ite_none_right_eq_some, Option.some.injEq] at hs
    obtain ⟨-, rfl⟩ := hs
    simp only [EmergencyService.checkRequiredServices, masks]
    split
    · simp
    · rfl
  | requireService svc =>
    simp only [step, Option.ite_none_right_eq_some, Option.map_eq_some_iff,
      EmergencyService.requireService, Option.some.injEq] at hs
    obtain ⟨-, service, ⟨-, rfl⟩, rfl⟩ := hs
    exact rewrite_zero_right.symm
  | onStop =>
    simp only [step, Option.ite_none_right_eq_some, Option.some.injEq] at hs
    obtain ⟨-, rfl⟩ := hs
    rfl
  | poll t now =>
    simp only [step, Option.ite_none_right_eq_some, Option.some.injEq] at hs
    obtain ⟨-, rfl⟩ := hs
    simp [masks]
  | stampMessage newValue0 newValue1 time =>
    simp only [step, Option.ite_none_right_eq_some, Option.some.injEq] at hs
    obtain ⟨-, rfl⟩ := hs
    simp [masks, EmergencyService.stampHighLevelMessage]
  | sampleTimeouts time =>
    simp only [step, Option.ite_none_right_eq_some, Option.some.injEq] at hs
    obtain ⟨-, rfl⟩ := hs
    simp [masks]
  | updateInput i newActive predate time =>
    simp only [step, Option.ite_none_right_eq_some, Option.some.injEq] at hs
    obtain ⟨-, rfl⟩ := hs
    simp [masks, updateInput]
  | configureInputs inputs =>
    simp only [step, Option.ite_none_right_eq_some, Option.some.injEq] at hs
    obtain ⟨-, rfl⟩ := hs
    simp [masks]

end EmergencyState

/-- The emergency system over the generated constants `E` and service pointers `ι`. -/
def emergencySystem (E : EmergencyReason) (ι : Type*) :
    StateMachine (EmergencyState ι) (EmergencyEvent ι) where
  Init s := s.IsInitial E
  step s e := s.step E e

end OpenMower
