import OpenMower.Inputs.CollisionCounting

/-!
# Updates while a configuration is being parsed

An input is handed to its driver before its values are parsed, and a driver with a thread of its
own may update it at once. The counting rules read the reasons and the group of an input at
both edges of an activation, so the counters go wrong if a callback changes these while the
input is active: the falling edge is then counted in another way than the rising one.

Updates are taken as whole calls here: that a driver's thread is preempted inside `Update`, between
the compare-exchange and `OnInputChanged`, is not modelled. Between whole calls,
`concurrent_configuration_counts` shows that this is the only way. As long as no callback recounts
an active input (`Recounts`), no counter wraps, and all are 0 when all sensors are inactive.
-/

namespace OpenMower

open Refcount

/-- Two stages of an input are counted in the same way: they have the same lift and collision
reasons, and as a lift sensor the same group. -/
structure SameCounting (E : EmergencyReason) (a b : Input) : Prop where
  lift : E.mem .lift b.emergencyReason = E.mem .lift a.emergencyReason
  collision : E.mem .collision b.emergencyReason = E.mem .collision a.emergencyReason
  group : E.mem .lift a.emergencyReason = true → b.redundancyGroup = a.redundancyGroup

namespace InputConfig

variable (env : InputConfigEnv) (s : InputConfig)

/-- The id that the key `redundancy_group` gives to the current input, if it is accepted. -/
def assignedGroup (event : JsonEvent) : Option (BitVec 8) :=
  if event.type ≠ .string then none
  else if 10 < event.buffPos then none
  else
    match s.redundancyGroupMap.lookup (event.buff.take 10) with
    | some id => some id
    | none =>
      if maxRedundancyGroups < s.nextRedundancyGroupId then none else some s.nextRedundancyGroupId

/-- A lift sensor gets another group, an `emergency` object drops a lift or collision reason, or
such a reason is new. -/
def Recounts (event : JsonEvent) (input : Input) : Prop :=
  (event.stackPos = 5 ∧ event.key = "redundancy_group".toList ∧
    env.reason.mem .lift input.emergencyReason = true ∧
      ∃ id, s.assignedGroup event = some id ∧ id ≠ input.redundancyGroup) ∨
  (event.stackPos = 5 ∧ event.key = "emergency".toList ∧ event.type = .object ∧
    (env.reason.mem .lift input.emergencyReason = true ∨
      env.reason.mem .collision input.emergencyReason = true)) ∨
  (event.stackPos = 7 ∧ event.key = "emergency".toList ∧ event.innerKey = "reason".toList ∧
    event.type = .string ∧
      ((event.buff = "lift".toList ∧ env.reason.mem .lift input.emergencyReason = false) ∨
        (event.buff = "collision".toList ∧
          env.reason.mem .collision input.emergencyReason = false)))

/-- What a callback does to the current input. -/
structure Configures (event : JsonEvent) (a b : Input) : Prop where
  idx : b.idx = a.idx
  active : b.active = a.active
  counting : ¬ s.Recounts env event a → SameCounting env.reason a b

/-- What a callback does: nothing to the service, a new input, or a change of the current
input. -/
inductive CallbackEffect (event : JsonEvent) : InputConfig → Prop
  | keep {s' : InputConfig} (service : s'.service = s.service) (nextIdx : s'.nextIdx = s.nextIdx)
      (current : s'.currentInput = s.currentInput ∨ s'.currentInput = none) :
      CallbackEffect event s'
  | add (notFull : s.service.allInputs.length ≠ maxInputs) : CallbackEffect event s.addInput
  | modify {s' : InputConfig} {i : ℕ} {f : Input → Input}
      (service : s'.service = (s.modifyInput i f).service) (nextIdx : s'.nextIdx = s.nextIdx)
      (current : s.currentInput = some i) (current' : s'.currentInput = s.currentInput)
      (configures : ∀ a, s.service.allInputs[i]? = some a → Configures env s event a (f a)) :
      CallbackEffect event s'

variable {env} {s} {event : JsonEvent} {i : ℕ}

theorem CallbackEffect.refl : CallbackEffect env s event s := .keep rfl rfl (.inl rfl)

/-- A change of the current input that keeps what it is counted for. -/
theorem CallbackEffect.modifyInput (hi : s.currentInput = some i) {f : Input → Input}
    (hf : ∀ a, s.service.allInputs[i]? = some a → Configures env s event a (f a)) :
    CallbackEffect env s event (s.modifyInput i f) :=
  .modify rfl rfl hi rfl hf

theorem CallbackEffect.redundancyGroupValue (hi : s.currentInput = some i)
    (hpos : event.stackPos = 5) (hkey : event.key = "redundancy_group".toList) :
    CallbackEffect env s event (s.redundancyGroupValue event i).2 := by
  have hconfigures : ∀ id, s.assignedGroup event = some id → ∀ a : Input,
      Configures env s event a { a with redundancyGroup := id } := by
    intro id hid a
    refine ⟨rfl, rfl, fun hnot => ⟨rfl, rfl, fun hlift => ?_⟩⟩
    by_contra hne
    exact hnot (.inl ⟨hpos, hkey, hlift, id, hid, hne⟩)
  simp only [assignedGroup] at hconfigures
  unfold InputConfig.redundancyGroupValue
  split
  · exact .refl
  next htype =>
  split
  · exact .refl
  next hlen =>
  simp only [htype, hlen, if_false] at hconfigures
  dsimp only
  split
  · next id hl =>
    simp only [hl] at hconfigures
    exact .modify rfl rfl hi rfl fun a _ => hconfigures id rfl a
  · next hl =>
    simp only [hl] at hconfigures
    split
    · exact .refl
    next hmax =>
    simp only [hmax, if_false] at hconfigures
    exact .modify rfl rfl hi rfl fun a _ => hconfigures _ rfl a

theorem CallbackEffect.driverValue (hi : s.currentInput = some i) :
    CallbackEffect env s event (s.driverValue event i).2 := by
  unfold InputConfig.driverValue
  split
  · next driver input _ hin =>
    obtain ⟨invert, driverData, hset⟩ := driver.sets_own event input
    refine .modifyInput hi fun a ha => ?_
    obtain rfl : input = a := Option.some.inj (hin.symm.trans ha)
    rw [hset]
    exact ⟨rfl, rfl, fun _ => ⟨rfl, rfl, fun _ => rfl⟩⟩
  · exact .refl

theorem CallbackEffect.inputValue (hi : s.currentInput = some i) (hpos : event.stackPos = 5) :
    CallbackEffect env s event (s.inputValue env event i).2 := by
  unfold InputConfig.inputValue
  split
  · split
    · exact .modifyInput hi fun a _ => ⟨rfl, rfl, fun _ => ⟨rfl, rfl, fun _ => rfl⟩⟩
    · exact .refl
  split
  · next hkey => exact .redundancyGroupValue hi hpos hkey
  split
  · next hkey =>
    split
    · next htype =>
      -- the reasons are set anew, to the latch alone
      refine .modifyInput hi fun a _ => ⟨rfl, rfl, fun hnot => ?_⟩
      have hnone : env.reason.mem .lift a.emergencyReason = false ∧
          env.reason.mem .collision a.emergencyReason = false := by
        constructor
        · exact Bool.eq_false_iff.mpr fun h => hnot (.inr (.inl ⟨hpos, hkey, htype, .inl h⟩))
        · exact Bool.eq_false_iff.mpr fun h => hnot (.inr (.inl ⟨hpos, hkey, htype, .inr h⟩))
      exact ⟨by simp [hnone.1], by simp [hnone.2], fun _ => rfl⟩
    · exact .refl
  · exact .driverValue hi

/-- Adding a reason that the input has already, or one that is not counted. -/
theorem CallbackEffect.addReason (hi : s.currentInput = some i) {r : Reason}
    (hr : ∀ a, ¬ s.Recounts env event a →
      (r = .lift → env.reason.mem .lift a.emergencyReason = true) ∧
        (r = .collision → env.reason.mem .collision a.emergencyReason = true)) :
    CallbackEffect env s event (s.addReason env i r) := by
  refine .modifyInput hi fun a _ => ⟨rfl, rfl, fun hnot => ?_⟩
  obtain ⟨hlift, hcollision⟩ := hr a hnot
  refine ⟨?_, ?_, fun _ => rfl⟩
  · by_cases heq : r = .lift
    · simp [heq, hlift heq]
    · simp [heq]
  · by_cases heq : r = .collision
    · simp [heq, hcollision heq]
    · simp [heq]

theorem CallbackEffect.reasonValue (hi : s.currentInput = some i) (hpos : event.stackPos = 7)
    (hkey : event.key = "emergency".toList) (hinner : event.innerKey = "reason".toList) :
    CallbackEffect env s event (s.reasonValue env event i).2 := by
  unfold InputConfig.reasonValue
  split
  · exact .refl
  next htype =>
  have hstring : event.type = .string := not_not.mp htype
  split
  · exact .addReason hi fun a _ => ⟨by simp, by simp⟩
  split
  · next hbuff =>
    refine .addReason hi fun a hnot => ⟨fun _ => ?_, by simp⟩
    by_contra hnew
    exact hnot (.inr (.inr ⟨hpos, hkey, hinner, hstring, .inl ⟨hbuff, by simpa using hnew⟩⟩))
  split
  · next hbuff =>
    refine .addReason hi fun a hnot => ⟨by simp, fun _ => ?_⟩
    by_contra hnew
    exact hnot (.inr (.inr ⟨hpos, hkey, hinner, hstring, .inr ⟨hbuff, by simpa using hnew⟩⟩))
  · exact .refl

theorem CallbackEffect.emergencyValue (hi : s.currentInput = some i) (hpos : event.stackPos = 7) :
    CallbackEffect env s event (s.emergencyValue env event i).2 := by
  unfold InputConfig.emergencyValue
  split
  · exact .refl
  next hkey =>
  split
  · next hinner => exact .reasonValue hi hpos (not_not.mp hkey) hinner
  split
  · split
    · exact .modifyInput hi fun a _ => ⟨rfl, rfl, fun _ => ⟨rfl, rfl, fun _ => rfl⟩⟩
    · exact .refl
  split
  · split
    · refine .modifyInput hi fun a _ => ⟨rfl, rfl, fun _ => ⟨?_, ?_, fun _ => rfl⟩⟩
      · simp
      · simp
    · exact .refl
  · exact .refl

theorem CallbackEffect.inputObject : CallbackEffect env s event (s.inputObject event).2 := by
  unfold InputConfig.inputObject
  split
  · exact .refl
  split
  · exact .keep rfl rfl (.inr rfl)
  split
  · split
    · exact .refl
    · next hfull => exact .add hfull
  · exact .keep rfl rfl (.inr rfl)

/-- **Every callback has one of these effects.** -/
theorem CallbackEffect.inputConfigsJsonCallback :
    CallbackEffect env s event (s.inputConfigsJsonCallback env event).2 := by
  unfold InputConfig.inputConfigsJsonCallback
  split
  · exact .refl
  · exact .keep rfl rfl (.inl rfl)
  · exact .refl
  · exact .inputObject
  · next hpos =>
    split
    · exact .refl
    · next i hi => exact .inputValue hi hpos
  · next hpos =>
    split
    · exact .refl
    · next i hi => exact .emergencyValue hi hpos
  · exact .refl

end InputConfig

/-! ### The counters -/

/-- All counters are 0. -/
def CountersZero (s : InputService) : Prop :=
  s.numActiveLift = 0#8 ∧ s.numActiveCollision = 0#8 ∧
    ∀ group, s.redundancyGroupRefcount group = 0#8

/-- No sensor is active. -/
def SensorsInactive (s : InputService) : Prop :=
  ∀ input ∈ s.allInputs, input.idx ≠ Input.virtualIdx → input.active = false

section Counting

variable {E : EmergencyReason} {a b : Input}

/-- An input whose flag stays is counted in the same way if it is inactive, or if it is counted
for the same. -/
theorem counted_same (hactive : b.active = a.active)
    (hcounting : a.active = true → SameCounting E a b) :
    b.liftGroup E = a.liftGroup E ∧ b.soloLift E = a.soloLift E ∧
      b.activeCollision E = a.activeCollision E := by
  cases ha : a.active with
  | false =>
    rw [ha] at hactive
    simp [Input.liftGroup, Input.soloLift, Input.activeLift, Input.activeCollision, ha, hactive]
  | true =>
    obtain ⟨hlift, hcollision, hgroup⟩ := hcounting ha
    rw [ha] at hactive
    cases hmem : E.mem .lift a.emergencyReason with
    | false =>
      rw [hmem] at hlift
      simp [Input.liftGroup, Input.soloLift, Input.activeLift, Input.activeCollision, ha, hactive,
        hmem, hlift, hcollision]
    | true =>
      rw [hmem] at hlift
      simp [Input.liftGroup, Input.soloLift, Input.activeLift, Input.activeCollision, ha, hactive,
        hmem, hlift, hcollision, hgroup hmem]

/-- With exact counters and no active sensor there is nothing to count. -/
theorem countersZero_of_inactive {s : InputService} (hlift : CountInv E s)
    (hcollision : CollisionInv E s) (h : SensorsInactive s) : CountersZero s := by
  have hnone : ∀ input ∈ s.allInputs,
      input.activeLift E = false ∧ input.activeCollision E = false := by
    intro input hin
    obtain ⟨j, hj⟩ := List.mem_iff_getElem?.mp hin
    by_cases h2 : j < 2
    · obtain ⟨v, hv, hvirtual⟩ := hlift.configured.virtual j h2
      obtain rfl : v = input := Option.some.inj (hv.symm.trans hj)
      exact ⟨by rw [Input.activeLift, hvirtual.notLift, Bool.and_false], hvirtual.activeCollision⟩
    · have hinactive := h input hin (hlift.configured.real j input (by omega) hj)
      simp [Input.activeLift, Input.activeCollision, hinactive]
  have hkeys : s.allInputs.filterMap (Input.liftGroup E) = [] :=
    List.filterMap_eq_nil_iff.mpr fun input hin => by simp [Input.liftGroup, (hnone input hin).1]
  have hsolo : s.allInputs.countP (Input.soloLift E) = 0 :=
    List.countP_eq_zero.mpr fun input hin => by simp [Input.soloLift, (hnone input hin).1]
  have hcount : s.allInputs.countP (Input.activeCollision E) = 0 :=
    List.countP_eq_zero.mpr fun input hin => by simp [(hnone input hin).2]
  refine ⟨BitVec.eq_of_toNat_eq ?_, BitVec.eq_of_toNat_eq ?_, fun group => BitVec.eq_of_toNat_eq ?_⟩
  · rw [hlift.counted.numActiveLift, liftCount, hsolo, keys, hkeys]
    rfl
  · exact hcollision.counted.trans hcount
  · rw [hlift.counted.groupRefcount, refcount, hkeys]
    rfl

end Counting

/-! ### Callbacks and updates in any order -/

/-- A callback of the parser, or an update of an input by a driver. -/
inductive ParseEvent
  | callback (event : JsonEvent)
  | update (call : UpdateArgs)

namespace InputConfig

variable {env : InputConfigEnv} {s s' : InputConfig}

/-- The steps of the parser and of the drivers. -/
def parseStep (env : InputConfigEnv) (s : InputConfig) : ParseEvent → Option InputConfig
  | .callback event => some (s.inputConfigsJsonCallback env event).2
  | .update call => s.service.allInputs[call.position]?.bind fun input =>
    if input.idx = Input.virtualIdx then none
    else some { s with
      service :=
        s.service.update env.reason call.position call.newActive call.time call.predate }

/-- No counter wraps in the step, and with all sensors inactive the counters are 0. -/
def CountsSafely (s : InputConfig) (_ : ParseEvent) (s' : InputConfig) : Prop :=
  NoUnderflow s.service s'.service ∧ NoCollisionUnderflow s.service s'.service ∧
    (SensorsInactive s'.service → CountersZero s'.service)

/-- No callback recounts an active input. -/
def NoRecount (env : InputConfigEnv) (s : InputConfig) (e : ParseEvent) (_ : InputConfig) : Prop :=
  ∀ event i input, e = .callback event → s.currentInput = some i →
    s.service.allInputs[i]? = some input → input.active = true → ¬ s.Recounts env event input

/-- The invariant: exact counters, and a current input that is not a virtual one. -/
structure ParseInv (env : InputConfigEnv) (s : InputConfig) : Prop where
  lift : CountInv env.reason s.service
  collision : CollisionInv env.reason s.service
  current : ∀ i, s.currentInput = some i → 2 ≤ i ∧ i < s.service.allInputs.length
  nextIdx : s.nextIdx.toNat + 2 = s.service.allInputs.length

theorem ParseInv.of_start : ParseInv env (start env) := by
  have hconfig : ConfigInv env (start env) := .of_start
  exact ⟨.of_configured hconfig.configured hconfig.inactive,
    .of_configured hconfig.configured hconfig.inactive, hconfig.current, hconfig.nextIdx⟩

/-- A new input is inactive, and not counted. -/
theorem ParseInv.addInput (h : ParseInv env s) (hfull : s.service.allInputs.length ≠ maxInputs) :
    ParseInv env s.addInput := by
  have hconfigured : Configured env.reason s.addInput.service :=
    configured_addInput h.lift.configured h.nextIdx hfull
  have hkeep : ∀ (j : ℕ) (input : Input), s.service.allInputs[j]? = some input →
      s.addInput.service.allInputs[j]? = some input := by
    intro j input hj
    rw [← hj]
    exact List.getElem?_append_left (List.getElem?_eq_some_iff.mp hj).1
  obtain ⟨hnum, hgroups⟩ := h.lift.counted
  obtain ⟨v, hv, hactive⟩ := h.lift.multiple
  obtain ⟨w, hw, hactive'⟩ := h.collision.multiple
  have hlift : LiftCounted env.reason s.addInput.service := by
    constructor
    · simp only [InputConfig.addInput, liftCount, keys, List.countP_append, List.filterMap_append]
      simpa [Input.soloLift, Input.activeLift, Input.liftGroup, liftCount, keys] using hnum
    · intro group
      simp only [InputConfig.addInput, refcount, List.filterMap_append]
      simpa [Input.activeLift, Input.liftGroup, refcount] using hgroups group
  have hcollision : CollisionCounted env.reason s.addInput.service := by
    have hcounted := h.collision.counted
    rw [CollisionCounted] at hcounted ⊢
    simp only [InputConfig.addInput, List.countP_append]
    simpa [Input.activeCollision] using hcounted
  refine ⟨⟨hconfigured, hlift, v, hkeep _ v hv, hactive⟩,
    ⟨hconfigured, hcollision, w, hkeep _ w hw, hactive'⟩, fun i hi => ?_,
    nextIdx_addInput h.nextIdx h.lift.configured.length_le⟩
  obtain rfl : s.service.allInputs.length = i := Option.some.inj hi
  have hidx := h.nextIdx
  have hlen : s.addInput.service.allInputs.length = s.service.allInputs.length + 1 := by
    simp [InputConfig.addInput]
  omega

/-- A change of the current input that keeps what an active one is counted for. -/
theorem ParseInv.modify (h : ParseInv env s) {i : ℕ} {f : Input → Input}
    (hi : s.currentInput = some i) (hservice : s'.service = (s.modifyInput i f).service)
    (hnext : s'.nextIdx = s.nextIdx) (hcurrent : s'.currentInput = s.currentInput)
    (hf : ∀ a, s.service.allInputs[i]? = some a → (f a).idx = a.idx ∧ (f a).active = a.active ∧
      (a.active = true → SameCounting env.reason a (f a))) : ParseInv env s' := by
  obtain ⟨h2, hlt⟩ := h.current i hi
  have hconfigured : Configured env.reason s'.service := by
    rw [hservice]
    exact configured_modifyInput h.lift.configured h2 fun a ha => (hf a ha).1
  obtain ⟨a, ha⟩ : ∃ a, s.service.allInputs[i]? = some a := ⟨_, List.getElem?_eq_getElem hlt⟩
  obtain ⟨-, hactive, hcounting⟩ := hf a ha
  obtain ⟨hgroup, hsolo, hsame⟩ := counted_same hactive hcounting
  have hset : s'.service = { s.service with allInputs := s.service.allInputs.set i (f a) } := by
    rw [hservice, modifyInput, modify_eq_set ha]
  have hother : ∀ k, k < 2 →
      (s.service.allInputs.set i (f a))[k]? = s.service.allInputs[k]? := fun k hk =>
    List.getElem?_set_ne (by omega)
  obtain ⟨v, hv, hexact⟩ := h.lift.multiple
  obtain ⟨w, hw, hexact'⟩ := h.collision.multiple
  have hv' := hother s.service.liftMultipleInput (by
    rw [h.lift.configured.liftMultipleInput]
    omega)
  have hw' := hother s.service.collisionMultipleInput (by
    rw [h.lift.configured.collisionMultipleInput]
    omega)
  have hlength : s'.service.allInputs.length = s.service.allInputs.length := by
    rw [hset]
    exact List.length_set
  refine ⟨⟨hconfigured, ?_, ?_⟩, ⟨hconfigured, ?_, ?_⟩, ?_, ?_⟩
  · rw [hset]
    exact h.lift.counted.set_of_key_eq ha hgroup hsolo
  · rw [hset]
    exact ⟨v, hv'.trans hv, hexact⟩
  · rw [hset]
    exact h.collision.counted.countP_set ha hsame
  · rw [hset]
    exact ⟨w, hw'.trans hw, hexact'⟩
  · rw [hcurrent, hlength]
    exact h.current
  · rw [hnext, hlength]
    exact h.nextIdx

/-- **Every callback that does not recount an active input keeps the counters exact.** -/
theorem ParseInv.callback (h : ParseInv env s) {event : JsonEvent}
    (hnot : ∀ i input, s.currentInput = some i → s.service.allInputs[i]? = some input →
      input.active = true → ¬ s.Recounts env event input) :
    ParseInv env (s.inputConfigsJsonCallback env event).2 := by
  have heffect : CallbackEffect env s event (s.inputConfigsJsonCallback env event).2 :=
    .inputConfigsJsonCallback
  generalize (s.inputConfigsJsonCallback env event).2 = s' at heffect ⊢
  cases heffect with
  | keep service nextIdx current =>
    refine ⟨service ▸ h.lift, service ▸ h.collision, fun i hi => ?_, ?_⟩
    · rcases current with hsame | hnone
      · rw [service]
        exact h.current i (hsame ▸ hi)
      · rw [hnone] at hi
        exact absurd hi (by simp)
    · rw [nextIdx, service]
      exact h.nextIdx
  | add notFull => exact h.addInput notFull
  | modify service nextIdx current current' configures =>
    refine h.modify current service nextIdx current' fun a ha => ?_
    obtain ⟨hidx, hactive, hcounting⟩ := configures a ha
    exact ⟨hidx, hactive, fun hon => hcounting (hnot _ a current ha hon)⟩

theorem ParseInv.update (h : ParseInv env s) {call : UpdateArgs} {input : Input}
    (hi : s.service.allInputs[call.position]? = some input)
    (hreal : input.idx ≠ Input.virtualIdx) :
    ParseInv env { s with
      service :=
        s.service.update env.reason call.position call.newActive call.time call.predate } := by
  obtain ⟨hlift, hkeep⟩ := h.lift.update hi hreal
  refine ⟨hlift, h.collision.update hi hreal, fun i hcurrent => ?_, ?_⟩
  · obtain ⟨h2, hlt⟩ := h.current i hcurrent
    exact ⟨h2, hkeep.length_eq ▸ hlt⟩
  · exact h.nextIdx.trans hkeep.length_eq.symm

/-- One step without a recount keeps the invariant and counts safely. -/
theorem ParseInv.step (h : ParseInv env s) {e : ParseEvent} (hs : parseStep env s e = some s')
    (hnot : NoRecount env s e s') : ParseInv env s' ∧ CountsSafely s e s' := by
  have hinv : ParseInv env s' := by
    cases e with
    | callback event =>
      obtain rfl := Option.some.inj hs
      exact h.callback fun i input hi hin hon => hnot event i input rfl hi hin hon
    | update call =>
      simp only [parseStep, Option.bind_eq_some_iff, Option.ite_none_left_eq_some,
        Option.some.injEq] at hs
      obtain ⟨input, hi, hreal, rfl⟩ := hs
      exact h.update hi hreal
  exact ⟨hinv, hinv.lift.noUnderflow, hinv.collision.noUnderflow,
    countersZero_of_inactive hinv.lift hinv.collision⟩

end InputConfig

open InputConfig

/-- The parser and the drivers from the start of a configuration on. -/
def parseMachine (env : InputConfigEnv) : StateMachine InputConfig ParseEvent where
  Init s := s = InputConfig.start env
  step s e := parseStep env s e

/-- **Counting during a configuration.** Callbacks of the parser and updates of the inputs that
it has already handed to their drivers happen in any order. In every such run in which no
callback recounts an active input, no step takes a counter below 0, and whenever no sensor is
active all counters are 0. -/
theorem concurrent_configuration_counts {env : InputConfigEnv} {s : InputConfig}
    (h : (parseMachine env).Init s) {es : List ParseEvent}
    (hnot : (parseMachine env).EveryStep (NoRecount env) s es) :
    (parseMachine env).EveryStep CountsSafely s es := by
  subst h
  have hinit : ParseInv env (InputConfig.start env) := .of_start
  exact hnot.imp hinit fun s e s' hI hs hnot => hI.step hs hnot

/-! ### An example run -/

/-- An input is added and becomes active, then its emergency is parsed, and then it becomes
inactive. -/
def activeWhileParsedRun : List ParseEvent :=
  [.callback (jsonEvent 1 .key "gpio" "" ""), .callback (jsonEvent 3 .object "" "" ""),
    .update ⟨2, true, 1000#32, 0#32⟩, .callback (jsonEvent 5 .object "" "emergency" ""),
    .callback (jsonEvent 7 .string "lift" "emergency" "reason")]

/-- The last edge takes the lift counter from 0 to 255. -/
theorem not_countsSafely_activeWhileParsedRun :
    ¬ (parseMachine gpioEnv).EveryStep CountsSafely (InputConfig.start gpioEnv)
      (activeWhileParsedRun ++ [.update ⟨2, false, 2000#32, 0#32⟩]) := by
  intro hsafe
  have hbefore : ((parseMachine gpioEnv).run (InputConfig.start gpioEnv)
      activeWhileParsedRun).map (·.service.numActiveLift) = some 0#8 := by decide +kernel
  have hafter : ((parseMachine gpioEnv).run (InputConfig.start gpioEnv)
      (activeWhileParsedRun ++ [.update ⟨2, false, 2000#32, 0#32⟩])).map
        (·.service.numActiveLift) = some 255#8 := by decide +kernel
  obtain ⟨s, hrun, hs⟩ := Option.map_eq_some_iff.mp hbefore
  rw [StateMachine.run_concat, hrun, Option.bind_some] at hafter
  obtain ⟨s', hstep, hs'⟩ := Option.map_eq_some_iff.mp hafter
  obtain ⟨⟨hnum, -⟩, -⟩ := hsafe.of_run hrun hstep
  exact hnum (by rw [hs, hs']; decide) hs

/-- Until the emergency is parsed, the same run counts safely. -/
theorem concurrent_configuration_counts_update :
    (parseMachine gpioEnv).EveryStep CountsSafely (InputConfig.start gpioEnv)
      [.callback (jsonEvent 1 .key "gpio" "" ""), .callback (jsonEvent 3 .object "" "" ""),
        .update ⟨2, true, 1000#32, 0#32⟩] := by
  refine concurrent_configuration_counts rfl ?_
  intro s₁ _
  refine ⟨?_, fun s₂ _ => ⟨?_, fun s₃ _ => ⟨?_, trivial⟩⟩⟩
  · rintro event i input ⟨⟩ - - -
    simp [Recounts, jsonEvent]
  · rintro event i input ⟨⟩ - - -
    simp [Recounts, jsonEvent]
  · rintro event i input ⟨⟩

end OpenMower
