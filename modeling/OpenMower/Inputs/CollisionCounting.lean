import OpenMower.Inputs.LiftCounting

/-!
# Collision counting

The collision sensors are counted one by one, while lift sensors of one redundancy group count
together. The collision counter is exact as a number of sensors (`CollisionInv.update`), but a
redundancy group stands for a single logical sensor. `collision_multiple_logical_iff` shows
when the virtual collision input nevertheless counts logical sensors: unless there are several
active sensors that all belong to the same group.
-/

namespace OpenMower

open Refcount

variable {E : EmergencyReason}

/-! ### The numbers of sensors -/

/-- An active collision sensor. -/
def Input.activeCollision (E : EmergencyReason) (input : Input) : Bool :=
  input.active && E.mem .collision input.emergencyReason

/-- An active collision sensor without a group. -/
def Input.soloCollision (E : EmergencyReason) (input : Input) : Bool :=
  input.activeCollision E && decide (input.redundancyGroup = 0#8)

/-- The group of an active collision sensor. -/
def Input.collisionGroup (E : EmergencyReason) (input : Input) : Option (BitVec 8) :=
  if input.activeCollision E ∧ input.redundancyGroup ≠ 0#8 then some input.redundancyGroup
  else none

/-- The active logical collision sensors: sensors without a group, and groups. -/
def logicalCollisions (E : EmergencyReason) (inputs : List Input) : ℕ :=
  inputs.countP (Input.soloCollision E) + (keys (Input.collisionGroup E) inputs).card

/-- The collision counter is the number of active collision sensors. -/
def CollisionCounted (E : EmergencyReason) (s : InputService) : Prop :=
  s.numActiveCollision.toNat = s.allInputs.countP (Input.activeCollision E)

/-- The virtual collision input is active exactly when the counter is at least 2. -/
def CollisionMultipleExact (s : InputService) : Prop :=
  ∃ input, s.allInputs[s.collisionMultipleInput]? = some input ∧
    (input.active = true ↔ 2 ≤ s.numActiveCollision.toNat)

/-- The virtual collision input is active exactly when two logical collision sensors are. -/
def CollisionMultipleLogical (E : EmergencyReason) (s : InputService) : Prop :=
  ∃ input, s.allInputs[s.collisionMultipleInput]? = some input ∧
    (input.active = true ↔ 2 ≤ logicalCollisions E s.allInputs)

/-- Several collision sensors are active, and they all belong to one redundancy group. -/
def OnlyOneGroup (E : EmergencyReason) (inputs : List Input) : Prop :=
  2 ≤ inputs.countP (Input.activeCollision E) ∧
    ∃ group, group ≠ 0#8 ∧
      ∀ input ∈ inputs, input.activeCollision E = true → input.redundancyGroup = group

/-- No collision counter goes down from 0. -/
def NoCollisionUnderflow (s s' : InputService) : Prop :=
  s'.numActiveCollision = s.numActiveCollision - 1 → s.numActiveCollision ≠ 0#8

/-- An active sensor of a group is a sensor of one of the active groups. -/
theorem mem_collisionGroups {inputs : List Input} {input : Input} (hin : input ∈ inputs)
    (hactive : input.activeCollision E = true) (hgroup : input.redundancyGroup ≠ 0#8) :
    input.redundancyGroup ∈ keys (Input.collisionGroup E) inputs := by
  rw [keys, List.mem_toFinset, List.mem_filterMap]
  exact ⟨input, hin, by rw [Input.collisionGroup, if_pos ⟨hactive, hgroup⟩]⟩

/-- The active groups are those of active sensors. -/
theorem exists_of_mem_collisionGroups {inputs : List Input} {group : BitVec 8}
    (h : group ∈ keys (Input.collisionGroup E) inputs) :
    ∃ input ∈ inputs, input.activeCollision E = true ∧ input.redundancyGroup = group := by
  rw [keys, List.mem_toFinset, List.mem_filterMap] at h
  obtain ⟨input, hin, hkey⟩ := h
  rw [Input.collisionGroup, Option.ite_none_right_eq_some] at hkey
  exact ⟨input, hin, hkey.1.1, Option.some.inj hkey.2⟩

/-- With a single group there is at most one logical sensor. -/
theorem OnlyOneGroup.logicalCollisions_le {inputs : List Input} (h : OnlyOneGroup E inputs) :
    logicalCollisions E inputs ≤ 1 := by
  obtain ⟨-, group, hne, hall⟩ := h
  have hsolo : inputs.countP (Input.soloCollision E) = 0 := by
    refine List.countP_eq_zero.mpr fun input hin hsolo => ?_
    rw [Input.soloCollision, Bool.and_eq_true, decide_eq_true_eq] at hsolo
    exact hne ((hall input hin hsolo.1).symm.trans hsolo.2)
  have hgroups : (keys (Input.collisionGroup E) inputs).card ≤ 1 := by
    refine Finset.card_le_one.mpr fun g hg g' hg' => ?_
    obtain ⟨input, hin, hactive, rfl⟩ := exists_of_mem_collisionGroups hg
    obtain ⟨input', hin', hactive', rfl⟩ := exists_of_mem_collisionGroups hg'
    rw [hall input hin hactive, hall input' hin' hactive']
  rw [logicalCollisions]
  omega

/-- Several active sensors that are at most one logical sensor share a group. -/
theorem onlyOneGroup_of_le {inputs : List Input}
    (hcount : 2 ≤ inputs.countP (Input.activeCollision E))
    (hlogical : logicalCollisions E inputs ≤ 1) : OnlyOneGroup E inputs := by
  rw [logicalCollisions] at hlogical
  by_cases hsolo : inputs.countP (Input.soloCollision E) = 0
  · have hpos : 0 < inputs.countP (Input.activeCollision E) := by omega
    obtain ⟨input, hin, hactive⟩ := List.countP_pos_iff.mp hpos
    have hgrouped : ∀ input' ∈ inputs, input'.activeCollision E = true →
        input'.redundancyGroup ≠ 0#8 := by
      intro input' hin' hactive' hzero
      have hnot := List.countP_eq_zero.mp hsolo input' hin'
      exact hnot (by rw [Input.soloCollision, hactive', hzero]; rfl)
    refine ⟨hcount, input.redundancyGroup, hgrouped input hin hactive, ?_⟩
    intro input' hin' hactive'
    have hone : (keys (Input.collisionGroup E) inputs).card ≤ 1 := by omega
    exact Finset.card_le_one.mp hone _
      (mem_collisionGroups hin' hactive' (hgrouped input' hin' hactive')) _
      (mem_collisionGroups hin hactive (hgrouped input hin hactive))
  · -- a sensor without a group is the only logical one, so there is no sensor with one
    have hempty : keys (Input.collisionGroup E) inputs = ∅ := Finset.card_eq_zero.mp (by omega)
    have hle : inputs.countP (Input.activeCollision E) ≤
        inputs.countP (Input.soloCollision E) := by
      refine List.countP_mono_left fun input hin hactive => ?_
      have hzero : input.redundancyGroup = 0#8 := by
        by_contra hne
        have hmem := mem_collisionGroups hin hactive hne
        rw [hempty] at hmem
        exact Finset.notMem_empty _ hmem
      rw [Input.soloCollision, hactive, hzero]
      rfl
    omega

/-- An active sensor is one without a group, or it has a group. -/
theorem countP_soloCollision_add (inputs : List Input) :
    inputs.countP (Input.soloCollision E) + (inputs.filterMap (Input.collisionGroup E)).length =
      inputs.countP (Input.activeCollision E) := by
  induction inputs with
  | nil => rfl
  | cons input inputs ih =>
    rw [List.countP_cons, List.countP_cons, List.filterMap_cons, ← ih, Input.soloCollision,
      Input.collisionGroup]
    cases hactive : input.activeCollision E with
    | false => simp
    | true =>
      by_cases hzero : input.redundancyGroup = 0#8
      · simp only [hzero, decide_true, Bool.and_true, if_true, ne_eq, not_true_eq_false, and_false,
          if_false]
        omega
      · simp only [hzero, decide_false, Bool.and_false, Bool.false_eq_true, if_false, ne_eq,
          not_false_eq_true, and_true, if_true, List.length_cons]
        omega

/-- There are at most as many logical sensors as sensors. -/
theorem logicalCollisions_le (inputs : List Input) :
    logicalCollisions E inputs ≤ inputs.countP (Input.activeCollision E) := by
  have hcard : (keys (Input.collisionGroup E) inputs).card ≤
      (inputs.filterMap (Input.collisionGroup E)).length := List.toFinset_card_le _
  have hadd := @countP_soloCollision_add E inputs
  rw [logicalCollisions]
  omega

/-- Two active sensors are two logical ones unless they all share a group. -/
theorem two_le_logicalCollisions_iff {inputs : List Input} (h : ¬ OnlyOneGroup E inputs) :
    2 ≤ logicalCollisions E inputs ↔ 2 ≤ inputs.countP (Input.activeCollision E) := by
  constructor
  · exact fun hlogical => hlogical.trans (logicalCollisions_le inputs)
  · intro hcount
    by_contra hlt
    exact h (onlyOneGroup_of_le hcount (by omega))

/-! ### Complete updates -/

/-- The invariant of the updates. -/
structure CollisionInv (E : EmergencyReason) (s : InputService) : Prop where
  configured : Configured E s
  counted : CollisionCounted E s
  multiple : CollisionMultipleExact s

theorem CollisionInv.of_configured {s : InputService} (h : Configured E s)
    (hinactive : AllInactive s) : CollisionInv E s := by
  have hnone : s.allInputs.countP (Input.activeCollision E) = 0 := by
    refine List.countP_eq_zero.mpr fun input hin => ?_
    simp [Input.activeCollision, hinactive.inputs input hin]
  obtain ⟨v, hv, -⟩ := h.virtual 1 (by omega)
  rw [← h.collisionMultipleInput] at hv
  refine ⟨h, ?_, ⟨v, hv, ?_⟩⟩
  · rw [CollisionCounted, hinactive.numActiveCollision, hnone]
    rfl
  · rw [hinactive.numActiveCollision, hinactive.inputs v (List.mem_of_getElem? hv)]
    simp

/-- A virtual input is no collision sensor. -/
theorem IsVirtual.activeCollision {v : Input} (h : IsVirtual E v) :
    v.activeCollision E = false := by
  rw [Input.activeCollision, h.notCollision, Bool.and_false]

/-- The lift part of an update leaves the collision counter alone. -/
theorem liftChanged_numActiveCollision (s : InputService) (input : Input) (active : Bool)
    (time : Micros) :
    (s.liftChanged E input active time).numActiveCollision = s.numActiveCollision := by
  rw [InputService.liftChanged]
  split
  · simp only [InputService.updateVirtual, InputService.countLift]
    split
    · rfl
    · split <;> rfl
  · rfl

/-- After the flag of a collision sensor has changed, the counter is adjusted to the number of
active sensors. -/
theorem CollisionCounted.countCollision {s : InputService} {i : ℕ} {a b : Input}
    (h : CollisionCounted E s) (hlen : s.allInputs.length ≤ 32) (hi : s.allInputs[i]? = some a)
    (hconf : Input.SameConfig b a) (hflip : b.active = !a.active)
    (hcollision : E.mem .collision b.emergencyReason = true) :
    (if b.active then s.numActiveCollision + 1 else s.numActiveCollision - 1).toNat =
      (s.allInputs.set i b).countP (Input.activeCollision E) := by
  have hcollision' : E.mem .collision a.emergencyReason = true := hconf.2.2.2.1 ▸ hcollision
  have hle : s.allInputs.countP (Input.activeCollision E) ≤ s.allInputs.length :=
    List.countP_le_length
  rw [CollisionCounted] at h
  rw [countP_eq_refcount] at h hle ⊢
  cases hb : b.active with
  | true =>
    have ha : a.active = false := by simpa [hb] using hflip.symm
    have hacquire := @refcount_set_acquire _ _
      (fun input => if input.activeCollision E then some () else none) _ _ a b () () _ hi
      (by simp [Input.activeCollision, ha]) (by simp [Input.activeCollision, hb, hcollision])
    rw [hacquire, if_pos rfl, if_pos rfl, toNat_add_one h (by omega)]
  | false =>
    have ha : a.active = true := by simpa [hb] using hflip.symm
    have hrelease := @refcount_set_release _ _
      (fun input => if input.activeCollision E then some () else none) _ _ a b () () _ hi
      (by simp [Input.activeCollision, ha, hcollision']) (by simp [Input.activeCollision, hb])
    rw [hrelease, if_pos rfl] at h
    rw [if_neg Bool.false_ne_true, toNat_sub_one h]

/-- The number of sensors only depends on whether each input is an active one. -/
theorem CollisionCounted.countP_set {s : InputService} {i : ℕ} {a b : Input}
    (h : CollisionCounted E s) (hi : s.allInputs[i]? = some a)
    (hsame : b.activeCollision E = a.activeCollision E) :
    s.numActiveCollision.toNat = (s.allInputs.set i b).countP (Input.activeCollision E) := by
  rw [CollisionCounted] at h
  rw [h, countP_eq_refcount, countP_eq_refcount]
  exact (refcount_set_of_key_eq hi (by rw [hsame])).symm

/-- The virtual collision input and its counter are the same. -/
theorem CollisionMultipleExact.of_eq {s s' : InputService} (h : CollisionMultipleExact s)
    (hk : s'.collisionMultipleInput = s.collisionMultipleInput)
    (hnum : s'.numActiveCollision = s.numActiveCollision)
    (hactive : s'.allInputs[s.collisionMultipleInput]?.map Input.active =
      s.allInputs[s.collisionMultipleInput]?.map Input.active) : CollisionMultipleExact s' := by
  obtain ⟨v, hv, hexact⟩ := h
  rw [hv, Option.map_some, Option.map_eq_some_iff] at hactive
  obtain ⟨v', hv', hsame⟩ := hactive
  exact ⟨v', by rw [hk, hv'], by rw [hsame, hnum, hexact]⟩

/-- The virtual collision input is set by a counter that is up to date. -/
theorem collisionMultipleExact_updateVirtual {s : InputService} (h : Configured E s)
    {num : BitVec 8} {time : Micros} (hnum : 2#8 ≤ num ↔ 2#8 ≤ s.numActiveCollision) :
    CollisionMultipleExact
      (s.updateVirtual s.collisionMultipleInput (decide (2#8 ≤ num)) time) := by
  rw [h.collisionMultipleInput]
  obtain ⟨v, hv, hactive⟩ := getElem?_updateVirtual h (by omega : 1 < 2) (decide (2#8 ≤ num)) time
  refine ⟨v, (congrArg _ h.collisionMultipleInput).trans hv, ?_⟩
  rw [hactive]
  exact (decide_eq_true_iff.trans hnum).trans BitVec.le_def

/-- **A sensor has changed.** Both parts of `OnInputChanged` together keep the collision counter
exact. -/
theorem CollisionInv.afterEdge {s : InputService} {i : ℕ} {a b : Input} {time : Micros}
    (h : CollisionInv E s) (h2 : 2 ≤ i) (hi : s.allInputs[i]? = some a)
    (hconf : Input.SameConfig b a) (hflip : b.active = !a.active) :
    CollisionInv E (s.afterEdge E i b time) := by
  have hset : Configured E { s with allInputs := s.allInputs.set i b } := h.configured.set hi hconf
  have hlift := liftChanged_setsVirtual hset b b.active time
  have hnum := @liftChanged_numActiveCollision E { s with allInputs := s.allInputs.set i b } b
    b.active time
  rw [InputService.afterEdge]
  generalize { s with allInputs := s.allInputs.set i b }.liftChanged E b b.active time = s₂
    at hlift hnum ⊢
  have hconfigured : Configured E s₂ := hlift.configured hset
  have hcount : s₂.allInputs.countP (Input.activeCollision E) =
      (s.allInputs.set i b).countP (Input.activeCollision E) :=
    hlift.countP_eq hset (by omega) fun v hv => hv.activeCollision
  rw [InputService.collisionChanged]
  cases hcollision : E.mem .collision b.emergencyReason with
  | true =>
    have hadjusted := h.counted.countCollision h.configured.length_le hi hconf hflip hcollision
    have hcounted := hconfigured.countCollision b.active
    have hvirtual := updateVirtual_setsVirtual hcounted (by omega : 1 < 2)
      (decide (2#8 ≤ (s₂.countCollision b.active).numActiveCollision)) time
    have hexact := @collisionMultipleExact_updateVirtual E _ hcounted
      (s₂.countCollision b.active).numActiveCollision time Iff.rfl
    simp only [if_true]
    rw [hcounted.collisionMultipleInput] at hexact ⊢
    refine ⟨hvirtual.configured hcounted, ?_, hexact⟩
    have hcount' := hvirtual.countP_eq hcounted (by omega) fun v hv => hv.activeCollision
    have hnum' : (s₂.countCollision b.active).numActiveCollision =
        if b.active then s.numActiveCollision + 1 else s.numActiveCollision - 1 := by
      rw [InputService.countCollision, hnum]
    exact (congrArg BitVec.toNat hnum').trans (hadjusted.trans (hcount'.trans hcount).symm)
  | false =>
    have hcollision' : E.mem .collision a.emergencyReason = false := hconf.2.2.2.1 ▸ hcollision
    simp only [Bool.false_eq_true, if_false]
    refine ⟨hconfigured, ?_, h.multiple.of_eq hlift.collisionMultipleInput hnum ?_⟩
    · rw [CollisionCounted, hnum, hcount]
      exact h.counted.countP_set hi (by simp [Input.activeCollision, hcollision, hcollision'])
    · rw [h.configured.collisionMultipleInput, hlift.getElem? (by omega)]
      exact congrArg _ (List.getElem?_set_ne (by omega))

/-- **Every update of a sensor keeps the collision counter exact.** -/
theorem CollisionInv.update {s : InputService} {i : ℕ} {input : Input} {newActive : Bool}
    {time predate : Micros} (h : CollisionInv E s) (hi : s.allInputs[i]? = some input)
    (hreal : input.idx ≠ Input.virtualIdx) :
    CollisionInv E (s.update E i newActive time predate) := by
  obtain ⟨-, hupdate⟩ | ⟨b, hconf, -, hflip, hupdate⟩ :=
    @update_cases E s i input hi hreal newActive time predate
  · rw [hupdate]
    exact h
  · rw [hupdate]
    exact h.afterEdge (h.configured.two_le hi hreal) hi hconf hflip

/-- Exact counters are small, so one that went down from 0 would show. -/
theorem CollisionInv.noUnderflow {s s' : InputService} (h' : CollisionInv E s') :
    NoCollisionUnderflow s s' := by
  intro hdown hzero
  have hlen : s'.allInputs.length ≤ 32 := h'.configured.length_le
  have hle : s'.allInputs.countP (Input.activeCollision E) ≤ s'.allInputs.length :=
    List.countP_le_length
  have hcount := h'.counted
  have hwrap : ((0#8 - 1 : BitVec 8)).toNat = 255 := rfl
  rw [CollisionCounted, hdown, hzero, hwrap] at hcount
  omega

/-! ### Runs after a configuration -/

variable {env : InputConfigEnv} {parser : JsonParser} {groupName : ℕ → Option CString}

theorem CollisionInv.of_reachable {s : InputService}
    (h : (updateMachine env parser groupName).Reachable s) : CollisionInv env.reason s := by
  refine h.invariant ?_ fun s call s' hI hs => ?_
  · rintro s ⟨json, config, hconfig, rfl, rfl⟩
    obtain ⟨hconfigured, hinactive, -⟩ := onRegisterInputConfigsChanged_spec hconfig
    exact .of_configured hconfigured hinactive
  · simp only [updateMachine, Option.bind_eq_some_iff, Option.ite_none_left_eq_some,
      Option.some.injEq] at hs
    obtain ⟨input, hi, hreal, rfl⟩ := hs
    exact hI.update hi hreal

/-- **Collisions of logical sensors.** After every accepted configuration and every sequence of
updates, the virtual collision input is active exactly when at least two logical collision
sensors are, if and only if it is not the case that several collision sensors are active and
all of them belong to one redundancy group. -/
theorem collision_multiple_logical_iff {s : InputService}
    (h : (updateMachine env parser groupName).Reachable s) :
    CollisionMultipleLogical env.reason s ↔ ¬ OnlyOneGroup env.reason s.allInputs := by
  have hinv := CollisionInv.of_reachable h
  have hcounted := hinv.counted
  obtain ⟨v, hv, hactive⟩ := hinv.multiple
  rw [hcounted] at hactive
  constructor
  · rintro ⟨w, hw, hlogical⟩ hgroup
    obtain rfl : v = w := Option.some.inj (hv.symm.trans hw)
    have hle := hgroup.logicalCollisions_le
    have htwo := hlogical.mp (hactive.mpr hgroup.1)
    omega
  · intro hgroup
    exact ⟨v, hv, hactive.trans (two_le_logicalCollisions_iff hgroup).symm⟩

/-! ### An example document -/

/-- The emergency of a collision sensor. -/
def collisionPieces : List (String × List JsonEvent) :=
  [("\"emergency\":", [jsonEvent 4 .key "emergency" "emergency" ""]),
    ("\x7b", [jsonEvent 5 .object "" "emergency" ""]),
    ("\"reason\":", [jsonEvent 6 .key "reason" "emergency" "reason"]),
    ("\"collision\"", [jsonEvent 7 .string "collision" "emergency" "reason"]),
    ("\x7d", [jsonEvent 5 .objectEnd "" "emergency" ""])]

/-- A collision sensor of a group. -/
def bumperPieces : List (String × List JsonEvent) :=
  ("\x7b", [jsonEvent 3 .object "" "" ""]) :: textPieces "redundancy_group" "b" ++
    collisionPieces ++ [("\x7d", [jsonEvent 3 .objectEnd "" "" ""])]

/-- Two collision sensors of one group. -/
def bumperDocument : List (String × List JsonEvent) :=
  [("\x7b", [jsonEvent 0 .object "" "" ""]), ("\"gpio\":", [jsonEvent 1 .key "gpio" "" ""]),
    ("[", [jsonEvent 2 .array "" "" ""])] ++ bumperPieces ++ [(",", [])] ++ bumperPieces ++
    [("]", [jsonEvent 2 .arrayEnd "" "" ""]), ("\x7d", [jsonEvent 0 .objectEnd "" "" ""])]

/-- The service after the example document. -/
def bumperConfig : Bool × InputConfig :=
  onRegisterInputConfigsChanged gpioEnv (replayParser bumperDocument)
    (bumperDocument.flatMap fun piece => piece.1.toList)

/-- The updates after the example document. -/
def bumperMachine : StateMachine InputService UpdateArgs :=
  updateMachine gpioEnv (replayParser bumperDocument) bumperConfig.2.groupName

theorem bumperConfig_reachable : bumperMachine.Reachable bumperConfig.2.service := by
  have hok : bumperConfig.1 = true := by decide +kernel
  have haccepted : bumperConfig = (true, bumperConfig.2) := by rw [← hok]
  exact .init ⟨_, bumperConfig.2, haccepted, rfl, rfl⟩

/-- Both sensors of the group become active. -/
def bumperCalls : List UpdateArgs := [⟨2, true, 1000#32, 0#32⟩, ⟨3, true, 2000#32, 0#32⟩]

/-- Then the virtual collision input is active, although there is one logical sensor. -/
theorem collision_multiple_not_logical :
    ∃ s, bumperMachine.Reachable s ∧ ¬ CollisionMultipleLogical .standard s := by
  have hvalues : (bumperMachine.run bumperConfig.2.service bumperCalls).map (fun s =>
      (s.allInputs[s.collisionMultipleInput]?.map (·.active),
        logicalCollisions .standard s.allInputs)) = some (some true, 1) := by decide +kernel
  obtain ⟨s, hrun, hs⟩ := Option.map_eq_some_iff.mp hvalues
  obtain ⟨hactive, hlogical⟩ := Prod.mk.inj hs
  refine ⟨s, bumperConfig_reachable.run hrun, ?_⟩
  rintro ⟨v, hv, hiff⟩
  rw [hv, Option.map_some] at hactive
  have htwo := hiff.mp (Option.some.inj hactive)
  omega

/-- With one of the sensors active the virtual input is right. -/
theorem collision_multiple_logical_bumper :
    ∃ s, bumperMachine.run bumperConfig.2.service [⟨2, true, 1000#32, 0#32⟩] = some s ∧
      (CollisionMultipleLogical .standard s ↔ ¬ OnlyOneGroup .standard s.allInputs) := by
  have hsome : (bumperMachine.run bumperConfig.2.service
      [⟨2, true, 1000#32, 0#32⟩]).isSome := by decide +kernel
  obtain ⟨s, hrun⟩ := Option.isSome_iff_exists.mp hsome
  have hreach : (updateMachine gpioEnv (replayParser bumperDocument)
      bumperConfig.2.groupName).Reachable s := bumperConfig_reachable.run hrun
  have hiff := collision_multiple_logical_iff hreach
  exact ⟨s, hrun, hiff⟩

end OpenMower
