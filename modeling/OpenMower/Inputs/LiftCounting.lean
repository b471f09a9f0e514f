import OpenMower.Library.StateMachine
import OpenMower.Inputs.Updates

/-!
# Lift counting is exact

The counters of the input service are maintained by the changes of single inputs. Lift sensors
without a group count for themselves; those of a redundancy group count together, by a
reference count that tells when the first member becomes active and the last one inactive.

`LiftCounted` says that the counters have the numbers that they stand for. Every update keeps
this (`CountInv.update`), since one update is one acquire or release in the sense of the
library of reference counts.
-/

namespace OpenMower

open Refcount

variable {E : EmergencyReason}

/-! ### The numbers that the counters stand for -/

/-- An active lift sensor. -/
def Input.activeLift (E : EmergencyReason) (input : Input) : Bool :=
  input.active && E.mem .lift input.emergencyReason

/-- An active lift sensor without a group. -/
def Input.soloLift (E : EmergencyReason) (input : Input) : Bool :=
  input.activeLift E && decide (input.redundancyGroup = 0#8)

/-- The group for which an active lift sensor counts. -/
def Input.liftGroup (E : EmergencyReason) (input : Input) : Option (BitVec 8) :=
  if input.activeLift E ∧ input.redundancyGroup ≠ 0#8 then some input.redundancyGroup else none

/-- The active lift sensors without a group, and the groups with an active lift sensor. -/
def liftCount (E : EmergencyReason) (inputs : List Input) : ℕ :=
  inputs.countP (Input.soloLift E) + (keys (Input.liftGroup E) inputs).card

/-- The lift counters are exact. -/
structure LiftCounted (E : EmergencyReason) (s : InputService) : Prop where
  numActiveLift : s.numActiveLift.toNat = liftCount E s.allInputs
  groupRefcount : ∀ group, (s.redundancyGroupRefcount group).toNat =
    refcount (Input.liftGroup E) s.allInputs group

/-- The virtual lift input is active exactly when two lift sensors or groups are. -/
def LiftMultipleExact (s : InputService) : Prop :=
  ∃ input, s.allInputs[s.liftMultipleInput]? = some input ∧
    (input.active = true ↔ 2 ≤ s.numActiveLift.toNat)

/-- No lift counter goes down from 0. -/
def NoUnderflow (s s' : InputService) : Prop :=
  (s'.numActiveLift = s.numActiveLift - 1 → s.numActiveLift ≠ 0#8) ∧
    ∀ group, s'.redundancyGroupRefcount group = s.redundancyGroupRefcount group - 1 →
      s.redundancyGroupRefcount group ≠ 0#8

/-! ### Single changes -/

theorem liftCount_le (inputs : List Input) : liftCount E inputs ≤ 2 * inputs.length := by
  have hsolo : inputs.countP (Input.soloLift E) ≤ inputs.length := List.countP_le_length
  have hgroups : (keys (Input.liftGroup E) inputs).card ≤ inputs.length := card_keys_le_length
  rw [liftCount]
  omega

/-- The counts only depend on what each input counts for. -/
theorem LiftCounted.set_of_key_eq {s : InputService} {i : ℕ} {a b : Input} (h : LiftCounted E s)
    (hi : s.allInputs[i]? = some a) (hkey : Input.liftGroup E b = Input.liftGroup E a)
    (hsolo : Input.soloLift E b = Input.soloLift E a) :
    LiftCounted E { s with allInputs := s.allInputs.set i b } := by
  refine ⟨?_, fun group => ?_⟩
  · rw [h.numActiveLift, liftCount, liftCount, countP_eq_refcount, countP_eq_refcount,
      keys_set_of_key_eq hi hkey, refcount_set_of_key_eq hi (by rw [hsolo])]
  · rw [h.groupRefcount group, refcount_set_of_key_eq hi hkey]

/-- An input counts for the same if it is as active a lift sensor, and of the same group. -/
theorem LiftCounted.set_of_eq {s : InputService} {i : ℕ} {a b : Input} (h : LiftCounted E s)
    (hi : s.allInputs[i]? = some a) (hlift : b.activeLift E = a.activeLift E)
    (hgroup : b.redundancyGroup = a.redundancyGroup) :
    LiftCounted E { s with allInputs := s.allInputs.set i b } := by
  refine h.set_of_key_eq hi ?_ ?_
  · rw [Input.liftGroup, Input.liftGroup, hlift, hgroup]
  · rw [Input.soloLift, Input.soloLift, hlift, hgroup]

/-- Adding one to a counter that is far from its end. -/
theorem toNat_add_one {x : BitVec 8} {n : ℕ} (h : x.toNat = n) (hn : n ≤ 64) :
    (x + 1).toNat = n + 1 := by
  rw [BitVec.toNat_add, h, show (1 : BitVec 8).toNat = 1 from rfl]
  omega

/-- Subtracting one from a counter that is not 0. -/
theorem toNat_sub_one {x : BitVec 8} {n : ℕ} (h : x.toNat = n + 1) :
    (x - 1).toNat = n := by
  have hlt : x.toNat < 2 ^ 8 := x.isLt
  rw [BitVec.toNat_sub, h, show (1 : BitVec 8).toNat = 1 from rfl]
  omega

/-- A sensor without a group becomes active or inactive: its group key stays the same. -/
private theorem liftGroup_eq_none {input : Input} (h : input.redundancyGroup = 0#8) :
    Input.liftGroup E input = none := by
  rw [Input.liftGroup, if_neg fun hand => hand.2 h]

/-- A sensor of a group never counts for itself. -/
private theorem soloLift_eq_false {input : Input} (h : input.redundancyGroup ≠ 0#8) :
    Input.soloLift E input = false := by
  rw [Input.soloLift, decide_eq_false h, Bool.and_false]

/-- A change within a group keeps the number of those that count for themselves. -/
theorem countP_soloLift_set {inputs : List Input} {i : ℕ} {a b : Input}
    (hi : inputs[i]? = some a) (ha : a.redundancyGroup ≠ 0#8) (hb : b.redundancyGroup ≠ 0#8) :
    (inputs.set i b).countP (Input.soloLift E) = inputs.countP (Input.soloLift E) := by
  rw [countP_eq_refcount, countP_eq_refcount, refcount_set_of_key_eq hi]
  rw [soloLift_eq_false hb, soloLift_eq_false ha]

/-- **A lift sensor becomes active.** -/
theorem LiftCounted.activate {s : InputService} {i : ℕ} {a b : Input} (h : LiftCounted E s)
    (hlen : s.allInputs.length ≤ 32) (hi : s.allInputs[i]? = some a)
    (ha : a.activeLift E = false) (hb : b.activeLift E = true)
    (hgroup : b.redundancyGroup = a.redundancyGroup) :
    LiftCounted E
      ({ s with allInputs := s.allInputs.set i b }.countLift b.redundancyGroup true) := by
  have hbound : liftCount E s.allInputs ≤ 64 := (liftCount_le _).trans (by omega)
  by_cases hzero : b.redundancyGroup = 0#8
  · have hzero' : a.redundancyGroup = 0#8 := hgroup ▸ hzero
    have hkey : Input.liftGroup E b = Input.liftGroup E a := by
      rw [liftGroup_eq_none hzero, liftGroup_eq_none hzero']
    have hsolo : (s.allInputs.set i b).countP (Input.soloLift E) =
        s.allInputs.countP (Input.soloLift E) + 1 := by
      rw [countP_eq_refcount, countP_eq_refcount]
      refine (refcount_set_acquire hi ?_ ?_).trans (by rw [if_pos rfl])
      · simp [Input.soloLift, ha]
      · simp [Input.soloLift, hb, hzero]
    refine ⟨?_, fun group => ?_⟩
    · have hadd := toNat_add_one h.numActiveLift hbound
      simp only [InputService.countLift, hzero, if_true, liftCount, hsolo,
        keys_set_of_key_eq hi hkey]
      rw [hadd, liftCount]
      omega
    · simp only [InputService.countLift, hzero, if_true, refcount_set_of_key_eq hi hkey]
      exact h.groupRefcount group
  · have hne : a.redundancyGroup ≠ 0#8 := hgroup ▸ hzero
    have hsolo := @countP_soloLift_set E _ _ _ _ hi hne hzero
    have hkeya : Input.liftGroup E a = none := by simp [Input.liftGroup, ha]
    have hkeyb : Input.liftGroup E b = some b.redundancyGroup := by
      simp [Input.liftGroup, hb, hzero]
    have hcount := h.groupRefcount b.redundancyGroup
    refine ⟨?_, fun group => ?_⟩
    · simp only [InputService.countLift, hzero, if_false, if_true, liftCount, hsolo,
        card_keys_set_acquire hi hkeya hkeyb]
      -- the group begins to count exactly if its reference count is 0
      by_cases hrc : s.redundancyGroupRefcount b.redundancyGroup = 0#8
      · rw [if_pos hrc, toNat_add_one h.numActiveLift hbound, if_pos (by rw [← hcount, hrc]; rfl),
          liftCount]
        omega
      · have hrc' : refcount (Input.liftGroup E) s.allInputs b.redundancyGroup ≠ 0 := by
          rw [← hcount]
          exact fun hz => hrc (BitVec.eq_of_toNat_eq hz)
        rw [if_neg hrc, if_neg hrc', h.numActiveLift, liftCount, Nat.add_zero]
    · simp only [InputService.countLift, hzero, if_false, if_true,
        refcount_set_acquire hi hkeya hkeyb]
      by_cases hgb : group = b.redundancyGroup
      · subst hgb
        have hle : refcount (Input.liftGroup E) s.allInputs b.redundancyGroup ≤ 64 :=
          refcount_le_length.trans (by omega)
        rw [Function.update_self, toNat_add_one hcount hle, if_pos rfl]
      · rw [Function.update_of_ne hgb, if_neg hgb, h.groupRefcount group, Nat.add_zero]

/-- **A lift sensor becomes inactive.** -/
theorem LiftCounted.deactivate {s : InputService} {i : ℕ} {a b : Input} (h : LiftCounted E s)
    (hi : s.allInputs[i]? = some a) (ha : a.activeLift E = true)
    (hb : b.activeLift E = false) (hgroup : b.redundancyGroup = a.redundancyGroup) :
    LiftCounted E
      ({ s with allInputs := s.allInputs.set i b }.countLift b.redundancyGroup false) := by
  by_cases hzero : b.redundancyGroup = 0#8
  · have hzero' : a.redundancyGroup = 0#8 := hgroup ▸ hzero
    have hkey : Input.liftGroup E b = Input.liftGroup E a := by
      rw [liftGroup_eq_none hzero, liftGroup_eq_none hzero']
    have hsolo : s.allInputs.countP (Input.soloLift E) =
        (s.allInputs.set i b).countP (Input.soloLift E) + 1 := by
      rw [countP_eq_refcount, countP_eq_refcount]
      refine (refcount_set_release hi ?_ ?_).trans (by rw [if_pos rfl])
      · simp [Input.soloLift, ha, hzero']
      · simp [Input.soloLift, hb]
    refine ⟨?_, fun group => ?_⟩
    · have hnum : s.numActiveLift.toNat = liftCount E (s.allInputs.set i b) + 1 := by
        rw [h.numActiveLift, liftCount, liftCount, hsolo, keys_set_of_key_eq hi hkey]
        omega
      simp only [InputService.countLift, hzero, if_true, Bool.false_eq_true, if_false]
      exact toNat_sub_one hnum
    · simp only [InputService.countLift, hzero, if_true, refcount_set_of_key_eq hi hkey]
      exact h.groupRefcount group
  · have hne : a.redundancyGroup ≠ 0#8 := hgroup ▸ hzero
    have hsolo := @countP_soloLift_set E _ _ _ _ hi hne hzero
    have hkeya : Input.liftGroup E a = some b.redundancyGroup := by
      simp [Input.liftGroup, ha, hne, hgroup]
    have hkeyb : Input.liftGroup E b = none := by simp [Input.liftGroup, hb]
    -- before the change the group has one active member more
    have hrelease := @refcount_set_release _ _ _ _ _ _ _ _ b.redundancyGroup _ hi hkeya hkeyb
    have hcount := h.groupRefcount b.redundancyGroup
    rw [hrelease, if_pos rfl] at hcount
    have hrc := toNat_sub_one hcount
    refine ⟨?_, fun group => ?_⟩
    · simp only [InputService.countLift, hzero, if_false, Bool.false_eq_true, liftCount, hsolo]
      have hkeys := card_keys_set_release hi hkeya hkeyb
      -- the group ceases to count exactly if its reference count becomes 0
      by_cases hrc0 : s.redundancyGroupRefcount b.redundancyGroup - 1 = 0#8
      · have hz : refcount (Input.liftGroup E) (s.allInputs.set i b) b.redundancyGroup = 0 := by
          rw [← hrc, hrc0]
          rfl
        have hnum : s.numActiveLift.toNat = liftCount E (s.allInputs.set i b) + 1 := by
          rw [h.numActiveLift, liftCount, liftCount, hsolo, hkeys, if_pos hz]
          omega
        rw [if_pos hrc0, toNat_sub_one hnum, liftCount, hsolo]
      · have hnz : refcount (Input.liftGroup E) (s.allInputs.set i b) b.redundancyGroup ≠ 0 := by
          rw [← hrc]
          exact fun hz => hrc0 (BitVec.eq_of_toNat_eq hz)
        rw [if_neg hrc0, h.numActiveLift, liftCount, hkeys, if_neg hnz, Nat.add_zero]
    · simp only [InputService.countLift, hzero, if_false, Bool.false_eq_true]
      by_cases hgb : group = b.redundancyGroup
      · subst hgb
        rw [Function.update_self, hrc]
      · have hother := @refcount_set_release _ _ _ _ _ _ _ _ group _ hi hkeya hkeyb
        rw [if_neg hgb, Nat.add_zero] at hother
        rw [Function.update_of_ne hgb, h.groupRefcount group, hother]

/-! ### Complete updates -/

/-- The invariant of the updates. -/
structure CountInv (E : EmergencyReason) (s : InputService) : Prop where
  configured : Configured E s
  counted : LiftCounted E s
  multiple : LiftMultipleExact s

theorem CountInv.of_configured {s : InputService} (h : Configured E s) (hinactive : AllInactive s) :
    CountInv E s := by
  have hnone : ∀ input ∈ s.allInputs, input.activeLift E = false := fun input hin => by
    rw [Input.activeLift, hinactive.inputs input hin, Bool.false_and]
  have hkeys : s.allInputs.filterMap (Input.liftGroup E) = [] :=
    List.filterMap_eq_nil_iff.mpr fun input hin => by simp [Input.liftGroup, hnone input hin]
  have hsolo : s.allInputs.countP (Input.soloLift E) = 0 :=
    List.countP_eq_zero.mpr fun input hin => by simp [Input.soloLift, hnone input hin]
  obtain ⟨v, hv, -⟩ := h.virtual 0 (by omega)
  rw [← h.liftMultipleInput] at hv
  refine ⟨h, ⟨?_, fun group => ?_⟩, ⟨v, hv, ?_⟩⟩
  · rw [hinactive.numActiveLift, liftCount, hsolo, keys, hkeys]
    rfl
  · rw [hinactive.redundancyGroupRefcount, refcount, hkeys]
    rfl
  · rw [hinactive.numActiveLift, hinactive.inputs v (List.mem_of_getElem? hv)]
    simp

/-- An input that is no lift sensor never counts. -/
private theorem activeLift_eq_false {input : Input}
    (h : E.mem .lift input.emergencyReason = false) : input.activeLift E = false := by
  rw [Input.activeLift, h, Bool.and_false]

/-- A change of a virtual input concerns no lift sensor. -/
theorem LiftCounted.of_setsVirtual {s s' : InputService} {k : ℕ} (h : LiftCounted E s)
    (hs : Configured E s) (hk : k < 2) (hset : SetsVirtual k s s')
    (hnum : s'.numActiveLift = s.numActiveLift)
    (hrefcount : s'.redundancyGroupRefcount = s.redundancyGroupRefcount) : LiftCounted E s' := by
  obtain ⟨v, v', hv, hinputs, hconf⟩ := hset.inputs
  obtain ⟨w, hw, hvirtual⟩ := hs.virtual k hk
  obtain rfl : v = w := Option.some.inj (hv.symm.trans hw)
  have hlift : v'.activeLift E = v.activeLift E := by
    rw [activeLift_eq_false hvirtual.notLift,
      activeLift_eq_false (hconf.2.2.2.1 ▸ hvirtual.notLift)]
  have hcounted := h.set_of_eq hv hlift hconf.2.2.1
  constructor
  · rw [hnum, hinputs]
    exact hcounted.numActiveLift
  · rw [hrefcount, hinputs]
    exact hcounted.groupRefcount

/-- The virtual lift input and its counter are the same. -/
theorem LiftMultipleExact.of_eq {s s' : InputService} (h : LiftMultipleExact s)
    (hk : s'.liftMultipleInput = s.liftMultipleInput)
    (hnum : s'.numActiveLift = s.numActiveLift)
    (hactive : s'.allInputs[s.liftMultipleInput]?.map Input.active =
      s.allInputs[s.liftMultipleInput]?.map Input.active) : LiftMultipleExact s' := by
  obtain ⟨v, hv, hexact⟩ := h
  rw [hv, Option.map_some, Option.map_eq_some_iff] at hactive
  obtain ⟨v', hv', hsame⟩ := hactive
  exact ⟨v', by rw [hk, hv'], by rw [hsame, hnum, hexact]⟩

/-- The virtual lift input is set by a counter that is up to date. -/
theorem liftMultipleExact_updateVirtual {s : InputService} (h : Configured E s) {num : BitVec 8}
    {time : Micros} (hnum : 2#8 ≤ num ↔ 2#8 ≤ s.numActiveLift) :
    LiftMultipleExact (s.updateVirtual s.liftMultipleInput (decide (2#8 ≤ num)) time) := by
  rw [h.liftMultipleInput]
  obtain ⟨v, hv, hactive⟩ := getElem?_updateVirtual h (by omega : 0 < 2) (decide (2#8 ≤ num)) time
  refine ⟨v, (congrArg _ h.liftMultipleInput).trans hv, ?_⟩
  rw [hactive]
  exact (decide_eq_true_iff.trans hnum).trans BitVec.le_def

/-- **The lift part of an update.** After the flag of a sensor has changed, `OnInputChanged`
counts it and updates the virtual lift input. -/
theorem CountInv.liftChanged {s : InputService} {i : ℕ} {a b : Input} {time : Micros}
    (h : CountInv E s) (h2 : 2 ≤ i) (hi : s.allInputs[i]? = some a)
    (hconf : Input.SameConfig b a) (hflip : b.active = !a.active) :
    CountInv E ({ s with allInputs := s.allInputs.set i b }.liftChanged E b b.active time) := by
  have hset := h.configured.set hi hconf
  rw [InputService.liftChanged]
  cases hlift : E.mem .lift b.emergencyReason with
  | false =>
    -- no lift sensor: nothing is counted
    have hlift' : E.mem .lift a.emergencyReason = false := hconf.2.2.2.1 ▸ hlift
    refine ⟨hset, ?_, h.multiple.of_eq rfl rfl ?_⟩
    · exact h.counted.set_of_eq hi
        (by rw [activeLift_eq_false hlift, activeLift_eq_false hlift']) hconf.2.2.1
    · rw [h.configured.liftMultipleInput]
      exact congrArg _ (List.getElem?_set_ne (by omega))
  | true =>
    have hlift' : E.mem .lift a.emergencyReason = true := hconf.2.2.2.1 ▸ hlift
    simp only [if_true]
    have hcounted : LiftCounted E
        ({ s with allInputs := s.allInputs.set i b }.countLift b.redundancyGroup b.active) := by
      cases hb : b.active with
      | true =>
        have ha : a.active = false := by simpa [hb] using hflip.symm
        exact h.counted.activate h.configured.length_le hi (by simp [Input.activeLift, ha])
          (by simp [Input.activeLift, hb, hlift]) hconf.2.2.1
      | false =>
        have ha : a.active = true := by simpa [hb] using hflip.symm
        exact h.counted.deactivate hi (by simp [Input.activeLift, ha, hlift'])
          (by simp [Input.activeLift, hb]) hconf.2.2.1
    have hconfigured := hset.countLift b.redundancyGroup b.active
    generalize { s with allInputs := s.allInputs.set i b }.countLift b.redundancyGroup
      b.active = s₁ at hcounted hconfigured ⊢
    -- the virtual input follows the counter
    have hexact := @liftMultipleExact_updateVirtual E s₁ hconfigured s₁.numActiveLift time Iff.rfl
    have hvirtual := updateVirtual_setsVirtual hconfigured (by omega : 0 < 2)
      (decide (2#8 ≤ s₁.numActiveLift)) time
    rw [hconfigured.liftMultipleInput] at hexact ⊢
    exact ⟨hvirtual.configured hconfigured,
      hcounted.of_setsVirtual hconfigured (by omega) hvirtual rfl rfl, hexact⟩

/-- The collision part of an update does not touch the lift counters. -/
theorem CountInv.collisionChanged {s : InputService} {input : Input} {active : Bool}
    {time : Micros} (h : CountInv E s) : CountInv E (s.collisionChanged E input active time) := by
  have hset := collisionChanged_setsVirtual h.configured input active time
  have hnum : (s.collisionChanged E input active time).numActiveLift = s.numActiveLift := by
    rw [InputService.collisionChanged]
    split <;> rfl
  have hrefcount : (s.collisionChanged E input active time).redundancyGroupRefcount =
      s.redundancyGroupRefcount := by
    rw [InputService.collisionChanged]
    split <;> rfl
  refine ⟨hset.configured h.configured, ?_, h.multiple.of_eq hset.liftMultipleInput hnum ?_⟩
  · exact h.counted.of_setsVirtual h.configured (by omega) hset hnum hrefcount
  · rw [h.configured.liftMultipleInput]
    exact congrArg _ (hset.getElem? (by omega))

/-- **Every update of a sensor keeps the counters exact.** -/
theorem CountInv.update {s : InputService} {i : ℕ} {input : Input} {newActive : Bool}
    {time predate : Micros} (h : CountInv E s) (hi : s.allInputs[i]? = some input)
    (hreal : input.idx ≠ Input.virtualIdx) :
    CountInv E (s.update E i newActive time predate) ∧
      KeepsConfig s.allInputs (s.update E i newActive time predate).allInputs := by
  obtain ⟨-, hkeep, -⟩ := update_spec h.configured hi hreal newActive time predate
  refine ⟨?_, hkeep⟩
  obtain ⟨-, hupdate⟩ | ⟨b, hconf, -, hflip, hupdate⟩ :=
    @update_cases E s i input hi hreal newActive time predate
  · rw [hupdate]
    exact h
  · rw [hupdate]
    exact (h.liftChanged (h.configured.two_le hi hreal) hi hconf hflip).collisionChanged

/-- Exact counters are small, so a counter that went down from 0 would show. -/
theorem CountInv.noUnderflow {s s' : InputService} (h' : CountInv E s') : NoUnderflow s s' := by
  have hlen : s'.allInputs.length ≤ 32 := h'.configured.length_le
  have hwrap : ((0#8 - 1 : BitVec 8)).toNat = 255 := rfl
  constructor
  · intro hdown hzero
    have hcount := h'.counted.numActiveLift
    have hle := @liftCount_le E s'.allInputs
    rw [hdown, hzero, hwrap] at hcount
    omega
  · intro group hdown hzero
    have hcount := h'.counted.groupRefcount group
    have hle : refcount (Input.liftGroup E) s'.allInputs group ≤ s'.allInputs.length :=
      refcount_le_length
    rw [hdown, hzero, hwrap] at hcount
    omega

/-! ### Runs after a configuration -/

/-- The arguments of a call of `Input::Update`, and what it reads from the clock. -/
structure UpdateArgs where
  position : ℕ
  newActive : Bool
  time : Micros
  predate : Micros

/-- The input service after an accepted configuration with these group names, with the calls
of `Input::Update` that the drivers make, one at a time. The virtual inputs are in no driver's
list, so no driver updates them. -/
def updateMachine (env : InputConfigEnv) (parser : JsonParser) (groupName : ℕ → Option CString) :
    StateMachine InputService UpdateArgs where
  Init s := ∃ json config, onRegisterInputConfigsChanged env parser json = (true, config) ∧
    config.service = s ∧ config.groupName = groupName
  step s call := s.allInputs[call.position]?.bind fun input =>
    if input.idx = Input.virtualIdx then none
    else some (s.update env.reason call.position call.newActive call.time call.predate)

variable {env : InputConfigEnv} {parser : JsonParser} {groupName : ℕ → Option CString}

/-- What holds between updates. -/
theorem updateMachine_step {s s' : InputService} {call : UpdateArgs}
    (h : CountInv env.reason s) (hs : (updateMachine env parser groupName).step s call = some s') :
    CountInv env.reason s' ∧ KeepsConfig s.allInputs s'.allInputs := by
  simp only [updateMachine, Option.bind_eq_some_iff, Option.ite_none_left_eq_some,
    Option.some.injEq] at hs
  obtain ⟨input, hi, hreal, rfl⟩ := hs
  exact h.update hi hreal

theorem updateMachine_reachable {s : InputService}
    (h : (updateMachine env parser groupName).Reachable s) :
    CountInv env.reason s ∧ GroupsMatchNames groupName s := by
  have hinit : ∀ s, (updateMachine env parser groupName).Init s →
      CountInv env.reason s ∧ GroupsMatchNames groupName s := by
    rintro s ⟨json, config, hconfig, rfl, rfl⟩
    obtain ⟨hconfigured, hinactive, hgroups⟩ := onRegisterInputConfigsChanged_spec hconfig
    exact ⟨.of_configured hconfigured hinactive, hgroups⟩
  refine h.invariant hinit fun s call s' hI hs => ?_
  obtain ⟨hinv, hkeep⟩ := updateMachine_step hI.1 hs
  exact ⟨hinv, hI.2.of_keepsConfig hkeep⟩

/-- **Lift counting is exact.** After every accepted configuration and every sequence of
updates the lift counters have the numbers that they stand for, the virtual lift input is
active exactly when at least two sensors or groups are, and group ids are equal exactly when
the group names are. No update takes a lift counter below 0. -/
theorem lift_counting_exact {s : InputService}
    (h : (updateMachine env parser groupName).Reachable s) :
    LiftCounted env.reason s ∧ LiftMultipleExact s ∧ GroupsMatchNames groupName s ∧
      ∀ call s', (updateMachine env parser groupName).step s call = some s' → NoUnderflow s s' := by
  obtain ⟨hinv, hgroups⟩ := updateMachine_reachable h
  refine ⟨hinv.counted, hinv.multiple, hgroups, fun call s' hs => ?_⟩
  exact (updateMachine_step hinv hs).1.noUnderflow

/-! ### An example document -/

/-- An environment with GPIO inputs, whose only line is `A`. -/
def gpioEnv : InputConfigEnv where
  reason := .standard
  drivers := [("gpio".toList,
    gpioInputDriver (fun name => if name = "A".toList then 1#64 else 0#64) 0#64)]
  liftMultipleDelay := 10#16
  collisionMultipleDelay := 10#16
  toArithmetic := fun _ => none

/-- An event below the keys `key` and `innerKey`. -/
def jsonEvent (stackPos : ℕ) (type : JsonType) (buff key innerKey : String) : JsonEvent where
  stackPos := stackPos
  type := type
  buff := buff.toList
  buffPos := buff.toList.length
  key := key.toList
  innerKey := innerKey.toList
  length_le := le_rfl

/-- The parser on a document that is given in pieces, with the events that the last character
of each piece gives rise to. -/
def replayParser (pieces : List (String × List JsonEvent)) : JsonParser where
  State := List (CString × List JsonEvent)
  init := pieces.map fun piece => (piece.1.toList, piece.2)
  parse
    | [], _ => ([], [], .error)
    | ([], _) :: rest, _ => (rest, [], .error)
    | ([_], events) :: rest, _ =>
      (rest, events, if rest = [] then .streamDone else .inProgress)
    | (_ :: text, events) :: rest, _ => ((text, events) :: rest, [], .inProgress)

/-- The emergency of a lift sensor. -/
def liftPieces : List (String × List JsonEvent) :=
  [("\"emergency\":", [jsonEvent 4 .key "emergency" "emergency" ""]),
    ("\x7b", [jsonEvent 5 .object "" "emergency" ""]),
    ("\"reason\":", [jsonEvent 6 .key "reason" "emergency" "reason"]),
    ("\"lift\"", [jsonEvent 7 .string "lift" "emergency" "reason"]),
    ("\x7d", [jsonEvent 5 .objectEnd "" "emergency" ""])]

/-- A key of an input with a text as its value. -/
def textPieces (key value : String) : List (String × List JsonEvent) :=
  [("\"" ++ key ++ "\":", [jsonEvent 4 .key key key ""]),
    ("\"" ++ value ++ "\",", [jsonEvent 5 .string value key ""])]

/-- A lift sensor with one more key. -/
def inputPieces (key value : String) : List (String × List JsonEvent) :=
  ("\x7b", [jsonEvent 3 .object "" "" ""]) :: textPieces key value ++ liftPieces ++
    [("\x7d", [jsonEvent 3 .objectEnd "" "" ""])]

/-- Two lift sensors of one group, and an inverted one without a group. -/
def liftDocument : List (String × List JsonEvent) :=
  [("\x7b", [jsonEvent 0 .object "" "" ""]), ("\"gpio\":", [jsonEvent 1 .key "gpio" "" ""]),
    ("[", [jsonEvent 2 .array "" "" ""])] ++
    inputPieces "redundancy_group" "w" ++ [(",", [])] ++
    inputPieces "redundancy_group" "w" ++ [(",", [])] ++ inputPieces "active" "low" ++
    [("]", [jsonEvent 2 .arrayEnd "" "" ""]), ("\x7d", [jsonEvent 0 .objectEnd "" "" ""])]

/-- The service after the example document. -/
def liftConfig : Bool × InputConfig :=
  onRegisterInputConfigsChanged gpioEnv (replayParser liftDocument)
    (liftDocument.flatMap fun piece => piece.1.toList)

/-- Both sensors of the group become active, then the inverted one, and the first of the group
becomes inactive. -/
def liftCalls : List UpdateArgs :=
  [⟨2, true, 1000#32, 0#32⟩, ⟨3, true, 2000#32, 0#32⟩, ⟨4, false, 3000#32, 0#32⟩,
    ⟨2, false, 4000#32, 0#32⟩]

/-- The updates after the example document. -/
def liftMachine : StateMachine InputService UpdateArgs :=
  updateMachine gpioEnv (replayParser liftDocument) liftConfig.2.groupName

/-- The group counts as one sensor, and the inverted sensor as another one. -/
theorem lift_counting_exact_liftCalls :
    ∃ s, liftMachine.run liftConfig.2.service liftCalls = some s ∧ s.numActiveLift = 2#8 ∧
      LiftCounted .standard s ∧ LiftMultipleExact s ∧
        GroupsMatchNames liftConfig.2.groupName s ∧
          ∀ call s', liftMachine.step s call = some s' → NoUnderflow s s' := by
  have hok : liftConfig.1 = true := by decide +kernel
  have haccepted : liftConfig = (true, liftConfig.2) := by rw [← hok]
  have hinit : liftMachine.Reachable liftConfig.2.service :=
    .init ⟨_, liftConfig.2, haccepted, rfl, rfl⟩
  have hcount : (liftMachine.run liftConfig.2.service liftCalls).map (·.numActiveLift) =
      some 2#8 := by decide +kernel
  obtain ⟨s, hrun, hnum⟩ := Option.map_eq_some_iff.mp hcount
  exact ⟨s, hrun, hnum, lift_counting_exact (hinit.run hrun)⟩

end OpenMower
