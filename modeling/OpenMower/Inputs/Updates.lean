import OpenMower.Library.Refcount
import OpenMower.Inputs.Configuration

/-!
# What an update of a sensor does

A complete call of `Input::Update` sets the flag of one sensor and records the edge; then it
counts the sensor and sets the virtual inputs (`update_cases`). Counting touches no input, and
each of the two parts of `OnInputChanged` sets at most its own virtual input (`SetsVirtual`).
Hence an update leaves the other sensors as they are (`update_spec`).
-/

namespace OpenMower

open Refcount

variable {E : EmergencyReason}

/-- A change of one input of a list. -/
theorem modify_eq_set {inputs : List Input} {i : ℕ} {a : Input} {f : Input → Input}
    (hi : inputs[i]? = some a) : inputs.modify i f = inputs.set i (f a) := by
  refine List.ext_getElem? fun j => ?_
  rw [List.getElem?_modify, List.getElem?_set]
  obtain ⟨hlt, rfl⟩ := List.getElem?_eq_some_iff.mp hi
  by_cases heq : i = j
  · subst heq
    simp [hlt]
  · simp [heq]

/-- Apart from counters, the virtual input at position `k` may have changed, and nothing else. -/
structure SetsVirtual (k : ℕ) (s s' : InputService) : Prop where
  inputs : ∃ v v', s.allInputs[k]? = some v ∧ s'.allInputs = s.allInputs.set k v' ∧
    Input.SameConfig v' v
  liftMultipleInput : s'.liftMultipleInput = s.liftMultipleInput
  collisionMultipleInput : s'.collisionMultipleInput = s.collisionMultipleInput

namespace SetsVirtual

variable {k : ℕ} {s s' : InputService}

/-- Nothing at all has changed. -/
theorem of_allInputs_eq {v : Input} (hk : s.allInputs[k]? = some v)
    (hinputs : s'.allInputs = s.allInputs) (hlift : s'.liftMultipleInput = s.liftMultipleInput)
    (hcollision : s'.collisionMultipleInput = s.collisionMultipleInput) : SetsVirtual k s s' := by
  refine ⟨⟨v, v, hk, ?_, .refl v⟩, hlift, hcollision⟩
  obtain ⟨hlt, rfl⟩ := List.getElem?_eq_some_iff.mp hk
  rw [hinputs, List.set_getElem_self]

/-- The counters may have changed before. -/
theorem of_eq {s₁ : InputService} (h : SetsVirtual k s₁ s') (hinputs : s₁.allInputs = s.allInputs)
    (hlift : s₁.liftMultipleInput = s.liftMultipleInput)
    (hcollision : s₁.collisionMultipleInput = s.collisionMultipleInput) : SetsVirtual k s s' :=
  ⟨hinputs ▸ h.inputs, h.liftMultipleInput.trans hlift,
    h.collisionMultipleInput.trans hcollision⟩

theorem keepsConfig (h : SetsVirtual k s s') : KeepsConfig s.allInputs s'.allInputs := by
  obtain ⟨v, v', hk, hset, hconf⟩ := h.inputs
  rw [hset]
  exact .set hk hconf

theorem configured (h : SetsVirtual k s s') (hs : Configured E s) : Configured E s' :=
  hs.of_keepsConfig h.keepsConfig h.liftMultipleInput h.collisionMultipleInput

/-- The other inputs are the same. -/
theorem getElem? (h : SetsVirtual k s s') {j : ℕ} (hj : j ≠ k) :
    s'.allInputs[j]? = s.allInputs[j]? := by
  obtain ⟨v, v', -, hset, -⟩ := h.inputs
  rw [hset, List.getElem?_set_ne hj.symm]

/-- A number of inputs among which the virtual ones never are does not change. -/
theorem countP_eq (h : SetsVirtual k s s') (hs : Configured E s) (hk : k < 2)
    {p : Input → Bool} (hp : ∀ v, IsVirtual E v → p v = false) :
    s'.allInputs.countP p = s.allInputs.countP p := by
  obtain ⟨v, v', hv, hset, hconf⟩ := h.inputs
  obtain ⟨w, hw, hvirtual⟩ := hs.virtual k hk
  obtain rfl : v = w := Option.some.inj (hv.symm.trans hw)
  have hvirtual' : IsVirtual E v' :=
    ⟨hconf.1.trans hvirtual.idx, hconf.2.1.trans hvirtual.invert,
      hconf.2.2.2.1 ▸ hvirtual.notLift, hconf.2.2.2.1 ▸ hvirtual.notCollision⟩
  rw [hset, countP_eq_refcount, countP_eq_refcount]
  refine refcount_set_of_key_eq hv ?_
  rw [hp v hvirtual, hp v' hvirtual']

end SetsVirtual

/-- An update of a virtual input sets it as requested and keeps everything else. -/
theorem updateVirtual_spec {s : InputService} {k : ℕ} {v : Input} {newActive : Bool}
    {time : Micros} (hk : s.allInputs[k]? = some v) (hv : IsVirtual E v) :
    ∃ v', (s.updateVirtual k newActive time).allInputs = s.allInputs.set k v' ∧
      Input.SameConfig v' v ∧ v'.active = newActive := by
  refine ⟨_, Input.updateAt_eq_set hk, Input.getD_update.1, ?_⟩
  rw [Input.getD_update.2, Input.applyInvert, hv.invert]
  rfl

/-- Only the counters change when a sensor is counted. -/
theorem countLift_allInputs (s : InputService) (group : BitVec 8) (active : Bool) :
    (s.countLift group active).allInputs = s.allInputs ∧
      (s.countLift group active).liftMultipleInput = s.liftMultipleInput ∧
        (s.countLift group active).collisionMultipleInput = s.collisionMultipleInput := by
  unfold InputService.countLift
  split
  · exact ⟨rfl, rfl, rfl⟩
  · split <;> exact ⟨rfl, rfl, rfl⟩

theorem Configured.countLift {s : InputService} (h : Configured E s) (group : BitVec 8)
    (active : Bool) : Configured E (s.countLift group active) := by
  obtain ⟨hinputs, hlift, hcollision⟩ := countLift_allInputs s group active
  have hkeep : KeepsConfig s.allInputs (s.countLift group active).allInputs := by
    rw [hinputs]
    exact .refl _
  exact h.of_keepsConfig hkeep hlift hcollision

theorem Configured.countCollision {s : InputService} (h : Configured E s) (active : Bool) :
    Configured E (s.countCollision active) :=
  h.of_keepsConfig (.refl _) rfl rfl

/-- An update of a virtual input changes nothing else. -/
theorem updateVirtual_setsVirtual {s : InputService} {k : ℕ} (h : Configured E s) (hk : k < 2)
    (newActive : Bool) (time : Micros) : SetsVirtual k s (s.updateVirtual k newActive time) := by
  obtain ⟨v, hv, hvirtual⟩ := h.virtual k hk
  obtain ⟨v', hset, hconf, -⟩ := @updateVirtual_spec E s k v newActive time hv hvirtual
  exact ⟨⟨v, v', hv, hset, hconf⟩, rfl, rfl⟩

theorem getElem?_updateVirtual {s : InputService} {k : ℕ} (h : Configured E s) (hk : k < 2)
    (newActive : Bool) (time : Micros) :
    ∃ v, (s.updateVirtual k newActive time).allInputs[k]? = some v ∧ v.active = newActive := by
  obtain ⟨v, hv, hvirtual⟩ := h.virtual k hk
  obtain ⟨v', hset, -, hactive⟩ := @updateVirtual_spec E s k v newActive time hv hvirtual
  refine ⟨v', ?_, hactive⟩
  rw [hset, List.getElem?_set_self (List.getElem?_eq_some_iff.mp hv).1]

/-- The lift part of `OnInputChanged` sets the virtual lift input. -/
theorem liftChanged_setsVirtual {s : InputService} (h : Configured E s) (input : Input)
    (active : Bool) (time : Micros) : SetsVirtual 0 s (s.liftChanged E input active time) := by
  obtain ⟨v, hv, -⟩ := h.virtual 0 (by omega)
  rw [InputService.liftChanged]
  split
  · obtain ⟨hinputs, hlift, hcollision⟩ := countLift_allInputs s input.redundancyGroup active
    have hcounted := h.countLift input.redundancyGroup active
    simp only [hcounted.liftMultipleInput]
    exact (updateVirtual_setsVirtual hcounted (by omega) _ time).of_eq hinputs hlift hcollision
  · exact .of_allInputs_eq hv rfl rfl rfl

/-- The collision part of `OnInputChanged` sets the virtual collision input. -/
theorem collisionChanged_setsVirtual {s : InputService} (h : Configured E s) (input : Input)
    (active : Bool) (time : Micros) :
    SetsVirtual 1 s (s.collisionChanged E input active time) := by
  obtain ⟨v, hv, -⟩ := h.virtual 1 (by omega)
  rw [InputService.collisionChanged]
  split
  · have hcounted := h.countCollision active
    simp only [hcounted.collisionMultipleInput]
    exact (updateVirtual_setsVirtual hcounted (by omega) _ time).of_eq rfl rfl rfl
  · exact .of_allInputs_eq hv rfl rfl rfl

/-- What `OnInputChanged` does after the input at position `i` has become `b`. -/
def InputService.afterEdge (E : EmergencyReason) (s : InputService) (i : ℕ) (b : Input)
    (time : Micros) : InputService :=
  ({ s with allInputs := s.allInputs.set i b }.liftChanged E b b.active time).collisionChanged E b
    b.active time

/-- **The two outcomes of an update.** Either the flag is as it should be and nothing happens,
or it flips and the change is processed. -/
theorem update_cases {s : InputService} {i : ℕ} {a : Input} (hi : s.allInputs[i]? = some a)
    (hreal : a.idx ≠ Input.virtualIdx) (newActive : Bool) (time predate : Micros) :
    (a.active = a.applyInvert newActive ∧ s.update E i newActive time predate = s) ∨
      ∃ b, Input.SameConfig b a ∧ b.active = a.applyInvert newActive ∧ b.active = !a.active ∧
        s.update E i newActive time predate = s.afterEdge E i b time := by
  rw [InputService.update]
  simp only [hi]
  cases hu : a.update newActive time predate with
  | none => exact .inl ⟨Input.update_eq_none.mp hu, rfl⟩
  | some r =>
    obtain ⟨b, active, duration⟩ := r
    have hconf : Input.SameConfig b a := Input.update_sameConfig hu
    obtain ⟨hold, -, hactive⟩ := Input.update_eq_some hu
    have hnew : b.active = a.applyInvert newActive := Input.update_active hu
    obtain rfl : active = b.active := hactive.trans hnew.symm
    have hidx : b.idx ≠ Input.virtualIdx := hconf.1 ▸ hreal
    refine .inr ⟨b, hconf, hnew, by rw [hnew, hold, Bool.not_not], ?_⟩
    simp only [InputService.onInputChanged, if_neg hidx, InputService.afterEdge]

/-- A sensor is not at the position of a virtual input. -/
theorem Configured.two_le {s : InputService} (h : Configured E s) {i : ℕ} {a : Input}
    (hi : s.allInputs[i]? = some a) (hreal : a.idx ≠ Input.virtualIdx) : 2 ≤ i := by
  by_contra hlt
  obtain ⟨v, hv, hvirtual⟩ := h.virtual i (by omega)
  obtain rfl : v = a := Option.some.inj (hv.symm.trans hi)
  exact hreal hvirtual.idx

theorem Configured.set {s : InputService} (h : Configured E s) {i : ℕ} {a b : Input}
    (hi : s.allInputs[i]? = some a) (hconf : Input.SameConfig b a) :
    Configured E { s with allInputs := s.allInputs.set i b } :=
  h.of_keepsConfig (.set hi hconf) rfl rfl

/-- Counting an edge changes no sensor besides the one that has changed. -/
theorem getElem?_afterEdge {s : InputService} (h : Configured E s) {i j : ℕ} {a b : Input}
    (hi : s.allInputs[i]? = some a) (hconf : Input.SameConfig b a) (hj : 2 ≤ j) (time : Micros) :
    (s.afterEdge E i b time).allInputs[j]? = (s.allInputs.set i b)[j]? := by
  have hset := h.set hi hconf
  have hlift := liftChanged_setsVirtual hset b b.active time
  have hcollision := collisionChanged_setsVirtual (hlift.configured hset) b b.active time
  rw [InputService.afterEdge, hcollision.getElem? (by omega), hlift.getElem? (by omega)]

/-- The updated sensor is what `Input::Update` makes of it. -/
theorem getElem?_update_self {s : InputService} (h : Configured E s) {i : ℕ} {a : Input}
    (hi : s.allInputs[i]? = some a) (hreal : a.idx ≠ Input.virtualIdx) (newActive : Bool)
    (time predate : Micros) :
    (s.update E i newActive time predate).allInputs[i]? =
      some (((a.update newActive time predate).map Prod.fst).getD a) := by
  have hlt : i < s.allInputs.length := (List.getElem?_eq_some_iff.mp hi).1
  rw [InputService.update]
  simp only [hi]
  cases hu : a.update newActive time predate with
  | none => exact hi
  | some r =>
    obtain ⟨b, active, duration⟩ := r
    have hconf : Input.SameConfig b a := Input.update_sameConfig hu
    have hactive : active = b.active :=
      (Input.update_eq_some hu).2.2.trans (Input.update_active hu).symm
    have hidx : b.idx ≠ Input.virtualIdx := hconf.1 ▸ hreal
    simp only [InputService.onInputChanged, if_neg hidx, hactive]
    exact (getElem?_afterEdge h hi hconf (h.two_le hi hreal) time).trans
      (List.getElem?_set_self hlt)

/-- **What an update does to the sensors.** The updated one shows the requested level, the
others are unchanged, and all keep their configurations. -/
theorem update_spec {s : InputService} (h : Configured E s) {i : ℕ} {a : Input}
    (hi : s.allInputs[i]? = some a) (hreal : a.idx ≠ Input.virtualIdx) (newActive : Bool)
    (time predate : Micros) :
    Configured E (s.update E i newActive time predate) ∧
      KeepsConfig s.allInputs (s.update E i newActive time predate).allInputs ∧
      (∃ b, (s.update E i newActive time predate).allInputs[i]? = some b ∧
        b.active = a.applyInvert newActive) ∧
      ∀ j, 2 ≤ j → j ≠ i →
        (s.update E i newActive time predate).allInputs[j]? = s.allInputs[j]? := by
  have h2 : 2 ≤ i := h.two_le hi hreal
  have hlt : i < s.allInputs.length := (List.getElem?_eq_some_iff.mp hi).1
  obtain ⟨hsame, hupdate⟩ | ⟨b, hconf, hnew, -, hupdate⟩ :=
    @update_cases E s i a hi hreal newActive time predate
  · rw [hupdate]
    exact ⟨h, .refl _, ⟨a, hi, hsame⟩, fun _ _ _ => rfl⟩
  · have hset := h.set hi hconf
    have hlift := liftChanged_setsVirtual hset b b.active time
    have hcollision := collisionChanged_setsVirtual (hlift.configured hset) b b.active time
    rw [hupdate]
    refine ⟨hcollision.configured (hlift.configured hset), ?_, ⟨b, ?_, hnew⟩, fun j hj hji => ?_⟩
    · have hkeep : KeepsConfig s.allInputs (s.allInputs.set i b) := .set hi hconf
      exact (hkeep.trans hlift.keepsConfig).trans hcollision.keepsConfig
    · rw [getElem?_afterEdge h hi hconf h2, List.getElem?_set_self hlt]
    · rw [getElem?_afterEdge h hi hconf hj, List.getElem?_set_ne hji.symm]

end OpenMower
