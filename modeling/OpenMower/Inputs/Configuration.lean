import OpenMower.Services.InputConfig

/-!
# What a configuration leaves

`ConfigInv` is the invariant of the callbacks of a configuration: the first two inputs are the
virtual ones, all inputs are inactive, the counters are 0, and the table of redundancy groups
assigns the ids from 1 on to distinct names. A configuration therefore gives two inputs the
same group id exactly if it gives them the same group name
(`onRegisterInputConfigsChanged_spec`). Updates leave the configuration alone (`KeepsConfig`).
-/

namespace OpenMower

/-- A virtual input: it is not inverted, and no sensor that is counted. -/
structure IsVirtual (E : EmergencyReason) (input : Input) : Prop where
  idx : input.idx = Input.virtualIdx
  invert : input.invert = false
  notLift : E.mem .lift input.emergencyReason = false
  notCollision : E.mem .collision input.emergencyReason = false

/-- The positions of the virtual inputs, and the bound on the inputs. -/
structure Configured (E : EmergencyReason) (s : InputService) : Prop where
  liftMultipleInput : s.liftMultipleInput = 0
  collisionMultipleInput : s.collisionMultipleInput = 1
  virtual : ∀ i, i < 2 → ∃ input, s.allInputs[i]? = some input ∧ IsVirtual E input
  real : ∀ i input, 2 ≤ i → s.allInputs[i]? = some input → input.idx ≠ Input.virtualIdx
  length_le : s.allInputs.length ≤ InputConfig.maxInputs

/-- Nothing is active and nothing is counted. -/
structure AllInactive (s : InputService) : Prop where
  inputs : ∀ input ∈ s.allInputs, input.active = false
  numActiveLift : s.numActiveLift = 0#8
  numActiveCollision : s.numActiveCollision = 0#8
  redundancyGroupRefcount : ∀ group, s.redundancyGroupRefcount group = 0#8

/-- Two inputs share a group id in 1..4 exactly when they were configured with the same group
name. -/
def GroupsMatchNames (groupName : ℕ → Option CString) (s : InputService) : Prop :=
  ∀ i j a b, s.allInputs[i]? = some a → s.allInputs[j]? = some b →
    ((a.redundancyGroup = b.redundancyGroup ∧ 1#8 ≤ a.redundancyGroup ∧
        a.redundancyGroup ≤ InputConfig.maxRedundancyGroups) ↔
      ∃ name, groupName i = some name ∧ groupName j = some name)

namespace InputConfig

/-- The ids in the table of groups: they are below the next one, and no two names share one. -/
structure TableInv (table : List (CString × BitVec 8)) (next : BitVec 8) : Prop where
  next_pos : 1 ≤ next.toNat
  next_le : next.toNat ≤ 5
  id_pos : ∀ name id, table.lookup name = some id → 1 ≤ id.toNat
  id_lt : ∀ name id, table.lookup name = some id → id.toNat < next.toNat
  injective : ∀ name name' id, table.lookup name = some id → table.lookup name' = some id →
    name = name'

/-- The group of an input is that of its name in the table. -/
def GroupOf (table : List (CString × BitVec 8)) (name : Option CString) (group : BitVec 8) :
    Prop :=
  match name with
  | none => group = 0#8
  | some name => table.lookup name = some group

/-- The invariant of the callbacks. -/
structure ConfigInv (env : InputConfigEnv) (s : InputConfig) : Prop where
  configured : Configured env.reason s.service
  inactive : AllInactive s.service
  current : ∀ i, s.currentInput = some i → 2 ≤ i ∧ i < s.service.allInputs.length
  nextIdx : s.nextIdx.toNat + 2 = s.service.allInputs.length
  table : TableInv s.redundancyGroupMap s.nextRedundancyGroupId
  group : ∀ i input, s.service.allInputs[i]? = some input →
    GroupOf s.redundancyGroupMap (s.groupName i) input.redundancyGroup
  unnamed : ∀ i, s.service.allInputs.length ≤ i → s.groupName i = none

variable {env : InputConfigEnv} {s : InputConfig}

theorem ConfigInv.of_start : ConfigInv env (start env) := by
  have hvirtual : ∀ i, i < 2 → ∃ input, (start env).service.allInputs[i]? = some input ∧
      IsVirtual env.reason input := by
    intro i hi
    match i, hi with
    | 0, _ => exact ⟨_, rfl, rfl, rfl, by simp [liftMultiple], by simp [liftMultiple]⟩
    | 1, _ => exact ⟨_, rfl, rfl, rfl, by simp [collisionMultiple], by simp [collisionMultiple]⟩
  refine ⟨⟨rfl, rfl, hvirtual, fun i input hi hget => ?_, by simp [start, maxInputs]⟩,
    ⟨by simp [start, liftMultiple, collisionMultiple], rfl, rfl, fun _ => rfl⟩,
    by simp [start], rfl, ⟨le_rfl, by simp [start], by simp [start], by simp [start],
      by simp [start]⟩, fun i input hget => ?_, fun _ _ => rfl⟩
  · have hlt := (List.getElem?_eq_some_iff.mp hget).1
    simp [start] at hlt
    omega
  · have hmem := List.mem_of_getElem? hget
    simp only [start, List.mem_cons, List.not_mem_nil, or_false] at hmem
    rcases hmem with rfl | rfl <;> rfl

/-- The inputs after a change of one of them. -/
theorem getElem?_modifyInput {i j : ℕ} {f : Input → Input} {input : Input}
    (hj : (s.modifyInput i f).service.allInputs[j]? = some input) :
    ∃ input₀, s.service.allInputs[j]? = some input₀ ∧
      input = if i = j then f input₀ else input₀ := by
  simp only [InputConfig.modifyInput, List.getElem?_modify, Option.map_eq_map,
    Option.map_eq_some_iff] at hj
  obtain ⟨input₀, hj, rfl⟩ := hj
  exact ⟨input₀, hj, rfl⟩

/-- The inputs after one has been added. -/
theorem getElem?_addInput {j : ℕ} {input : Input}
    (hj : s.addInput.service.allInputs[j]? = some input) :
    s.service.allInputs[j]? = some input ∨
      (j = s.service.allInputs.length ∧ input = { idx := s.nextIdx }) := by
  simp only [InputConfig.addInput, List.getElem?_append] at hj
  split at hj
  · exact .inl hj
  · next hge =>
    obtain ⟨hj0, hj1⟩ := List.getElem?_eq_some_iff.mp hj
    have hj' : j = s.service.allInputs.length := by
      simp only [List.length_singleton] at hj0
      omega
    exact .inr ⟨hj', by simpa using hj1.symm⟩

/-- A change of an input that is not a virtual one, and keeps its index. -/
theorem configured_modifyInput {E : EmergencyReason} (h : Configured E s.service) {i : ℕ}
    (hi : 2 ≤ i) {f : Input → Input}
    (hf : ∀ input, s.service.allInputs[i]? = some input → (f input).idx = input.idx) :
    Configured E (s.modifyInput i f).service := by
  obtain ⟨hlift, hcollision, hvirtual, hreal, hlen⟩ := h
  refine ⟨hlift, hcollision, fun j hj => ?_, fun j input hj hin => ?_, ?_⟩
  · obtain ⟨input, hin, hv⟩ := hvirtual j hj
    have hne : i ≠ j := by omega
    exact ⟨input, by simpa [InputConfig.modifyInput, List.getElem?_modify, hne] using hin, hv⟩
  · obtain ⟨input₀, hin₀, rfl⟩ := getElem?_modifyInput hin
    split
    · next heq =>
      subst heq
      rw [hf input₀ hin₀]
      exact hreal i input₀ hj hin₀
    · exact hreal j input₀ hj hin₀
  · simpa [InputConfig.modifyInput] using hlen

/-- With at most 32 inputs the index of a new one stays far below that of the virtual inputs. -/
theorem configured_addInput {E : EmergencyReason} (h : Configured E s.service)
    (hidx : s.nextIdx.toNat + 2 = s.service.allInputs.length)
    (hfull : s.service.allInputs.length ≠ maxInputs) : Configured E s.addInput.service := by
  obtain ⟨hlift, hcollision, hvirtual, hreal, hlen⟩ := h
  have hmax : maxInputs = 32 := rfl
  refine ⟨hlift, hcollision, fun j hj => ?_, fun j input hj hin => ?_, ?_⟩
  · obtain ⟨input, hin, hv⟩ := hvirtual j hj
    refine ⟨input, ?_, hv⟩
    rw [← hin]
    exact List.getElem?_append_left (List.getElem?_eq_some_iff.mp hin).1
  · obtain hold | ⟨-, rfl⟩ := getElem?_addInput hin
    · exact hreal j input hj hold
    · intro heq
      have hnext : s.nextIdx.toNat = 255 := congrArg BitVec.toNat heq
      omega
  · have hlength : s.addInput.service.allInputs.length = s.service.allInputs.length + 1 := by
      simp [InputConfig.addInput]
    omega

/-- The next index goes up with the number of inputs. -/
theorem nextIdx_addInput (hidx : s.nextIdx.toNat + 2 = s.service.allInputs.length)
    (hle : s.service.allInputs.length ≤ maxInputs) :
    s.addInput.nextIdx.toNat + 2 = s.addInput.service.allInputs.length := by
  have hmax : maxInputs = 32 := rfl
  have hnext : (s.nextIdx + 1).toNat = s.nextIdx.toNat + 1 := by
    rw [BitVec.toNat_add, show (1 : BitVec 8).toNat = 1 from rfl]
    omega
  simp only [InputConfig.addInput, hnext, List.length_append, List.length_singleton]
  omega

/-- A change of the current input, which is not a virtual one, that keeps its index and its
state, together with a change of the groups. -/
theorem ConfigInv.modify (h : ConfigInv env s) {i : ℕ} (hi : 2 ≤ i) {f : Input → Input}
    {table : List (CString × BitVec 8)} {next : BitVec 8} {groupName : ℕ → Option CString}
    (hf : ∀ input, s.service.allInputs[i]? = some input →
      (f input).idx = input.idx ∧ (f input).active = input.active)
    (htable : TableInv table next)
    (hgroup : ∀ j input, s.service.allInputs[j]? = some input →
      GroupOf table (groupName j) (if i = j then f input else input).redundancyGroup)
    (hunnamed : ∀ j, s.service.allInputs.length ≤ j → groupName j = none) :
    ConfigInv env { s.modifyInput i f with
      redundancyGroupMap := table, nextRedundancyGroupId := next, groupName := groupName } := by
  refine ⟨configured_modifyInput h.configured hi fun input hin => (hf input hin).1,
    ⟨fun input hin => ?_, h.inactive.numActiveLift, h.inactive.numActiveCollision,
      h.inactive.redundancyGroupRefcount⟩, ?_, ?_, htable, fun j input hin => ?_, ?_⟩
  · obtain ⟨j, hin⟩ := List.mem_iff_getElem?.mp hin
    obtain ⟨input₀, hin₀, rfl⟩ := getElem?_modifyInput hin
    have hinactive := h.inactive.inputs input₀ (List.mem_of_getElem? hin₀)
    split
    · next heq =>
      subst heq
      rw [(hf input₀ hin₀).2, hinactive]
    · exact hinactive
  · simpa [InputConfig.modifyInput] using h.current
  · simpa [InputConfig.modifyInput] using h.nextIdx
  · obtain ⟨input₀, hin₀, rfl⟩ := getElem?_modifyInput hin
    exact hgroup j input₀ hin₀
  · simpa [InputConfig.modifyInput] using hunnamed

/-- A change of the current input that keeps its index, its state and its group. -/
theorem ConfigInv.modifyInput (h : ConfigInv env s) {i : ℕ} (hi : 2 ≤ i) {f : Input → Input}
    (hf : ∀ input, s.service.allInputs[i]? = some input → (f input).idx = input.idx ∧
      (f input).active = input.active ∧ (f input).redundancyGroup = input.redundancyGroup) :
    ConfigInv env (s.modifyInput i f) := by
  refine h.modify hi (fun input hin => ⟨(hf input hin).1, (hf input hin).2.1⟩) h.table
    (fun j input hin => ?_) h.unnamed
  by_cases heq : i = j
  · subst heq
    rw [if_pos rfl, (hf input hin).2.2]
    exact h.group i input hin
  · rw [if_neg heq]
    exact h.group j input hin

/-- The current input joins the group of a name, where the table may have grown. -/
theorem ConfigInv.setGroup (h : ConfigInv env s) {i : ℕ} (hi : 2 ≤ i)
    (hlt : i < s.service.allInputs.length) {name : CString} {id next : BitVec 8}
    {table : List (CString × BitVec 8)} (htable : TableInv table next)
    (hext : ∀ name' id', s.redundancyGroupMap.lookup name' = some id' →
      table.lookup name' = some id')
    (hname : table.lookup name = some id) :
    ConfigInv env { s.setGroup i name id with
      redundancyGroupMap := table, nextRedundancyGroupId := next } := by
  refine h.modify hi (fun input _ => ⟨rfl, rfl⟩) htable (fun j input hin => ?_) fun j hj => ?_
  · by_cases heq : i = j
    · subst heq
      simpa [InputConfig.setGroup, GroupOf] using hname
    · have hold := h.group j input hin
      simp only [InputConfig.setGroup, if_neg heq, Function.update_of_ne (Ne.symm heq)]
      unfold GroupOf at hold ⊢
      split at hold
      · exact hold
      · exact hext _ _ hold
  · have hne : j ≠ i := by omega
    simpa [InputConfig.setGroup, Function.update_of_ne hne] using h.unnamed j hj

/-! ### The callbacks -/

/-- A new name gets the next id. -/
theorem TableInv.cons {table : List (CString × BitVec 8)} {next : BitVec 8}
    (h : TableInv table next) {name : CString} (hname : table.lookup name = none)
    (hnext : next ≤ maxRedundancyGroups) : TableInv ((name, next) :: table) (next + 1) := by
  have hle : next.toNat ≤ 4 := BitVec.le_def.mp hnext
  have hadd : (next + 1).toNat = next.toNat + 1 := by
    rw [BitVec.toNat_add, show (1 : BitVec 8).toNat = 1 from rfl]
    omega
  have hcases : ∀ name' id, ((name, next) :: table).lookup name' = some id →
      (name' = name ∧ id = next) ∨ (name' ≠ name ∧ table.lookup name' = some id) := by
    intro name' id hl
    rw [List.lookup_cons] at hl
    by_cases heq : name' = name
    · subst heq
      exact .inl ⟨rfl, by simpa [eq_comm] using hl⟩
    · rw [beq_eq_false_iff_ne.mpr heq] at hl
      exact .inr ⟨heq, hl⟩
  refine ⟨by omega, by omega, fun name' id hl => ?_, fun name' id hl => ?_,
    fun name₁ name₂ id h₁ h₂ => ?_⟩
  · obtain ⟨-, rfl⟩ | ⟨-, hold⟩ := hcases name' id hl
    · exact h.next_pos
    · exact h.id_pos name' id hold
  · obtain ⟨-, rfl⟩ | ⟨-, hold⟩ := hcases name' id hl
    · omega
    · have hlt := h.id_lt name' id hold
      omega
  · obtain ⟨rfl, rfl⟩ | ⟨-, hold₁⟩ := hcases name₁ id h₁
    · obtain ⟨rfl, -⟩ | ⟨-, hold₂⟩ := hcases name₂ id h₂
      · rfl
      -- an id from the old table is below the new one
      · exact absurd (h.id_lt name₂ _ hold₂) (lt_irrefl _)
    · obtain ⟨rfl, rfl⟩ | ⟨-, hold₂⟩ := hcases name₂ id h₂
      · exact absurd (h.id_lt name₁ _ hold₁) (lt_irrefl _)
      · exact h.injective name₁ name₂ id hold₁ hold₂

theorem ConfigInv.redundancyGroupValue (h : ConfigInv env s) {event : JsonEvent} {i : ℕ}
    (hi : s.currentInput = some i) : ConfigInv env (s.redundancyGroupValue event i).2 := by
  obtain ⟨h2, hlt⟩ := h.current i hi
  unfold InputConfig.redundancyGroupValue
  split
  · exact h
  split
  · exact h
  next hlen =>
  -- a name of at most 10 characters is not truncated
  have htake : event.buff.take 10 = event.buff := by
    have hle := event.length_le
    exact List.take_of_length_le (by omega)
  simp only [htake]
  split
  · next id hl => exact h.setGroup h2 hlt h.table (fun _ _ hold => hold) hl
  · next hl =>
    split
    · exact h
    next hmax =>
    refine h.setGroup h2 hlt (h.table.cons hl (BitVec.not_lt.mp hmax)) (fun name' id' hold => ?_)
      (by simp)
    rw [List.lookup_cons]
    by_cases heq : name' = event.buff
    · rw [heq, hl] at hold
      exact absurd hold (by simp)
    · rw [beq_eq_false_iff_ne.mpr heq]
      exact hold

/-- A key of the driver leaves the index, the group and the state alone. -/
theorem ConfigInv.driverValue (h : ConfigInv env s) {event : JsonEvent} {i : ℕ}
    (hi : s.currentInput = some i) : ConfigInv env (s.driverValue event i).2 := by
  obtain ⟨h2, -⟩ := h.current i hi
  unfold InputConfig.driverValue
  split
  · next driver input _ hin =>
    obtain ⟨invert, driverData, hset⟩ := driver.sets_own event input
    refine h.modifyInput h2 fun input₀ hin₀ => ?_
    obtain rfl : input = input₀ := Option.some.inj (hin.symm.trans hin₀)
    rw [hset]
    exact ⟨rfl, rfl, rfl⟩
  · exact h

theorem ConfigInv.inputValue (h : ConfigInv env s) {event : JsonEvent} {i : ℕ}
    (hi : s.currentInput = some i) : ConfigInv env (s.inputValue env event i).2 := by
  obtain ⟨h2, -⟩ := h.current i hi
  unfold InputConfig.inputValue
  split
  · split
    · exact h.modifyInput h2 fun _ _ => ⟨rfl, rfl, rfl⟩
    · exact h
  split
  · exact h.redundancyGroupValue hi
  split
  · split
    · exact h.modifyInput h2 fun _ _ => ⟨rfl, rfl, rfl⟩
    · exact h
  · exact h.driverValue hi

theorem ConfigInv.reasonValue (h : ConfigInv env s) {event : JsonEvent} {i : ℕ} (h2 : 2 ≤ i) :
    ConfigInv env (s.reasonValue env event i).2 := by
  have hadd : ∀ r, ConfigInv env (s.addReason env i r) := fun r =>
    h.modifyInput h2 fun _ _ => ⟨rfl, rfl, rfl⟩
  unfold InputConfig.reasonValue
  split
  · exact h
  split
  · exact hadd .stop
  split
  · exact hadd .lift
  split
  · exact hadd .collision
  · exact h

theorem ConfigInv.emergencyValue (h : ConfigInv env s) {event : JsonEvent} {i : ℕ}
    (hi : s.currentInput = some i) : ConfigInv env (s.emergencyValue env event i).2 := by
  obtain ⟨h2, -⟩ := h.current i hi
  unfold InputConfig.emergencyValue
  split
  · exact h
  split
  · exact h.reasonValue h2
  split
  · split
    · exact h.modifyInput h2 fun _ _ => ⟨rfl, rfl, rfl⟩
    · exact h
  split
  · split
    · exact h.modifyInput h2 fun _ _ => ⟨rfl, rfl, rfl⟩
    · exact h
  · exact h

/-- A new input has the next index, and no group yet. -/
theorem ConfigInv.addInput (h : ConfigInv env s)
    (hfull : s.service.allInputs.length ≠ maxInputs) : ConfigInv env s.addInput := by
  have hlen : s.addInput.service.allInputs.length = s.service.allInputs.length + 1 := by
    simp [InputConfig.addInput]
  have hidx := h.nextIdx
  refine ⟨configured_addInput h.configured h.nextIdx hfull,
    ⟨fun input hin => ?_, h.inactive.numActiveLift, h.inactive.numActiveCollision,
      h.inactive.redundancyGroupRefcount⟩, fun i hi => ?_,
    nextIdx_addInput h.nextIdx h.configured.length_le, h.table, fun j input hin => ?_,
    fun j hj => h.unnamed j (by omega)⟩
  · obtain ⟨j, hin⟩ := List.mem_iff_getElem?.mp hin
    obtain hold | ⟨-, rfl⟩ := getElem?_addInput hin
    · exact h.inactive.inputs input (List.mem_of_getElem? hold)
    · rfl
  · obtain rfl : s.service.allInputs.length = i := Option.some.inj hi
    omega
  · obtain hold | ⟨rfl, rfl⟩ := getElem?_addInput hin
    · exact h.group j input hold
    · have hnone : s.groupName s.service.allInputs.length = none := h.unnamed _ le_rfl
      simp [InputConfig.addInput, hnone, GroupOf]

/-- Leaving an input, or changing the driver, concerns none of this. -/
theorem ConfigInv.leaveInput (h : ConfigInv env s) :
    ConfigInv env { s with currentInput := none } :=
  ⟨h.configured, h.inactive, by simp, h.nextIdx, h.table, h.group, h.unnamed⟩

theorem ConfigInv.inputObject (h : ConfigInv env s) {event : JsonEvent} :
    ConfigInv env (s.inputObject event).2 := by
  unfold InputConfig.inputObject
  split
  · exact h
  split
  · exact h.leaveInput
  split
  · split
    · exact h
    · next hfull => exact h.addInput hfull
  · exact h.leaveInput

/-- **Every callback keeps the invariant**, also one that fails. -/
theorem ConfigInv.inputConfigsJsonCallback (h : ConfigInv env s) (event : JsonEvent) :
    ConfigInv env (s.inputConfigsJsonCallback env event).2 := by
  unfold InputConfig.inputConfigsJsonCallback
  -- one case for each depth that the source distinguishes
  split
  · exact h
  · exact ⟨h.configured, h.inactive, h.current, h.nextIdx, h.table, h.group, h.unnamed⟩
  · exact h
  · exact h.inputObject
  · split
    · exact h
    · next i hi => exact h.inputValue hi
  · split
    · exact h
    · next i hi => exact h.emergencyValue hi
  · exact h

/-- Equal ids are equal names. -/
theorem ConfigInv.groupsMatchNames (h : ConfigInv env s) :
    GroupsMatchNames s.groupName s.service := by
  intro i j a b ha hb
  have hga := h.group i a ha
  have hgb := h.group j b hb
  constructor
  -- a group id above 0 comes from the table, which is injective
  · rintro ⟨heq, hpos, -⟩
    have hne : a.redundancyGroup ≠ 0#8 := by
      intro hzero
      rw [hzero] at hpos
      exact absurd hpos (by decide)
    cases hni : s.groupName i with
    | none =>
      rw [hni] at hga
      exact absurd hga hne
    | some name =>
      cases hnj : s.groupName j with
      | none =>
        rw [hnj] at hgb
        exact absurd (heq.trans hgb) hne
      | some name' =>
        rw [hni] at hga
        rw [hnj] at hgb
        have hsame : name = name' := h.table.injective name name' a.redundancyGroup hga (heq ▸ hgb)
        exact ⟨name, rfl, by rw [hsame]⟩
  · rintro ⟨name, hni, hnj⟩
    rw [hni] at hga
    rw [hnj] at hgb
    have hid : some a.redundancyGroup = some b.redundancyGroup := hga.symm.trans hgb
    have hpos := h.table.id_pos name _ hga
    have hlt := h.table.id_lt name _ hga
    have hnext := h.table.next_le
    refine ⟨Option.some.inj hid, BitVec.le_def.mpr hpos, BitVec.le_def.mpr ?_⟩
    simp only [maxRedundancyGroups, BitVec.toNat_ofNat]
    omega

end InputConfig

/-- **What a configuration leaves**, accepted or not. -/
theorem onRegisterInputConfigsChanged_spec {env : InputConfigEnv} {parser : JsonParser}
    {json : CString} {ok : Bool} {s : InputConfig}
    (h : onRegisterInputConfigsChanged env parser json = (ok, s)) :
    Configured env.reason s.service ∧ AllInactive s.service ∧
      GroupsMatchNames s.groupName s.service := by
  rcases hrun : processJson (InputConfig.inputConfigsJsonCallback env) parser parser.init json
    { data := InputConfig.start env } with ⟨ok', c⟩
  simp only [onRegisterInputConfigsChanged, hrun, Prod.mk.injEq] at h
  obtain ⟨rfl, rfl⟩ := h
  have hinv : InputConfig.ConfigInv env c := by
    have hresult := @processJson_invariant _ (InputConfig.inputConfigsJsonCallback env)
      (InputConfig.ConfigInv env) (fun s event hI => hI.inputConfigsJsonCallback event)
      parser parser.init json { data := InputConfig.start env } .of_start
    rwa [hrun] at hresult
  obtain ⟨h1, h2, h3, h4, h5⟩ := hinv.configured
  obtain ⟨k1, k2, k3, k4⟩ := hinv.inactive
  exact ⟨⟨h1, h2, h3, h4, h5⟩, ⟨k1, k2, k3, k4⟩, hinv.groupsMatchNames⟩

/-! ### The configuration stays -/

/-- The inputs still have their configurations. -/
structure KeepsConfig (inputs inputs' : List Input) : Prop where
  length_eq : inputs'.length = inputs.length
  sameConfig : ∀ (j : ℕ) (b : Input), inputs'[j]? = some b →
    ∃ a, inputs[j]? = some a ∧ Input.SameConfig b a

theorem KeepsConfig.refl (inputs : List Input) : KeepsConfig inputs inputs :=
  ⟨rfl, fun _ b hb => ⟨b, hb, .refl b⟩⟩

theorem KeepsConfig.trans {l₁ l₂ l₃ : List Input} (h : KeepsConfig l₁ l₂)
    (h' : KeepsConfig l₂ l₃) : KeepsConfig l₁ l₃ := by
  refine ⟨h'.length_eq.trans h.length_eq, fun j c hc => ?_⟩
  obtain ⟨b, hb, hcb⟩ := h'.sameConfig j c hc
  obtain ⟨a, ha, hba⟩ := h.sameConfig j b hb
  exact ⟨a, ha, hcb.trans hba⟩

theorem KeepsConfig.set {inputs : List Input} {i : ℕ} {a b : Input} (hi : inputs[i]? = some a)
    (hb : Input.SameConfig b a) : KeepsConfig inputs (inputs.set i b) := by
  refine ⟨List.length_set, fun j c hc => ?_⟩
  rw [List.getElem?_set] at hc
  split at hc
  · next heq =>
    subst heq
    split at hc
    · obtain rfl := Option.some.inj hc
      exact ⟨a, hi, hb⟩
    · simp at hc
  · exact ⟨c, hc, .refl c⟩

theorem Configured.of_keepsConfig {E : EmergencyReason} {s s' : InputService}
    (h : Configured E s) (hkeep : KeepsConfig s.allInputs s'.allInputs)
    (hlift : s'.liftMultipleInput = s.liftMultipleInput)
    (hcollision : s'.collisionMultipleInput = s.collisionMultipleInput) : Configured E s' := by
  refine ⟨hlift.trans h.liftMultipleInput, hcollision.trans h.collisionMultipleInput,
    fun i hi => ?_, fun i b hi hb => ?_, hkeep.length_eq ▸ h.length_le⟩
  · obtain ⟨a, ha, hv⟩ := h.virtual i hi
    have hlt : i < s'.allInputs.length := by
      rw [hkeep.length_eq]
      exact (List.getElem?_eq_some_iff.mp ha).1
    obtain ⟨a', ha', hidx, hinvert, -, hreason, -⟩ :=
      hkeep.sameConfig i _ (List.getElem?_eq_getElem hlt)
    obtain rfl : a' = a := Option.some.inj (ha'.symm.trans ha)
    exact ⟨_, List.getElem?_eq_getElem hlt, hidx.trans hv.idx, hinvert.trans hv.invert,
      hreason ▸ hv.notLift, hreason ▸ hv.notCollision⟩
  · obtain ⟨a, ha, hidx, -⟩ := hkeep.sameConfig i b hb
    rw [hidx]
    exact h.real i a hi ha

theorem GroupsMatchNames.of_keepsConfig {groupName : ℕ → Option CString} {s s' : InputService}
    (h : GroupsMatchNames groupName s) (hkeep : KeepsConfig s.allInputs s'.allInputs) :
    GroupsMatchNames groupName s' := by
  intro i j a' b' ha' hb'
  obtain ⟨a, ha, -, -, hga, -⟩ := hkeep.sameConfig i a' ha'
  obtain ⟨b, hb, -, -, hgb, -⟩ := hkeep.sameConfig j b' hb'
  rw [hga, hgb]
  exact h i j a b ha hb

end OpenMower
