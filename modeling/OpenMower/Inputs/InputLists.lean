import OpenMower.Inputs.DriverLists

/-!
# The lists and the status mask over whole runs

Configurations and updates follow one another in any order. `InputListsInv` is kept by both: a
configuration starts by clearing the lists, and an update changes no pointer and no index. As
all indices are below 30, no shift in `SendStatus` reaches the sign of an `int`, and the mask shows
exactly the active inputs (`input_lists_consistent`).
-/

namespace OpenMower

open LinkedList

/-! ### The status mask -/

/-- The mask that `InputService::SendStatus` sends. The shift is one of an `int`. -/
def InputService.sendStatus (s : InputService) : BitVec 64 :=
  s.allInputs.foldl (fun mask input =>
    if input.active ∧ input.idx ≠ Input.virtualIdx then
      mask ||| (1#32 <<< input.idx.toNat).signExtend 64
    else mask) 0#64

/-- Below 30 the shift sets the bit of its index, and no sign. -/
theorem getLsbD_shift_eq_true_iff {k : ℕ} (hk : k < 30) (b : ℕ) :
    ((1#32 <<< k).signExtend 64).getLsbD b = true ↔ b = k := by
  have hbits : ∀ k < 30, ∀ b < 64, ((1#32 <<< k).signExtend 64).getLsbD b = decide (b = k) := by
    decide
  by_cases hb : b < 64
  · rw [hbits k hk b hb, decide_eq_true_iff]
  · rw [BitVec.getLsbD_of_ge _ _ (by omega)]
    simp only [Bool.false_eq_true, false_iff]
    omega

/-- The loop over the inputs sets the bits of the active ones. -/
theorem getLsbD_foldl_status {inputs : List Input}
    (hidx : ∀ input ∈ inputs, input.idx ≠ Input.virtualIdx → input.idx.toNat < 30)
    (mask : BitVec 64) (b : ℕ) :
    (inputs.foldl (fun mask input =>
      if input.active ∧ input.idx ≠ Input.virtualIdx then
        mask ||| (1#32 <<< input.idx.toNat).signExtend 64
      else mask) mask).getLsbD b = true ↔
      mask.getLsbD b = true ∨ ∃ input ∈ inputs,
        input.idx ≠ Input.virtualIdx ∧ input.idx.toNat = b ∧ input.active = true := by
  induction inputs generalizing mask with
  | nil => simp
  | cons input inputs ih =>
    rw [List.foldl_cons, ih fun input hin => hidx input (List.mem_cons_of_mem _ hin)]
    rw [List.exists_mem_cons_iff]
    split
    · next hset =>
      have hbit := getLsbD_shift_eq_true_iff (hidx input List.mem_cons_self hset.2) b
      rw [BitVec.getLsbD_or, Bool.or_eq_true, hbit, or_assoc]
      simp only [hset.1, hset.2, ne_eq, not_false_eq_true, true_and, and_true, eq_comm]
    · next hskip =>
      have hnot : ¬ (input.idx ≠ Input.virtualIdx ∧ input.idx.toNat = b ∧ input.active = true) :=
        fun h => hskip ⟨h.2.2, h.1⟩
      simp only [hnot, false_or]

/-! ### Runs -/

/-- The input service with the lists of its drivers. -/
structure InputLists where
  service : InputService
  lists : DriverLists

/-- `OnRegisterInputConfigsChanged` with the lists of the drivers. -/
def configureLists (env : InputConfigEnv) (parser : JsonParser) (json : CString)
    (s : InputLists) : Bool × InputLists :=
  let (ok, c) := processJson (ListsConfig.callback env) parser parser.init json
    { data := ListsConfig.start env s.lists }
  (ok, { service := { c.config.service with inputsConfigured := ok }, lists := c.lists })

/-- A configuration with the current values of the two delays, or an update of an input. -/
inductive InputListsEvent
  | configure (liftMultipleDelay collisionMultipleDelay : BitVec 16) (parser : JsonParser)
      (json : CString)
  | update (call : UpdateArgs)

/-- The service from the boot on, when nothing is configured. -/
def inputListsMachine (env : InputConfigEnv) : StateMachine InputLists InputListsEvent where
  Init s := s.service.allInputs = [] ∧ ∀ driver, s.lists.inputsHead driver = none
  step s
    | .configure liftMultipleDelay collisionMultipleDelay parser json =>
      some (configureLists { env with
        liftMultipleDelay := liftMultipleDelay
        collisionMultipleDelay := collisionMultipleDelay } parser json s).2
    | .update call => s.service.allInputs[call.position]?.bind fun input =>
      if input.idx = Input.virtualIdx then none
      else some { s with
        service :=
          s.service.update env.reason call.position call.newActive call.time call.predate }

/-- The lists, the indices and the mask agree with the elements of `all_inputs_`. -/
structure ListsConsistent (env : InputConfigEnv) (s : InputLists) : Prop where
  /-- Every list ends, visits nothing twice, and contains elements that are not virtual, in the
  order of the document; each of these is in the list of the registered driver that it
  appeared under, and in no other. -/
  threaded : ∃ lists : CString → List ℕ,
    (∀ driver, Linked s.lists.nextForDriver (s.lists.inputsHead driver) (lists driver) ∧
      (lists driver).Nodup ∧ (lists driver).Pairwise (· < ·) ∧
        ∀ i ∈ lists driver, ∃ input, s.service.allInputs[i]? = some input ∧
          input.idx ≠ Input.virtualIdx) ∧
    ∀ i input, s.service.allInputs[i]? = some input → input.idx ≠ Input.virtualIdx →
      s.lists.appearedUnder i ∈ env.drivers.map Prod.fst ∧
        ∀ driver, i ∈ lists driver ↔ driver = s.lists.appearedUnder i
  /-- The loop of `AddInput` finds the end of every list. -/
  loopEnds : ∀ driver head, s.lists.inputsHead driver = some head →
    s.lists.nextForDriver
      (lastFrom s.lists.nextForDriver InputConfig.maxInputs head) = none
  /-- The first two elements are the virtual ones. -/
  virtual : ∀ i input, i < 2 → s.service.allInputs[i]? = some input →
    input.idx = Input.virtualIdx
  /-- Behind them the indices count from 0. -/
  indexed : ∀ k input, s.service.allInputs[k + 2]? = some input →
    input.idx ≠ Input.virtualIdx ∧ input.idx.toNat = k ∧ k < 30
  mask : ∀ b, s.service.sendStatus.getLsbD b = true ↔ ∃ input ∈ s.service.allInputs,
    input.idx ≠ Input.virtualIdx ∧ input.idx.toNat = b ∧ input.active = true

/-- The invariant of the runs. -/
structure InputListsInv (env : InputConfigEnv) (s : InputLists) : Prop where
  configured : s.service.allInputs = [] ∨ Configured env.reason s.service
  indexed : IndexedByPosition s.service.allInputs
  holds : ∃ lists, s.lists.Holds s.service.allInputs.length lists
  registered : ∀ i, 2 ≤ i → i < s.service.allInputs.length →
    s.lists.appearedUnder i ∈ env.drivers.map Prod.fst

variable {env : InputConfigEnv} {s s' : InputLists}

theorem InputListsInv.of_init (h : (inputListsMachine env).Init s) : InputListsInv env s := by
  obtain ⟨hempty, hheads⟩ := h
  have hlen : s.service.allInputs.length = 0 := by rw [hempty, List.length_nil]
  refine ⟨.inl hempty, fun i input _ hin => ?_, ⟨_, .of_empty (by omega) hheads⟩,
    fun i _ hlt => by omega⟩
  simp [hempty] at hin

/-- **A configuration**, accepted or not, leaves lists of the inputs that it has added. -/
theorem InputListsInv.configure (h : InputListsInv env s) (parser : JsonParser)
    (json : CString) : InputListsInv env (configureLists env parser json s).2 := by
  obtain ⟨lists, hlists⟩ := h.holds
  have hheads : ∀ driver, driver ∉ env.drivers.map Prod.fst →
      s.lists.inputsHead driver = none := fun driver hnot =>
    hlists.inputsHead_eq_none fun i h2 hlt heq => hnot (heq ▸ h.registered i h2 hlt)
  have hresult := @processJson_invariant _ (ListsConfig.callback env) (ListsConfig.ListsInv env)
    (fun s event hI => hI.callback event) parser parser.init json
    { data := ListsConfig.start env s.lists } (.start hheads)
  obtain ⟨hlift, hcollision, hvirtual, hreal, hle⟩ := hresult.config.configured
  exact ⟨.inr ⟨hlift, hcollision, hvirtual, hreal, hle⟩, hresult.indexed, hresult.holds,
    hresult.registered⟩

/-- An update leaves the indices alone. -/
theorem InputListsInv.update (h : InputListsInv env s) {i : ℕ} {input : Input}
    (hi : s.service.allInputs[i]? = some input) (hreal : input.idx ≠ Input.virtualIdx)
    (newActive : Bool) (time predate : Micros) :
    InputListsInv env { s with
      service := s.service.update env.reason i newActive time predate } := by
  have hconfigured : Configured env.reason s.service := by
    rcases h.configured with hempty | hconfigured
    · simp [hempty] at hi
    · exact hconfigured
  obtain ⟨hconfigured', hkeep, -⟩ := update_spec hconfigured hi hreal newActive time predate
  refine ⟨.inr hconfigured', fun j b hj hb => ?_, ?_, ?_⟩
  · obtain ⟨a, ha, hidx, -⟩ := hkeep.sameConfig j b hb
    rw [hidx]
    exact h.indexed j a hj ha
  · dsimp only
    rw [hkeep.length_eq]
    exact h.holds
  · dsimp only
    rw [hkeep.length_eq]
    exact h.registered

theorem InputListsInv.step (h : InputListsInv env s) {e : InputListsEvent}
    (hs : (inputListsMachine env).step s e = some s') : InputListsInv env s' := by
  cases e with
  | configure liftMultipleDelay collisionMultipleDelay parser json =>
    obtain rfl := Option.some.inj hs
    have henv : InputListsInv { env with
        liftMultipleDelay := liftMultipleDelay
        collisionMultipleDelay := collisionMultipleDelay } s :=
      ⟨h.configured, h.indexed, h.holds, h.registered⟩
    obtain ⟨h1, h2, h3, h4⟩ := henv.configure parser json
    exact ⟨h1, h2, h3, h4⟩
  | update call =>
    obtain ⟨input, hi, hreal⟩ := Option.bind_eq_some_iff.mp hs
    split at hreal
    · exact absurd hreal (by simp)
    · next hidx =>
      obtain rfl := Option.some.inj hreal
      exact h.update hi hidx call.newActive call.time call.predate

/-- Where the invariant holds, the lists, the indices and the mask are consistent. -/
theorem InputListsInv.consistent (h : InputListsInv env s) : ListsConsistent env s := by
  have hvirtual : ∀ i input, i < 2 → s.service.allInputs[i]? = some input →
      input.idx = Input.virtualIdx := by
    intro i input hi hin
    rcases h.configured with hempty | hconfigured
    · simp [hempty] at hin
    · obtain ⟨v, hv, hidx⟩ := hconfigured.virtual i hi
      obtain rfl := Option.some.inj (hv.symm.trans hin)
      exact hidx.idx
  have hreal : ∀ i input, 2 ≤ i → s.service.allInputs[i]? = some input →
      input.idx ≠ Input.virtualIdx ∧ input.idx.toNat + 2 = i ∧ i < 32 := by
    intro i input hi hin
    rcases h.configured with hempty | hconfigured
    · simp [hempty] at hin
    · have hlt := (List.getElem?_eq_some_iff.mp hin).1
      exact ⟨hconfigured.real i input hi hin, h.indexed i input hi hin,
        hlt.trans_le hconfigured.length_le⟩
  have htwo : ∀ i input, s.service.allInputs[i]? = some input →
      input.idx ≠ Input.virtualIdx → 2 ≤ i := by
    intro i input hin hidx
    by_contra hlt
    exact hidx (hvirtual i input (by omega) hin)
  have hlen : s.service.allInputs.length ≤ InputConfig.maxInputs := by
    rcases h.configured with hempty | hconfigured
    · simp [hempty]
    · exact hconfigured.length_le
  obtain ⟨lists, hlists⟩ := h.holds
  refine ⟨⟨lists, fun driver => ⟨hlists.linked driver, (hlists.linked driver).nodup,
    hlists.sorted driver, fun i hi => ?_⟩, fun i input hin hidx => ?_⟩,
    fun driver head hhead => hlists.loop_ends hlen hhead, hvirtual, fun k input hin => ?_,
    fun b => ?_⟩
  · obtain ⟨h2, hlt, -⟩ := (hlists.mem_iff driver i).mp hi
    have hin := List.getElem?_eq_getElem hlt
    exact ⟨_, hin, (hreal i _ h2 hin).1⟩
  · have h2 := htwo i input hin hidx
    have hlt := (List.getElem?_eq_some_iff.mp hin).1
    refine ⟨h.registered i h2 hlt, fun driver => ?_⟩
    rw [hlists.mem_iff]
    exact ⟨fun hmem => hmem.2.2.symm, fun heq => ⟨h2, hlt, heq.symm⟩⟩
  · obtain ⟨hidx, hnum, hlt⟩ := hreal (k + 2) input (by omega) hin
    exact ⟨hidx, by omega, by omega⟩
  · have hidx : ∀ input ∈ s.service.allInputs, input.idx ≠ Input.virtualIdx →
        input.idx.toNat < 30 := by
      intro input hmem hne
      obtain ⟨i, hin⟩ := List.mem_iff_getElem?.mp hmem
      obtain ⟨-, hnum, hlt⟩ := hreal i input (htwo i input hin hne) hin
      omega
    rw [InputService.sendStatus, getLsbD_foldl_status hidx 0#64 b]
    simp

/-- **The lists and the mask are consistent.** After every sequence of configurations, accepted or
not, and of updates between them, each input is in the list of the driver that it appeared
under and in no other, the lists end, the indices are 0, 1, 2 and so on below 30, and the mask shows
the active inputs and nothing else. -/
theorem input_lists_consistent (h : (inputListsMachine env).Reachable s) :
    ListsConsistent env s := by
  have hinv : InputListsInv env s :=
    h.invariant (fun _ hinit => .of_init hinit) fun _ _ _ hI hs => hI.step hs
  exact hinv.consistent

/-- The service after the boot. -/
def bootedLists : InputLists where
  service :=
    { allInputs := []
      numActiveLift := 0#8
      numActiveCollision := 0#8
      liftMultipleInput := 0
      collisionMultipleInput := 0
      redundancyGroupRefcount := fun _ => 0#8
      inputsConfigured := false }
  lists :=
    { inputsHead := fun _ => none, nextForDriver := fun _ => none, appearedUnder := fun _ => [] }

/-- The text of a document that is given in pieces. -/
def piecesText (pieces : List (String × List JsonEvent)) : CString :=
  pieces.flatMap fun piece => piece.1.toList

/-- Three inputs are configured, and then only the first of them before the document breaks off. -/
def reconfiguredRun : List InputListsEvent :=
  [.configure 10#16 10#16 (replayParser liftDocument) (piecesText liftDocument),
    .update ⟨3, true, 1000#32, 0#32⟩,
    .configure 10#16 10#16 (replayParser (liftDocument.take 12))
      (piecesText (liftDocument.take 12)),
    .update ⟨2, true, 2000#32, 0#32⟩]

/-- In the end the list has one element, and its bit is set. -/
theorem input_lists_consistent_reconfigured :
    ∃ s, (inputListsMachine gpioEnv).run bootedLists reconfiguredRun = some s ∧
      s.service.sendStatus = 1#64 ∧ s.lists.inputsHead "gpio".toList = some 2 ∧
        s.lists.nextForDriver 2 = none ∧ ListsConsistent gpioEnv s := by
  have hvalues : ((inputListsMachine gpioEnv).run bootedLists reconfiguredRun).map
      (fun s => (s.service.sendStatus, s.lists.inputsHead "gpio".toList,
        s.lists.nextForDriver 2)) = some (1#64, some 2, none) := by decide +kernel
  obtain ⟨s, hrun, hs⟩ := Option.map_eq_some_iff.mp hvalues
  simp only [Prod.mk.injEq] at hs
  obtain ⟨hmask, hhead, hnext⟩ := hs
  have hinit : (inputListsMachine gpioEnv).Reachable bootedLists := .init ⟨rfl, fun _ => rfl⟩
  exact ⟨s, hrun, hmask, hhead, hnext, input_lists_consistent (hinit.run hrun)⟩

end OpenMower
