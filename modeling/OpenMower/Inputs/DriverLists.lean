import OpenMower.Inputs.ConcurrentConfiguration
import OpenMower.Library.LinkedList

/-!
# The lists of the drivers

`AddInput` threads the inputs of a driver through the elements of `all_inputs_`, and a configuration
clears the heads of the lists and the elements, but not the pointers in the memory behind them.
`DriverLists` are these pointers; a driver is given by the key that it is registered with, and an
element by its position.

`ListsInv` is the invariant of the callbacks: the list of a driver consists of the elements that
have appeared under its key, in the order of the document (`Holds`), and the indices are the
positions without the virtual inputs.
-/

namespace OpenMower

open LinkedList

/-! ### The lists -/

/-- The pointers of the lists. -/
structure DriverLists where
  /-- `inputs_head_` of the driver with this key. -/
  inputsHead : CString → Option ℕ
  /-- `next_for_driver_` of the element at this position. -/
  nextForDriver : ℕ → Option ℕ
  /-- History: the key that this element appeared under. -/
  appearedUnder : ℕ → CString

namespace DriverLists

variable (l : DriverLists)

/-- `InputDriver::ClearInputs`. -/
def clearInputs (driver : CString) : DriverLists :=
  { l with inputsHead := Function.update l.inputsHead driver none }

/-- `ClearInputs` of every registered driver. -/
def clearAll (drivers : List (CString × InputDriver)) : DriverLists :=
  drivers.foldl (fun l driver => l.clearInputs driver.1) l

/-- `all_inputs_.emplace_back()`, at this position. -/
def emplaceBack (i : ℕ) : DriverLists :=
  { l with nextForDriver := Function.update l.nextForDriver i none }

/-- `InputDriver::AddInput`. The loop gets as many steps as there can be inputs. -/
def addInput (driver : CString) (input : ℕ) : DriverLists :=
  match l.inputsHead driver with
  | none => { l with inputsHead := Function.update l.inputsHead driver (some input) }
  | some head =>
    let current := lastFrom l.nextForDriver InputConfig.maxInputs head
    { l with nextForDriver := Function.update l.nextForDriver current (some input) }

/-- The lists of the drivers for `n` elements of `all_inputs_`. -/
structure Holds (n : ℕ) (lists : CString → List ℕ) : Prop where
  linked : ∀ driver, Linked l.nextForDriver (l.inputsHead driver) (lists driver)
  sorted : ∀ driver, (lists driver).Pairwise (· < ·)
  mem_iff : ∀ driver i, i ∈ lists driver ↔ 2 ≤ i ∧ i < n ∧ l.appearedUnder i = driver

variable {l} {n : ℕ} {lists : CString → List ℕ}

/-- All lists are empty if no other driver had one. -/
theorem clearAll_inputsHead {drivers : List (CString × InputDriver)}
    (h : ∀ driver, driver ∉ drivers.map Prod.fst → l.inputsHead driver = none) (driver : CString) :
    (l.clearAll drivers).inputsHead driver = none := by
  induction drivers generalizing l with
  | nil => exact h driver (by simp)
  | cons d drivers ih =>
    refine @ih (l.clearInputs d.1) fun driver hnot => ?_
    simp only [clearInputs, Function.update_apply]
    split
    · rfl
    · next hne => exact h driver (by simpa [hne] using hnot)

/-- Without inputs, besides the virtual ones, the lists are empty. -/
theorem Holds.of_empty (hn : n ≤ 2) (hhead : ∀ driver, l.inputsHead driver = none) :
    l.Holds n fun _ => [] := by
  refine ⟨fun driver => ?_, fun _ => .nil, fun driver i => ?_⟩
  · rw [hhead]
    exact .nil
  · simp only [List.not_mem_nil, false_iff]
    omega

theorem Holds.lt (h : l.Holds n lists) {driver : CString} {i : ℕ} (hi : i ∈ lists driver) :
    i < n := ((h.mem_iff driver i).mp hi).2.1

/-- A list is not longer than the elements are. -/
theorem Holds.length_le (h : l.Holds n lists) (driver : CString) : (lists driver).length ≤ n := by
  have hsub : lists driver ⊆ List.range n := fun i hi => List.mem_range.mpr (h.lt hi)
  simpa using ((h.linked driver).nodup.subperm hsub).length_le

/-- The loop of `AddInput` ends at a null pointer, not at the bound of its steps. -/
theorem Holds.loop_ends (h : l.Holds n lists) (hn : n ≤ InputConfig.maxInputs) {driver : CString}
    {head : ℕ} (hhead : l.inputsHead driver = some head) :
    l.nextForDriver (lastFrom l.nextForDriver InputConfig.maxInputs head) = none := by
  have hlist := h.linked driver
  have hlen := h.length_le driver
  rw [hhead] at hlist
  exact hlist.next_lastFrom (by omega)

/-- A new element is in no list yet. -/
theorem Holds.emplaceBack (h : l.Holds n lists) : (l.emplaceBack n).Holds n lists := by
  refine ⟨fun driver => (h.linked driver).congr fun i hi => ?_, h.sorted, h.mem_iff⟩
  exact Function.update_of_ne (h.lt hi).ne _ _

/-- The element is hung behind the list of its driver. -/
theorem Holds.linked_addInput (h : l.Holds n lists) (hn : n ≤ InputConfig.maxInputs)
    (hnext : l.nextForDriver n = none) (key driver : CString) :
    Linked (l.addInput key n).nextForDriver ((l.addInput key n).inputsHead driver)
      (Function.update lists key (lists key ++ [n]) driver) := by
  have hlen := h.length_le key
  have hlist := h.linked key
  rw [DriverLists.addInput]
  cases hhead : l.inputsHead key with
  | none =>
    rw [hhead] at hlist
    have hempty : lists key = [] := hlist.unique .nil
    dsimp only
    by_cases heq : driver = key
    · subst heq
      rw [Function.update_self, Function.update_self, hempty]
      refine .cons ?_
      rw [hnext]
      exact .nil
    · rw [Function.update_of_ne heq, Function.update_of_ne heq]
      exact h.linked driver
  | some head =>
    rw [hhead] at hlist
    dsimp only
    by_cases heq : driver = key
    · subst heq
      rw [Function.update_self, hhead]
      exact hlist.append (by omega) (fun hmem => absurd (h.lt hmem) (lt_irrefl _)) hnext
    · rw [Function.update_of_ne heq]
      refine (h.linked driver).congr fun i hi => Function.update_of_ne (fun hlast => heq ?_) _ _
      -- the end of the list of `key` is in no other list
      have hmem := hlist.lastFrom_mem InputConfig.maxInputs
      rw [← hlast] at hmem
      exact ((h.mem_iff driver i).mp hi).2.2.symm.trans ((h.mem_iff key i).mp hmem).2.2

/-- **A new input** is the last one in the list of its driver. -/
theorem Holds.addInput (h : l.Holds n lists) (h2 : 2 ≤ n) (hn : n ≤ InputConfig.maxInputs)
    (key : CString) :
    { (l.emplaceBack n).addInput key n with
      appearedUnder := Function.update l.appearedUnder n key }.Holds (n + 1)
        (Function.update lists key (lists key ++ [n])) := by
  refine ⟨h.emplaceBack.linked_addInput hn (Function.update_self _ _ _) key, fun driver => ?_,
    fun driver i => ?_⟩
  · by_cases heq : driver = key
    · subst heq
      rw [Function.update_self, List.pairwise_append]
      refine ⟨h.sorted driver, List.pairwise_singleton _ _, fun i hi j hj => ?_⟩
      rw [List.mem_singleton.mp hj]
      exact h.lt hi
    · rw [Function.update_of_ne heq]
      exact h.sorted driver
  · have hold := h.mem_iff driver i
    by_cases hi : i = n
    · subst hi
      by_cases heq : driver = key
      · subst heq
        simp [h2]
      · simp [Function.update_of_ne heq, hold, Ne.symm heq]
    · have hlt : i < n + 1 ↔ i < n := by omega
      by_cases heq : driver = key
      · subst heq
        simp only [Function.update_self, List.mem_append, hold, List.mem_singleton, hi, or_false,
          Function.update_of_ne hi, hlt]
      · simp only [Function.update_of_ne heq, hold, Function.update_of_ne hi, hlt]

/-- The list of a driver without inputs is empty. -/
theorem Holds.inputsHead_eq_none (h : l.Holds n lists) {driver : CString}
    (hnot : ∀ i, 2 ≤ i → i < n → l.appearedUnder i ≠ driver) : l.inputsHead driver = none := by
  have hempty : lists driver = [] := List.eq_nil_iff_forall_not_mem.mpr fun i hi => by
    obtain ⟨h2, hlt, hkey⟩ := (h.mem_iff driver i).mp hi
    exact hnot i h2 hlt hkey
  have hlist := h.linked driver
  rw [hempty] at hlist
  generalize l.inputsHead driver = head at hlist
  cases hlist
  rfl

end DriverLists

/-! ### A configuration -/

/-- The state of a configuration, with the lists of the drivers. -/
structure ListsConfig where
  config : InputConfig
  lists : DriverLists
  /-- The key of `data->driver`. -/
  driver : Option CString
  /-- History: the text of the last driver key. -/
  lastKey : CString

/-- The index of an element that is not virtual is its position without the virtual ones. -/
def IndexedByPosition (inputs : List Input) : Prop :=
  ∀ i input, 2 ≤ i → inputs[i]? = some input → input.idx.toNat + 2 = i

namespace ListsConfig

/-- `InputConfigsJsonCallback` with the `AddInput` calls. -/
def callback (env : InputConfigEnv) (s : ListsConfig) (event : JsonEvent) : Bool × ListsConfig :=
  let (ok, config) := s.config.inputConfigsJsonCallback env event
  (ok, match event.stackPos with
    | 1 => { s with
        config := config
        driver :=
          if event.buff.length ≤ 15 ∧ (env.drivers.lookup event.buff).isSome then some event.buff
          else none
        lastKey := event.buff }
    | 3 =>
      match s.driver with
      | none => { s with config := config }
      | some driver =>
        let i := s.config.service.allInputs.length
        if event.type = .object ∧ i ≠ InputConfig.maxInputs then
          { s with
            config := config
            lists := { (s.lists.emplaceBack i).addInput driver i with
              appearedUnder := Function.update s.lists.appearedUnder i s.lastKey } }
        else { s with config := config }
    | _ => { s with config := config })

/-- All lists are cleared, and the virtual inputs are added. -/
def start (env : InputConfigEnv) (lists : DriverLists) : ListsConfig where
  config := .start env
  lists := ((lists.clearAll env.drivers).emplaceBack 0).emplaceBack 1
  driver := none
  lastKey := []

/-- The invariant of the callbacks. -/
structure ListsInv (env : InputConfigEnv) (s : ListsConfig) : Prop where
  config : InputConfig.ConfigInv env s.config
  indexed : IndexedByPosition s.config.service.allInputs
  driver_isSome : s.driver.isSome = s.config.driver.isSome
  driver : ∀ key, s.driver = some key → s.lastKey = key ∧ key ∈ env.drivers.map Prod.fst
  holds : ∃ lists, s.lists.Holds s.config.service.allInputs.length lists
  registered : ∀ i, 2 ≤ i → i < s.config.service.allInputs.length →
    s.lists.appearedUnder i ∈ env.drivers.map Prod.fst

variable {env : InputConfigEnv} {s : ListsConfig} {event : JsonEvent}

/-- There are as many inputs as before, and the driver is the same. -/
structure SameInputs (s s' : InputConfig) : Prop where
  length : s'.service.allInputs.length = s.service.allInputs.length
  driver : s'.driver = s.driver

theorem SameInputs.refl (s : InputConfig) : SameInputs s s := ⟨rfl, rfl⟩

theorem SameInputs.modifyInput (s : InputConfig) (i : ℕ) (f : Input → Input) :
    SameInputs s (s.modifyInput i f) := ⟨List.length_modify .., rfl⟩

theorem SameInputs.inputValue (s : InputConfig) (event : JsonEvent) (i : ℕ) :
    SameInputs s (s.inputValue env event i).2 := by
  unfold InputConfig.inputValue
  split
  · split
    · exact .modifyInput s i _
    · exact .refl s
  split
  · unfold InputConfig.redundancyGroupValue
    split
    · exact .refl s
    split
    · exact .refl s
    dsimp only
    split
    · exact ⟨(SameInputs.modifyInput s i _).length, rfl⟩
    · split
      · exact .refl s
      · exact ⟨(SameInputs.modifyInput s i _).length, rfl⟩
  split
  · split
    · exact .modifyInput s i _
    · exact .refl s
  · unfold InputConfig.driverValue
    split
    · exact .modifyInput s i _
    · exact .refl s

theorem SameInputs.emergencyValue (s : InputConfig) (event : JsonEvent) (i : ℕ) :
    SameInputs s (s.emergencyValue env event i).2 := by
  unfold InputConfig.emergencyValue
  split
  · exact .refl s
  split
  · unfold InputConfig.reasonValue
    split
    · exact .refl s
    split
    · exact .modifyInput s i _
    split
    · exact .modifyInput s i _
    split
    · exact .modifyInput s i _
    · exact .refl s
  split
  · split
    · exact .modifyInput s i _
    · exact .refl s
  split
  · split
    · exact .modifyInput s i _
    · exact .refl s
  · exact .refl s

/-- Inputs are added at depth 3, and the driver is set at depth 1. -/
theorem SameInputs.callback (s : InputConfig) (hone : event.stackPos ≠ 1)
    (hthree : event.stackPos ≠ 3) : SameInputs s (s.inputConfigsJsonCallback env event).2 := by
  unfold InputConfig.inputConfigsJsonCallback
  split
  · exact .refl s
  · next h => exact absurd h hone
  · exact .refl s
  · next h => exact absurd h hthree
  · split
    · exact .refl s
    · exact .inputValue s event _
  · split
    · exact .refl s
    · exact .emergencyValue s event _
  · exact .refl s

/-- An input is added if there is a driver for it, and a place. -/
theorem inputObject_cases (s : InputConfig) (event : JsonEvent) :
    (event.type = .object ∧ s.driver.isSome = true ∧
      s.service.allInputs.length ≠ InputConfig.maxInputs ∧
        (s.inputObject event).2 = s.addInput) ∨
    (¬ (event.type = .object ∧ s.driver.isSome = true ∧
      s.service.allInputs.length ≠ InputConfig.maxInputs) ∧
        SameInputs s (s.inputObject event).2) := by
  unfold InputConfig.inputObject
  split
  · next htype => exact .inr ⟨fun h => htype.1 h.1, .refl s⟩
  split
  · next hnone =>
    have hdriver := Option.isNone_iff_eq_none.mp hnone
    exact .inr ⟨fun h => by simp [hdriver] at h, ⟨rfl, rfl⟩⟩
  split
  · next hdriver htype =>
    split
    · next hfull => exact .inr ⟨fun h => h.2.2 hfull, .refl s⟩
    · next hfull =>
      have hsome := Option.isSome_iff_ne_none.mpr (by simpa using hdriver)
      exact .inl ⟨htype, hsome, hfull, rfl⟩
  · next htype => exact .inr ⟨fun h => htype h.1, ⟨rfl, rfl⟩⟩

/-- A callback leaves the indices as they are, and the next one goes to a new input. -/
theorem IndexedByPosition.callback {s s' : InputConfig} (h : IndexedByPosition s.service.allInputs)
    (hnext : s.nextIdx.toNat + 2 = s.service.allInputs.length)
    (heffect : InputConfig.CallbackEffect env s event s') :
    IndexedByPosition s'.service.allInputs := by
  intro i input hi hin
  cases heffect with
  | keep service =>
    rw [service] at hin
    exact h i input hi hin
  | add =>
    obtain hold | ⟨rfl, rfl⟩ := InputConfig.getElem?_addInput hin
    · exact h i input hi hold
    · exact hnext
  | @modify _ j f service nextIdx current current' configures =>
    rw [service] at hin
    obtain ⟨input₀, hold, rfl⟩ := InputConfig.getElem?_modifyInput hin
    split
    · next heq =>
      subst heq
      rw [(configures input₀ hold).idx]
      exact h _ input₀ hi hold
    · exact h i input₀ hi hold

theorem ListsInv.start {lists : DriverLists}
    (hheads : ∀ driver, driver ∉ env.drivers.map Prod.fst → lists.inputsHead driver = none) :
    ListsInv env (start env lists) where
  config := .of_start
  indexed i input hi hin := by
    have hlt := (List.getElem?_eq_some_iff.mp hin).1
    simp only [ListsConfig.start, InputConfig.start, List.length_cons, List.length_nil] at hlt
    omega
  driver_isSome := rfl
  driver key hkey := absurd hkey (by simp [ListsConfig.start])
  holds := ⟨_, .of_empty le_rfl fun driver => DriverLists.clearAll_inputsHead hheads driver⟩
  registered i hi hlt := by
    simp only [ListsConfig.start, InputConfig.start, List.length_cons, List.length_nil] at hlt
    omega

/-- The lists are left alone if no input is added. -/
theorem ListsInv.of_sameInputs (h : ListsInv env s) {config : InputConfig}
    (hsame : SameInputs s.config config) (hconfig : InputConfig.ConfigInv env config)
    (hindexed : IndexedByPosition config.service.allInputs) :
    ListsInv env { s with config := config } := by
  refine ⟨hconfig, hindexed, ?_, h.driver, ?_, ?_⟩
  · simp only [hsame.driver, h.driver_isSome]
  · simp only [hsame.length, h.holds]
  · simp only [hsame.length]
    exact h.registered

/-- The start of an input adds it to the list of the driver. -/
theorem ListsInv.addInput (h : ListsInv env s) {driver : CString} (hdriver : s.driver = some driver)
    (hconfig : InputConfig.ConfigInv env s.config.addInput)
    (hindexed : IndexedByPosition s.config.addInput.service.allInputs) :
    ListsInv env { s with
      config := s.config.addInput
      lists := { (s.lists.emplaceBack s.config.service.allInputs.length).addInput driver
          s.config.service.allInputs.length with
        appearedUnder := Function.update s.lists.appearedUnder s.config.service.allInputs.length
          s.lastKey } } := by
  obtain ⟨lists, hlists⟩ := h.holds
  obtain ⟨rfl, hregistered⟩ := h.driver driver hdriver
  have h2 : 2 ≤ s.config.service.allInputs.length := by
    have hidx := h.config.nextIdx
    omega
  have hlen : s.config.addInput.service.allInputs.length =
      s.config.service.allInputs.length + 1 := by simp [InputConfig.addInput]
  refine ⟨hconfig, hindexed, h.driver_isSome, h.driver, ?_, fun i hi hlt => ?_⟩
  · rw [hlen]
    exact ⟨_, hlists.addInput h2 h.config.configured.length_le s.lastKey⟩
  · rw [hlen] at hlt
    dsimp only
    rw [Function.update_apply]
    split
    · exact hregistered
    · exact h.registered i hi (by omega)

/-- A driver is looked up by its key. -/
theorem ListsInv.findDriver (h : ListsInv env s) (text : CString)
    (hconfig : InputConfig.ConfigInv env { s.config with
      driver := if text.length ≤ 15 then env.drivers.lookup text else none }) :
    ListsInv env { s with
      config := { s.config with
        driver := if text.length ≤ 15 then env.drivers.lookup text else none }
      driver :=
        if text.length ≤ 15 ∧ (env.drivers.lookup text).isSome then some text else none
      lastKey := text } := by
  refine ⟨hconfig, h.indexed, ?_, fun key hkey => ?_, h.holds, h.registered⟩
  · by_cases hlen : text.length ≤ 15
    · cases hlookup : env.drivers.lookup text <;> simp [hlen]
    · simp [hlen]
  · dsimp only at hkey
    split at hkey
    · next hfound =>
      obtain rfl := Option.some.inj hkey
      obtain ⟨d, hd⟩ := Option.isSome_iff_exists.mp hfound.2
      obtain ⟨l₁, l₂, hsplit, -⟩ := List.lookup_eq_some_iff.mp hd
      refine ⟨rfl, ?_⟩
      rw [hsplit]
      simp
    · exact absurd hkey (by simp)

/-- The start or the end of an input. -/
theorem ListsInv.inputObject (h : ListsInv env s) {event : JsonEvent} (hpos : event.stackPos = 3)
    (hconfig : InputConfig.ConfigInv env (s.config.inputObject event).2)
    (hindexed : IndexedByPosition (s.config.inputObject event).2.service.allInputs) :
    ListsInv env (s.callback env event).2 := by
  have hsome := h.driver_isSome
  rcases inputObject_cases s.config event with ⟨htype, hdriver, hfull, hadd⟩ | ⟨hnot, hsame⟩
  · rw [hdriver] at hsome
    obtain ⟨driver, hkey⟩ := Option.isSome_iff_exists.mp hsome
    rw [hadd] at hconfig hindexed
    have hadded := h.addInput hkey hconfig hindexed
    simp only [ListsConfig.callback, InputConfig.inputConfigsJsonCallback, hpos, hadd, hkey]
    rw [if_pos ⟨htype, hfull⟩]
    rwa [hkey] at hadded
  · have hother : (s.callback env event).2 =
        { s with config := (s.config.inputObject event).2 } := by
      simp only [ListsConfig.callback, InputConfig.inputConfigsJsonCallback, hpos]
      cases hkey : s.driver with
      | none => rfl
      | some driver =>
        rw [hkey] at hsome
        dsimp only
        rw [if_neg fun hadd => hnot ⟨hadd.1, hsome.symm, hadd.2⟩]
    rw [hother]
    exact h.of_sameInputs hsame hconfig hindexed

/-- **Every callback keeps the lists in order.** -/
theorem ListsInv.callback (h : ListsInv env s) (event : JsonEvent) :
    ListsInv env (s.callback env event).2 := by
  have hconfig := h.config.inputConfigsJsonCallback event
  have hindexed := IndexedByPosition.callback h.indexed h.config.nextIdx
    (@InputConfig.CallbackEffect.inputConfigsJsonCallback env s.config event)
  by_cases hone : event.stackPos = 1
  · simp only [InputConfig.inputConfigsJsonCallback, hone] at hconfig
    simp only [ListsConfig.callback, InputConfig.inputConfigsJsonCallback, hone]
    exact h.findDriver event.buff hconfig
  by_cases hthree : event.stackPos = 3
  · simp only [InputConfig.inputConfigsJsonCallback, hthree] at hconfig hindexed
    exact h.inputObject hthree hconfig hindexed
  · have hother : (s.callback env event).2 =
        { s with config := (s.config.inputConfigsJsonCallback env event).2 } := by
      rw [ListsConfig.callback]
      dsimp only
      split
      · next h => exact absurd h hone
      · next h => exact absurd h hthree
      · rfl
    rw [hother]
    exact h.of_sameInputs (.callback s.config hone hthree) hconfig hindexed

end ListsConfig

end OpenMower
