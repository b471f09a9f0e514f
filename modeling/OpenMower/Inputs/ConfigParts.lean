import OpenMower.Inputs.ConfigObject
import OpenMower.Library.PartialSteps

/-!
# The parts of an input

The callback treats an input in four parts, the inversion, the redundancy group, the emergency, and
the data of the driver with its settings. Each part has a step of its own for a key, and
`Parts.step` takes all of them; most keys act on one part only. The callback does what these steps
say (`runEntries_put`), so that each part depends only on the keys that act on it.
-/

namespace OpenMower


/-- The redundancy group of an input, with the table of the groups. -/
structure GroupPart where
  group : BitVec 8
  groupName : Option CString
  redundancyGroupMap : List (CString × BitVec 8)
  nextRedundancyGroupId : BitVec 8

/-- The four parts: the inversion, the group, the emergency reason and its delay, and the data of
the driver with its settings. -/
abbrev Parts := Bool × GroupPart × (Reasons × BitVec 16) × (BitVec 64 × YfCoverUi.Settings)

namespace Parts

open PartialSteps

section

variable (env : InputConfigEnv) (drv : DriverEnv) (d : ConfigDriver)

/-- What a key does to the inversion. -/
def invertStep (invert : Bool) (e : InputEntry) : Option Bool :=
  if e.key = "invert".toList then jsonGetBool e.value.type
  else if e.isCommon then some invert
  else
    some ((d.inputDriver drv).onInputConfigValue e.event { idx := 0#8, invert := invert }).2.invert

/-- What a key does to the group. -/
def groupStep (g : GroupPart) (e : InputEntry) : Option GroupPart :=
  if e.key = "redundancy_group".toList then
    if e.value.type ≠ .string then none
    else if 10 < e.value.buffPos then none
    else
      match g.redundancyGroupMap.lookup (e.value.buff.take 10) with
      | some id => some { g with group := id, groupName := some e.value.buff }
      | none =>
        if InputConfig.maxRedundancyGroups < g.nextRedundancyGroupId then none
        else
          some {
            group := g.nextRedundancyGroupId
            groupName := some e.value.buff
            redundancyGroupMap :=
              (e.value.buff.take 10, g.nextRedundancyGroupId) :: g.redundancyGroupMap
            nextRedundancyGroupId := g.nextRedundancyGroupId + 1 }
  else some g

/-- The reason with this name. -/
def findReason (name : CString) : Option Reason :=
  if name = "stop".toList then some .stop
  else if name = "lift".toList then some .lift
  else if name = "collision".toList then some .collision
  else none

/-- What a key inside `emergency` does to the emergency. -/
def innerStep (x : Reasons × BitVec 16) (k : CString × JsonValue) : Option (Reasons × BitVec 16) :=
  if k.1 = "reason".toList then
    if k.2.type ≠ .string then none
    else (findReason k.2.buff).map fun r => (x.1 ||| env.reason.mask r, x.2)
  else if k.1 = "delay".toList then
    if k.2.type = .number then (env.toArithmetic k.2.buff).map fun delay => (x.1, delay) else none
  else if k.1 = "latch".toList then
    if k.2.type = .false then some (x.1 &&& ~~~env.reason.mask .latch, x.2)
    else if k.2.type = .true then some x
    else none
  else none

/-- What a key does to the emergency. -/
def emergencyStep (x : Reasons × BitVec 16) (e : InputEntry) : Option (Reasons × BitVec 16) :=
  if e.key = "emergency".toList then
    if e.value.type = .object then e.inner.foldlM (innerStep env) (env.reason.mask .latch, x.2)
    else none
  else some x

/-- What a key does to the data of the driver and its settings. -/
def dataStep (x : BitVec 64 × YfCoverUi.Settings) (e : InputEntry) :
    Option (BitVec 64 × YfCoverUi.Settings) :=
  if e.isCommon then some x
  else
    let input : Input := { idx := 0#8, driverData := x.1 }
    let r := (d.inputDriver drv).onInputConfigValue e.event input
    if r.1 then some (r.2.driverData, d.storeSettings e.event input x.2) else none

/-- What a key does. -/
def step : Parts → InputEntry → Option Parts :=
  both (invertStep drv d) (both groupStep (both (emergencyStep env) (dataStep drv d)))

end

/-- The parts as an input with the settings of its driver. -/
def put (s : InputConfig) (i : ℕ) (input : Input) (p : Parts) : DriverConfig :=
  ({ s with
      service := { s.service with
        allInputs := s.service.allInputs.set i { input with
          invert := p.1
          redundancyGroup := p.2.1.group
          emergencyReason := p.2.2.1.1
          emergencyDelayMs := p.2.2.1.2
          driverData := p.2.2.2.1 } }
      redundancyGroupMap := p.2.1.redundancyGroupMap
      nextRedundancyGroupId := p.2.1.nextRedundancyGroupId
      groupName := Function.update s.groupName i p.2.1.groupName },
    p.2.2.2.2)

end Parts

/-- A driver reads the inversion only to set it, and its data only to set these. -/
theorem onInputConfigValue_parts (drv : DriverEnv) (d : ConfigDriver) (event : JsonEvent)
    (input : Input) :
    (d.inputDriver drv).onInputConfigValue event input =
      (((d.inputDriver drv).onInputConfigValue event
          { idx := 0#8, driverData := input.driverData }).1,
        { input with
          invert := ((d.inputDriver drv).onInputConfigValue event
            { idx := 0#8, invert := input.invert }).2.invert
          driverData := ((d.inputDriver drv).onInputConfigValue event
            { idx := 0#8, driverData := input.driverData }).2.driverData }) := by
  cases d with
  | sabo =>
    simp only [ConfigDriver.inputDriver, SaboInput.inputDriver, SaboInput.inputConfigValue,
      Input.saboType]
    split_ifs
    · rfl
    · cases SaboInput.findType event.buff <;> rfl
    · rfl
    · cases SaboInput.findId (input.driverData.extractLsb' 0 8) event.buff <;>
        cases SaboInput.findId (BitVec.extractLsb' 0 8 0#64) event.buff <;> rfl
    · rfl
  | worx =>
    simp only [ConfigDriver.inputDriver, WorxInput.inputDriver, WorxInput.inputConfigValue]
    split_ifs
    · rfl
    · cases WorxInput.inputBits.lookup (event.buff.take 13) <;> rfl
    · rfl
  | gpio =>
    simp only [ConfigDriver.inputDriver, gpioInputDriver, gpioInputConfigValue]
    split_ifs <;> rfl
  | yfCoverUi =>
    simp only [ConfigDriver.inputDriver, YfCoverUi.inputDriver]
    by_cases hvalue : event.key = "value".toList
    · simp only [YfCoverUi.inputConfigValue_value _ hvalue]
      rfl
    simp only [YfCoverUi.inputConfigValue, if_neg hvalue]
    split_ifs
    · rfl
    · cases YfCoverUi.emergencyChannels.lookup event.buff <;> rfl
    · cases YfCoverUi.emergencyChannels.lookup event.buff <;> rfl
    · cases jsonGetNumber drv.toArithmetic event <;> rfl
    all_goals rfl
/-- No driver accepts an object. -/
theorem onInputConfigValue_object (drv : DriverEnv) (d : ConfigDriver) (event : JsonEvent)
    (h : event.type = .object) (input : Input) :
    ((d.inputDriver drv).onInputConfigValue event input).1 = false := by
  have hstring : event.type ≠ .string := by rw [h]; decide
  have hnumber : event.type ≠ .number := by rw [h]; decide
  cases d with
  | sabo =>
    simp only [ConfigDriver.inputDriver, SaboInput.inputDriver, SaboInput.inputConfigValue,
      if_pos hstring]
    split_ifs <;> rfl
  | worx =>
    simp only [ConfigDriver.inputDriver, WorxInput.inputDriver, WorxInput.inputConfigValue,
      if_pos hstring]
    split_ifs <;> rfl
  | gpio =>
    simp only [ConfigDriver.inputDriver, gpioInputDriver, gpioInputConfigValue, if_pos hstring]
    split_ifs <;> rfl
  | yfCoverUi =>
    simp only [ConfigDriver.inputDriver, YfCoverUi.inputDriver, YfCoverUi.inputConfigValue,
      if_pos hstring, jsonGetNumber, if_neg hnumber]
    split_ifs <;> rfl

/-- A change of an element that has been set. -/
theorem modify_set_self {α : Type*} {l : List α} {i : ℕ} {a : α} (f : α → α) :
    (l.set i a).modify i f = l.set i (f a) := by
  refine List.ext_getElem? fun j => ?_
  rw [List.getElem?_modify, List.getElem?_set, List.getElem?_set]
  by_cases hij : i = j
  · subst hij
    by_cases hlt : i < l.length
    · simp [hlt]
    · simp [hlt]
  · simp [hij]

open PartialSteps

section

variable {env : InputConfigEnv} {drv : DriverEnv} {d : ConfigDriver} {s : InputConfig} {i : ℕ}
  {input : Input}

/-- The input of the parts. -/
theorem getElem?_put (hi : i < s.service.allInputs.length) (p : Parts) :
    (Parts.put s i input p).1.service.allInputs[i]? = some { input with
      invert := p.1
      redundancyGroup := p.2.1.group
      emergencyReason := p.2.2.1.1
      emergencyDelayMs := p.2.2.1.2
      driverData := p.2.2.2.1 } := List.getElem?_set_self hi

/-- The event of a value of an input. -/
theorem acceptEvent_put (hcur : s.currentInput = some i) (hi : i < s.service.allInputs.length)
    {event : JsonEvent} (hpos : event.stackPos = 5) (p : Parts) :
    acceptEvent env d (Parts.put s i input p) event =
      if ((Parts.put s i input p).1.inputValue env event i).1 then
        some (((Parts.put s i input p).1.inputValue env event i).2,
          d.storeSettings event { idx := 0#8, driverData := p.2.2.2.1 } p.2.2.2.2)
      else none := by
  have hcur' : (Parts.put s i input p).1.currentInput = some i := hcur
  have hstore : ∀ input' : Input, input'.driverData = p.2.2.2.1 →
      d.storeSettings event input' p.2.2.2.2 =
        d.storeSettings event { idx := 0#8, driverData := p.2.2.2.1 } p.2.2.2.2 := by
    intro input' hdata
    have hflags : input'.yfFlags = Input.yfFlags { idx := 0#8, driverData := p.2.2.2.1 } :=
      congrArg (BitVec.extractLsb' 8 8) hdata
    cases d with
    | yfCoverUi =>
      simp only [ConfigDriver.storeSettings, YfCoverUi.storeValue]
      rw [hflags]
    | _ => rfl
  rw [acceptEvent, InputConfig.inputConfigsJsonCallback, hpos]
  simp only [hcur', Option.bind_some, getElem?_put hi, if_pos]
  rw [hstore _ rfl]
  rfl

/-- A change of the input of the parts. -/
theorem modifyInput_put (f : Input → Input) (p : Parts) :
    (Parts.put s i input p).1.modifyInput i f =
      { (Parts.put s i input p).1 with
        service := { s.service with
          allInputs := s.service.allInputs.set i (f { input with
            invert := p.1
            redundancyGroup := p.2.1.group
            emergencyReason := p.2.2.1.1
            emergencyDelayMs := p.2.2.1.2
            driverData := p.2.2.2.1 }) } } := by
  rw [InputConfig.modifyInput]
  exact congrArg (fun l => { (Parts.put s i input p).1 with
    service := { s.service with allInputs := l } }) (modify_set_self f)

namespace Parts

theorem groupStep_of_ne {e : InputEntry} (h : e.key ≠ "redundancy_group".toList) (g : GroupPart) :
    groupStep g e = some g := if_neg h

theorem emergencyStep_of_ne {e : InputEntry} (h : e.key ≠ "emergency".toList)
    (x : Reasons × BitVec 16) : emergencyStep env x e = some x := if_neg h

theorem dataStep_of_common {e : InputEntry} (h : e.isCommon)
    (x : BitVec 64 × YfCoverUi.Settings) : dataStep drv d x e = some x := if_pos h

theorem invertStep_of_common {e : InputEntry} (h : e.isCommon) (hne : e.key ≠ "invert".toList)
    (invert : Bool) : invertStep drv d invert e = some invert := by
  rw [invertStep, if_neg hne, if_pos h]

theorem step_invert {e : InputEntry} (hkey : e.key = "invert".toList) (p : Parts) :
    step env drv d p e = (jsonGetBool e.value.type).map fun invert => (invert, p.2) := by
  have hgroup : e.key ≠ "redundancy_group".toList := by rw [hkey]; decide
  have hemergency : e.key ≠ "emergency".toList := by rw [hkey]; decide
  simp only [step, PartialSteps.both, invertStep, if_pos hkey, groupStep_of_ne hgroup,
    emergencyStep_of_ne hemergency, dataStep_of_common (.inl hkey), Option.bind_some,
    Option.map_some]
  cases jsonGetBool e.value.type <;> rfl

theorem step_group {e : InputEntry} (hkey : e.key = "redundancy_group".toList) (p : Parts) :
    step env drv d p e = (groupStep p.2.1 e).map fun g => (p.1, g, p.2.2) := by
  have hinvert : e.key ≠ "invert".toList := by rw [hkey]; decide
  have hemergency : e.key ≠ "emergency".toList := by rw [hkey]; decide
  simp only [step, PartialSteps.both, invertStep_of_common (.inr (.inl hkey)) hinvert,
    emergencyStep_of_ne hemergency, dataStep_of_common (.inr (.inl hkey)), Option.bind_some,
    Option.map_some]
  cases groupStep p.2.1 e <;> rfl

theorem step_emergency {e : InputEntry} (hkey : e.key = "emergency".toList) (p : Parts) :
    step env drv d p e = (emergencyStep env p.2.2.1 e).map fun x => (p.1, p.2.1, x, p.2.2.2) := by
  have hinvert : e.key ≠ "invert".toList := by rw [hkey]; decide
  have hgroup : e.key ≠ "redundancy_group".toList := by rw [hkey]; decide
  simp only [step, PartialSteps.both, invertStep_of_common (.inr (.inr hkey)) hinvert,
    groupStep_of_ne hgroup, dataStep_of_common (.inr (.inr hkey)), Option.bind_some,
    Option.map_some]
  cases emergencyStep env p.2.2.1 e <;> rfl

theorem step_driver {e : InputEntry} (hkey : ¬ e.isCommon) (p : Parts) :
    step env drv d p e = (invertStep drv d p.1 e).bind fun invert =>
      (dataStep drv d p.2.2.2 e).map fun x => (invert, p.2.1, p.2.2.1, x) := by
  have hgroup : e.key ≠ "redundancy_group".toList := fun h => hkey (.inr (.inl h))
  have hemergency : e.key ≠ "emergency".toList := fun h => hkey (.inr (.inr h))
  simp only [step, PartialSteps.both, groupStep_of_ne hgroup, emergencyStep_of_ne hemergency,
    Option.bind_some, Option.map_map]
  rfl

/-- All objects but `emergency` are rejected. -/
theorem step_object {e : InputEntry} (hkey : e.key ≠ "emergency".toList)
    (hobject : e.value.type = .object) (p : Parts) : step env drv d p e = none := by
  by_cases hcommon : e.isCommon
  · rcases hcommon with hinvert | hgroup | hemergency
    · rw [step_invert hinvert, hobject]
      rfl
    · have hstring : e.value.type ≠ .string := by rw [hobject]; decide
      rw [step_group hgroup, groupStep, if_pos hgroup, if_pos hstring]
      rfl
    · exact absurd hemergency hkey
  · have hrejected := onInputConfigValue_object drv d e.event hobject
    rw [step_driver hcommon, dataStep, if_neg hcommon]
    simp [hrejected]

end Parts

/-- The settings only depend on the key `value`. -/
theorem storeSettings_of_common {e : InputEntry} (hkey : e.isCommon) (input : Input)
    (settings : YfCoverUi.Settings) : d.storeSettings e.event input settings = settings := by
  have hvalue : e.event.key ≠ "value".toList := by
    change e.key ≠ _
    rcases hkey with h | h | h
    · rw [h]; decide
    · rw [h]; decide
    · rw [h]; decide
  cases d with
  | yfCoverUi => exact if_neg fun h => hvalue h.1
  | _ => rfl

/-- The key `invert`. -/
theorem acceptEvent_invert (hcur : s.currentInput = some i) (hi : i < s.service.allInputs.length)
    {e : InputEntry} (hkey : e.key = "invert".toList) (p : Parts) :
    acceptEvent env d (Parts.put s i input p) e.event =
      (Parts.step env drv d p e).map (Parts.put s i input) := by
  have hkey' : e.event.key = "invert".toList := hkey
  rw [acceptEvent_put hcur hi rfl, InputConfig.inputValue, if_pos hkey', Parts.step_invert hkey,
    storeSettings_of_common (.inl hkey)]
  cases hbool : jsonGetBool e.value.type with
  | none =>
    have hbool' : jsonGetBool e.event.type = none := hbool
    simp [hbool']
  | some invert =>
    have hbool' : jsonGetBool e.event.type = some invert := hbool
    simp only [hbool', Option.map_some, if_pos, modifyInput_put]
    rfl

/-- The key `redundancy_group`. -/
theorem acceptEvent_group (hcur : s.currentInput = some i) (hi : i < s.service.allInputs.length)
    {e : InputEntry} (hkey : e.key = "redundancy_group".toList) (p : Parts) :
    acceptEvent env d (Parts.put s i input p) e.event =
      (Parts.step env drv d p e).map (Parts.put s i input) := by
  have hkey' : e.event.key = "redundancy_group".toList := hkey
  have hinvert : e.event.key ≠ "invert".toList := by rw [hkey']; decide
  rw [acceptEvent_put hcur hi rfl, InputConfig.inputValue, if_neg hinvert, if_pos hkey',
    Parts.step_group hkey, storeSettings_of_common (.inr (.inl hkey)), Parts.groupStep, if_pos hkey,
    InputConfig.redundancyGroupValue]
  by_cases hs : e.value.type ≠ .string
  · have hs' : e.event.type ≠ .string := hs
    simp [hs, hs']
  have hs' : ¬ e.event.type ≠ .string := hs
  rw [if_neg hs, if_neg hs']
  by_cases hlen : 10 < e.value.buffPos
  · have hlen' : 10 < e.event.buffPos := hlen
    simp [hlen, hlen']
  have hlen' : ¬ 10 < e.event.buffPos := hlen
  rw [if_neg hlen, if_neg hlen']
  have hset : ∀ group, (Parts.put s i input p).1.setGroup i e.event.buff group =
      (Parts.put s i input (p.1, { p.2.1 with group := group, groupName := some e.value.buff },
        p.2.2)).1 := by
    intro group
    rw [InputConfig.setGroup, modifyInput_put]
    simp only [Parts.put, Function.update_idem]
    rfl
  cases hlookup : p.2.1.redundancyGroupMap.lookup (e.value.buff.take 10) with
  | some group =>
    have hlookup' : (Parts.put s i input p).1.redundancyGroupMap.lookup (e.event.buff.take 10) =
      some group := hlookup
    simp only [hlookup', hset, if_pos, Option.map_some]
    rfl
  | none =>
    have hlookup' : (Parts.put s i input p).1.redundancyGroupMap.lookup (e.event.buff.take 10) =
      none := hlookup
    simp only [hlookup']
    by_cases hfull : InputConfig.maxRedundancyGroups < p.2.1.nextRedundancyGroupId
    · have hfull' : InputConfig.maxRedundancyGroups <
        (Parts.put s i input p).1.nextRedundancyGroupId := hfull
      simp [hfull, hfull']
    · have hfull' : ¬ InputConfig.maxRedundancyGroups <
        (Parts.put s i input p).1.nextRedundancyGroupId := hfull
      simp only [if_neg hfull, if_neg hfull', hset, if_pos, Option.map_some]
      rfl

/-- What the driver makes of a key, by the parts that it reads. -/
theorem driverValue_put (hi : i < s.service.allInputs.length)
    (hdriver : s.driver = some (d.inputDriver drv)) (event : JsonEvent) (p : Parts) :
    (Parts.put s i input p).1.driverValue event i =
      (((d.inputDriver drv).onInputConfigValue event
          { idx := 0#8, driverData := p.2.2.2.1 }).1,
        (Parts.put s i input
          (((d.inputDriver drv).onInputConfigValue event { idx := 0#8, invert := p.1 }).2.invert,
            p.2.1, p.2.2.1,
            ((d.inputDriver drv).onInputConfigValue event
              { idx := 0#8, driverData := p.2.2.2.1 }).2.driverData, p.2.2.2.2)).1) := by
  have hdriver' : (Parts.put s i input p).1.driver = some (d.inputDriver drv) := hdriver
  let current : Input := { input with
    invert := p.1
    redundancyGroup := p.2.1.group
    emergencyReason := p.2.2.1.1
    emergencyDelayMs := p.2.2.1.2
    driverData := p.2.2.2.1 }
  have hvalue : (Parts.put s i input p).1.driverValue event i =
      (((d.inputDriver drv).onInputConfigValue event current).1,
        (Parts.put s i input p).1.modifyInput i fun _ =>
          ((d.inputDriver drv).onInputConfigValue event current).2) := by
    rw [InputConfig.driverValue, hdriver', getElem?_put hi]
  rw [hvalue, modifyInput_put, onInputConfigValue_parts drv d event current]
  rfl

/-- A key of the driver. -/
theorem acceptEvent_driver (hcur : s.currentInput = some i) (hi : i < s.service.allInputs.length)
    (hdriver : s.driver = some (d.inputDriver drv)) {e : InputEntry} (hkey : ¬ e.isCommon)
    (p : Parts) :
    acceptEvent env d (Parts.put s i input p) e.event =
      (Parts.step env drv d p e).map (Parts.put s i input) := by
  have hinvert : e.key ≠ "invert".toList := fun h => hkey (.inl h)
  have hgroup : e.event.key ≠ "redundancy_group".toList := fun h => hkey (.inr (.inl h))
  have hemergency : e.event.key ≠ "emergency".toList := fun h => hkey (.inr (.inr h))
  have hinvert' : e.event.key ≠ "invert".toList := hinvert
  rw [acceptEvent_put hcur hi rfl, InputConfig.inputValue, if_neg hinvert', if_neg hgroup,
    if_neg hemergency, driverValue_put hi hdriver, Parts.step_driver hkey, Parts.invertStep,
    if_neg hinvert, if_neg hkey, Parts.dataStep, if_neg hkey, Option.bind_some]
  by_cases hok : ((d.inputDriver drv).onInputConfigValue e.event
      { idx := 0#8, driverData := p.2.2.2.1 }).1 = true
  · simp only [hok, if_pos, Option.map_some]
    rfl
  · simp only [hok]
    rfl

/-- The event of a key changes nothing. -/
theorem acceptEvent_keyEvent (t : DriverConfig) {stackPos : ℕ}
    (hpos : stackPos = 4 ∨ stackPos = 6) (key : CString) :
    acceptEvent env d t (InputEntry.keyEvent stackPos key) = some t := by
  rcases hpos with rfl | rfl
  · rw [acceptEvent]
    cases t.1.currentInput.bind (t.1.service.allInputs[·]?) <;> rfl
  · rw [acceptEvent]
    cases t.1.currentInput.bind (t.1.service.allInputs[·]?) <;> rfl

/-- The start of `emergency`. -/
theorem acceptEvent_emergency (hcur : s.currentInput = some i)
    (hi : i < s.service.allInputs.length) {e : InputEntry} (hkey : e.key = "emergency".toList)
    (p : Parts) :
    acceptEvent env d (Parts.put s i input p) e.event =
      if e.value.type = .object then
        some (Parts.put s i input
          (p.1, p.2.1, (env.reason.mask .latch, p.2.2.1.2), p.2.2.2))
      else none := by
  have hkey' : e.event.key = "emergency".toList := hkey
  have hinvert : e.event.key ≠ "invert".toList := by rw [hkey']; decide
  have hgroup : e.event.key ≠ "redundancy_group".toList := by rw [hkey']; decide
  have hend : e.event.type ≠ .objectEnd := by
    intro h
    have hstarts := e.value.startsValue
    have htype : e.value.type = .objectEnd := h
    rw [htype] at hstarts
    cases hstarts
  rw [acceptEvent_put hcur hi rfl, InputConfig.inputValue, if_neg hinvert, if_neg hgroup,
    if_pos hkey', storeSettings_of_common (.inr (.inr hkey))]
  by_cases hobject : e.value.type = .object
  · have hobject' : e.event.type = .object := hobject
    rw [if_pos hobject, if_pos hobject', if_pos rfl, modifyInput_put]
    rfl
  · have hobject' : ¬ e.event.type = .object := hobject
    rw [if_neg hobject, if_neg hobject', decide_eq_false hend]
    rfl

/-- The end of `emergency`. -/
theorem acceptEvent_endEvent (hcur : s.currentInput = some i)
    (hi : i < s.service.allInputs.length) {e : InputEntry} (hkey : e.key = "emergency".toList)
    (p : Parts) :
    acceptEvent env d (Parts.put s i input p) e.endEvent = some (Parts.put s i input p) := by
  have hkey' : e.endEvent.key = "emergency".toList := hkey
  have hinvert : e.endEvent.key ≠ "invert".toList := by rw [hkey']; decide
  have hgroup : e.endEvent.key ≠ "redundancy_group".toList := by rw [hkey']; decide
  have hobject : ¬ e.endEvent.type = .object := nofun
  have hvalue : e.endEvent.key ≠ "value".toList := by rw [hkey']; decide
  rw [acceptEvent_put hcur hi rfl, InputConfig.inputValue, if_neg hinvert, if_neg hgroup,
    if_pos hkey', if_neg hobject]
  cases d with
  | yfCoverUi =>
    simp only [ConfigDriver.storeSettings, YfCoverUi.storeValue,
      if_neg fun h => hvalue (And.left h)]
    rfl
  | _ => rfl

/-- A reason is added. -/
theorem addReason_put (r : Reason) (p : Parts) :
    (Parts.put s i input p).1.addReason env i r =
      (Parts.put s i input
        (p.1, p.2.1, (p.2.2.1.1 ||| env.reason.mask r, p.2.2.1.2), p.2.2.2)).1 := by
  rw [InputConfig.addReason, modifyInput_put]
  rfl

/-- The key `reason` inside `emergency`. -/
theorem reasonValue_put (event : JsonEvent) (p : Parts) :
    (Parts.put s i input p).1.reasonValue env event i =
      match if event.type ≠ .string then none else Parts.findReason event.buff with
      | some r => (true, (Parts.put s i input
          (p.1, p.2.1, (p.2.2.1.1 ||| env.reason.mask r, p.2.2.1.2), p.2.2.2)).1)
      | none => (false, (Parts.put s i input p).1) := by
  simp only [InputConfig.reasonValue, Parts.findReason, addReason_put]
  split_ifs <;> rfl

/-- A key inside `emergency`. -/
theorem acceptEvent_inner (hcur : s.currentInput = some i) {e : InputEntry}
    (hkey : e.key = "emergency".toList) (k : CString × JsonValue) (p : Parts) :
    acceptEvent env d (Parts.put s i input p) (e.innerEvent k) =
      (Parts.innerStep env p.2.2.1 k).map fun x =>
        Parts.put s i input (p.1, p.2.1, x, p.2.2.2) := by
  have hcur' : (Parts.put s i input p).1.currentInput = some i := hcur
  have hkey' : ¬ (e.innerEvent k).key ≠ "emergency".toList := not_not_intro hkey
  have haccept : acceptEvent env d (Parts.put s i input p) (e.innerEvent k) =
      if ((Parts.put s i input p).1.emergencyValue env (e.innerEvent k) i).1 then
        some (((Parts.put s i input p).1.emergencyValue env (e.innerEvent k) i).2, p.2.2.2.2)
      else none := by
    rw [acceptEvent, InputConfig.inputConfigsJsonCallback]
    have hpos : ¬ (e.innerEvent k).stackPos = 5 := by
      change ¬ 7 = 5
      decide
    simp only [if_neg hpos]
    cases (Parts.put s i input p).1.currentInput.bind
      ((Parts.put s i input p).1.service.allInputs[·]?) <;>
      simp only [InputEntry.innerEvent, hcur'] <;> rfl
  rw [haccept, InputConfig.emergencyValue, if_neg hkey', Parts.innerStep]
  by_cases hreason : k.1 = "reason".toList
  · have hreason' : (e.innerEvent k).innerKey = "reason".toList := hreason
    rw [if_pos hreason, if_pos hreason', reasonValue_put]
    by_cases hs : k.2.type ≠ .string
    · have hs' : (e.innerEvent k).type ≠ .string := hs
      simp [hs, hs']
    · have hs' : ¬ (e.innerEvent k).type ≠ .string := hs
      rw [if_neg hs, if_neg hs']
      have hfind : Parts.findReason (e.innerEvent k).buff = Parts.findReason k.2.buff := rfl
      rw [hfind]
      cases Parts.findReason k.2.buff <;> rfl
  have hreason' : ¬ (e.innerEvent k).innerKey = "reason".toList := hreason
  rw [if_neg hreason, if_neg hreason']
  by_cases hdelay : k.1 = "delay".toList
  · have hdelay' : (e.innerEvent k).innerKey = "delay".toList := hdelay
    have hnumber : jsonGetNumber env.toArithmetic (e.innerEvent k) =
        if k.2.type = .number then env.toArithmetic k.2.buff else none := rfl
    rw [if_pos hdelay, if_pos hdelay', hnumber]
    by_cases hs : k.2.type = .number
    · rw [if_pos hs, if_pos hs]
      cases env.toArithmetic k.2.buff with
      | none => rfl
      | some delay =>
        simp only [modifyInput_put]
        rfl
    · rw [if_neg hs, if_neg hs]
      rfl
  have hdelay' : ¬ (e.innerEvent k).innerKey = "delay".toList := hdelay
  rw [if_neg hdelay, if_neg hdelay']
  by_cases hlatch : k.1 = "latch".toList
  · have hlatch' : (e.innerEvent k).innerKey = "latch".toList := hlatch
    rw [if_pos hlatch, if_pos hlatch']
    by_cases hfalse : k.2.type = .false
    · have hfalse' : (e.innerEvent k).type = .false := hfalse
      rw [if_pos hfalse, if_pos hfalse', modifyInput_put]
      rfl
    · have hfalse' : ¬ (e.innerEvent k).type = .false := hfalse
      rw [if_neg hfalse, if_neg hfalse']
      by_cases htrue : k.2.type = .true
      · have htrue' : (e.innerEvent k).type = .true := htrue
        rw [if_pos htrue, decide_eq_true htrue']
        rfl
      · have htrue' : ¬ (e.innerEvent k).type = .true := htrue
        rw [if_neg htrue, decide_eq_false htrue']
        rfl
  · have hlatch' : ¬ (e.innerEvent k).innerKey = "latch".toList := hlatch
    rw [if_neg hlatch, if_neg hlatch']
    rfl

/-- The keys inside `emergency`. -/
theorem foldlM_inner (hcur : s.currentInput = some i) {e : InputEntry}
    (hkey : e.key = "emergency".toList) (inner : List (CString × JsonValue)) (p : Parts) :
    (inner.flatMap fun k => [InputEntry.keyEvent 6 k.1, e.innerEvent k]).foldlM
        (acceptEvent env d) (Parts.put s i input p) =
      (inner.foldlM (Parts.innerStep env) p.2.2.1).map fun x =>
        Parts.put s i input (p.1, p.2.1, x, p.2.2.2) := by
  induction inner generalizing p with
  | nil => rfl
  | cons k inner ih =>
    have hvalue : acceptEvent env d (Parts.put s i input p) (e.innerEvent k) =
        (Parts.innerStep env p.2.2.1 k).map fun x =>
          Parts.put s i input (p.1, p.2.1, x, p.2.2.2) := acceptEvent_inner hcur hkey k p
    rw [List.flatMap_cons, List.cons_append, List.cons_append, List.nil_append,
      foldlM_cons_some (acceptEvent_keyEvent _ (.inr rfl) _)]
    cases hstep : Parts.innerStep env p.2.2.1 k with
    | none =>
      rw [hstep, Option.map_none] at hvalue
      rw [foldlM_cons_none hvalue, foldlM_cons_none hstep]
      rfl
    | some x =>
      rw [hstep, Option.map_some] at hvalue
      rw [foldlM_cons_some hvalue, foldlM_cons_some hstep]
      exact ih (p.1, p.2.1, x, p.2.2.2)

/-- **One key.** The callback does what the key does to the parts of the input. -/
theorem foldlM_events (hcur : s.currentInput = some i) (hi : i < s.service.allInputs.length)
    (hdriver : s.driver = some (d.inputDriver drv)) (e : InputEntry) (p : Parts) :
    e.events.foldlM (acceptEvent env d) (Parts.put s i input p) =
      (Parts.step env drv d p e).map (Parts.put s i input) := by
  rw [InputEntry.events, foldlM_cons_some (acceptEvent_keyEvent _ (.inl rfl) _)]
  by_cases hkey : e.key = "emergency".toList
  · have hstart : acceptEvent env d (Parts.put s i input p) e.event =
        if e.value.type = .object then
          some (Parts.put s i input
            (p.1, p.2.1, (env.reason.mask .latch, p.2.2.1.2), p.2.2.2))
        else none := acceptEvent_emergency hcur hi hkey p
    rw [Parts.step_emergency hkey, Parts.emergencyStep, if_pos hkey]
    by_cases hobject : e.value.type = .object
    · rw [if_pos hobject] at hstart
      rw [foldlM_cons_some hstart, if_pos hobject, if_pos hobject, List.foldlM_append,
        foldlM_inner hcur hkey]
      cases e.inner.foldlM (Parts.innerStep env) (env.reason.mask .latch, p.2.2.1.2) with
      | none => rfl
      | some x => exact foldlM_cons_some (acceptEvent_endEvent hcur hi hkey _)
    · rw [if_neg hobject] at hstart
      rw [foldlM_cons_none hstart, if_neg hobject]
      rfl
  · have hvalue : acceptEvent env d (Parts.put s i input p) e.event =
        (Parts.step env drv d p e).map (Parts.put s i input) := by
      by_cases hcommon : e.isCommon
      · rcases hcommon with hinvert | hgroup | hemergency
        · exact acceptEvent_invert hcur hi hinvert p
        · exact acceptEvent_group hcur hi hgroup p
        · exact absurd hemergency hkey
      · exact acceptEvent_driver hcur hi hdriver hcommon p
    cases hstep : Parts.step env drv d p e with
    | none =>
      rw [hstep] at hvalue
      exact foldlM_cons_none hvalue
    | some p' =>
      rw [hstep] at hvalue
      have hobject : ¬ e.value.type = .object := by
        intro hobject
        rw [Parts.step_object hkey hobject] at hstep
        cases hstep
      rw [foldlM_cons_some hvalue, if_neg hobject]
      rfl

/-- **The keys of an input.** -/
theorem runEntries_put (hcur : s.currentInput = some i) (hi : i < s.service.allInputs.length)
    (hdriver : s.driver = some (d.inputDriver drv)) (entries : List InputEntry) (p : Parts) :
    runEntries env d (Parts.put s i input p) entries =
      (entries.foldlM (Parts.step env drv d) p).map (Parts.put s i input) := by
  induction entries generalizing p with
  | nil => rfl
  | cons e entries ih =>
    rw [runEntries, List.flatMap_cons, List.foldlM_append, foldlM_events hcur hi hdriver]
    cases hstep : Parts.step env drv d p e with
    | none =>
      rw [foldlM_cons_none hstep]
      rfl
    | some p' =>
      rw [foldlM_cons_some hstep]
      exact ih p'

end

end OpenMower
