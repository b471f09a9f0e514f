import OpenMower.Drivers.InputTables
import OpenMower.Drivers.YfCoverUi

/-!
# The object of an input

The keys of an input are given as a list of entries, which the parser reports as events in their
order (`InputEntry.events`). `runEntries` is what the callback makes of them, `none` if it rejects
one, together with the settings of the driver as a whole.

Of a value the first event is given, and of an object also the keys inside. The callback rejects all
arrays inside an input, and all objects but `emergency`, with their first event.
-/

namespace OpenMower

/-- A type that the parser reports at the start of a value. -/
def startsValue (type : JsonType) : Bool :=
  match type with
  | .string | .true | .false | .null | .number | .object | .array => true
  | _ => false

/-- A value, up to its first event. -/
structure JsonValue where
  type : JsonType
  buff : CString := []
  buffPos : ℕ := buff.length
  length_le : buff.length ≤ buffPos := by decide
  startsValue : startsValue type = true := by decide

/-- A key of an input. -/
structure InputEntry where
  key : CString
  value : JsonValue
  /-- The keys inside, if the value is an object. -/
  inner : List (CString × JsonValue) := []

namespace InputEntry

variable (e : InputEntry)

/-- The event of a key. -/
def keyEvent (stackPos : ℕ) (key : CString) : JsonEvent where
  stackPos := stackPos
  type := .key
  buff := key
  buffPos := key.length
  key := []
  innerKey := []
  length_le := le_refl _

/-- The first event of the value. -/
def event : JsonEvent where
  stackPos := 5
  type := e.value.type
  buff := e.value.buff
  buffPos := e.value.buffPos
  key := e.key
  innerKey := []
  length_le := e.value.length_le

/-- The event of a value inside. -/
def innerEvent (k : CString × JsonValue) : JsonEvent where
  stackPos := 7
  type := k.2.type
  buff := k.2.buff
  buffPos := k.2.buffPos
  key := e.key
  innerKey := k.1
  length_le := k.2.length_le

/-- The event of the end of an object. -/
def endEvent : JsonEvent where
  stackPos := 5
  type := .objectEnd
  buff := []
  buffPos := 0
  key := e.key
  innerKey := []
  length_le := le_refl _

/-- The events of a key and its value. -/
def events : List JsonEvent :=
  keyEvent 4 e.key :: e.event ::
    if e.value.type = .object then
      e.inner.flatMap (fun k => [keyEvent 6 k.1, e.innerEvent k]) ++ [e.endEvent]
    else []

/-- The key is not passed on to the driver. -/
def isCommon : Prop :=
  e.key = "invert".toList ∨ e.key = "redundancy_group".toList ∨ e.key = "emergency".toList

instance : Decidable e.isCommon := inferInstanceAs (Decidable (_ ∨ _))

theorem not_isCommon_of_key {k : CString} (hkey : e.key = k)
    (hk : k ≠ "invert".toList ∧ k ≠ "redundancy_group".toList ∧ k ≠ "emergency".toList) :
    ¬ e.isCommon := by
  rw [isCommon, hkey]
  rintro (h | h | h)
  · exact hk.1 h
  · exact hk.2.1 h
  · exact hk.2.2 h

end InputEntry

/-- The input drivers with keys of their own. -/
inductive ConfigDriver
  | sabo
  | worx
  | gpio
  | yfCoverUi
  deriving DecidableEq, Repr

/-- What the drivers use: the table of lines, `PAL_NOLINE`, and the conversion of numbers. -/
structure DriverEnv where
  getIoLineByName : CString → BitVec 64
  noLine : BitVec 64
  toArithmetic : CString → Option (BitVec 8)

namespace ConfigDriver

/-- The driver. -/
def inputDriver (drv : DriverEnv) : ConfigDriver → InputDriver
  | sabo => SaboInput.inputDriver
  | worx => WorxInput.inputDriver
  | gpio => gpioInputDriver drv.getIoLineByName drv.noLine
  | yfCoverUi => YfCoverUi.inputDriver drv.toArithmetic

/-- The settings of the driver as a whole after a key; only the cover UI has such settings. -/
def storeSettings (d : ConfigDriver) (event : JsonEvent) (input : Input)
    (settings : YfCoverUi.Settings) : YfCoverUi.Settings :=
  match d with
  | yfCoverUi => YfCoverUi.storeValue event input settings
  | _ => settings

end ConfigDriver

/-- A configuration with the settings of the driver. -/
abbrev DriverConfig := InputConfig × YfCoverUi.Settings

section

variable (env : InputConfigEnv) (drv : DriverEnv) (d : ConfigDriver)

/-- An event, unless it is rejected. -/
def acceptEvent (s : DriverConfig) (event : JsonEvent) : Option DriverConfig :=
  let r := s.1.inputConfigsJsonCallback env event
  let settings :=
    match s.1.currentInput.bind (s.1.service.allInputs[·]?) with
    | some input => if event.stackPos = 5 then d.storeSettings event input s.2 else s.2
    | none => s.2
  if r.1 then some (r.2, settings) else none

/-- The keys of an input, unless one of them is rejected. -/
def runEntries (s : DriverConfig) (entries : List InputEntry) : Option DriverConfig :=
  (entries.flatMap InputEntry.events).foldlM (acceptEvent env d) s

/-- The driver has been looked up, and an input of it has been started. -/
def startInput (s : InputConfig) : InputConfig :=
  ({ s with driver := some (d.inputDriver drv) } : InputConfig).addInput

end

end OpenMower
