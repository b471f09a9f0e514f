import OpenMower.Services.InputConfig

/-!
# The YardForce cover UI

From `drivers/ui/yf_cover_ui`. The panel reports its emergency switches as the bits of one
byte, which the driver keeps in `emergency_state_`; each of its inputs has a channel, the
number of a bit, or else it is a button or an entry that only sets the driver up. The channel
and the flags are the first two bytes of the driver's own data of an input.

The driver is modelled from the received messages on: what `HandleMessage` dispatches to, and
the timeout for the version. The rain sensor and the LEDs are left out. The settings of the driver
as a whole are what `storeValue` makes of them while the inputs are configured.
-/

namespace OpenMower

namespace Input

variable (input : Input)

/-- `yf_cover_ui.channel`. -/
def yfChannel : BitVec 8 := input.driverData.extractLsb' 0 8

/-- `yf_cover_ui.flags`. -/
def yfFlags : BitVec 8 := input.driverData.extractLsb' 8 8

/-- An update leaves the channel alone. -/
theorem getD_update_yfChannel {newActive : Bool} {time predate : Micros} :
    (((input.update newActive time predate).map Prod.fst).getD input).yfChannel =
      input.yfChannel := by
  rw [yfChannel, getD_update_driverData, yfChannel]

/-- Stores the channel. -/
def setYfChannel (channel : BitVec 8) : Input :=
  { input with
    driverData := input.driverData &&& ~~~0xFF#64 ||| channel.setWidth 64 }

/-- Stores the flags. -/
def setYfFlags (flags : BitVec 8) : Input :=
  { input with
    driverData := input.driverData &&& ~~~0xFF00#64 ||| flags.setWidth 64 <<< 8 }

end Input

/-- The part of `YFCoverUI` that concerns the emergency inputs. -/
structure YfCoverUi where
  uiAvailable : Bool := false
  uiPresent : Bool := false
  presenceDetermined : Bool := false
  versionPending : Bool := false
  emergencyState : BitVec 8 := 0#8
  /-- `Inputs()`, by their positions in `all_inputs_`. -/
  inputs : List ℕ := []

namespace YfCoverUi

/-- `YFCoverUIChannel::BUTTON_FLAG`. -/
def buttonFlag : BitVec 8 := 0x80#8

/-- `Input::YF_FLAG_HALL_MUX`. -/
def flagHallMux : BitVec 8 := 1#8

/-- `Input::YF_FLAG_PROTOCOL`. -/
def flagProtocol : BitVec 8 := 2#8

/-- The names of the emergency channels, with `YFCoverUIChannel`. -/
def emergencyChannels : List (CString × BitVec 8) :=
  [("latch".toList, 0#8), ("stop1".toList, 1#8), ("stop2".toList, 2#8), ("lift".toList, 3#8),
    ("liftx".toList, 4#8)]

/-- `YFCoverUIChannelIsButton`. -/
def channelIsButton (channel : BitVec 8) : Bool := decide (channel &&& 0x80#8 ≠ 0#8)

/-- `YFCoverUIChannelButtonId`. -/
def channelButtonId (channel : BitVec 8) : BitVec 8 := channel &&& 0x7F#8

/-- `YFCoverUI::OnInputConfigValue`, for the conversion of numbers to `uint8_t`. -/
def inputConfigValue (toArithmetic : CString → Option (BitVec 8)) (event : JsonEvent)
    (input : Input) : Bool × Input :=
  if event.key = "channel".toList then
    if event.type ≠ .string then (false, input)
    else
      match emergencyChannels.lookup event.buff with
      | some channel => (true, input.setYfChannel channel)
      | none =>
        -- the id of the button may have been parsed before
        if event.buff = "button".toList then
          (true, input.setYfChannel (buttonFlag ||| (input.yfChannel &&& 0x7F#8)))
        else (false, input)
  else if event.key = "button_id".toList then
    match jsonGetNumber toArithmetic event with
    | some buttonId => (true, input.setYfChannel (buttonFlag ||| (buttonId &&& 0x7F#8)))
    | none => (false, input)
  else if event.key = "id".toList then
    if event.type ≠ .string then (false, input)
    else if event.buff = "hall_mux".toList then
      (true, input.setYfFlags (input.yfFlags ||| flagHallMux))
    else if event.buff = "protocol".toList then
      (true, input.setYfFlags (input.yfFlags ||| flagProtocol))
    else (false, input)
  else if event.key = "value".toList then
    if event.type ≠ .string then (false, input)
    else if input.yfFlags &&& flagProtocol ≠ 0#8 then
      (decide (event.buff = "om".toList ∨ event.buff = "oem".toList), input)
    else if input.yfFlags &&& flagHallMux ≠ 0#8 then
      (decide (event.buff = "om".toList ∨ event.buff = "oem_idc".toList), input)
    else (false, input)
  else (false, input)

/-- `YFCoverUIProtocol`. -/
inductive Protocol
  | unconfigured
  | om
  | oem
  deriving DecidableEq, Repr

/-- The settings of the driver as a whole: `protocol_` and `hall_mux_value_`. -/
structure Settings where
  protocol : Protocol := .unconfigured
  hallMuxValue : BitVec 8 := 0#8
  deriving DecidableEq, Repr

/-- What `OnInputConfigValue` stores in the settings. -/
def storeValue (event : JsonEvent) (input : Input) (settings : Settings) : Settings :=
  if event.key = "value".toList ∧ event.type = .string then
    if input.yfFlags &&& flagProtocol ≠ 0#8 then
      if event.buff = "om".toList then { settings with protocol := .om }
      else if event.buff = "oem".toList then { settings with protocol := .oem }
      else settings
    else if input.yfFlags &&& flagHallMux ≠ 0#8 then
      if event.buff = "om".toList then { settings with hallMuxValue := 0#8 }
      else if event.buff = "oem_idc".toList then { settings with hallMuxValue := 1#8 }
      else settings
    else settings
  else settings

/-- The values that are accepted with these flags. -/
def acceptsValue (flags : BitVec 8) (value : CString) : Prop :=
  if flags &&& flagProtocol ≠ 0#8 then value = "om".toList ∨ value = "oem".toList
  else flags &&& flagHallMux ≠ 0#8 ∧ (value = "om".toList ∨ value = "oem_idc".toList)

instance (flags : BitVec 8) (value : CString) : Decidable (acceptsValue flags value) := by
  unfold acceptsValue
  infer_instance

theorem acceptsValue_iff_of_protocol {flags : BitVec 8} {value : CString}
    (h : flags &&& flagProtocol ≠ 0#8) :
    acceptsValue flags value ↔ value = "om".toList ∨ value = "oem".toList := by
  rw [acceptsValue, if_pos h]

theorem acceptsValue_iff_of_not_protocol {flags : BitVec 8} {value : CString}
    (h : ¬ flags &&& flagProtocol ≠ 0#8) :
    acceptsValue flags value ↔
      flags &&& flagHallMux ≠ 0#8 ∧ (value = "om".toList ∨ value = "oem_idc".toList) := by
  rw [acceptsValue, if_neg h]

/-- The key `value` leaves the input as it is. -/
theorem inputConfigValue_value (toArithmetic : CString → Option (BitVec 8)) {event : JsonEvent}
    (h : event.key = "value".toList) (input : Input) :
    inputConfigValue toArithmetic event input =
      (decide (event.type = .string ∧ acceptsValue input.yfFlags event.buff), input) := by
  have hchannel : event.key ≠ "channel".toList := by rw [h]; decide
  have hbutton : event.key ≠ "button_id".toList := by rw [h]; decide
  have hid : event.key ≠ "id".toList := by rw [h]; decide
  simp only [inputConfigValue, if_neg hchannel, if_neg hbutton, if_neg hid, if_pos h]
  by_cases hstring : event.type = .string
  · rw [if_neg (not_not_intro hstring)]
    by_cases hprotocol : input.yfFlags &&& flagProtocol ≠ 0#8
    · rw [if_pos hprotocol]
      refine congrArg (·, input) (decide_eq_decide.mpr ?_)
      rw [acceptsValue_iff_of_protocol hprotocol, and_iff_right hstring]
    rw [if_neg hprotocol]
    by_cases hmux : input.yfFlags &&& flagHallMux ≠ 0#8
    · rw [if_pos hmux]
      refine congrArg (·, input) (decide_eq_decide.mpr ?_)
      rw [acceptsValue_iff_of_not_protocol hprotocol, and_iff_right hstring, and_iff_right hmux]
    · rw [if_neg hmux]
      refine congrArg (·, input) (decide_eq_false fun haccepts => ?_).symm
      exact hmux ((acceptsValue_iff_of_not_protocol hprotocol).mp haccepts.2).1
  · rw [if_pos hstring]
    exact congrArg (·, input) (decide_eq_false fun haccepts => hstring haccepts.1).symm

/-- `YFCoverUI` as an input driver. -/
def inputDriver (toArithmetic : CString → Option (BitVec 8)) : InputDriver where
  onInputConfigValue := inputConfigValue toArithmetic
  sets_own event input := by
    unfold inputConfigValue
    repeat' split
    all_goals exact ⟨_, _, rfl⟩

/-- An emergency channel: neither a setup entry nor a button. -/
def isEmergencyChannel (input : Input) : Bool :=
  decide (input.yfFlags &&& (flagHallMux ||| flagProtocol) = 0#8) &&
    !channelIsButton input.yfChannel

/-- `(state & (1u << ch)) != 0`. -/
def channelBit (state channel : BitVec 8) : Bool :=
  decide (state.setWidth 32 &&& 1#32 <<< channel.toNat ≠ 0#32)

section

variable (E : EmergencyReason)

/-- The body of the loop in `UpdateEmergencyInputs`, at a reading of the clock. -/
def updateEmergencyInput (state : BitVec 8) (clock : ℕ → Micros) (s : InputService) (i : ℕ) :
    InputService :=
  match s.allInputs[i]? with
  | none => s
  | some input =>
    if input.yfFlags &&& (flagHallMux ||| flagProtocol) ≠ 0#8 then s
    else if channelIsButton input.yfChannel then s
    else s.update E i (channelBit state input.yfChannel) (clock i) 0#32

/-- `UpdateEmergencyInputs`, where `clock i` is what the update of the input at position `i`
reads from the clock. -/
def updateEmergencyInputs (ui : YfCoverUi) (clock : ℕ → Micros) (s : InputService) :
    InputService :=
  ui.inputs.foldl (updateEmergencyInput E ui.emergencyState clock) s

/-- The body of the loop in `HandleButton`: `InjectPress` of the inputs with the button's id. -/
def injectPress (buttonId : BitVec 8) (duration : Micros) (clock : ℕ → Micros × Micros)
    (s : InputService) (i : ℕ) : InputService :=
  match s.allInputs[i]? with
  | none => s
  | some input =>
    if channelIsButton input.yfChannel ∧ channelButtonId input.yfChannel = buttonId then
      (s.update E i true (clock i).1 duration).update E i false (clock i).2 0#32
    else s

/-- `HandleButton`, where `pressDelay` is `GetPressDelay`. -/
def handleButton (ui : YfCoverUi) (pressDelay : Bool → Micros) (buttonId : BitVec 16)
    (pressDuration : BitVec 8) (clock : ℕ → Micros × Micros) (s : InputService) : InputService :=
  ui.inputs.foldl (injectPress E (buttonId.setWidth 8 &&& 0x7F#8)
    (pressDelay (decide (1#8 ≤ pressDuration))) clock) s

/-- `HandleEmergency`. -/
def handleEmergency (ui : YfCoverUi) (state : BitVec 8) (clock : ℕ → Micros) (s : InputService) :
    YfCoverUi × InputService :=
  let ui := { ui with emergencyState := state }
  (ui, ui.updateEmergencyInputs E clock s)

/-- The timeout for the version in `ThreadFunc`. -/
def versionTimeout (ui : YfCoverUi) (clock : ℕ → Micros) (s : InputService) :
    YfCoverUi × InputService :=
  if ui.uiAvailable then
    let ui := { ui with uiAvailable := false, emergencyState := 0#8 }
    ({ ui with versionPending := false }, ui.updateEmergencyInputs E clock s)
  else ({ ui with versionPending := false }, s)

end

/-- `HandleVersion`. -/
def handleVersion (ui : YfCoverUi) : YfCoverUi :=
  { ui with
    versionPending := false
    uiAvailable := true
    uiPresent := true
    presenceDetermined := ui.presenceDetermined || !ui.uiPresent }

/-- The test of a channel reads the bit with its number. -/
theorem channelBit_eq (state channel : BitVec 8) :
    channelBit state channel = state.getLsbD channel.toNat := by
  have hmask : 1#32 <<< channel.toNat = BitVec.twoPow 32 channel.toNat := rfl
  rw [channelBit, hmask, BitVec.and_twoPow]
  cases hbit : state.getLsbD channel.toNat with
  | false => simp [BitVec.getLsbD_setWidth, hbit]
  | true =>
    have hlt : channel.toNat < 8 := BitVec.lt_of_getLsbD hbit
    have hwide : (state.setWidth 32).getLsbD channel.toNat = true := by
      rw [BitVec.getLsbD_setWidth, hbit, decide_eq_true (by omega : channel.toNat < 32)]
      rfl
    have hne : BitVec.twoPow 32 channel.toNat ≠ 0#32 := by
      intro hzero
      have hself : (BitVec.twoPow 32 channel.toNat).getLsbD channel.toNat = true := by
        rw [BitVec.getLsbD_twoPow]
        simpa using (by omega : channel.toNat < 32)
      rw [hzero] at hself
      simp at hself
    rw [if_pos hwide, decide_eq_true hne]

end YfCoverUi

end OpenMower
