import OpenMower.Inputs.ConfigParts

/-!
# The keys of the drivers

What a key does to the data of each driver, with the bytes of the data as fields of a word. The keys
of the GPIO and the Worx driver do not depend on the data. Those of the Sabo driver depend on the
type of the input, and those of the cover UI on its channel and its flags.
-/

namespace OpenMower

open PartialSteps WordMask

namespace Input

variable (input : Input)

/-- The channel is the first byte of the data. -/
theorem setYfChannel_eq (channel : BitVec 8) :
    input.setYfChannel channel =
      { input with driverData := setField input.driverData 0 channel } := by
  rw [setYfChannel, setField, rewrite, BitVec.shiftLeft_zero, BitVec.shiftLeft_zero]
  rfl

/-- The flags are the second byte of the data. -/
theorem setYfFlags_eq (flags : BitVec 8) :
    input.setYfFlags flags = { input with driverData := setField input.driverData 8 flags } := rfl

/-- So is the type of a Sabo input the first byte. -/
theorem setSaboType_eq (type : BitVec 8) :
    input.setSaboType type = { input with driverData := setField input.driverData 0 type } :=
  input.setYfChannel_eq type

/-- And its id the second one. -/
theorem setSaboId_eq (id : BitVec 8) :
    input.setSaboId id = { input with driverData := setField input.driverData 8 id } := rfl

end Input

/-- The text of a string value. -/
def JsonValue.string? (value : JsonValue) : Option CString :=
  if value.type = .string then some value.buff else none

/-- The number of a number value. -/
def JsonValue.number? (drv : DriverEnv) (value : JsonValue) : Option (BitVec 8) :=
  if value.type = .number then drv.toArithmetic value.buff else none

namespace Parts

variable {drv : DriverEnv} {e : InputEntry} {x : BitVec 64 × YfCoverUi.Settings}

/-! ### Sabo -/

theorem dataStep_saboType (hkey : e.key = "type".toList) :
    dataStep drv .sabo x e =
      (e.value.string?.bind SaboInput.findType).map fun type => (setField x.1 0 type, x.2) := by
  have hcommon : ¬ e.isCommon := e.not_isCommon_of_key hkey (by decide)
  have hkey' : e.event.key = "type".toList := hkey
  have htype : e.event.type = e.value.type := rfl
  have hbuff : e.event.buff = e.value.buff := rfl
  rw [dataStep, if_neg hcommon]
  simp only [ConfigDriver.inputDriver, SaboInput.inputDriver, SaboInput.inputConfigValue,
    if_pos hkey', JsonValue.string?, htype, hbuff, Input.setSaboType_eq]
  by_cases hs : e.value.type = .string
  · rw [if_neg (not_not_intro hs), if_pos hs]
    cases hfind : SaboInput.findType e.value.buff with
    | none => simp [hfind]
    | some type =>
      simp only [hfind, Option.bind_some, Option.map_some]
      rfl
  · rw [if_pos hs, if_neg hs]
    rfl

theorem dataStep_saboId (hkey : e.key = "id".toList) :
    dataStep drv .sabo x e =
      (e.value.string?.bind (SaboInput.findId (x.1.extractLsb' 0 8))).map fun id =>
        (setField x.1 8 id, x.2) := by
  have hcommon : ¬ e.isCommon := e.not_isCommon_of_key hkey (by decide)
  have hne : e.event.key ≠ "type".toList := by
    change e.key ≠ _
    rw [hkey]
    decide
  have hkey' : e.event.key = "id".toList := hkey
  have htype : e.event.type = e.value.type := rfl
  have hbuff : e.event.buff = e.value.buff := rfl
  rw [dataStep, if_neg hcommon]
  simp only [ConfigDriver.inputDriver, SaboInput.inputDriver, SaboInput.inputConfigValue,
    if_neg hne, if_pos hkey', JsonValue.string?, htype, hbuff, Input.setSaboId_eq, Input.saboType]
  by_cases hs : e.value.type = .string
  · rw [if_neg (not_not_intro hs), if_pos hs]
    cases hfind : SaboInput.findId (x.1.extractLsb' 0 8) e.value.buff with
    | none => simp [hfind]
    | some id =>
      simp only [hfind, Option.bind_some, Option.map_some]
      rfl
  · rw [if_pos hs, if_neg hs]
    rfl

theorem dataStep_saboOther (hcommon : ¬ e.isCommon) (htype : e.key ≠ "type".toList)
    (hid : e.key ≠ "id".toList) : dataStep drv .sabo x e = none := by
  have htype' : e.event.key ≠ "type".toList := htype
  have hid' : e.event.key ≠ "id".toList := hid
  rw [dataStep, if_neg hcommon]
  simp only [ConfigDriver.inputDriver, SaboInput.inputDriver, SaboInput.inputConfigValue,
    if_neg htype', if_neg hid']
  rfl

/-! ### Worx -/

theorem dataStep_worxId (hkey : e.key = "id".toList) :
    dataStep drv .worx x e =
      (e.value.string?.bind fun name => WorxInput.inputBits.lookup (name.take 13)).map fun bit =>
        (setField x.1 0 bit, x.2) := by
  have hcommon : ¬ e.isCommon := e.not_isCommon_of_key hkey (by decide)
  have hkey' : e.event.key = "id".toList := hkey
  have htype : e.event.type = e.value.type := rfl
  have hbuff : e.event.buff = e.value.buff := rfl
  have hbit : ∀ (input : Input) bit, input.setWorxBit bit = input.setYfChannel bit :=
    fun _ _ => rfl
  rw [dataStep, if_neg hcommon]
  simp only [ConfigDriver.inputDriver, WorxInput.inputDriver, WorxInput.inputConfigValue,
    if_pos hkey', JsonValue.string?, htype, hbuff, hbit, Input.setYfChannel_eq]
  by_cases hs : e.value.type = .string
  · rw [if_neg (not_not_intro hs), if_pos hs]
    cases hfind : WorxInput.inputBits.lookup (e.value.buff.take 13) with
    | none => simp [hfind]
    | some bit =>
      simp only [hfind, Option.bind_some, Option.map_some]
      rfl
  · rw [if_pos hs, if_neg hs]
    rfl

theorem dataStep_worxOther (hcommon : ¬ e.isCommon) (hid : e.key ≠ "id".toList) :
    dataStep drv .worx x e = none := by
  have hid' : e.event.key ≠ "id".toList := hid
  rw [dataStep, if_neg hcommon]
  simp only [ConfigDriver.inputDriver, WorxInput.inputDriver, WorxInput.inputConfigValue,
    if_neg hid']
  rfl

/-! ### GPIO -/

theorem dataStep_gpioLine (hkey : e.key = "line".toList) :
    dataStep drv .gpio x e =
      (e.value.string?.bind fun name =>
        if drv.getIoLineByName name ≠ drv.noLine then some (drv.getIoLineByName name)
        else none).map fun line => (line, x.2) := by
  have hcommon : ¬ e.isCommon := e.not_isCommon_of_key hkey (by decide)
  have hkey' : e.event.key = "line".toList := hkey
  have htype : e.event.type = e.value.type := rfl
  have hbuff : e.event.buff = e.value.buff := rfl
  rw [dataStep, if_neg hcommon]
  simp only [ConfigDriver.inputDriver, gpioInputDriver, gpioInputConfigValue, if_pos hkey',
    JsonValue.string?, htype, hbuff]
  by_cases hs : e.value.type = .string
  · rw [if_neg (not_not_intro hs), if_pos hs]
    by_cases hline : drv.getIoLineByName e.value.buff ≠ drv.noLine
    · simp [hline]
      rfl
    · simp [hline]
  · rw [if_pos hs, if_neg hs]
    rfl

/-- The inversion that `active` stands for. -/
def activeLevel (value : JsonValue) : Option Bool :=
  value.string?.bind fun level =>
    if level = "high".toList then some false
    else if level = "low".toList then some true
    else none

/-- The key `active` sets the inversion if it has a valid value, and is accepted then. -/
theorem gpioInputConfigValue_active (hkey : e.key = "active".toList) (input : Input) :
    gpioInputConfigValue drv.getIoLineByName drv.noLine e.event input =
      ((activeLevel e.value).isSome,
        { input with invert := (activeLevel e.value).getD input.invert }) := by
  have hne : e.event.key ≠ "line".toList := by
    change e.key ≠ _
    rw [hkey]
    decide
  have hkey' : e.event.key = "active".toList := hkey
  have htype : e.event.type = e.value.type := rfl
  have hbuff : e.event.buff = e.value.buff := rfl
  rw [gpioInputConfigValue, if_neg hne, if_pos hkey', htype, hbuff, activeLevel, JsonValue.string?]
  by_cases hs : e.value.type = .string
  · rw [if_neg (not_not_intro hs), if_pos hs, Option.bind_some]
    by_cases hhigh : e.value.buff = "high".toList
    · rw [if_pos hhigh, if_pos hhigh]
      rfl
    by_cases hlow : e.value.buff = "low".toList
    · rw [if_neg hhigh, if_neg hhigh, if_pos hlow, if_pos hlow]
      rfl
    · rw [if_neg hhigh, if_neg hhigh, if_neg hlow, if_neg hlow]
      rfl
  · rw [if_pos hs, if_neg hs]
    rfl

theorem dataStep_gpioActive (hkey : e.key = "active".toList) :
    dataStep drv .gpio x e = (activeLevel e.value).map fun _ => x := by
  have hcommon : ¬ e.isCommon := e.not_isCommon_of_key hkey (by decide)
  rw [dataStep, if_neg hcommon]
  simp only [ConfigDriver.inputDriver, gpioInputDriver, gpioInputConfigValue_active hkey]
  cases activeLevel e.value <;> rfl

theorem dataStep_gpioOther (hcommon : ¬ e.isCommon) (hline : e.key ≠ "line".toList)
    (hactive : e.key ≠ "active".toList) : dataStep drv .gpio x e = none := by
  have hline' : e.event.key ≠ "line".toList := hline
  have hactive' : e.event.key ≠ "active".toList := hactive
  rw [dataStep, if_neg hcommon]
  simp only [ConfigDriver.inputDriver, gpioInputDriver, gpioInputConfigValue, if_neg hline',
    if_neg hactive']
  rfl

/-! ### The cover UI -/

/-- The channel with this name, for an input that has this channel. -/
def findChannel (old : BitVec 8) (name : CString) : Option (BitVec 8) :=
  match YfCoverUi.emergencyChannels.lookup name with
  | some channel => some channel
  | none =>
    if name = "button".toList then some (YfCoverUi.buttonFlag ||| (old &&& 0x7F#8)) else none

theorem findChannel_isSome (old : BitVec 8) (name : CString) :
    (findChannel old name).isSome ↔
      (YfCoverUi.emergencyChannels.lookup name).isSome ∨ name = "button".toList := by
  rw [findChannel]
  cases YfCoverUi.emergencyChannels.lookup name with
  | some channel => exact iff_of_true rfl (.inl rfl)
  | none =>
    by_cases hbutton : name = "button".toList
    · simp only [if_pos hbutton]
      exact iff_of_true rfl (.inr hbutton)
    · simp only [if_neg hbutton]
      exact iff_of_false nofun fun h => h.elim nofun hbutton

/-- The flag with this name. -/
def findFlag (name : CString) : Option (BitVec 8) :=
  if name = "hall_mux".toList then some YfCoverUi.flagHallMux
  else if name = "protocol".toList then some YfCoverUi.flagProtocol
  else none

/-- Only the key `value` stores settings. -/
theorem storeSettings_yfCoverUi (hkey : e.key ≠ "value".toList) (input : Input)
    (settings : YfCoverUi.Settings) :
    ConfigDriver.yfCoverUi.storeSettings e.event input settings = settings :=
  if_neg fun h => hkey h.1

theorem dataStep_yfChannel (hkey : e.key = "channel".toList) :
    dataStep drv .yfCoverUi x e =
      (e.value.string?.bind (findChannel (x.1.extractLsb' 0 8))).map fun channel =>
        (setField x.1 0 channel, x.2) := by
  have hcommon : ¬ e.isCommon := e.not_isCommon_of_key hkey (by decide)
  have hkey' : e.event.key = "channel".toList := hkey
  have hvalue : e.key ≠ "value".toList := by
    rw [hkey]
    decide
  have htype : e.event.type = e.value.type := rfl
  have hbuff : e.event.buff = e.value.buff := rfl
  rw [dataStep, if_neg hcommon]
  simp only [ConfigDriver.inputDriver, YfCoverUi.inputDriver, YfCoverUi.inputConfigValue,
    if_pos hkey', JsonValue.string?, htype, hbuff, Input.setYfChannel_eq,
    storeSettings_yfCoverUi hvalue, Input.yfChannel]
  by_cases hs : e.value.type = .string
  · rw [if_neg (not_not_intro hs), if_pos hs, Option.bind_some, findChannel]
    cases YfCoverUi.emergencyChannels.lookup e.value.buff with
    | some channel => rfl
    | none =>
      by_cases hbutton : e.value.buff = "button".toList
      · simp only [if_pos hbutton]
        rfl
      · simp only [if_neg hbutton]
        rfl
  · rw [if_pos hs, if_neg hs]
    rfl

theorem dataStep_yfButtonId (hkey : e.key = "button_id".toList) :
    dataStep drv .yfCoverUi x e =
      (e.value.number? drv).map fun buttonId =>
        (setField x.1 0 (YfCoverUi.buttonFlag ||| (buttonId &&& 0x7F#8)), x.2) := by
  have hcommon : ¬ e.isCommon := e.not_isCommon_of_key hkey (by decide)
  have hkey' : e.event.key = "button_id".toList := hkey
  have hne : e.event.key ≠ "channel".toList := by
    rw [hkey']
    decide
  have hvalue : e.key ≠ "value".toList := by
    rw [hkey]
    decide
  have hnumber : jsonGetNumber drv.toArithmetic e.event = e.value.number? drv := rfl
  rw [dataStep, if_neg hcommon]
  simp only [ConfigDriver.inputDriver, YfCoverUi.inputDriver, YfCoverUi.inputConfigValue,
    if_neg hne, if_pos hkey', hnumber, Input.setYfChannel_eq, storeSettings_yfCoverUi hvalue]
  cases e.value.number? drv <;> rfl

theorem dataStep_yfId (hkey : e.key = "id".toList) :
    dataStep drv .yfCoverUi x e =
      (e.value.string?.bind findFlag).map fun flag =>
        (setField x.1 8 (x.1.extractLsb' 8 8 ||| flag), x.2) := by
  have hcommon : ¬ e.isCommon := e.not_isCommon_of_key hkey (by decide)
  have hkey' : e.event.key = "id".toList := hkey
  have hchannel : e.event.key ≠ "channel".toList := by
    rw [hkey']
    decide
  have hbutton : e.event.key ≠ "button_id".toList := by
    rw [hkey']
    decide
  have hvalue : e.key ≠ "value".toList := by
    rw [hkey]
    decide
  have htype : e.event.type = e.value.type := rfl
  have hbuff : e.event.buff = e.value.buff := rfl
  rw [dataStep, if_neg hcommon]
  simp only [ConfigDriver.inputDriver, YfCoverUi.inputDriver, YfCoverUi.inputConfigValue,
    if_neg hchannel, if_neg hbutton, if_pos hkey', JsonValue.string?, htype, hbuff,
    Input.setYfFlags_eq, storeSettings_yfCoverUi hvalue, Input.yfFlags]
  by_cases hs : e.value.type = .string
  · rw [if_neg (not_not_intro hs), if_pos hs, Option.bind_some, findFlag]
    by_cases hmux : e.value.buff = "hall_mux".toList
    · rw [if_pos hmux, if_pos hmux]
      rfl
    by_cases hprotocol : e.value.buff = "protocol".toList
    · rw [if_neg hmux, if_neg hmux, if_pos hprotocol, if_pos hprotocol]
      rfl
    · rw [if_neg hmux, if_neg hmux, if_neg hprotocol, if_neg hprotocol]
      rfl
  · rw [if_pos hs, if_neg hs]
    rfl

/-- Without a flag no value is accepted. -/
theorem not_acceptsValue_zero {flags : BitVec 8} (h : flags = 0#8) (value : CString) :
    ¬ YfCoverUi.acceptsValue flags value := by
  rw [h, YfCoverUi.acceptsValue, if_neg (by decide)]
  exact fun h => absurd h.1 (by decide)

theorem dataStep_yfValue (hkey : e.key = "value".toList) :
    dataStep drv .yfCoverUi x e =
      e.value.string?.bind fun value =>
        if YfCoverUi.acceptsValue (x.1.extractLsb' 8 8) value then
          some (x.1, YfCoverUi.storeValue e.event { idx := 0#8, driverData := x.1 } x.2)
        else none := by
  have hcommon : ¬ e.isCommon := e.not_isCommon_of_key hkey (by decide)
  have hkey' : e.event.key = "value".toList := hkey
  have htype : e.event.type = e.value.type := rfl
  have hbuff : e.event.buff = e.value.buff := rfl
  rw [dataStep, if_neg hcommon]
  simp only [ConfigDriver.inputDriver, YfCoverUi.inputDriver,
    YfCoverUi.inputConfigValue_value _ hkey', htype, hbuff, JsonValue.string?, Input.yfFlags,
    decide_eq_true_eq]
  by_cases hs : e.value.type = .string
  · simp only [hs, true_and]
    rfl
  · simp only [hs, false_and, if_false, Option.bind_none]

/-- A value that the flags do not accept is rejected. -/
theorem dataStep_yfValue_of_not (hkey : e.key = "value".toList)
    (hnot : ∀ value, e.value.string? = some value →
      ¬ YfCoverUi.acceptsValue (x.1.extractLsb' 8 8) value) :
    dataStep drv .yfCoverUi x e = none := by
  rw [dataStep_yfValue hkey]
  refine Option.bind_eq_none_iff.mpr fun value hvalue => ?_
  rw [if_neg (hnot value hvalue)]

theorem dataStep_yfOther (hcommon : ¬ e.isCommon) (hchannel : e.key ≠ "channel".toList)
    (hbutton : e.key ≠ "button_id".toList) (hid : e.key ≠ "id".toList)
    (hvalue : e.key ≠ "value".toList) : dataStep drv .yfCoverUi x e = none := by
  have hchannel' : e.event.key ≠ "channel".toList := hchannel
  have hbutton' : e.event.key ≠ "button_id".toList := hbutton
  have hid' : e.event.key ≠ "id".toList := hid
  have hvalue' : e.event.key ≠ "value".toList := hvalue
  rw [dataStep, if_neg hcommon]
  simp only [ConfigDriver.inputDriver, YfCoverUi.inputDriver, YfCoverUi.inputConfigValue,
    if_neg hchannel', if_neg hbutton', if_neg hid', if_neg hvalue']
  rfl

/-! ### The inversion -/

/-- The key `active` sets the inversion if it has a valid value. -/
theorem invertStep_active (hkey : e.key = "active".toList) (invert : Bool) :
    invertStep drv .gpio invert e = some ((activeLevel e.value).getD invert) := by
  have hcommon : ¬ e.isCommon := e.not_isCommon_of_key hkey (by decide)
  rw [invertStep, if_neg fun h => hcommon (.inl h), if_neg hcommon]
  simp only [ConfigDriver.inputDriver, gpioInputDriver, gpioInputConfigValue_active hkey]

/-- No other key of a driver does so. -/
theorem invertStep_idle {d : ConfigDriver} (hinvert : e.key ≠ "invert".toList)
    (hactive : d = .gpio → e.key ≠ "active".toList) (invert : Bool) :
    invertStep drv d invert e = some invert := by
  rw [invertStep, if_neg hinvert]
  split
  · rfl
  · have hkeeps : ((d.inputDriver drv).onInputConfigValue e.event
        { idx := 0#8, invert := invert }).2.invert = invert := by
      cases d with
      | sabo =>
        simp only [ConfigDriver.inputDriver, SaboInput.inputDriver, SaboInput.inputConfigValue,
          Input.setSaboType, Input.setSaboId]
        repeat' split
        all_goals rfl
      | worx =>
        simp only [ConfigDriver.inputDriver, WorxInput.inputDriver, WorxInput.inputConfigValue,
          Input.setWorxBit]
        repeat' split
        all_goals rfl
      | gpio =>
        have hactive' : e.event.key ≠ "active".toList := hactive rfl
        simp only [ConfigDriver.inputDriver, gpioInputDriver, gpioInputConfigValue,
          if_neg hactive']
        repeat' split
        all_goals rfl
      | yfCoverUi =>
        simp only [ConfigDriver.inputDriver, YfCoverUi.inputDriver, YfCoverUi.inputConfigValue,
          Input.setYfChannel, Input.setYfFlags]
        repeat' split
        all_goals rfl
    rw [hkeeps]

end Parts

end OpenMower
