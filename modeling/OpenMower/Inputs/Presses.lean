import OpenMower.Inputs.InputLists
import OpenMower.Inputs.PanelMirror

/-!
# Injected presses

`Input::InjectPress` makes a press out of two updates: the input is set, as if it had been active
for the time of a short or a long press already, and reset. What `OnInputChanged` sends to the high
level in between is recorded by `updateEvents`.

The two updates request levels, and an inverted input reads them the other way around: setting it
changes nothing, and resetting it activates it. So the press of an inverted button never ends, and
a press is one press exactly for the inputs that are not inverted (`injectPress_iff`).
-/

namespace OpenMower

/-- `InputEventType`. -/
inductive InputEventType
  | active
  | inactive
  | short
  | long
  deriving DecidableEq, Repr

/-- The settings of the input service about presses, in milliseconds, as 32-bit values. -/
structure PressTimes where
  longPressTime : BitVec 32
  debounceTime : BitVec 32

namespace PressTimes

variable (times : PressTimes)

/-- `LongPressTime.value * 1000`. -/
def longPress : Micros := times.longPressTime * 1000#32

/-- `DebounceTime.value * 1000`. -/
def debounce : Micros := times.debounceTime * 1000#32

/-- `InputService::GetPressDelay`. -/
def getPressDelay (longPress : Bool) : Micros :=
  if longPress then times.longPress else times.debounce

/-- The debounce time is positive and shorter than that of a long press, and neither overflows. -/
structure Valid : Prop where
  pos : 0 < times.debounceTime.toNat
  lt : times.debounceTime.toNat < times.longPressTime.toNat
  no_overflow : times.longPressTime.toNat * 1000 < 2 ^ 32

end PressTimes

/-- The events that `OnInputChanged` sends for an input. -/
def inputEvents (times : PressTimes) (input : Input) (active : Bool) (duration : Micros) :
    List (BitVec 8 × InputEventType) :=
  if input.idx = Input.virtualIdx then []
  else if active then [(input.idx, .active)]
  else (input.idx, .inactive) ::
    if times.longPress ≤ duration then [(input.idx, .long)]
    else if times.debounce ≤ duration then [(input.idx, .short)] else []

namespace InputService

variable (E : EmergencyReason) (times : PressTimes) (s : InputService)

/-- `Input::Update`, with the events. The updates of the virtual inputs send none. -/
def updateEvents (i : ℕ) (newActive : Bool) (time predate : Micros) :
    InputService × List (BitVec 8 × InputEventType) :=
  (s.update E i newActive time predate,
    match s.allInputs[i]? with
    | none => []
    | some input =>
      match input.update newActive time predate with
      | none => []
      | some (input', active, duration) => inputEvents times input' active duration)

/-- `Input::InjectPress`, with the events, when both updates read this time. -/
def injectPress (i : ℕ) (longPress : Bool) (time : Micros) :
    InputService × List (BitVec 8 × InputEventType) :=
  let first := s.updateEvents E times i true time (times.getPressDelay longPress)
  let second := first.1.updateEvents E times i false time 0#32
  (second.1, first.2 ++ second.2)

/-- The press of the input at position `i` is one press, and the input is inactive after it. -/
def IsOnePress (i : ℕ) (longPress : Bool) (time : Micros) : Prop :=
  ∃ input, (s.injectPress E times i longPress time).1.allInputs[i]? = some input ∧
    input.active = false ∧
      (s.injectPress E times i longPress time).2 =
        [(input.idx, .active), (input.idx, .inactive),
          (input.idx, if longPress then .long else .short)]

end InputService

/-- What `HandleButton` does to a matching button. -/
theorem YfCoverUi.injectPress_eq {E : EmergencyReason} {times : PressTimes} {s : InputService}
    {i : ℕ} {input : Input} (hi : s.allInputs[i]? = some input)
    (hbutton : channelIsButton input.yfChannel = true) {clock : ℕ → Micros × Micros}
    {time : Micros} (hclock : clock i = (time, time)) (longPress : Bool) :
    YfCoverUi.injectPress E (channelButtonId input.yfChannel) (times.getPressDelay longPress) clock
      s i = (s.injectPress E times i longPress time).1 := by
  simp only [YfCoverUi.injectPress, hi, hbutton, hclock, and_self, if_true]
  rfl

/-! ### The two updates -/

section

variable {E : EmergencyReason} {times : PressTimes} {s : InputService} {i : ℕ} {a : Input}

/-- Products with 1000 do not wrap below the bound. -/
theorem toNat_mul_thousand {x : BitVec 32} (h : x.toNat * 1000 < 2 ^ 32) :
    (x * 1000#32).toNat = x.toNat * 1000 := by
  simp only [BitVec.toNat_mul, BitVec.toNat_ofNat, Nat.reducePow, Nat.reduceMod] at h ⊢
  omega

theorem PressTimes.Valid.debounce_lt (h : times.Valid) : times.debounce < times.longPress := by
  have hlt := h.lt
  have hlong := h.no_overflow
  have hshort : times.debounceTime.toNat * 1000 < 2 ^ 32 :=
    (Nat.mul_le_mul_right 1000 hlt.le).trans_lt hlong
  rw [BitVec.lt_def, debounce, longPress, toNat_mul_thousand hshort, toNat_mul_thousand hlong]
  exact Nat.mul_lt_mul_of_pos_right hlt (by decide)

/-- A press of the length that `GetPressDelay` gives has the type that was asked for. -/
theorem inputEvents_getPressDelay (h : times.Valid) (hidx : a.idx ≠ Input.virtualIdx)
    (longPress : Bool) :
    inputEvents times a false (times.getPressDelay longPress) =
      [(a.idx, .inactive), (a.idx, if longPress then .long else .short)] := by
  rw [inputEvents, if_neg hidx, if_neg (by simp)]
  cases longPress with
  | true => simp [PressTimes.getPressDelay]
  | false =>
    have hshort : ¬ times.longPress ≤ times.debounce := BitVec.not_le.mpr h.debounce_lt
    simp [PressTimes.getPressDelay, hshort]

/-- An update that changes nothing. -/
theorem updateEvents_of_none (hi : s.allInputs[i]? = some a) {newActive : Bool}
    {time predate : Micros} (h : a.active = a.applyInvert newActive) :
    s.updateEvents E times i newActive time predate = (s, []) := by
  have hnone : a.update newActive time predate = none := Input.update_eq_none.mpr h
  simp only [InputService.updateEvents, InputService.update, hi, hnone]

/-- An update that gets through. -/
theorem update_of_change {newActive : Bool} {time predate : Micros}
    (h : a.active = !a.applyInvert newActive) :
    a.update newActive time predate =
      some ({ a with active := a.applyInvert newActive }.recordEdge (a.applyInvert newActive)
          (time - predate), a.applyInvert newActive,
        if a.applyInvert newActive then 0#32 else time - predate - a.activeSince) := by
  simp only [Input.update, Input.exchangeActive, if_pos h, Option.map_some, Input.activeDuration]

/-- The service after it, and the events. -/
theorem updateEvents_of_change (h : Configured E s) (hi : s.allInputs[i]? = some a)
    (hreal : a.idx ≠ Input.virtualIdx) {newActive : Bool} {time predate : Micros}
    (hchange : a.active = !a.applyInvert newActive) :
    ∃ b, Configured E (s.updateEvents E times i newActive time predate).1 ∧
      (s.updateEvents E times i newActive time predate).1.allInputs[i]? = some b ∧
      Input.SameConfig b a ∧ b.active = a.applyInvert newActive ∧
      b.activeSince = (if a.applyInvert newActive then time - predate else a.activeSince) ∧
      (s.updateEvents E times i newActive time predate).2 =
        inputEvents times b (a.applyInvert newActive)
          (if a.applyInvert newActive then 0#32 else time - predate - a.activeSince) := by
  have hu := @update_of_change a newActive time predate hchange
  have hself := getElem?_update_self h hi hreal newActive time predate
  rw [hu, Option.map_some, Option.getD_some] at hself
  refine ⟨_, (update_spec h hi hreal newActive time predate).1, hself, Input.update_sameConfig hu,
    Input.update_active hu, Input.update_activeSince hu, ?_⟩
  simp only [InputService.updateEvents, hi, hu]

/-- **A press of an input that is not inverted** is one press. -/
theorem isOnePress_of_not_invert (h : Configured E s) (htimes : times.Valid)
    (hi : s.allInputs[i]? = some a) (hreal : a.idx ≠ Input.virtualIdx) (hactive : a.active = false)
    (hinvert : a.invert = false) (longPress : Bool) (time : Micros) :
    s.IsOnePress E times i longPress time ∧
      ∃ c, (s.injectPress E times i longPress time).1.allInputs[i]? = some c ∧
        Input.SameConfig c a ∧ c.active = false ∧
          Configured E (s.injectPress E times i longPress time).1 := by
  have hlevel : ∀ newActive, a.applyInvert newActive = newActive := fun newActive => by
    rw [Input.applyInvert, hinvert]
    rfl
  obtain ⟨b, hconfigured, hb, hconf, hset, hsince, hrise⟩ :=
    @updateEvents_of_change E times s i a h hi hreal true time (times.getPressDelay longPress)
      (by rw [hlevel, hactive]; rfl)
  rw [hlevel] at hset hsince hrise
  have hlevel' : ∀ newActive, b.applyInvert newActive = newActive := fun newActive => by
    rw [Input.applyInvert, hconf.2.1, hinvert]
    rfl
  have hreal' : b.idx ≠ Input.virtualIdx := hconf.1 ▸ hreal
  obtain ⟨c, hconfigured', hc, hconf', hreset, -, hfall⟩ :=
    @updateEvents_of_change E times _ i b hconfigured hb hreal' false time 0#32
      (by rw [hlevel', hset]; rfl)
  rw [hlevel'] at hreset hfall
  have hreal'' : c.idx ≠ Input.virtualIdx := hconf'.1 ▸ hreal'
  -- both clock readings cancel, and the length of the press is what it was set back by
  have hduration : time - 0#32 - b.activeSince = times.getPressDelay longPress := by
    rw [hsince, if_pos rfl]
    generalize times.getPressDelay longPress = delay
    bv_omega
  rw [if_neg (by simp), hduration, inputEvents_getPressDelay htimes hreal'' longPress] at hfall
  refine ⟨⟨c, hc, hreset, ?_⟩, c, hc, hconf'.trans hconf, hreset, hconfigured'⟩
  simp only [InputService.injectPress, hrise, hfall, inputEvents, if_neg hreal', if_true,
    hconf'.1, List.cons_append, List.nil_append]

/-- A press of an inverted input only activates it. -/
theorem injectPress_of_invert (h : Configured E s) (hi : s.allInputs[i]? = some a)
    (hreal : a.idx ≠ Input.virtualIdx) (hactive : a.active = false) (hinvert : a.invert = true)
    (longPress : Bool) (time : Micros) :
    (s.injectPress E times i longPress time).2 = [(a.idx, .active)] ∧
      ∃ b, (s.injectPress E times i longPress time).1.allInputs[i]? = some b ∧
        b.active = true := by
  have hlevel : ∀ newActive, a.applyInvert newActive = !newActive := fun newActive => by
    rw [Input.applyInvert, hinvert]
    rfl
  have hfirst : s.updateEvents E times i true time (times.getPressDelay longPress) = (s, []) :=
    updateEvents_of_none hi (by rw [hlevel, hactive]; rfl)
  obtain ⟨b, -, hb, hconf, hset, -, hrise⟩ :=
    @updateEvents_of_change E times s i a h hi hreal false time 0#32
      (by rw [hlevel, hactive]; rfl)
  rw [hlevel] at hset hrise
  refine ⟨?_, b, ?_, hset⟩
  · simp only [InputService.injectPress, hfirst, hrise, inputEvents, if_neg hreal,
      Bool.not_false, if_true, hconf.1, List.nil_append]
  · simp only [InputService.injectPress, hfirst, hb]

end

/-! ### Configured inputs -/

/-- A reachable service with an input that is not virtual has been configured. -/
theorem configured_of_reachable {env : InputConfigEnv} {s : InputLists}
    (h : (inputListsMachine env).Reachable s) {i : ℕ} {a : Input}
    (hi : s.service.allInputs[i]? = some a) : Configured env.reason s.service := by
  have hinv : InputListsInv env s :=
    h.invariant (fun _ hinit => .of_init hinit) fun _ _ _ hI hs => hI.step hs
  rcases hinv.configured with hempty | hconfigured
  · simp [hempty] at hi
  · exact hconfigured

/-- **When an injected press is one press.** For every configured input that is inactive, two
injected presses, short or long, give one press each exactly if the input is not inverted. -/
theorem injectPress_iff (env : InputConfigEnv) (s : InputLists)
    (h : (inputListsMachine env).Reachable s) (times : PressTimes) (htimes : times.Valid) (i : ℕ)
    (a : Input) (hi : s.service.allInputs[i]? = some a) (hreal : a.idx ≠ Input.virtualIdx)
    (hactive : a.active = false) (longPress longPress' : Bool) (time time' : Micros) :
    (s.service.IsOnePress env.reason times i longPress time ∧
      (s.service.injectPress env.reason times i longPress time).1.IsOnePress env.reason times i
        longPress' time') ↔ a.invert = false := by
  have hconfigured := configured_of_reachable h hi
  constructor
  · rintro ⟨⟨b, -, -, hevents⟩, -⟩
    by_contra hinvert
    obtain ⟨honly, -⟩ := @injectPress_of_invert env.reason times s.service i a hconfigured hi hreal
      hactive (by simpa using hinvert) longPress time
    rw [honly] at hevents
    simp at hevents
  · intro hinvert
    obtain ⟨hfirst, b, hb, hconf, hinactive, hconfigured'⟩ :=
      isOnePress_of_not_invert hconfigured htimes hi hreal hactive hinvert longPress time
    obtain ⟨hsecond, -⟩ := isOnePress_of_not_invert hconfigured' htimes hb (hconf.1 ▸ hreal)
      hinactive (hconf.2.1.trans hinvert) longPress' time'
    exact ⟨hfirst, hsecond⟩

/-- A document with a button of the panel that is inverted. -/
def invertedButtonDocument : List (String × List JsonEvent) :=
  [("\x7b", [jsonEvent 0 .object "" "" ""]),
    ("\"yf_cover_ui\":", [jsonEvent 1 .key "yf_cover_ui" "" ""]),
    ("[", [jsonEvent 2 .array "" "" ""]), ("\x7b", [jsonEvent 3 .object "" "" ""])] ++
    textPieces "channel" "button" ++
    [("\"invert\":", [jsonEvent 4 .key "invert" "invert" ""]),
      ("true", [jsonEvent 5 .true "" "invert" ""]),
      ("\x7d", [jsonEvent 3 .objectEnd "" "" ""]), ("]", [jsonEvent 2 .arrayEnd "" "" ""]),
      ("\x7d", [jsonEvent 0 .objectEnd "" "" ""])]

/-- The service of a panel with this button. -/
def invertedButtonMachine : StateMachine InputLists InputListsEvent :=
  inputListsMachine (panelEnv gpioEnv fun _ => none)

/-- The panel is configured. -/
def invertedButtonRun : List InputListsEvent :=
  [.configure 10#16 10#16 (replayParser invertedButtonDocument)
    (piecesText invertedButtonDocument)]

/-- The button becomes active with its first press, and stays active. -/
theorem injectPress_invertedButton :
    ∃ s a, invertedButtonMachine.Reachable s ∧ s.service.inputsConfigured = true ∧
      s.service.allInputs[2]? = some a ∧ YfCoverUi.channelIsButton a.yfChannel = true ∧
        a.active = false ∧ (PressTimes.mk 1000#32 50#32).Valid ∧
          (s.service.injectPress .standard ⟨1000#32, 50#32⟩ 2 false 5000000#32).2 =
            [(0#8, .active)] ∧
          ¬ s.service.IsOnePress .standard ⟨1000#32, 50#32⟩ 2 false 5000000#32 := by
  have hvalues : (invertedButtonMachine.run bootedLists invertedButtonRun).map (fun s =>
      (s.service.inputsConfigured, s.service.allInputs[2]?,
        (s.service.injectPress .standard ⟨1000#32, 50#32⟩ 2 false 5000000#32).2)) =
      some (true, some { idx := 0#8, invert := true, driverData := 0x80#64 },
        [(0#8, .active)]) := by decide +kernel
  obtain ⟨s, hrun, hs⟩ := Option.map_eq_some_iff.mp hvalues
  simp only [Prod.mk.injEq] at hs
  obtain ⟨hok, hinput, hevents⟩ := hs
  have hinit : invertedButtonMachine.Reachable bootedLists := .init ⟨rfl, fun _ => rfl⟩
  refine ⟨s, _, hinit.run hrun, hok, hinput, by decide, rfl, ⟨by decide, by decide, by decide⟩,
    hevents, ?_⟩
  rintro ⟨b, -, -, hpress⟩
  rw [hevents] at hpress
  simp at hpress

/-- An input of the example document, which is not inverted, is pressed twice. -/
theorem injectPress_iff_liftDocument :
    ∃ s, (inputListsMachine gpioEnv).run bootedLists [.configure 10#16 10#16
        (replayParser liftDocument) (piecesText liftDocument)] = some s ∧
      (s.service.IsOnePress .standard ⟨1000#32, 50#32⟩ 2 true 7#32 ∧
        (s.service.injectPress .standard ⟨1000#32, 50#32⟩ 2 true 7#32).1.IsOnePress .standard
          ⟨1000#32, 50#32⟩ 2 false 9#32) := by
  have hvalues : ((inputListsMachine gpioEnv).run bootedLists [.configure 10#16 10#16
      (replayParser liftDocument) (piecesText liftDocument)]).map
        (fun s => s.service.allInputs[2]?) =
      some (some { idx := 0#8, redundancyGroup := 1#8, emergencyReason := 0x22#16 }) := by
    decide +kernel
  obtain ⟨s, hrun, hinput⟩ := Option.map_eq_some_iff.mp hvalues
  have hinit : (inputListsMachine gpioEnv).Reachable bootedLists := .init ⟨rfl, fun _ => rfl⟩
  exact ⟨s, hrun, (injectPress_iff gpioEnv s (hinit.run hrun) ⟨1000#32, 50#32⟩
    ⟨by decide, by decide, by decide⟩ 2 _ hinput (by decide) rfl true false 7#32 9#32).mpr rfl⟩

end OpenMower
