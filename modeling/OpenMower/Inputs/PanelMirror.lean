import OpenMower.Drivers.YfCoverUi
import OpenMower.Inputs.LiftCounting

/-!
# The inputs of the cover UI mirror the panel

`YFCoverUI` keeps the last emergency byte of the panel and sets its inputs whenever the byte
changes. A configuration replaces the inputs by new, inactive ones, and nobody applies the byte
to them. So the inputs mirror the panel along a run exactly if each configuration is one whose
inputs happen to be inactive for the byte that the driver has (`panel_mirror_iff`).

`PanelConfig` is a configuration that also records which inputs are added to the panel's list.
-/

namespace OpenMower

open YfCoverUi

/-! ### Configuration -/

/-- The name that `YFCoverUI` is registered with. -/
def panelName : CString := "yf_cover_ui".toList

/-- An environment in which the panel is registered. -/
def panelEnv (env : InputConfigEnv) (toArithmetic : CString → Option (BitVec 8)) :
    InputConfigEnv :=
  { env with drivers := (panelName, YfCoverUi.inputDriver toArithmetic) :: env.drivers }

/-- The state of a configuration, with the inputs of the panel. -/
structure PanelConfig where
  config : InputConfig
  /-- `data->driver` is the panel. -/
  driverIsPanel : Bool
  /-- The list of the panel, which `AddInput` appends to. -/
  inputs : List ℕ

namespace PanelConfig

/-- `InputConfigsJsonCallback` with the `AddInput` calls for the panel. -/
def callback (env : InputConfigEnv) (s : PanelConfig) (event : JsonEvent) : Bool × PanelConfig :=
  let (ok, config) := s.config.inputConfigsJsonCallback env event
  (ok, match event.stackPos with
    | 1 => { s with
        config := config
        driverIsPanel := config.driver.isSome && decide (event.buff = panelName) }
    | 3 =>
      if event.type = .object ∧ s.driverIsPanel = true ∧
          s.config.service.allInputs.length ≠ InputConfig.maxInputs then
        { s with config := config, inputs := s.inputs ++ [s.config.service.allInputs.length] }
      else { s with config := config }
    | _ => { s with config := config })

/-- `ClearInputs`, then as in `InputConfig.start`. -/
def start (env : InputConfigEnv) : PanelConfig where
  config := .start env
  driverIsPanel := false
  inputs := []

/-- The inputs that the document gives to the panel. -/
def panelInputs (s : PanelConfig) : List Input :=
  s.inputs.filterMap (s.config.service.allInputs[·]?)

end PanelConfig

/-- `OnRegisterInputConfigsChanged` with the list of the panel. -/
def configurePanel (env : InputConfigEnv) (parser : JsonParser) (json : CString) :
    Bool × PanelConfig :=
  let (ok, s) := processJson (PanelConfig.callback env) parser parser.init json
    { data := PanelConfig.start env }
  (ok, { s with config :=
    { s.config with service := { s.config.service with inputsConfigured := ok } } })

variable {env : InputConfigEnv} {parser : JsonParser} {json : CString}

/-- Recording the list does not change the configuration. -/
theorem configurePanel_config (env : InputConfigEnv) (parser : JsonParser) (json : CString) :
    onRegisterInputConfigsChanged env parser json =
      ((configurePanel env parser json).1, (configurePanel env parser json).2.config) := by
  have hpart : ∀ (t : PanelConfig) event, t.config.inputConfigsJsonCallback env event =
      ((t.callback env event).1, (t.callback env event).2.config) := by
    intro t event
    simp only [PanelConfig.callback]
    split
    · rfl
    · split <;> rfl
    · rfl
  have hmap := processJson_map hpart parser parser.init json { data := PanelConfig.start env }
  simp only [onRegisterInputConfigsChanged, configurePanel]
  rw [show InputConfig.start env = (PanelConfig.start env).config from rfl, hmap]

/-- The panel never gets a virtual input. -/
theorem PanelConfig.two_le_inputs {i : ℕ}
    (hi : i ∈ (configurePanel env parser json).2.inputs) : 2 ≤ i := by
  have hinv := @processJson_invariant _ (PanelConfig.callback env)
    (fun s => InputConfig.ConfigInv env s.config ∧ ∀ i ∈ s.inputs, 2 ≤ i) ?_
    parser parser.init json { data := PanelConfig.start env }
    ⟨.of_start, by simp [PanelConfig.start]⟩
  · exact hinv.2 i hi
  · rintro s event ⟨hconfig, htwo⟩
    have hnext := hconfig.inputConfigsJsonCallback event
    simp only [PanelConfig.callback]
    split
    · exact ⟨hnext, htwo⟩
    · split
      -- the new input comes after the virtual ones
      · refine ⟨hnext, fun i hi => ?_⟩
        rcases List.mem_append.mp hi with hi | hi
        · exact htwo i hi
        · obtain ⟨v, hv, -⟩ := hconfig.configured.virtual 1 (by omega)
          obtain ⟨hlt, -⟩ := List.getElem?_eq_some_iff.mp hv
          rw [List.mem_singleton.mp hi]
          omega
      · exact ⟨hnext, htwo⟩
    · exact ⟨hnext, htwo⟩

/-! ### The loops over the inputs -/

section

variable {E : EmergencyReason}

/-- What the input shows agrees with the byte of the panel. -/
def ShowsPanel (state : BitVec 8) (input : Input) : Prop :=
  isEmergencyChannel input = true →
    input.active = (state.getLsbD input.yfChannel.toNat ^^ input.invert)

/-- Apart from the virtual inputs, only the input at position `i` may have changed. -/
structure SetsInput (E : EmergencyReason) (i : ℕ) (s s' : InputService) : Prop where
  configured : Configured E s'
  others : ∀ j, 2 ≤ j → j ≠ i → s'.allInputs[j]? = s.allInputs[j]?

theorem SetsInput.refl {s : InputService} (h : Configured E s) (i : ℕ) : SetsInput E i s s :=
  ⟨h, fun _ _ _ => rfl⟩

theorem SetsInput.trans {i : ℕ} {s₁ s₂ s₃ : InputService} (h : SetsInput E i s₁ s₂)
    (h' : SetsInput E i s₂ s₃) : SetsInput E i s₁ s₃ :=
  ⟨h'.configured, fun j hj hji => (h'.others j hj hji).trans (h.others j hj hji)⟩

/-- An update of an input that is not a virtual one. -/
theorem SetsInput.of_update {s : InputService} (h : Configured E s) {i : ℕ} {a : Input}
    (hi : s.allInputs[i]? = some a) (htwo : 2 ≤ i) (newActive : Bool) (time predate : Micros) :
    SetsInput E i s (s.update E i newActive time predate) := by
  obtain ⟨hconfigured, -, -, hothers⟩ :=
    update_spec h hi (h.real i a htwo hi) newActive time predate
  exact ⟨hconfigured, hothers⟩

/-- The body of the loop in `UpdateEmergencyInputs`: its input shows the byte afterwards. -/
theorem updateEmergencyInput_spec {s : InputService} (h : Configured E s) {i : ℕ} (htwo : 2 ≤ i)
    (state : BitVec 8) (clock : ℕ → Micros) :
    SetsInput E i s (updateEmergencyInput E state clock s i) ∧
      ∀ b, (updateEmergencyInput E state clock s i).allInputs[i]? = some b →
        ShowsPanel state b := by
  rw [updateEmergencyInput]
  split
  · next hnone => exact ⟨.refl h i, by simp [hnone]⟩
  next a hi =>
  split
  · next hflags =>
    refine ⟨.refl h i, fun b hb hchannel => ?_⟩
    obtain rfl : a = b := Option.some.inj (hi.symm.trans hb)
    simp [isEmergencyChannel, hflags] at hchannel
  split
  · next hbutton =>
    refine ⟨.refl h i, fun b hb hchannel => ?_⟩
    obtain rfl : a = b := Option.some.inj (hi.symm.trans hb)
    simp [isEmergencyChannel, hbutton] at hchannel
  · refine ⟨.of_update h hi htwo _ _ _, fun b hb _ => ?_⟩
    rw [getElem?_update_self h hi (h.real i a htwo hi)] at hb
    obtain rfl := Option.some.inj hb
    obtain ⟨⟨-, hinvert, -⟩, hactive⟩ := @Input.getD_update a
      (channelBit state a.yfChannel) (clock i) 0#32
    rw [hactive, hinvert, a.getD_update_yfChannel, channelBit_eq, Input.applyInvert]
    cases a.invert <;> simp

/-- **`UpdateEmergencyInputs`** makes all inputs of the list show the byte. -/
theorem updateEmergencyInputs_spec {ui : YfCoverUi} (htwo : ∀ i ∈ ui.inputs, 2 ≤ i)
    (clock : ℕ → Micros) {s : InputService} (h : Configured E s) :
    Configured E (ui.updateEmergencyInputs E clock s) ∧
      ∀ i ∈ ui.inputs, ∀ b, (ui.updateEmergencyInputs E clock s).allInputs[i]? = some b →
        ShowsPanel ui.emergencyState b := by
  -- an input that comes again later in the list is updated again
  have hfold : ∀ (positions : List ℕ) (s : InputService), (∀ i ∈ positions, 2 ≤ i) →
      Configured E s →
      Configured E (positions.foldl (updateEmergencyInput E ui.emergencyState clock) s) ∧
      ∀ j, 2 ≤ j → ∀ b,
        (positions.foldl (updateEmergencyInput E ui.emergencyState clock) s).allInputs[j]? =
          some b →
        if j ∈ positions then ShowsPanel ui.emergencyState b else s.allInputs[j]? = some b := by
    intro positions
    induction positions with
    | nil => exact fun s _ h => ⟨h, fun j _ b hb => by simpa using hb⟩
    | cons i positions ih =>
      intro s htwo h
      obtain ⟨hsets, hshows⟩ :=
        updateEmergencyInput_spec h (htwo i List.mem_cons_self) ui.emergencyState clock
      obtain ⟨hconfigured, hrest⟩ :=
        ih _ (fun j hj => htwo j (List.mem_cons_of_mem i hj)) hsets.configured
      refine ⟨hconfigured, fun j hj b hb => ?_⟩
      have hlater := hrest j hj b hb
      by_cases hmem : j ∈ positions
      · rw [if_pos hmem] at hlater
        rw [if_pos (List.mem_cons_of_mem i hmem)]
        exact hlater
      rw [if_neg hmem] at hlater
      by_cases heq : j = i
      · subst heq
        rw [if_pos List.mem_cons_self]
        exact hshows b hlater
      · rw [if_neg (by simp [heq, hmem]), ← hsets.others j hj heq]
        exact hlater
  obtain ⟨hconfigured, hshows⟩ := hfold ui.inputs s htwo h
  refine ⟨hconfigured, fun i hi b hb => ?_⟩
  have hb' := hshows i (htwo i hi) b hb
  rwa [if_pos hi] at hb'

/-- The emergency channels are as they were. -/
structure KeepsChannels (E : EmergencyReason) (s s' : InputService) : Prop where
  configured : Configured E s'
  kept : ∀ j, 2 ≤ j → ∀ b, s'.allInputs[j]? = some b → isEmergencyChannel b = true →
    s.allInputs[j]? = some b

/-- A press of a button concerns no emergency channel. -/
theorem injectPress_keepsChannels {s : InputService} (h : Configured E s) {i : ℕ} (htwo : 2 ≤ i)
    (buttonId : BitVec 8) (duration : Micros) (clock : ℕ → Micros × Micros) :
    KeepsChannels E s (injectPress E buttonId duration clock s i) := by
  rw [injectPress]
  split
  · exact ⟨h, fun _ _ _ hb _ => hb⟩
  next a hi =>
  split
  · next hbutton =>
    have hpressed : SetsInput E i s (s.update E i true (clock i).1 duration) :=
      .of_update h hi htwo _ _ _
    have hself := getElem?_update_self h hi (h.real i a htwo hi) true (clock i).1 duration
    have hreleased := SetsInput.of_update hpressed.configured hself htwo false (clock i).2 0#32
    have hself' := getElem?_update_self hpressed.configured hself
      (hpressed.configured.real i _ htwo hself) false (clock i).2 0#32
    refine ⟨hreleased.configured, fun j hj b hb hchannel => ?_⟩
    by_cases hji : j = i
    · subst hji
      rw [hself'] at hb
      obtain rfl := Option.some.inj hb
      rw [isEmergencyChannel, Input.getD_update_yfChannel, Input.getD_update_yfChannel,
        hbutton.1, Bool.not_true, Bool.and_false] at hchannel
      exact absurd hchannel Bool.false_ne_true
    · rwa [hreleased.others j hj hji, hpressed.others j hj hji] at hb
  · exact ⟨h, fun _ _ _ hb _ => hb⟩

theorem handleButton_keepsChannels {ui : YfCoverUi} (htwo : ∀ i ∈ ui.inputs, 2 ≤ i)
    (pressDelay : Bool → Micros) (buttonId : BitVec 16) (pressDuration : BitVec 8)
    (clock : ℕ → Micros × Micros) {s : InputService} (h : Configured E s) :
    KeepsChannels E s (ui.handleButton E pressDelay buttonId pressDuration clock s) := by
  rw [YfCoverUi.handleButton]
  refine List.foldlRecOn ui.inputs _ ⟨h, fun _ _ _ hb _ => hb⟩ fun s' hs' i hi => ?_
  have hstep := injectPress_keepsChannels hs'.configured (htwo i hi)
    (buttonId.setWidth 8 &&& 0x7F#8) (pressDelay (decide (1#8 ≤ pressDuration))) clock
  exact ⟨hstep.configured, fun j hj b hb hchannel =>
    hs'.kept j hj b (hstep.kept j hj b hb hchannel) hchannel⟩

end

/-! ### Runs -/

/-- The panel's driver and the input service. -/
structure PanelState where
  ui : YfCoverUi
  service : InputService
  /-- History: an emergency message has been received. -/
  emergencySeen : Bool

/-- What happens to the driver: messages of the panel, the poll for the version and its timeout,
and configurations. The clocks give the readings of the updates. -/
inductive PanelEvent
  | version
  | button (buttonId : BitVec 16) (pressDuration : BitVec 8) (clock : ℕ → Micros × Micros)
  | emergency (state : BitVec 8) (clock : ℕ → Micros)
  | versionPoll
  | versionTimeout (clock : ℕ → Micros)
  | configure (json : CString)

/-- Every emergency channel of the panel shows the panel's byte. -/
def PanelState.Mirrors (s : PanelState) : Prop :=
  ∀ i ∈ s.ui.inputs, ∀ input, s.service.allInputs[i]? = some input →
    ShowsPanel s.ui.emergencyState input

variable {pressDelay : Bool → Micros}

/-- The panel's messages, the timeouts and the accepted configurations, from the boot on. The
panel is registered in `env`, as it is in `panelEnv`. -/
def panelMachine (env : InputConfigEnv) (parser : JsonParser) (pressDelay : Bool → Micros) :
    StateMachine PanelState PanelEvent where
  Init s := s.ui = {} ∧ s.service.allInputs = [] ∧ s.emergencySeen = false
  step s
    | .version => some { s with ui := s.ui.handleVersion }
    | .button buttonId pressDuration clock =>
      some { s with
        service := s.ui.handleButton env.reason pressDelay buttonId pressDuration clock s.service }
    | .emergency state clock =>
      let (ui, service) := s.ui.handleEmergency env.reason state clock s.service
      some { ui := ui, service := service, emergencySeen := true }
    | .versionPoll => some { s with ui := { s.ui with versionPending := true } }
    | .versionTimeout clock =>
      if s.ui.versionPending then
        let (ui, service) := s.ui.versionTimeout env.reason clock s.service
        some { s with ui := ui, service := service }
      else none
    | .configure json =>
      let (ok, c) := configurePanel env parser json
      if ok then
        some { s with ui := { s.ui with inputs := c.inputs }, service := c.config.service }
      else none

/-- The inputs of the panel are no virtual inputs of the configured service. -/
structure PanelInv (E : EmergencyReason) (s : PanelState) : Prop where
  two_le : ∀ i ∈ s.ui.inputs, 2 ≤ i
  configured : s.ui.inputs ≠ [] → Configured E s.service

/-- Loops over an empty list do nothing, so that the service need not be configured. -/
theorem PanelInv.updateEmergencyInputs {E : EmergencyReason} {s : PanelState}
    (h : PanelInv E s) {ui : YfCoverUi} (hui : ui.inputs = s.ui.inputs) (clock : ℕ → Micros)
    {seen : Bool} :
    PanelInv E ⟨ui, ui.updateEmergencyInputs E clock s.service, seen⟩ ∧
      PanelState.Mirrors ⟨ui, ui.updateEmergencyInputs E clock s.service, seen⟩ := by
  have htwo : ∀ i ∈ ui.inputs, 2 ≤ i := hui ▸ h.two_le
  by_cases hnil : ui.inputs = []
  · refine ⟨⟨htwo, fun hne => absurd hnil hne⟩, fun i hi => ?_⟩
    simp [hnil] at hi
  · have hspec := updateEmergencyInputs_spec htwo clock (h.configured (hui ▸ hnil))
    exact ⟨⟨htwo, fun _ => hspec.1⟩, hspec.2⟩

theorem PanelInv.handleButton {E : EmergencyReason} {s : PanelState} (h : PanelInv E s)
    (buttonId : BitVec 16) (pressDuration : BitVec 8) (clock : ℕ → Micros × Micros)
    {seen : Bool} (hseen : seen = true → s.Mirrors) :
    PanelInv E ⟨s.ui, s.ui.handleButton E pressDelay buttonId pressDuration clock s.service,
        seen⟩ ∧
      (seen = true → PanelState.Mirrors
        ⟨s.ui, s.ui.handleButton E pressDelay buttonId pressDuration clock s.service, seen⟩) := by
  by_cases hnil : s.ui.inputs = []
  · refine ⟨⟨h.two_le, fun hne => absurd hnil hne⟩, fun _ i hi => ?_⟩
    simp [hnil] at hi
  · have hkeeps := handleButton_keepsChannels h.two_le pressDelay buttonId pressDuration clock
      (h.configured hnil)
    refine ⟨⟨h.two_le, fun _ => hkeeps.configured⟩, fun hs i hi b hb hchannel => ?_⟩
    exact hseen hs i hi b (hkeeps.kept i (h.two_le i hi) b hb hchannel) hchannel

/-- The byte agrees with the inputs of a configuration as long as they are inactive. -/
def PanelConfig.AgreesWith (state : BitVec 8) (c : PanelConfig) : Prop :=
  ∀ input ∈ c.panelInputs, isEmergencyChannel input = true →
    state.getLsbD input.yfChannel.toNat = input.invert

/-- After a configuration, which leaves all inputs inactive, the inputs mirror the panel exactly
if the byte agrees with them. -/
theorem configurePanel_spec (s : PanelState) :
    PanelInv env.reason ⟨{ s.ui with inputs := (configurePanel env parser json).2.inputs },
        (configurePanel env parser json).2.config.service, s.emergencySeen⟩ ∧
      (PanelState.Mirrors ⟨{ s.ui with inputs := (configurePanel env parser json).2.inputs },
          (configurePanel env parser json).2.config.service, s.emergencySeen⟩ ↔
        (configurePanel env parser json).2.AgreesWith s.ui.emergencyState) := by
  obtain ⟨hconfigured, hinactive, -⟩ :=
    onRegisterInputConfigsChanged_spec (configurePanel_config env parser json)
  refine ⟨⟨fun i hi => PanelConfig.two_le_inputs hi, fun _ => hconfigured⟩, ?_⟩
  have hinput : ∀ (input : Input),
      input ∈ (configurePanel env parser json).2.config.service.allInputs →
      (ShowsPanel s.ui.emergencyState input ↔ (isEmergencyChannel input = true →
        s.ui.emergencyState.getLsbD input.yfChannel.toNat = input.invert)) := by
    intro input hmem
    rw [ShowsPanel, hinactive.inputs input hmem]
    cases s.ui.emergencyState.getLsbD input.yfChannel.toNat <;> cases input.invert <;> simp
  constructor
  · intro hmirrors input hmem
    obtain ⟨i, hi, hget⟩ := List.mem_filterMap.mp hmem
    exact (hinput input (List.mem_of_getElem? hget)).mp (hmirrors i hi input hget)
  · intro hagrees i hi input hget
    refine (hinput input (List.mem_of_getElem? hget)).mpr (hagrees input ?_)
    exact List.mem_filterMap.mpr ⟨i, hi, hget⟩

/-- After the step the inputs mirror the panel, if there has been an emergency message. -/
def MirrorsAfter (_ : PanelState) (_ : PanelEvent) (s' : PanelState) : Prop :=
  s'.emergencySeen = true → s'.Mirrors

/-- A configuration after an emergency message agrees with the byte that the driver has. -/
def ConfigurationAgrees (env : InputConfigEnv) (parser : JsonParser) (s : PanelState)
    (e : PanelEvent) (_ : PanelState) : Prop :=
  ∀ json, e = .configure json → s.emergencySeen = true →
    (configurePanel env parser json).2.AgreesWith s.ui.emergencyState

/-- One step: the invariant is kept, and the inputs go on mirroring the panel exactly if a
configuration agrees with the byte. -/
theorem PanelInv.step {s s' : PanelState} {e : PanelEvent} (h : PanelInv env.reason s)
    (hs : (panelMachine env parser pressDelay).step s e = some s') :
    PanelInv env.reason s' ∧ (MirrorsAfter s e s' → ConfigurationAgrees env parser s e s') ∧
      ((s.emergencySeen = true → s.Mirrors) → ConfigurationAgrees env parser s e s' →
        MirrorsAfter s e s') := by
  cases e with
  | version =>
    obtain rfl := Option.some.inj hs
    exact ⟨⟨h.two_le, h.configured⟩, fun _ => nofun, fun hseen _ => hseen⟩
  | button buttonId pressDuration clock =>
    obtain rfl := Option.some.inj hs
    refine ⟨?_, fun _ => nofun, fun hseen _ => ?_⟩
    · have hunseen : false = true → s.Mirrors := nofun
      obtain ⟨hinv, -⟩ :=
        @PanelInv.handleButton pressDelay _ s h buttonId pressDuration clock false hunseen
      exact ⟨hinv.two_le, hinv.configured⟩
    · exact (h.handleButton buttonId pressDuration clock hseen).2
  | emergency state clock =>
    obtain rfl := Option.some.inj hs
    obtain ⟨hinv, hmirrors⟩ := @PanelInv.updateEmergencyInputs _ s h
      { s.ui with emergencyState := state } rfl clock true
    exact ⟨hinv, fun _ => nofun, fun _ _ _ => hmirrors⟩
  | versionPoll =>
    obtain rfl := Option.some.inj hs
    exact ⟨⟨h.two_le, h.configured⟩, fun _ => nofun, fun hseen _ => hseen⟩
  | versionTimeout clock =>
    simp only [panelMachine, Option.ite_none_right_eq_some, Option.some.injEq] at hs
    obtain ⟨-, rfl⟩ := hs
    rw [YfCoverUi.versionTimeout]
    split
    · obtain ⟨hinv, hmirrors⟩ := @PanelInv.updateEmergencyInputs _ s h
        { s.ui with uiAvailable := false, emergencyState := 0#8 } rfl clock s.emergencySeen
      exact ⟨⟨hinv.two_le, hinv.configured⟩, fun _ => nofun, fun _ _ _ => hmirrors⟩
    · exact ⟨⟨h.two_le, h.configured⟩, fun _ => nofun, fun hseen _ => hseen⟩
  | configure json =>
    simp only [panelMachine, Option.ite_none_right_eq_some, Option.some.injEq] at hs
    obtain ⟨-, rfl⟩ := hs
    obtain ⟨hinv, hmirrors⟩ := @configurePanel_spec env parser json s
    refine ⟨hinv, fun hafter json' heq hseen => ?_, fun _ hagrees hseen => ?_⟩
    · obtain rfl := PanelEvent.configure.inj heq
      exact hmirrors.mp (hafter hseen)
    · exact hmirrors.mpr (hagrees json rfl hseen)

/-- What holds between the steps of a run whose configurations agree with the byte. -/
structure MirrorInv (E : EmergencyReason) (s : PanelState) : Prop where
  panel : PanelInv E s
  mirrors : s.emergencySeen = true → s.Mirrors

/-- **The panel is mirrored.** In every run from the boot, the emergency inputs mirror the panel
in every state after the first emergency message if and only if each configuration after it is
one in which every emergency channel of the panel is inverted exactly if its bit is set. -/
theorem panel_mirror_iff {s : PanelState} (h : (panelMachine env parser pressDelay).Init s)
    (es : List PanelEvent) :
    (panelMachine env parser pressDelay).EveryStep MirrorsAfter s es ↔
      (panelMachine env parser pressDelay).EveryStep (ConfigurationAgrees env parser) s es := by
  obtain ⟨hui, -, hseen⟩ := h
  have hinv : PanelInv env.reason s := by
    constructor <;> simp [hui]
  constructor
  · intro hmirror
    refine hmirror.imp hinv fun s e s' hI hs hafter => ?_
    obtain ⟨hI', hagrees, -⟩ := hI.step hs
    exact ⟨hI', hagrees hafter⟩
  · intro hagree
    have hunseen : MirrorInv env.reason s := ⟨hinv, fun hs => by simp [hseen] at hs⟩
    refine hagree.imp hunseen fun s e s' hI hs hagrees => ?_
    obtain ⟨hI', -, hafter⟩ := hI.panel.step hs
    exact ⟨⟨hI', hafter hI.mirrors hagrees⟩, hafter hI.mirrors hagrees⟩

/-! ### An example -/

/-- The setup entry for the protocol, and a stop button. -/
def panelDocument : List (String × List JsonEvent) :=
  [("\x7b", [jsonEvent 0 .object "" "" ""]),
    ("\"yf_cover_ui\":", [jsonEvent 1 .key "yf_cover_ui" "" ""]),
    ("[", [jsonEvent 2 .array "" "" ""]), ("\x7b", [jsonEvent 3 .object "" "" ""])] ++
    textPieces "id" "protocol" ++ textPieces "value" "om" ++
    [("\x7d", [jsonEvent 3 .objectEnd "" "" ""]), (",", []),
      ("\x7b", [jsonEvent 3 .object "" "" ""])] ++
    textPieces "channel" "stop1" ++
    [("\"emergency\":", [jsonEvent 4 .key "emergency" "emergency" ""]),
      ("\x7b", [jsonEvent 5 .object "" "emergency" ""]),
      ("\"reason\":", [jsonEvent 6 .key "reason" "emergency" "reason"]),
      ("\"stop\"", [jsonEvent 7 .string "stop" "emergency" "reason"]),
      ("\x7d", [jsonEvent 5 .objectEnd "" "emergency" ""]),
      ("\x7d", [jsonEvent 3 .objectEnd "" "" ""]), ("]", [jsonEvent 2 .arrayEnd "" "" ""]),
      ("\x7d", [jsonEvent 0 .objectEnd "" "" ""])]

/-- The text of the document. -/
def panelJson : CString := panelDocument.flatMap fun piece => piece.1.toList

/-- The panel with this document. -/
def stopPanelMachine : StateMachine PanelState PanelEvent :=
  panelMachine (panelEnv gpioEnv fun _ => none) (replayParser panelDocument)
    fun long => if long then 1000000#32 else 50000#32

/-- After the boot nothing is configured. -/
def bootedPanel : PanelState where
  ui := {}
  service :=
    { allInputs := []
      numActiveLift := 0#8
      numActiveCollision := 0#8
      liftMultipleInput := 0
      collisionMultipleInput := 0
      redundancyGroupRefcount := fun _ => 0#8
      inputsConfigured := false }
  emergencySeen := false

/-- The panel is configured and reports the stop button. -/
def panelStopRun : List PanelEvent :=
  [.configure panelJson, .emergency 2#8 fun _ => 1000#32]

/-- After another configuration the stop input is inactive, though the driver still knows that
the button is pressed. -/
theorem panel_not_mirrored :
    stopPanelMachine.Init bootedPanel ∧
      ¬ stopPanelMachine.EveryStep MirrorsAfter bootedPanel
        (panelStopRun ++ [.configure panelJson]) := by
  refine ⟨⟨rfl, rfl, rfl⟩, fun hrun => ?_⟩
  have hvalues : (stopPanelMachine.run bootedPanel (panelStopRun ++ [.configure panelJson])).map
      (fun s => ((s.emergencySeen, s.ui.emergencyState, s.ui.inputs),
        s.service.allInputs[3]?.map fun input =>
          (isEmergencyChannel input, input.yfChannel, input.invert, input.active))) =
      some ((true, 2#8, [2, 3]), some (true, 1#8, false, false)) := by decide +kernel
  obtain ⟨s, hs, heq⟩ := Option.map_eq_some_iff.mp hvalues
  simp only [Prod.mk.injEq, Option.map_eq_some_iff] at heq
  obtain ⟨⟨hseen, hstate, hinputs⟩, input, hinput, hchannel, hbit, hinvert, hactive⟩ := heq
  rw [StateMachine.run_concat] at hs
  obtain ⟨s₁, hrun₁, hstep⟩ := Option.bind_eq_some_iff.mp hs
  have hmirrors := hrun.of_run hrun₁ hstep hseen
  have hshows := hmirrors 3 (by simp [hinputs]) input hinput hchannel
  rw [hstate, hbit, hinvert, hactive] at hshows
  exact absurd hshows (by decide)

/-- Up to there the input shows the button. -/
theorem panel_mirror_stopPressed :
    stopPanelMachine.EveryStep MirrorsAfter bootedPanel panelStopRun ↔
      stopPanelMachine.EveryStep
        (ConfigurationAgrees (panelEnv gpioEnv fun _ => none) (replayParser panelDocument))
        bootedPanel panelStopRun :=
  panel_mirror_iff ⟨rfl, rfl, rfl⟩ _

end OpenMower
