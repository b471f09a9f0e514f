import OpenMower.Drivers.CoverUiPanel

/-!
# The LEDs of a Series-II panel

Each LED is in the mode that `SetLed` gave it last: the three masks never share a bit. A refresh
shows the LEDs that are on and those whose kind of blinking is in its bright phase, beside exactly
one of the lines for the buttons. A phase lasts at least as long as its interval, and while an LED
blinks at every refresh no longer than to the first refresh an interval behind the last change and
the begin of the blinking, also when the clock wraps in between (`leds_show_modes`).
-/

namespace OpenMower

open ModularClock PolledTimer

/-- The bits of the mask are those of the LEDs in this mode. -/
def HasMode (mode : LedMode) (modes : LedId → LedMode) (mask : BitVec 16) : Prop :=
  ∀ b, mask.getLsbD b = true ↔ ∃ id, modes id = mode ∧ b = id.value

namespace Series2Ui

theorem getLsbD_mapLedIdToMask (id : LedId) (b : ℕ) :
    (mapLedIdToMask id).getLsbD b = decide (b = id.value) := by
  have hbits : ∀ b < 16, (mapLedIdToMask id).getLsbD b = decide (b = id.value) := by
    cases id <;> decide
  have hvalue : id.value < 16 := by cases id <;> decide
  by_cases hb : b < 16
  · exact hbits b hb
  · rw [BitVec.getLsbD_of_ge _ _ (by omega)]
    exact (decide_eq_false (by omega)).symm

end Series2Ui

theorem LedId.value_injective {id id' : LedId} (h : id.value = id'.value) : id = id' := by
  cases id <;> cases id' <;> first | rfl | exact absurd h (by decide)

theorem LedId.value_lt (id : LedId) : id.value < 5 := by
  cases id <;> decide

open Series2Ui

/-- **`SetLed`** for one of the masks. -/
theorem HasMode.set {mode : LedMode} {modes : LedId → LedMode} {mask : BitVec 16}
    (h : HasMode mode modes mask) (id : LedId) (newMode : LedMode) :
    HasMode mode (Function.update modes id newMode)
      (if newMode = mode then mask &&& ~~~mapLedIdToMask id ||| mapLedIdToMask id
        else mask &&& ~~~mapLedIdToMask id) := by
  intro b
  have hothers : (∃ id', Function.update modes id newMode id' = mode ∧ b = id'.value) ↔
      b = id.value ∧ newMode = mode ∨ b ≠ id.value ∧ mask.getLsbD b = true := by
    rw [h b]
    constructor
    · rintro ⟨id', hmode, rfl⟩
      by_cases heq : id' = id
      · subst heq
        rw [Function.update_self] at hmode
        exact .inl ⟨rfl, hmode⟩
      · rw [Function.update_of_ne heq] at hmode
        exact .inr ⟨mt LedId.value_injective heq, id', hmode, rfl⟩
    · rintro (⟨rfl, hmode⟩ | ⟨hne, id', hmode, rfl⟩)
      · exact ⟨id, by rwa [Function.update_self], rfl⟩
      · refine ⟨id', ?_, rfl⟩
        rwa [Function.update_of_ne (mt (congrArg LedId.value) hne)]
  have hcleared : (mask &&& ~~~mapLedIdToMask id).getLsbD b = true ↔
      b ≠ id.value ∧ mask.getLsbD b = true := by
    rw [BitVec.getLsbD_and, BitVec.getLsbD_not, getLsbD_mapLedIdToMask, Bool.and_eq_true,
      Bool.and_eq_true, Bool.not_eq_true', decide_eq_false_iff_not, decide_eq_true_iff, and_comm]
    refine and_congr_left fun hset => ⟨fun hout => hout.2, fun hne => ⟨?_, hne⟩⟩
    exact BitVec.lt_of_getLsbD hset
  rw [hothers]
  split
  · next hmode =>
    rw [BitVec.getLsbD_or, Bool.or_eq_true, hcleared, getLsbD_mapLedIdToMask, decide_eq_true_iff,
      or_comm]
    simp only [hmode, and_true]
  · next hmode =>
    rw [hcleared]
    simp only [hmode, and_false, false_or]

namespace LedState

/-- An LED in this mode is lit. -/
def Lit (leds : LedState) : LedMode → Prop
  | .off => False
  | .on => True
  | .blinkSlow => leds.slow.state = true
  | .blinkFast => leds.fast.state = true

instance (leds : LedState) (mode : LedMode) : Decidable (leds.Lit mode) := by
  cases mode <;> unfold Lit <;> infer_instance

/-- The masks are those of the modes. -/
structure HasModes (leds : LedState) (modes : LedId → LedMode) : Prop where
  on : HasMode .on modes leds.onMask
  slow : HasMode .blinkSlow modes leds.slow.mask
  fast : HasMode .blinkFast modes leds.fast.mask

variable {leds : LedState} {modes : LedId → LedMode}

theorem HasModes.setLed (h : leds.HasModes modes) (id : LedId) (mode : LedMode) :
    (leds.setLed (mapLedIdToMask id) mode).HasModes (Function.update modes id mode) where
  on := h.on.set id mode
  slow := h.slow.set id mode
  fast := h.fast.set id mode

theorem mask_process (interval : BitVec 32) (now : ℤ) (blink : Blink) :
    (blink.process interval now).mask = blink.mask := by
  rw [Blink.process]
  split <;> rfl

theorem HasModes.process (h : leds.HasModes modes) (now : ℤ) :
    (leds.process now).HasModes modes where
  on := h.on
  slow := by
    rw [LedState.process, mask_process]
    exact h.slow
  fast := by
    rw [LedState.process, mask_process]
    exact h.fast

/-- **The LEDs that are lit.** -/
theorem HasModes.getLsbD_currentMask (h : leds.HasModes modes) (b : ℕ) :
    leds.currentMask.getLsbD b = true ↔ ∃ id, leds.Lit (modes id) ∧ b = id.value := by
  have hbright : ∀ (state : Bool) (mask : BitVec 16),
      (if state then mask else 0#16).getLsbD b = true ↔ state = true ∧ mask.getLsbD b = true := by
    intro state mask
    cases state <;> simp
  rw [currentMask, BitVec.getLsbD_or, BitVec.getLsbD_or, Bool.or_eq_true, Bool.or_eq_true, hbright,
    hbright, h.on b, h.slow b, h.fast b]
  constructor
  · rintro ((⟨id, hmode, hb⟩ | ⟨hstate, id, hmode, hb⟩) | ⟨hstate, id, hmode, hb⟩)
    · exact ⟨id, by rw [hmode]; trivial, hb⟩
    · exact ⟨id, by rw [hmode]; exact hstate, hb⟩
    · exact ⟨id, by rw [hmode]; exact hstate, hb⟩
  · rintro ⟨id, hlit, hb⟩
    cases hmode : modes id with
    | off => rw [hmode] at hlit; exact hlit.elim
    | on => exact .inl (.inl ⟨id, hmode, hb⟩)
    | blinkSlow => rw [hmode] at hlit; exact .inl (.inr ⟨hlit, id, hmode, hb⟩)
    | blinkFast => rw [hmode] at hlit; exact .inr ⟨hlit, id, hmode, hb⟩

end LedState

/-! ### Blinking -/

/-- How a kind of blinking goes on: a change ends a phase that has lasted at least an interval, and
comes if the last one and the begin of the blinking are an interval ago. -/
structure Blinks (interval : BitVec 32) (now : ℤ) (blink blink' : Blink) : Prop where
  changed : blink'.state ≠ blink.state →
    (interval.toNat : ℤ) ≤ now - blink.update.fired ∧ blink'.update.fired = now
  changes : blink.mask ≠ 0#16 → ∀ since, blink.update.since = some since →
    (interval.toNat : ℤ) ≤ now - max blink.update.fired since → blink'.state ≠ blink.state

variable {interval : BitVec 32} {time now : ℤ}

theorem blinks_process {blink : Blink} (h : blink.update.Inv interval time)
    (hpos : 0 < interval.toNat) (hlimit : interval.toNat ≤ 2 ^ 30) (hle : time ≤ now)
    (hgap : now - time ≤ 2 ^ 31) :
    (blink.process interval now).update.Inv interval now ∧
      Blinks interval now blink (blink.process interval now) := by
  obtain ⟨hinv, hdue, hlate⟩ := poll_spec h hpos hle hgap (by omega)
  rw [Blink.process]
  split
  · next hnone =>
    exact ⟨h.rest hle, fun hchanged => absurd rfl hchanged, fun hsome => absurd hnone hsome⟩
  · refine ⟨hinv, fun hchanged => ?_, fun _ since hsince hage => ?_⟩
    · have hfires : blink.update.Due interval now := by
        by_contra hundue
        exact hchanged (if_neg hundue)
      exact ⟨hdue hfires, by rw [poll, if_pos hfires]⟩
    · dsimp only
      rw [if_pos (hlate since hsince hage)]
      exact Bool.not_ne_self _

/-- There are no LEDs behind the fifth bit. -/
theorem LedState.HasModes.currentMask_dark {leds : LedState} {modes : LedId → LedMode}
    (h : leds.HasModes modes) {b : ℕ} (hb : 5 ≤ b) : leds.currentMask.getLsbD b = false := by
  rw [← Bool.not_eq_true, h.getLsbD_currentMask]
  rintro ⟨id, -, rfl⟩
  exact absurd id.value_lt (by omega)

namespace Series2Ui

variable {s : Series2Ui}

/-- The bits of the byte that is latched. -/
theorem getLsbD_latchLoad (keys : PanelKeys) {b : ℕ} (hb : b < 8) :
    (s.latchLoad keys).latched.getLsbD b =
      (s.currentLedMask.getLsbD b || s.getButtonRowMask.getLsbD b) := by
  show (BitVec.setWidth 8 _ ||| _).getLsbD b = _
  rw [BitVec.getLsbD_or, BitVec.getLsbD_setWidth, decide_eq_true hb, Bool.true_and]

/-- The invariant of the LEDs. -/
structure LedInv (s : Series2Ui) : Prop where
  modes : s.leds.HasModes s.modes
  slow : s.leds.slow.update.Inv LedState.slowInterval s.time
  fast : s.leds.fast.update.Inv LedState.fastInterval s.time
  row : s.currentButtonRow = 0#8 ∨ s.currentButtonRow = 1#8

theorem LedInv.start {latched : BitVec 8} (htime : 0 ≤ time) :
    LedInv { latched := latched, time := time } where
  modes := ⟨fun b => by simp, fun b => by simp, fun b => by simp⟩
  slow := ⟨rfl, htime, nofun, nofun, nofun⟩
  fast := ⟨rfl, htime, nofun, nofun, nofun⟩
  row := .inl rfl

theorem LedInv.setLed (h : s.LedInv) (id : LedId) (mode : LedMode) : (s.setLed id mode).LedInv :=
  { h with modes := h.modes.setLed id mode }

/-- **`ProcessLedStates`.** -/
theorem LedInv.process (h : s.LedInv) (hle : s.time ≤ now) (hgap : now - s.time ≤ 2 ^ 31) :
    (s.processLedStates now).LedInv ∧
      Blinks LedState.slowInterval now s.leds.slow (s.processLedStates now).leds.slow ∧
      Blinks LedState.fastInterval now s.leds.fast (s.processLedStates now).leds.fast := by
  obtain ⟨hslow, hblinksSlow⟩ := blinks_process h.slow (by decide) (by decide) hle hgap
  obtain ⟨hfast, hblinksFast⟩ := blinks_process h.fast (by decide) (by decide) hle hgap
  exact ⟨⟨h.modes.process now, hslow, hfast, h.row⟩, hblinksSlow, hblinksFast⟩

theorem LedInv.latchLoad (h : s.LedInv) (keys : PanelKeys) : (s.latchLoad keys).LedInv := by
  refine { h with row := ?_ }
  show s.currentButtonRow ^^^ 1#8 = 0#8 ∨ s.currentButtonRow ^^^ 1#8 = 1#8
  rcases h.row with hrow | hrow
  · rw [hrow]
    exact .inr rfl
  · rw [hrow]
    exact .inl rfl

/-- The line of one row of buttons. -/
theorem LedInv.getButtonRowMask (h : s.LedInv) :
    s.getButtonRowMask = 0b00100000#8 ∨ s.getButtonRowMask = 0b01000000#8 := by
  rw [Series2Ui.getButtonRowMask]
  rcases h.row with hrow | hrow
  · rw [hrow]
    exact .inl rfl
  · rw [hrow]
    exact .inr rfl

end Series2Ui

/-- A refresh shows the modes of the LEDs, selects one row of buttons, and the blinking goes on. -/
def ShowsModes (s : Series2Ui) (e : Series2Event) (s' : Series2Ui) : Prop :=
  ∀ time keys, e = .refresh time keys →
    (∀ id, s'.latched.getLsbD id.value = decide (s'.leds.Lit (s'.modes id))) ∧
    (s'.latched.getLsbD 5 ≠ s'.latched.getLsbD 6 ∧ s'.latched.getLsbD 7 = false) ∧
    Blinks LedState.slowInterval time s.leds.slow s'.leds.slow ∧
    Blinks LedState.fastInterval time s.leds.fast s'.leds.fast

namespace Series2Ui

variable {s : Series2Ui}

/-- **A refresh.** -/
theorem LedInv.refresh (h : s.LedInv) (hle : s.time ≤ now) (hgap : now - s.time ≤ 2 ^ 31)
    (keys : PanelKeys) :
    ((s.processLedStates now).latchLoad keys).LedInv ∧
      ShowsModes s (.refresh now keys) ((s.processLedStates now).latchLoad keys) := by
  obtain ⟨hprocess, hslow, hfast⟩ := h.process hle hgap
  refine ⟨hprocess.latchLoad keys, ?_⟩
  rintro _ _ ⟨⟩
  have hmask := hprocess.modes.getLsbD_currentMask
  have hlatched : ∀ b < 8, ((s.processLedStates now).latchLoad keys).latched.getLsbD b =
      ((s.processLedStates now).leds.currentMask.getLsbD b ||
        (s.processLedStates now).getButtonRowMask.getLsbD b) :=
    fun b hb => getLsbD_latchLoad keys hb
  have hdark := fun {b : ℕ} => @LedState.HasModes.currentMask_dark _ _ hprocess.modes b
  refine ⟨fun id => ?_, ?_, hslow, hfast⟩
  · have hvalue := id.value_lt
    have hline : (s.processLedStates now).getButtonRowMask.getLsbD id.value = false := by
      rcases hprocess.getButtonRowMask with hrow | hrow
      · rw [hrow]
        cases id <;> rfl
      · rw [hrow]
        cases id <;> rfl
    rw [hlatched _ (by omega), hline, Bool.or_false, Bool.eq_iff_iff, hmask, decide_eq_true_iff]
    constructor
    · rintro ⟨id', hlit, heq⟩
      rwa [LedId.value_injective heq]
    · exact fun hlit => ⟨id, hlit, rfl⟩
  · rw [hlatched 5 (by decide), hlatched 6 (by decide), hlatched 7 (by decide), hdark (by decide),
      hdark (by decide), hdark (by decide)]
    rcases hprocess.getButtonRowMask with hrow | hrow
    · rw [hrow]
      decide
    · rw [hrow]
      decide

end Series2Ui

/-- Two refreshes are not further apart than half a round of the clock. -/
def RefreshesOften (s : Series2Ui) (e : Series2Event) (_ : Series2Ui) : Prop :=
  ∀ time keys, e = .refresh time keys → time - s.time ≤ 2 ^ 31

/-- **The LEDs show their modes.** In every run of the driver for one of the carrier boards 0.1,
0.3, 0.4 and 0.5 whose refreshes are at most half a round of the clock apart, whatever modes are set
in between, each refresh shows exactly the LEDs that are on or in a bright phase, and one of the
lines. A phase lasts at least its interval, and no longer than to the first refresh that is an
interval behind the last change and the begin of the blinking. -/
theorem leds_show_modes {s₀ : Series2Ui} {es : List Series2Event} (hinit : series2Ui.Init s₀)
    (hoften : series2Ui.EveryStep RefreshesOften s₀ es) :
    series2Ui.EveryStep ShowsModes s₀ es := by
  obtain ⟨htime, latched, time, rfl⟩ := hinit
  refine hoften.imp (LedInv.start htime) fun s e s' hI hs hP => ?_
  cases e with
  | setLed id mode =>
    obtain rfl := Option.some.inj hs
    exact ⟨hI.setLed id mode, nofun⟩
  | refresh now keys =>
    obtain ⟨hle, rfl⟩ := Option.ite_none_right_eq_some.mp hs |>.imp_right Option.some.inj
    exact hI.refresh hle (hP now keys rfl) keys

/-- A slowly blinking LED, with refreshes every 300 ms. -/
def blinkingRun : List Series2Event :=
  [.setLed .auto .blinkSlow, .refresh 3000 fun _ _ => 0xFF#8, .refresh 6000 fun _ _ => 0xFF#8]

theorem leds_show_modes_blinking :
    series2Ui.EveryStep ShowsModes { latched := 0xFF#8 } blinkingRun := by
  refine leds_show_modes ⟨by decide, _, _, rfl⟩ ?_
  intro s hs
  obtain rfl := Option.some.inj hs
  refine ⟨nofun, fun s hs => ?_⟩
  obtain rfl := Option.some.inj hs
  refine ⟨?_, fun s hs => ⟨?_, trivial⟩⟩
  · rintro _ _ ⟨⟩
    decide
  · rintro _ _ ⟨⟩
    decide

end OpenMower
