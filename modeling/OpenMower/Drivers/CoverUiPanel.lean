import OpenMower.Drivers.CaboDriver
import OpenMower.Library.PolledTimer
import OpenMower.Library.StateMachine

/-!
# A Series-II panel

From `drivers/ui/SaboCoverUI`: the LEDs of `sabo_cover_ui_cabo_driver_base`, the button rows of
`sabo_cover_ui_series2`, and `LatchLoad` of the drivers for the carrier boards 0.1, 0.3, 0.4 and
0.5, with the panel behind them. The panel has a register that shows the last byte that has been
latched: five LEDs, and two lines, each of which selects a row of buttons. An exchange on the bus
returns the columns while the byte before is still shown, and then latches the new one.

The driver of carrier board 0.2, which latches first, is left out: which byte of its longer transfer
is the panel's is a matter of the wiring.
-/

namespace OpenMower

/-- `LedId`. -/
inductive LedId
  | auto
  | mowing
  | home
  | playGn
  | playRd
  deriving DecidableEq, Repr

/-- The value of the enumerator. -/
def LedId.value : LedId → ℕ
  | auto => 0
  | mowing => 1
  | home => 2
  | playGn => 3
  | playRd => 4

/-- `LedMode`. -/
inductive LedMode
  | off
  | on
  | blinkSlow
  | blinkFast
  deriving DecidableEq, Repr

/-- `slow_blink_mask`, `last_slow_update` and `slow_blink_state`, or those of the fast blinking. -/
structure Blink where
  mask : BitVec 16 := 0#16
  update : PolledTimer 32 := {}
  state : Bool := false

/-- `LEDState`. -/
structure LedState where
  onMask : BitVec 16 := 0#16
  slow : Blink := {}
  fast : Blink := {}

/-- What the columns of buttons show, low-active, depending on whether bit 5 and bit 6 of the
register select their rows. -/
abbrev PanelKeys := Bool → Bool → BitVec 8

/-- `SaboCoverUICaboDriverBase` with a Series-II panel. -/
structure Series2Ui where
  cabo : CaboDriver := { series := some .series2 }
  leds : LedState := {}
  currentLedMask : BitVec 16 := 0#16
  currentButtonRow : BitVec 8 := 0#8
  curBtnMask : BitVec 16 := 0#16
  /-- What the register of the panel shows. -/
  latched : BitVec 8
  /-- History: the modes that have been set. -/
  modes : LedId → LedMode := fun _ => .off
  /-- History: the buttons at each `LatchLoad`, and the masks that were debounced. -/
  scans : List PanelKeys := []
  raws : List (BitVec 16) := []
  /-- History: the time of the last `ProcessLedStates`. -/
  time : ℤ := 0

/-- The part of `ProcessLedStates` for one kind of blinking. -/
def Blink.process (interval : BitVec 32) (now : ℤ) (blink : Blink) : Blink :=
  if blink.mask = 0#16 then { blink with update := blink.update.rest }
  else
    { blink with
      update := blink.update.poll interval now
      state := if blink.update.Due interval now then !blink.state else blink.state }

namespace LedState

/-- `TIME_MS2I(500)`. -/
def slowInterval : BitVec 32 := 5000#32

/-- `TIME_MS2I(100)`. -/
def fastInterval : BitVec 32 := 1000#32

variable (leds : LedState)

/-- `SetLed`, with the bit of the LED. -/
def setLed (bit : BitVec 16) (mode : LedMode) : LedState :=
  let onMask := leds.onMask &&& ~~~bit
  let slowBlinkMask := leds.slow.mask &&& ~~~bit
  let fastBlinkMask := leds.fast.mask &&& ~~~bit
  { onMask := if mode = .on then onMask ||| bit else onMask
    slow := { leds.slow with
      mask := if mode = .blinkSlow then slowBlinkMask ||| bit else slowBlinkMask }
    fast := { leds.fast with
      mask := if mode = .blinkFast then fastBlinkMask ||| bit else fastBlinkMask } }

/-- `ProcessLedStates`. -/
def process (now : ℤ) : LedState :=
  { leds with
    slow := leds.slow.process slowInterval now
    fast := leds.fast.process fastInterval now }

/-- The final LED state calculation. -/
def currentMask : BitVec 16 :=
  leds.onMask ||| (if leds.slow.state then leds.slow.mask else 0#16) |||
    (if leds.fast.state then leds.fast.mask else 0#16)

end LedState

namespace Series2Ui

variable (s : Series2Ui)

/-- `MapLedIdToMask`. -/
def mapLedIdToMask (id : LedId) : BitVec 16 := 1#16 <<< id.value &&& 0b11111#16

/-- `GetButtonRowMask`. -/
def getButtonRowMask : BitVec 8 := 1#8 <<< (5 + (s.currentButtonRow &&& 0x01#8).toNat)

/-- `ProcessButtonCol`. -/
def processButtonCol (curColData : BitVec 8) : Series2Ui :=
  let maskedCol := curColData &&& 0b00111111#8 ||| 0b11000000#8
  let row := s.currentButtonRow ^^^ 1#8
  { s with
    currentButtonRow := row
    curBtnMask := s.curBtnMask &&& (if row ≠ 0#8 then 0xFF00#16 else 0x00FF#16) |||
      (if row ≠ 0#8 then maskedCol.setWidth 16 else maskedCol.setWidth 16 <<< 8) }

/-- `SetLed`. -/
def setLed (id : LedId) (mode : LedMode) : Series2Ui :=
  { s with
    leds := s.leds.setLed (mapLedIdToMask id) mode
    modes := Function.update s.modes id mode }

/-- `ProcessLedStates`. -/
def processLedStates (now : ℤ) : Series2Ui :=
  let leds := s.leds.process now
  { s with leds := leds, currentLedMask := leds.currentMask, time := now }

/-- `LatchLoad`. -/
def latchLoad (keys : PanelKeys) : Series2Ui :=
  let txData := s.currentLedMask.setWidth 8 ||| s.getButtonRowMask
  let rxData := keys (s.latched.getLsbD 5) (s.latched.getLsbD 6)
  let s' := s.processButtonCol rxData
  { s' with
    latched := txData
    cabo := s.cabo.debounceRawButtons s'.curBtnMask
    scans := s.scans ++ [keys]
    raws := s.raws ++ [s'.curBtnMask] }

end Series2Ui

/-- What is done with the panel, once it has been detected. `Tick` and the frames of
`PowerOnAnimation` are refreshes: `ProcessLedStates` and then `LatchLoad`. -/
inductive Series2Event
  | setLed (id : LedId) (mode : LedMode)
  | refresh (time : ℤ) (keys : PanelKeys)

/-- The panel and its driver. The register may show anything at first. -/
def series2Ui : StateMachine Series2Ui Series2Event where
  Init s := 0 ≤ s.time ∧ ∃ latched time, s = { latched := latched, time := time }
  step s
    | .setLed id mode => some (s.setLed id mode)
    | .refresh time keys =>
      if s.time ≤ time then some ((s.processLedStates time).latchLoad keys) else none

end OpenMower
