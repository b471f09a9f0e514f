import Mathlib.Data.BitVec
import Mathlib.Tactic.Common

/-!
# The buttons of the Sabo cover UI

From `drivers/ui/SaboCoverUI/sabo_cover_ui_cabo_driver_base` and the series drivers. The raw mask of
the buttons, which is low-active, is sampled in each tick and debounced as a whole. Which bit is
which button depends on the series and on the carrier board.

The two variables that `DebounceRawButtons` keeps between its calls are fields of the driver here.
LEDs and the transfers to the panel are left out.
-/

namespace OpenMower

/-- `ButtonId`. -/
inductive ButtonId
  | up
  | down
  | left
  | right
  | ok
  | play
  | s1Select
  | menu
  | back
  | s2Auto
  | s2Mow
  | s2Home
  deriving DecidableEq, Repr

/-- The value of the enumerator. -/
def ButtonId.value : ButtonId → ℕ
  | up => 0
  | down => 1
  | left => 2
  | right => 3
  | ok => 4
  | play => 5
  | s1Select => 6
  | menu => 8
  | back => 9
  | s2Auto => 10
  | s2Mow => 11
  | s2Home => 12

/-- `ALL_BUTTONS`. -/
def allButtons : List ButtonId :=
  [.up, .down, .left, .right, .ok, .play, .s1Select, .menu, .back, .s2Auto, .s2Mow, .s2Home]

/-- `SaboCoverUISeriesInterface`: what it says of the buttons. -/
structure CoverUiSeries where
  mapButtonIdToMask : ButtonId → BitVec 16
  allButtonsMask : BitVec 16

namespace CoverUiSeries

/-- `SaboCoverUISeries1V02`. -/
def series1V02 : CoverUiSeries where
  mapButtonIdToMask
    | .up => 1#16 <<< 7
    | .down => 1#16 <<< 8
    | .left => 1#16 <<< 6
    | .right => 1#16 <<< 4
    | .ok => 1#16 <<< 10
    | .play => 1#16 <<< 3
    | .menu => 1#16 <<< 1
    | .back => 1#16 <<< 5
    | .s1Select => 1#16 <<< 0
    | _ => 0#16
  allButtonsMask := 1#16 <<< 0 ||| 1#16 <<< 1 ||| 1#16 <<< 3 ||| 1#16 <<< 4 ||| 1#16 <<< 5 |||
    1#16 <<< 6 ||| 1#16 <<< 7 ||| 1#16 <<< 8 ||| 1#16 <<< 10

/-- `SaboCoverUISeries1GPIO`. -/
def series1Gpio : CoverUiSeries where
  mapButtonIdToMask
    | .up => 1#16 <<< 0
    | .down => 1#16 <<< 1
    | .left => 1#16 <<< 2
    | .right => 1#16 <<< 3
    | .ok => 1#16 <<< 4
    | .play => 1#16 <<< 5
    | .menu => 1#16 <<< 6
    | .back => 1#16 <<< 7
    | .s1Select => 1#16 <<< 8
    | _ => 0#16
  allButtonsMask := 1#16 <<< 0 ||| 1#16 <<< 1 ||| 1#16 <<< 2 ||| 1#16 <<< 3 ||| 1#16 <<< 4 |||
    1#16 <<< 5 ||| 1#16 <<< 6 ||| 1#16 <<< 7 ||| 1#16 <<< 8

/-- `SaboCoverUISeries2`. -/
def series2 : CoverUiSeries where
  mapButtonIdToMask id := 1#16 <<< id.value
  allButtonsMask := 0b0001111101111111#16

/-- Each button has at most one bit, and `allButtonsMask` has the bits of all buttons. -/
structure OneBitEach (series : CoverUiSeries) : Prop where
  one : ∀ btn, series.mapButtonIdToMask btn = 0#16 ∨
    ∃ k < 16, series.mapButtonIdToMask btn = BitVec.twoPow 16 k
  all : ∀ i, series.allButtonsMask.getLsbD i = true ↔
    ∃ btn, (series.mapButtonIdToMask btn).getLsbD i = true

end CoverUiSeries

/-- `SaboCoverUICaboDriverBase`, as far as it is about buttons. -/
structure CaboDriver where
  series : Option CoverUiSeries
  btnLastRawMask : BitVec 16 := 0xFFFF#16
  btnDebounceCounter : ℕ := 0
  btnStableRawMask : BitVec 16 := 0xFFFF#16

namespace CaboDriver

/-- `DEBOUNCE_TICKS`. -/
def debounceTicks : ℕ := 5

variable (driver : CaboDriver)

/-- `DebounceRawButtons`. -/
def debounceRawButtons (rawButtons : BitVec 16) : CaboDriver :=
  let changedBits := driver.btnLastRawMask ^^^ rawButtons
  let counter :=
    if changedBits = 0#16 then
      if driver.btnDebounceCounter < debounceTicks then driver.btnDebounceCounter + 1
      else driver.btnDebounceCounter
    else 0
  { driver with
    btnDebounceCounter := counter
    btnStableRawMask := if debounceTicks ≤ counter then rawButtons else driver.btnStableRawMask
    btnLastRawMask := rawButtons }

/-- `IsButtonPressed`. -/
def isButtonPressed (btn : ButtonId) : Bool :=
  match driver.series with
  | none => false
  | some series =>
    let btnMask := series.mapButtonIdToMask btn
    if btnMask = 0#16 then false
    else decide (driver.btnStableRawMask &&& series.mapButtonIdToMask btn = 0#16)

/-- `IsAnyButtonPressed`. -/
def isAnyButtonPressed : Bool :=
  match driver.series with
  | none => false
  | some series =>
    decide (driver.btnStableRawMask &&& series.allButtonsMask ≠ series.allButtonsMask)

/-- `GetButtonsMask`. -/
def getButtonsMask : BitVec 16 :=
  match driver.series with
  | none => 0#16
  | some series =>
    allButtons.foldl (fun standardizedMask buttonId =>
      let seriesBit := series.mapButtonIdToMask buttonId
      if seriesBit ≠ 0#16 ∧ driver.btnStableRawMask &&& seriesBit = 0#16 then
        standardizedMask ||| 1#16 <<< buttonId.value
      else standardizedMask) 0#16

/-- The driver after these samples. -/
def debounce (samples : List (BitVec 16)) : CaboDriver :=
  samples.foldl debounceRawButtons driver

@[simp] theorem debounceRawButtons_series (rawButtons : BitVec 16) :
    (driver.debounceRawButtons rawButtons).series = driver.series := rfl

@[simp]
theorem debounce_series (samples : List (BitVec 16)) :
    (driver.debounce samples).series = driver.series := by
  induction samples generalizing driver with
  | nil => rfl
  | cons raw samples ih => exact ih _

end CaboDriver

end OpenMower
