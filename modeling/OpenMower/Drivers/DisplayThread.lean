import OpenMower.Drivers.DisplayUc1698
import OpenMower.Library.StateMachine

/-!
# The transfers to the display

The rest of `drivers/ui/SaboCoverUI/sabo_cover_ui_display_driver_uc1698`: the thread of the driver,
the SPI bus, and the thread of the user interface, which calls `LVGLFlushCB` and `SendCommands`.

LVGL waits in `LVGLFlushWaitCB` before it flushes again. A flush fills the buffer and broadcasts
`ASYNC_BUF_READY`; the thread of the driver then programs the window and starts to send the buffer,
which the SPI peripheral reads byte by byte. At the end of a transfer the peripheral calls
`SPIDataCB`, which broadcasts `ASYNC_TX_DONE` if the buffer is being sent. A broadcast sets a flag
of the event listener, if it has been registered already.

The panel receives a byte together with the level of its D/C line, as long as it is selected.
-/

namespace OpenMower

open Buffer DisplayDriver

/-- The threads that use the SPI bus. -/
inductive DisplayThread
  | ui
  | driver
  deriving DecidableEq, Repr

/-- What the thread of the driver does next: the stages of `InitController`, with the commands that
it has not sent yet, and those of the loop in `ThreadFunc`, with the flags that it has read. -/
inductive DriverStage
  | initController (todo : List (List Byte))
  | initSend (command : List Byte) (todo : List (List Byte))
  | initRelease (todo : List (List Byte))
  | waitAny
  | getFlags
  | handle (bufReady txDone : Bool)
  | programWindow (txDone : Bool)
  | startSend (txDone : Bool)
  | setIdle
  deriving DecidableEq, Repr

/-- What the thread of the user interface does next: the stages of `LVGLFlushCB`, and those of
`SendCommands`. -/
inductive UiStage
  | free
  | fill
  | queue (area : LvArea) (size : ℕ)
  | announce (area : LvArea) (size : ℕ)
  | send (commands : List Byte)
  | release
  deriving DecidableEq, Repr

/-- The driver with its threads, the bus, the peripheral and the panel. -/
structure DisplayState extends DisplayDriver where
  /-- The flag `ASYNC_TX_DONE` of the listener, beside `bufReady`. -/
  txDone : Bool
  /-- The event of the listener is pending. -/
  eventPending : Bool
  /-- `chEvtRegister` has been called. -/
  registered : Bool
  /-- The owner of the bus. -/
  bus : Option DisplayThread
  selected : Bool
  /-- The level of the D/C line. -/
  dataMode : Bool
  /-- The next byte that `spiStartSend` sends, and their number. -/
  dma : Option (ℕ × ℕ)
  driver : DriverStage
  ui : UiStage
  /-- What the panel has received, each byte with the level of the D/C line. -/
  panel : List (Bool × Byte)
  /-- History: the flushes, with the bytes that have been put into the buffer. -/
  flushed : List (LvArea × List Byte)
  /-- History: `ASYNC_BUF_READY` has been broadcast before the listener was registered. -/
  missed : Bool

/-- The atomic steps: those of the user interface, of the driver and of the peripheral. -/
inductive DisplayEvent
  | flushWaitReturns
  | fill (area : LvArea) (pxMap : ℕ → Byte)
  | queue
  | announce
  | acquire (commands : List Byte)
  | sendCommands
  | releaseBus
  | initAcquire
  | initSend
  | initRelease
  | register
  | waitAnyReturns
  | getAndClearFlags
  | acquireForFlush
  | programWindow
  | startSend
  | flagsHandled
  | transferDone
  | setIdle
  | dmaByte
  | dmaDone

/-- The commands of `InitController`, for the settings of the display. -/
def initCommands (tempCompensation contrast : Byte) : List (List Byte) :=
  [[0b00101001#8], [0b00101010#8], [0b00100100#8 ||| tempCompensation], [0b11000100#8],
    [0b11010001#8], [0b11010101#8], [0b10000001#8, contrast], [0b10101111#8]]

namespace DisplayState

variable (s : DisplayState)

/-- `SPIDataCB`. -/
def spiDataCb : DisplayState :=
  if s.transferState = .flushArea then
    { s with
      txDone := s.txDone || s.registered
      eventPending := s.eventPending || s.registered }
  else s

/-- What the panel gets of some bytes on the bus. -/
def received (bytes : List Byte) : List (Bool × Byte) :=
  if s.selected then bytes.map fun b => (s.dataMode, b) else []

/-- `spiSend`, which returns after the transfer. -/
def spiSend (bytes : List Byte) : DisplayState :=
  { s with panel := s.panel ++ s.received bytes }.spiDataCb

/-- `spiAcquireBus`, `spiSelect` and `SetCmdMode`. -/
def acquireBus (thread : DisplayThread) : DisplayState :=
  { s with bus := some thread, selected := true, dataMode := false }

/-- `spiUnselect` and `spiReleaseBus`. -/
def releaseBus : DisplayState := { s with bus := none, selected := false }

/-- `LVGLFlushCB` up to the end of its loop. -/
def fill (area : LvArea) (pxMap : ℕ → Byte) : DisplayState :=
  let driver := lvglFlushCb s.toDisplayDriver area pxMap
  { s with
    pendingFlush := { s.pendingFlush with buffer := driver.pendingFlush.buffer }
    writes := driver.writes
    ui := .queue area driver.pendingFlush.size
    flushed := s.flushed ++
      [(area, slice driver.pendingFlush.buffer 0 driver.pendingFlush.size)] }

/-- The end of `LVGLFlushCB`. -/
def announce (area : LvArea) (size : ℕ) : DisplayState :=
  { s with
    pendingFlush := { s.pendingFlush with area, size }
    bufReady := s.bufReady || s.registered
    eventPending := s.eventPending || s.registered
    ui := .free
    missed := s.missed || !s.registered }

/-- The two, with the assignment of the state between them, are `LVGLFlushCB`. -/
theorem announce_fill (hregistered : s.registered = true) (area : LvArea) (pxMap : ℕ → Byte) :
    (DisplayState.announce
      { s.fill area pxMap with transferState := .queued } area
        (lvglFlushCb s.toDisplayDriver area pxMap).pendingFlush.size).toDisplayDriver =
      lvglFlushCb s.toDisplayDriver area pxMap := by
  simp [DisplayState.announce, fill, lvglFlushCb, hregistered]

/-- The steps of the user interface. -/
def uiStep : DisplayEvent → Option DisplayState
  | .flushWaitReturns =>
    if s.ui = .free ∧ s.transferState = .idle then some { s with ui := .fill } else none
  | .fill area pxMap => if s.ui = .fill then some (s.fill area pxMap) else none
  | .queue =>
    match s.ui with
    | .queue area size => some { s with transferState := .queued, ui := .announce area size }
    | _ => none
  | .announce =>
    match s.ui with
    | .announce area size => some (s.announce area size)
    | _ => none
  | .acquire commands =>
    if s.ui = .free ∧ s.bus = none then some { s.acquireBus .ui with ui := .send commands }
    else none
  | .sendCommands =>
    match s.ui with
    | .send commands => some { s.spiSend commands with ui := .release }
    | _ => none
  | .releaseBus => if s.ui = .release then some { s.releaseBus with ui := .free } else none
  | _ => none

/-- The steps of the driver's thread. -/
def driverStep : DisplayEvent → Option DisplayState
  | .initAcquire =>
    match s.driver, s.bus with
    | .initController (command :: todo), none =>
      some { s.acquireBus .driver with driver := .initSend command todo }
    | _, _ => none
  | .initSend =>
    match s.driver with
    | .initSend command todo => some { s.spiSend command with driver := .initRelease todo }
    | _ => none
  | .initRelease =>
    match s.driver with
    | .initRelease todo => some { s.releaseBus with driver := .initController todo }
    | _ => none
  | .register =>
    if s.driver = .initController [] then some { s with registered := true, driver := .waitAny }
    else none
  | .waitAnyReturns =>
    if s.driver = .waitAny ∧ s.eventPending = true then
      some { s with eventPending := false, driver := .getFlags }
    else none
  | .getAndClearFlags =>
    if s.driver = .getFlags then
      some { s with bufReady := false, txDone := false, driver := .handle s.bufReady s.txDone }
    else none
  | .acquireForFlush =>
    match s.driver, s.bus with
    | .handle true txDone, none =>
      some { s.acquireBus .driver with transferState := .sync, driver := .programWindow txDone }
    | _, _ => none
  | .programWindow =>
    match s.driver with
    | .programWindow txDone =>
      some { s.spiSend (windowCommands s.toDisplayDriver) with driver := .startSend txDone }
    | _ => none
  | .startSend =>
    match s.driver with
    | .startSend txDone =>
      some { s with
        dataMode := true
        transferState := .flushArea
        dma := some (0, s.pendingFlush.size)
        driver := .handle false txDone }
    | _ => none
  | .flagsHandled =>
    if s.driver = .handle false false then some { s with driver := .waitAny } else none
  | .transferDone =>
    if s.driver = .handle false true then some { s.releaseBus with driver := .setIdle } else none
  | .setIdle =>
    if s.driver = .setIdle then some { s with transferState := .idle, driver := .waitAny } else none
  | _ => none

/-- The steps of the SPI peripheral, while it sends the buffer. -/
def dmaStep : DisplayEvent → Option DisplayState
  | .dmaByte =>
    match s.dma with
    | some (i, size) =>
      if i < size then
        some { s with
          panel := s.panel ++ s.received [s.pendingFlush.buffer i]
          dma := some (i + 1, size) }
      else none
    | none => none
  | .dmaDone =>
    match s.dma with
    | some (i, size) => if i < size then none else some { s with dma := none }.spiDataCb
    | none => none
  | _ => none

/-- The driver has been started, the user interface has not flushed yet. -/
structure IsStart (tempCompensation contrast : Byte) : Prop where
  transferState : s.transferState = .idle
  bufReady : s.bufReady = false
  txDone : s.txDone = false
  eventPending : s.eventPending = false
  registered : s.registered = false
  bus : s.bus = none
  selected : s.selected = false
  dma : s.dma = none
  driver : s.driver = .initController (initCommands tempCompensation contrast)
  ui : s.ui = .free
  panel : s.panel = []
  flushed : s.flushed = []
  missed : s.missed = false

end DisplayState

/-- The display with its threads. -/
def displayMachine : StateMachine DisplayState DisplayEvent where
  Init s := ∃ tempCompensation contrast, s.IsStart tempCompensation contrast
  step s e := (s.uiStep e).or ((s.driverStep e).or (s.dmaStep e))

/-- A step is one of the three. -/
theorem displayMachine_step {s s' : DisplayState} {e : DisplayEvent}
    (hs : displayMachine.step s e = some s') :
    s.uiStep e = some s' ∨ s.driverStep e = some s' ∨ s.dmaStep e = some s' := by
  rcases Option.or_eq_some_iff.mp hs with hs | ⟨-, hs⟩
  · exact .inl hs
  · exact .inr ((Option.or_eq_some_iff.mp hs).imp_right And.right)

theorem displayMachine_step_of_driver {s s' : DisplayState} {e : DisplayEvent}
    (hs : s.driverStep e = some s') : displayMachine.step s e = some s' := by
  have hui : s.uiStep e = none := by cases e <;> first | rfl | cases hs
  show (s.uiStep e).or ((s.driverStep e).or (s.dmaStep e)) = some s'
  rw [hui, hs]
  rfl

theorem displayMachine_step_of_dma {s s' : DisplayState} {e : DisplayEvent}
    (hs : s.dmaStep e = some s') : displayMachine.step s e = some s' := by
  have hui : s.uiStep e = none := by cases e <;> first | rfl | cases hs
  have hdriver : s.driverStep e = none := by cases e <;> first | rfl | cases hs
  show (s.uiStep e).or ((s.driverStep e).or (s.dmaStep e)) = some s'
  rw [hui, hdriver, hs]
  rfl

end OpenMower
