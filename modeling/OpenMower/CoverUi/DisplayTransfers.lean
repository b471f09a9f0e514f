import OpenMower.Drivers.DisplayThread

/-!
# The flushes of the display in every interleaving

A flush goes through phases, and the phase says what each part of the display does
(`DisplayState.Follows`): the state that LVGL polls, the flags of the listener, the stages of both
threads, the owner of the bus and the peripheral. Each step keeps to this protocol or takes the
flush to its next phase (`Follows.of_fill` to `Follows.of_dmaDone`), so that the panel receives
every flush once, in order and as a whole (`display_flushes_in_order`).

Both threads have the same priority. A command of the user interface could otherwise end between
`spiReleaseBus` and the assignment of `IDLE`, where its callback takes the command for the end of
the flush (`AcknowledgedFirst`).
-/

namespace OpenMower

open Buffer DisplayDriver

/-- The commands that program the window of an area. -/
def windowOf (area : LvArea) : List Byte :=
  setWindowProgramAreaRaw (BitVec.ofInt 8 area.x1) (BitVec.ofInt 8 area.x2)
    (BitVec.ofInt 8 area.y1) (BitVec.ofInt 8 area.y2) false

/-- What the panel receives while one thread has the bus. -/
inductive PanelBlock
  | commands (bytes : List Byte)
  | flush (area : LvArea) (pixels : List Byte)

namespace PanelBlock

/-- The bytes of a block, each with the level of the D/C line. -/
def bytes : PanelBlock → List (Bool × Byte)
  | commands bytes => bytes.map fun b => (false, b)
  | flush area pixels =>
    ((windowOf area).map fun b => (false, b)) ++ pixels.map fun b => (true, b)

/-- The flush of a block. -/
def flushed : PanelBlock → Option (LvArea × List Byte)
  | commands _ => none
  | flush area pixels => some (area, pixels)

end PanelBlock

/-- The panel has received whole blocks, with the flushes in order, and then what has begun. -/
def Logged (panel begun : List (Bool × Byte)) (flushed current : List (LvArea × List Byte)) :
    Prop :=
  ∃ blocks : List PanelBlock, panel = blocks.flatMap PanelBlock.bytes ++ begun ∧
    flushed = blocks.filterMap PanelBlock.flushed ++ current

namespace Logged

variable {panel begun : List (Bool × Byte)} {flushed current : List (LvArea × List Byte)}

theorem commands (h : Logged panel [] flushed current) (bytes : List Byte) :
    Logged (panel ++ bytes.map fun b => (false, b)) [] flushed current := by
  obtain ⟨blocks, hpanel, hflushed⟩ := h
  refine ⟨blocks ++ [.commands bytes], ?_, ?_⟩
  · simp [hpanel, PanelBlock.bytes]
  · simp [hflushed, PanelBlock.flushed]

theorem receive (h : Logged panel begun flushed current) (bytes : List (Bool × Byte)) :
    Logged (panel ++ bytes) (begun ++ bytes) flushed current := by
  obtain ⟨blocks, hpanel, hflushed⟩ := h
  exact ⟨blocks, by rw [hpanel, List.append_assoc], hflushed⟩

theorem fill (h : Logged panel begun flushed []) (flush : LvArea × List Byte) :
    Logged panel begun (flushed ++ [flush]) [flush] := by
  obtain ⟨blocks, hpanel, hflushed⟩ := h
  exact ⟨blocks, hpanel, by rw [hflushed, List.append_nil]⟩

/-- A flush is complete. -/
theorem complete {area : LvArea} {pixels : List Byte}
    (h : Logged panel (PanelBlock.bytes (.flush area pixels)) flushed [(area, pixels)]) :
    Logged panel [] flushed [] := by
  obtain ⟨blocks, hpanel, hflushed⟩ := h
  refine ⟨blocks ++ [.flush area pixels], ?_, ?_⟩
  · simp [hpanel]
  · simp [hflushed, PanelBlock.flushed]

end Logged

/-- Where a flush is. -/
inductive FlushPhase
  | none
  | filled
  | queued
  | missed
  | flagged
  | taken
  | programming
  | ready
  | sending
  | complete
  | handling
  | released
  deriving DecidableEq, Repr

namespace FlushPhase

/-- What LVGL sees of it. -/
def state : FlushPhase → TransferState
  | none | filled => .idle
  | queued | missed | flagged | taken => .queued
  | programming | ready => .sync
  | sending | complete | handling | released => .flushArea

/-- The listener has been registered. -/
def IsRegistered : FlushPhase → Prop
  | none | filled | queued | missed => False
  | _ => True

/-- The flag `ASYNC_BUF_READY` is set. -/
def bufReady : FlushPhase → Bool
  | flagged => true
  | _ => false

/-- The flag `ASYNC_TX_DONE` is set. -/
def txDone : FlushPhase → Bool
  | complete => true
  | _ => false

/-- One of the flags is set. -/
def IsFlagged : FlushPhase → Prop
  | flagged | complete => True
  | _ => False

/-- The peripheral reads the buffer. -/
def isSending : FlushPhase → Bool
  | sending => true
  | _ => false

/-- The thread of the driver has the bus for the flush. -/
def OwnsBus : FlushPhase → Prop
  | programming | ready | sending | complete | handling => True
  | _ => False

/-- The level of the D/C line, while somebody has the bus. -/
def dataMode : FlushPhase → Bool
  | sending | complete | handling => true
  | _ => false

/-- Nobody handles the flush. -/
def isMissed : FlushPhase → Bool
  | missed => true
  | _ => false

/-- The flush that the panel has not received yet. -/
def current (flush : AsyncFlush) (ui : UiStage) : FlushPhase → List (LvArea × List Byte)
  | filled =>
    match ui with
    | .queue area size => [(area, slice flush.buffer 0 size)]
    | _ => []
  | queued =>
    match ui with
    | .announce area size => [(area, slice flush.buffer 0 size)]
    | _ => []
  | none | complete | handling | released => []
  | _ => [(flush.area, slice flush.buffer 0 flush.size)]

/-- What the panel has received of it so far. -/
def begun (flush : AsyncFlush) (dma : Option (ℕ × ℕ)) : FlushPhase → List (Bool × Byte)
  | ready => (windowOf flush.area).map fun b => (false, b)
  | sending =>
    match dma with
    | some (i, _) => PanelBlock.bytes (.flush flush.area (slice flush.buffer 0 i))
    | Option.none => []
  | _ => []

theorem begun_eq_nil {phase : FlushPhase} (h : ¬ phase.OwnsBus) (flush : AsyncFlush)
    (dma : Option (ℕ × ℕ)) : phase.begun flush dma = [] := by
  cases phase <;> first | rfl | exact absurd trivial h

theorem dataMode_eq_false {phase : FlushPhase} (h : ¬ phase.OwnsBus) : phase.dataMode = false := by
  cases phase <;> first | rfl | exact absurd trivial h

theorem IsFlagged.isRegistered {phase : FlushPhase} (h : phase.IsFlagged) : phase.IsRegistered := by
  cases phase <;> trivial

theorem OwnsBus.isRegistered {phase : FlushPhase} (h : phase.OwnsBus) : phase.IsRegistered := by
  cases phase <;> trivial

end FlushPhase

namespace DriverStage

/-- The thread is in `InitController`. -/
def IsInit : DriverStage → Prop
  | initController _ | initSend _ _ | initRelease _ => True
  | _ => False

/-- The thread does nothing for a flush. -/
def IsQuiet (driver : DriverStage) : Prop :=
  driver.IsInit ∨ driver = waitAny ∨ driver = getFlags ∨ driver = handle false false

/-- The thread has the bus for a command. -/
def OwnsBus : DriverStage → Prop
  | initSend _ _ | initRelease _ => True
  | _ => False

/-- What the thread does while a flush is in a phase. -/
def AtPhase (driver : DriverStage) : FlushPhase → Prop
  | .taken => driver = .handle true false
  | .programming => driver = .programWindow false
  | .ready => driver = .startSend false
  | .handling => driver = .handle false true
  | .released => driver = .setIdle
  | _ => driver.IsQuiet

end DriverStage

namespace UiStage

/-- The thread has the bus. -/
def OwnsBus : UiStage → Prop
  | send _ | release => True
  | _ => False

/-- What the thread does while a flush is in a phase. -/
def AtPhase (ui : UiStage) : FlushPhase → Prop
  | .none => ui = .free ∨ ui = .fill ∨ ui.OwnsBus
  | .filled => ∃ area size, ui = .queue area size
  | .queued => ∃ area size, ui = .announce area size
  | _ => ui = .free ∨ ui.OwnsBus

/-- Commands are sent in the same phases. -/
theorem AtPhase.commands {ui ui' : UiStage} {phase : FlushPhase} (h : ui.AtPhase phase)
    (hui : ui = .free ∨ ui.OwnsBus) (hui' : ui' = .free ∨ ui'.OwnsBus) : ui'.AtPhase phase := by
  cases phase with
  | none => exact hui'.imp_right .inr
  | filled =>
    obtain ⟨area, size, rfl⟩ := h
    rcases hui with hui | hui <;> cases hui
  | queued =>
    obtain ⟨area, size, rfl⟩ := h
    rcases hui with hui | hui <;> cases hui
  | _ => exact hui'

/-- The flush stays the same while commands are sent. -/
theorem AtPhase.current_commands {ui ui' : UiStage} {phase : FlushPhase} (h : ui.AtPhase phase)
    (hui : ui = .free ∨ ui.OwnsBus) (flush : AsyncFlush) :
    phase.current flush ui' = phase.current flush ui := by
  cases phase with
  | filled =>
    obtain ⟨area, size, rfl⟩ := h
    rcases hui with hui | hui <;> cases hui
  | queued =>
    obtain ⟨area, size, rfl⟩ := h
    rcases hui with hui | hui <;> cases hui
  | _ => rfl

end UiStage

namespace DisplayState

/-- **The protocol of a flush**: the phase says what each part of the display does. -/
structure Follows (s : DisplayState) (phase : FlushPhase) : Prop where
  state : s.transferState = phase.state
  driver : s.driver.AtPhase phase
  ui : s.ui.AtPhase phase
  registered : s.registered = true ↔ ¬ s.driver.IsInit
  isRegistered : phase.IsRegistered → s.registered = true
  bufReady : s.bufReady = phase.bufReady
  txDone : s.txDone = phase.txDone
  pending : phase.IsFlagged → s.eventPending = true ∨ s.driver = .getFlags
  dma : s.dma.isSome = phase.isSending
  uiBus : s.bus = some .ui ↔ s.ui.OwnsBus
  driverBus : s.bus = some .driver ↔ s.driver.OwnsBus ∨ phase.OwnsBus
  selected : s.selected = s.bus.isSome
  dataMode : s.bus.isSome = true → s.dataMode = phase.dataMode
  dmaSize : ∀ i size, s.dma = some (i, size) → size = s.pendingFlush.size ∧ i ≤ size
  missed : s.missed = phase.isMissed
  log : Logged s.panel (phase.begun s.pendingFlush s.dma) s.flushed
    (phase.current s.pendingFlush s.ui)

namespace Follows

variable {s : DisplayState} {phase : FlushPhase}

/-! ### The phase is known from what a part does -/

theorem eq_none (h : s.Follows phase) (hui : s.ui = .free ∨ s.ui = .fill)
    (hidle : s.transferState = .idle) : phase = .none := by
  have hstate := h.state.symm.trans hidle
  have hphase := h.ui
  cases phase with
  | none => rfl
  | filled =>
    obtain ⟨area, size, hqueue⟩ := hphase
    rcases hui with hui | hui <;> rw [hui] at hqueue <;> cases hqueue
  | _ => cases hstate

theorem eq_none_of_fill (h : s.Follows phase) (hui : s.ui = .fill) : phase = .none := by
  have hphase := h.ui
  rw [hui] at hphase
  cases phase <;> simp [UiStage.AtPhase, UiStage.OwnsBus] at hphase ⊢

theorem eq_filled (h : s.Follows phase) {area : LvArea} {size : ℕ} (hui : s.ui = .queue area size) :
    phase = .filled := by
  have hphase := h.ui
  rw [hui] at hphase
  cases phase <;> simp [UiStage.AtPhase, UiStage.OwnsBus] at hphase ⊢

theorem eq_queued (h : s.Follows phase) {area : LvArea} {size : ℕ}
    (hui : s.ui = .announce area size) : phase = .queued := by
  have hphase := h.ui
  rw [hui] at hphase
  cases phase <;> simp [UiStage.AtPhase, UiStage.OwnsBus] at hphase ⊢

/-- A stage that is not a quiet one belongs to one phase. -/
theorem driver_eq (h : s.Follows phase) (hquiet : ¬ s.driver.IsQuiet) :
    phase = .taken ∧ s.driver = .handle true false ∨
    phase = .programming ∧ s.driver = .programWindow false ∨
    phase = .ready ∧ s.driver = .startSend false ∨
    phase = .handling ∧ s.driver = .handle false true ∨
    phase = .released ∧ s.driver = .setIdle := by
  have hphase := h.driver
  cases phase <;> first | exact absurd hphase hquiet | simp_all [DriverStage.AtPhase]

theorem eq_taken (h : s.Follows phase) {txDone : Bool} (hdriver : s.driver = .handle true txDone) :
    phase = .taken ∧ txDone = false := by
  have hphase := h.driver_eq (by rw [hdriver]; simp [DriverStage.IsQuiet, DriverStage.IsInit])
  rw [hdriver] at hphase
  simpa using hphase

theorem eq_programming (h : s.Follows phase) {txDone : Bool}
    (hdriver : s.driver = .programWindow txDone) : phase = .programming ∧ txDone = false := by
  have hphase := h.driver_eq (by rw [hdriver]; simp [DriverStage.IsQuiet, DriverStage.IsInit])
  rw [hdriver] at hphase
  simpa using hphase

theorem eq_ready (h : s.Follows phase) {txDone : Bool} (hdriver : s.driver = .startSend txDone) :
    phase = .ready ∧ txDone = false := by
  have hphase := h.driver_eq (by rw [hdriver]; simp [DriverStage.IsQuiet, DriverStage.IsInit])
  rw [hdriver] at hphase
  simpa using hphase

theorem eq_handling (h : s.Follows phase) (hdriver : s.driver = .handle false true) :
    phase = .handling := by
  have hphase := h.driver_eq (by rw [hdriver]; simp [DriverStage.IsQuiet, DriverStage.IsInit])
  rw [hdriver] at hphase
  simpa using hphase

theorem eq_released (h : s.Follows phase) (hdriver : s.driver = .setIdle) :
    phase = .released := by
  have hphase := h.driver_eq (by rw [hdriver]; simp [DriverStage.IsQuiet, DriverStage.IsInit])
  rw [hdriver] at hphase
  simpa using hphase

theorem eq_sending (h : s.Follows phase) {i size : ℕ} (hdma : s.dma = some (i, size)) :
    phase = .sending := by
  have hphase := h.dma
  rw [hdma] at hphase
  cases phase <;> first | rfl | cases hphase

theorem dma_eq_none (h : s.Follows phase) (hphase : phase.isSending = false) : s.dma = none := by
  rw [← Option.isNone_iff_eq_none, ← Option.not_isSome, h.dma, hphase]
  rfl

/-- Whoever has the bus sends commands, as long as it is not the buffer that is sent. -/
theorem received_eq (h : s.Follows phase) {thread : DisplayThread} (hbus : s.bus = some thread)
    (hphase : phase.dataMode = false) (bytes : List Byte) :
    s.received bytes = bytes.map fun b => (false, b) := by
  have hsome : s.bus.isSome = true := by rw [hbus]; rfl
  rw [received, if_pos (h.selected.trans hsome), h.dataMode hsome, hphase]

/-- The thread does not initialise the controller any more. -/
theorem not_isInit (h : s.Follows phase) (hphase : phase.IsRegistered) : ¬ s.driver.IsInit :=
  h.registered.mp (h.isRegistered hphase)

/-- Whoever else has the bus, the buffer is not being sent. -/
theorem ne_flushArea (h : s.Follows phase) (hbus : ¬ phase.OwnsBus)
    (hack : s.driver ≠ .setIdle) : s.transferState ≠ .flushArea := by
  rw [h.state]
  have hdriver := h.driver
  cases phase <;>
    first | exact absurd hdriver hack | simp [FlushPhase.OwnsBus, FlushPhase.state] at hbus ⊢

end Follows

theorem spiSend_of_ne {s : DisplayState} (h : s.transferState ≠ .flushArea) (bytes : List Byte) :
    s.spiSend bytes = { s with panel := s.panel ++ s.received bytes } := if_neg h

end DisplayState

/-- No transfer of the user interface ends between the end of a flush and its acknowledgement. -/
def AcknowledgedFirst (s : DisplayState) (e : DisplayEvent) (_ : DisplayState) : Prop :=
  e = .sendCommands → s.driver ≠ .setIdle

open DisplayState

/-- A quiet stage may be followed by another one. -/
theorem DriverStage.AtPhase.quiet {driver driver' : DriverStage} {phase : FlushPhase}
    (h : driver.AtPhase phase) (hquiet : driver.IsQuiet) (hquiet' : driver'.IsQuiet) :
    driver'.AtPhase phase := by
  cases phase <;> first | exact hquiet' | skip
  all_goals simp_all [DriverStage.AtPhase, DriverStage.IsQuiet, DriverStage.IsInit]

namespace DisplayState.Follows

variable {s s' : DisplayState} {phase : FlushPhase}

/-! ### The steps of the user interface -/

theorem of_flushWaitReturns (h : s.Follows phase) (hs : s.uiStep .flushWaitReturns = some s') :
    phase = .none ∧ s'.Follows .none := by
  obtain ⟨⟨hfree, hidle⟩, hs⟩ := Option.ite_none_right_eq_some.mp hs
  cases hs
  obtain rfl := h.eq_none (.inl hfree) hidle
  exact ⟨rfl, { h with ui := .inr (.inl rfl), uiBus := h.uiBus.trans (by rw [hfree]; rfl) }⟩

theorem of_fill (h : s.Follows phase) {area : LvArea} {pxMap : ℕ → Byte}
    (hs : s.uiStep (.fill area pxMap) = some s') : phase = .none ∧ s'.Follows .filled := by
  obtain ⟨hfill, hs⟩ := Option.ite_none_right_eq_some.mp hs
  cases hs
  obtain rfl := h.eq_none_of_fill hfill
  exact ⟨rfl, { h with
    ui := ⟨_, _, rfl⟩
    uiBus := h.uiBus.trans (by rw [hfill]; rfl)
    log := h.log.fill _ }⟩

theorem of_queue (h : s.Follows phase) (hs : s.uiStep .queue = some s') :
    phase = .filled ∧ s'.Follows .queued := by
  simp only [uiStep] at hs
  split at hs
  · next area size hqueue =>
    cases hs
    obtain rfl := h.eq_filled hqueue
    have hlog := h.log
    rw [hqueue] at hlog
    exact ⟨rfl, { h with
      state := rfl
      ui := ⟨_, _, rfl⟩
      uiBus := h.uiBus.trans (by rw [hqueue]; rfl)
      log := hlog }⟩
  · cases hs

/-- Whether the thread has registered its listener decides what an announcement leads to. -/
theorem of_announce (h : s.Follows phase) (hs : s.uiStep .announce = some s') :
    phase = .queued ∧ (s'.Follows .flagged ∨ s'.Follows .missed) := by
  simp only [uiStep] at hs
  split at hs
  · next area size hannounce =>
    cases hs
    obtain rfl := h.eq_queued hannounce
    have huiBus : s.bus = some .ui ↔ False := h.uiBus.trans (by rw [hannounce]; rfl)
    have hbuf : s.bufReady = false := h.bufReady
    have hmissed : s.missed = false := h.missed
    have hdma : ∀ i n, s.dma = some (i, n) → n = size ∧ i ≤ n := by
      rw [h.dma_eq_none rfl]
      simp
    have hlog := h.log
    rw [hannounce] at hlog
    cases hregistered : s.registered with
    | true =>
      exact ⟨rfl, .inl { h with
        ui := .inl rfl
        uiBus := huiBus
        isRegistered := fun _ => hregistered
        bufReady := by simp [DisplayState.announce, hregistered, FlushPhase.bufReady]
        pending := fun _ => .inl (by simp [DisplayState.announce, hregistered])
        dmaSize := hdma
        missed := by simp [DisplayState.announce, hregistered, hmissed, FlushPhase.isMissed]
        log := hlog }⟩
    | false =>
      exact ⟨rfl, .inr { h with
        ui := .inl rfl
        uiBus := huiBus
        bufReady := by simp [DisplayState.announce, hregistered, hbuf, FlushPhase.bufReady]
        pending := False.elim
        dmaSize := hdma
        missed := by simp [DisplayState.announce, hregistered, FlushPhase.isMissed]
        log := hlog }⟩
  · cases hs

theorem of_acquire (h : s.Follows phase) {commands : List Byte}
    (hs : s.uiStep (.acquire commands) = some s') : s'.Follows phase := by
  obtain ⟨⟨hfree, hbus⟩, hs⟩ := Option.ite_none_right_eq_some.mp hs
  cases hs
  have hnone : ¬ (s.driver.OwnsBus ∨ phase.OwnsBus) := by rw [← h.driverBus, hbus]; simp
  exact { h with
    ui := h.ui.commands (.inl hfree) (.inr trivial)
    uiBus := iff_of_true rfl trivial
    driverBus := iff_of_false (by simp [DisplayState.acquireBus]) hnone
    selected := rfl
    dataMode := fun _ => (FlushPhase.dataMode_eq_false (not_or.mp hnone).2).symm
    log := by rw [h.ui.current_commands (.inl hfree)]; exact h.log }

theorem of_sendCommands (h : s.Follows phase) (hs : s.uiStep .sendCommands = some s')
    (hack : s.driver ≠ .setIdle) : s'.Follows phase := by
  simp only [uiStep] at hs
  split at hs
  · next commands hsend =>
    cases hs
    have hbus : s.bus = some .ui := h.uiBus.mpr (by rw [hsend]; trivial)
    have howns : ¬ phase.OwnsBus := fun howns => by
      rw [h.driverBus.mpr (.inr howns)] at hbus
      cases hbus
    rw [spiSend_of_ne (h.ne_flushArea howns hack)]
    have hui : s.ui = .free ∨ s.ui.OwnsBus := .inr (by rw [hsend]; trivial)
    have hlog := h.log
    rw [FlushPhase.begun_eq_nil howns] at hlog
    exact { h with
      ui := h.ui.commands hui (.inr trivial)
      uiBus := iff_of_true hbus trivial
      log := by
        rw [FlushPhase.begun_eq_nil howns, h.ui.current_commands hui,
          h.received_eq hbus (FlushPhase.dataMode_eq_false howns)]
        exact hlog.commands commands }
  · cases hs

theorem of_releaseBus (h : s.Follows phase) (hs : s.uiStep .releaseBus = some s') :
    s'.Follows phase := by
  obtain ⟨hrelease, hs⟩ := Option.ite_none_right_eq_some.mp hs
  cases hs
  have hbus : s.bus = some .ui := h.uiBus.mpr (by rw [hrelease]; trivial)
  have hnone : ¬ (s.driver.OwnsBus ∨ phase.OwnsBus) := by rw [← h.driverBus, hbus]; simp
  exact { h with
    ui := h.ui.commands (.inr (by rw [hrelease]; trivial)) (.inl rfl)
    uiBus := iff_of_false (by simp [DisplayState.releaseBus]) id
    driverBus := iff_of_false (by simp [DisplayState.releaseBus]) hnone
    selected := rfl
    dataMode := fun hbus => by cases hbus
    log := by rw [h.ui.current_commands (.inr (by rw [hrelease]; trivial))]; exact h.log }

/-! ### The steps of the driver's thread -/

/-- The thread has not registered its listener while it initialises the controller. -/
theorem not_ownsBus_of_isInit (h : s.Follows phase) (hinit : s.driver.IsInit) : ¬ phase.OwnsBus :=
  fun howns => h.not_isInit howns.isRegistered hinit

/-- No flush is flagged while the thread initialises the controller. -/
theorem not_isFlagged_of_isInit (h : s.Follows phase) (hinit : s.driver.IsInit) :
    ¬ phase.IsFlagged :=
  fun hphase => h.not_isInit hphase.isRegistered hinit

theorem of_initAcquire (h : s.Follows phase) (hs : s.driverStep .initAcquire = some s') :
    s'.Follows phase := by
  simp only [driverStep] at hs
  split at hs
  · next command todo hdriver hbus =>
    cases hs
    have hinit : s.driver.IsInit := by rw [hdriver]; trivial
    have hui : ¬ s.ui.OwnsBus := by rw [← h.uiBus, hbus]; simp
    exact { h with
      driver := h.driver.quiet (.inl hinit) (.inl trivial)
      registered := h.registered.trans (by rw [hdriver]; rfl)
      pending := fun hphase => absurd hphase (h.not_isFlagged_of_isInit hinit)
      uiBus := iff_of_false (by simp [DisplayState.acquireBus]) hui
      driverBus := iff_of_true rfl (.inl trivial)
      selected := rfl
      dataMode := fun _ => (FlushPhase.dataMode_eq_false (h.not_ownsBus_of_isInit hinit)).symm }
  · cases hs

theorem of_initSend (h : s.Follows phase) (hs : s.driverStep .initSend = some s') :
    s'.Follows phase := by
  simp only [driverStep] at hs
  split at hs
  · next command todo hdriver =>
    cases hs
    have hinit : s.driver.IsInit := by rw [hdriver]; trivial
    have howns := h.not_ownsBus_of_isInit hinit
    have hbus : s.bus = some .driver := h.driverBus.mpr (.inl (by rw [hdriver]; trivial))
    have hlog := h.log
    rw [FlushPhase.begun_eq_nil howns] at hlog
    rw [spiSend_of_ne (h.ne_flushArea howns (by rw [hdriver]; simp))]
    exact { h with
      driver := h.driver.quiet (.inl hinit) (.inl trivial)
      registered := h.registered.trans (by rw [hdriver]; rfl)
      pending := fun hphase => absurd hphase (h.not_isFlagged_of_isInit hinit)
      driverBus := iff_of_true hbus (.inl trivial)
      log := by
        rw [FlushPhase.begun_eq_nil howns,
          h.received_eq hbus (FlushPhase.dataMode_eq_false howns)]
        exact hlog.commands command }
  · cases hs

theorem of_initRelease (h : s.Follows phase) (hs : s.driverStep .initRelease = some s') :
    s'.Follows phase := by
  simp only [driverStep] at hs
  split at hs
  · next todo hdriver =>
    cases hs
    have hinit : s.driver.IsInit := by rw [hdriver]; trivial
    have howns := h.not_ownsBus_of_isInit hinit
    have hbus : s.bus = some .driver := h.driverBus.mpr (.inl (by rw [hdriver]; trivial))
    have hui : ¬ s.ui.OwnsBus := by rw [← h.uiBus, hbus]; simp
    exact { h with
      driver := h.driver.quiet (.inl hinit) (.inl trivial)
      registered := h.registered.trans (by rw [hdriver]; rfl)
      pending := fun hphase => absurd hphase (h.not_isFlagged_of_isInit hinit)
      uiBus := iff_of_false (by simp [DisplayState.releaseBus]) hui
      driverBus := iff_of_false (by simp [DisplayState.releaseBus]) (not_or_intro id howns)
      selected := rfl
      dataMode := fun hbus => by cases hbus }
  · cases hs

theorem of_register (h : s.Follows phase) (hs : s.driverStep .register = some s') :
    s'.Follows phase := by
  obtain ⟨hdriver, hs⟩ := Option.ite_none_right_eq_some.mp hs
  cases hs
  have hinit : s.driver.IsInit := by rw [hdriver]; trivial
  exact { h with
    driver := h.driver.quiet (.inl hinit) (.inr (.inl rfl))
    registered := iff_of_true rfl id
    isRegistered := fun _ => rfl
    pending := fun hphase => absurd hphase (h.not_isFlagged_of_isInit hinit)
    driverBus := h.driverBus.trans (by rw [hdriver]; rfl) }

theorem of_waitAnyReturns (h : s.Follows phase) (hs : s.driverStep .waitAnyReturns = some s') :
    s'.Follows phase := by
  obtain ⟨⟨hdriver, -⟩, hs⟩ := Option.ite_none_right_eq_some.mp hs
  cases hs
  exact { h with
    driver := h.driver.quiet (.inr (.inl hdriver)) (.inr (.inr (.inl rfl)))
    registered := h.registered.trans (by rw [hdriver]; rfl)
    pending := fun _ => .inr rfl
    driverBus := h.driverBus.trans (by rw [hdriver]; rfl) }

/-- The thread takes the flag of the phase, if it has one. -/
theorem of_getAndClearFlags (h : s.Follows phase)
    (hs : s.driverStep .getAndClearFlags = some s') :
    phase = .flagged ∧ s'.Follows .taken ∨ phase = .complete ∧ s'.Follows .handling ∨
      ¬ phase.IsFlagged ∧ s'.Follows phase := by
  obtain ⟨hdriver, hs⟩ := Option.ite_none_right_eq_some.mp hs
  cases hs
  have hquiet := h.driver.quiet (.inr (.inr (.inl hdriver))) (.inr (.inr (.inr rfl)))
  have hregistered : s.registered = true ↔ ¬ False := h.registered.trans (by rw [hdriver]; rfl)
  have hdriverBus : s.bus = some .driver ↔ False ∨ phase.OwnsBus :=
    h.driverBus.trans (by rw [hdriver]; rfl)
  rw [h.bufReady, h.txDone]
  cases phase with
  | flagged => exact .inl ⟨rfl, { h with
      driver := rfl
      registered := hregistered
      bufReady := rfl
      txDone := rfl
      pending := False.elim
      driverBus := hdriverBus }⟩
  | complete => exact .inr (.inl ⟨rfl, { h with
      driver := rfl
      registered := hregistered
      bufReady := rfl
      txDone := rfl
      pending := False.elim
      driverBus := hdriverBus }⟩)
  | _ => exact .inr (.inr ⟨id, { h with
      driver := hquiet
      registered := hregistered
      bufReady := rfl
      txDone := rfl
      pending := False.elim
      driverBus := hdriverBus }⟩)

theorem of_acquireForFlush (h : s.Follows phase) (hs : s.driverStep .acquireForFlush = some s') :
    phase = .taken ∧ s'.Follows .programming := by
  simp only [driverStep] at hs
  split at hs
  · next txDone hdriver hbus =>
    cases hs
    have hui : ¬ s.ui.OwnsBus := by rw [← h.uiBus, hbus]; simp
    obtain ⟨rfl, rfl⟩ := h.eq_taken hdriver
    exact ⟨rfl, { h with
      state := rfl
      driver := rfl
      registered := h.registered.trans (by rw [hdriver]; rfl)
      pending := False.elim
      uiBus := iff_of_false (by simp [DisplayState.acquireBus]) hui
      driverBus := iff_of_true rfl (.inr trivial)
      selected := rfl
      dataMode := fun _ => rfl }⟩
  · cases hs

theorem of_programWindow (h : s.Follows phase) (hs : s.driverStep .programWindow = some s') :
    phase = .programming ∧ s'.Follows .ready := by
  simp only [driverStep] at hs
  split at hs
  · next txDone hdriver =>
    cases hs
    obtain ⟨rfl, rfl⟩ := h.eq_programming hdriver
    have hstate : s.transferState = .sync := h.state
    have hbus : s.bus = some .driver := h.driverBus.mpr (.inr trivial)
    rw [spiSend_of_ne (by rw [hstate]; simp)]
    exact ⟨rfl, { h with
      driver := rfl
      registered := h.registered.trans (by rw [hdriver]; rfl)
      pending := False.elim
      driverBus := iff_of_true hbus (.inr trivial)
      log := by
        rw [h.received_eq hbus rfl]
        exact h.log.receive _ }⟩
  · cases hs

theorem of_startSend (h : s.Follows phase) (hs : s.driverStep .startSend = some s') :
    phase = .ready ∧ s'.Follows .sending := by
  simp only [driverStep] at hs
  split at hs
  · next txDone hdriver =>
    cases hs
    obtain ⟨rfl, rfl⟩ := h.eq_ready hdriver
    have hbegun : FlushPhase.begun s.pendingFlush (some (0, s.pendingFlush.size)) .sending =
        FlushPhase.begun s.pendingFlush s.dma .ready := List.append_nil _
    exact ⟨rfl, { h with
      state := rfl
      driver := .inr (.inr (.inr rfl))
      registered := h.registered.trans (by rw [hdriver]; rfl)
      pending := False.elim
      dma := rfl
      driverBus := iff_of_true (h.driverBus.mpr (.inr trivial)) (.inr trivial)
      dataMode := fun _ => rfl
      dmaSize := by
        rintro i size hdma
        cases hdma
        exact ⟨rfl, Nat.zero_le _⟩
      log := by
        rw [hbegun]
        exact h.log }⟩
  · cases hs

theorem of_flagsHandled (h : s.Follows phase) (hs : s.driverStep .flagsHandled = some s') :
    s'.Follows phase := by
  obtain ⟨hdriver, hs⟩ := Option.ite_none_right_eq_some.mp hs
  cases hs
  exact { h with
    driver := h.driver.quiet (.inr (.inr (.inr hdriver))) (.inr (.inl rfl))
    registered := h.registered.trans (by rw [hdriver]; rfl)
    pending := fun hphase => (h.pending hphase).imp_right (by rw [hdriver]; simp)
    driverBus := h.driverBus.trans (by rw [hdriver]; rfl) }

theorem of_transferDone (h : s.Follows phase) (hs : s.driverStep .transferDone = some s') :
    phase = .handling ∧ s'.Follows .released := by
  obtain ⟨hdriver, hs⟩ := Option.ite_none_right_eq_some.mp hs
  cases hs
  obtain rfl := h.eq_handling hdriver
  have hbus : s.bus = some .driver := h.driverBus.mpr (.inr trivial)
  have hui : ¬ s.ui.OwnsBus := by rw [← h.uiBus, hbus]; simp
  exact ⟨rfl, { h with
    driver := rfl
    registered := h.registered.trans (by rw [hdriver]; rfl)
    pending := False.elim
    uiBus := iff_of_false (by simp [DisplayState.releaseBus]) hui
    driverBus := iff_of_false (by simp [DisplayState.releaseBus]) (not_or_intro id id)
    selected := rfl
    dataMode := fun hbus => by cases hbus }⟩

theorem of_setIdle (h : s.Follows phase) (hs : s.driverStep .setIdle = some s') :
    phase = .released ∧ s'.Follows .none := by
  obtain ⟨hdriver, hs⟩ := Option.ite_none_right_eq_some.mp hs
  cases hs
  obtain rfl := h.eq_released hdriver
  exact ⟨rfl, { h with
    state := rfl
    driver := .inr (.inl rfl)
    ui := h.ui.imp_right .inr
    registered := h.registered.trans (by rw [hdriver]; rfl)
    isRegistered := False.elim
    pending := False.elim
    driverBus := h.driverBus.trans (by rw [hdriver]; rfl) }⟩

/-! ### The steps of the peripheral -/

theorem of_dmaByte (h : s.Follows phase) (hs : s.dmaStep .dmaByte = some s') :
    phase = .sending ∧ s'.Follows .sending := by
  simp only [dmaStep] at hs
  split at hs
  · next i size hdma =>
    obtain ⟨hlt, hs⟩ := Option.ite_none_right_eq_some.mp hs
    cases hs
    obtain rfl := h.eq_sending hdma
    obtain ⟨rfl, -⟩ := h.dmaSize i size hdma
    have hbus : s.bus.isSome = true := by rw [h.driverBus.mpr (.inr trivial)]; rfl
    have hbyte : s.received [s.pendingFlush.buffer i] = [(true, s.pendingFlush.buffer i)] := by
      rw [received, if_pos (h.selected.trans hbus), h.dataMode hbus]
      rfl
    have hbegun : FlushPhase.begun s.pendingFlush (some (i + 1, s.pendingFlush.size)) .sending =
        FlushPhase.begun s.pendingFlush s.dma .sending ++ [(true, s.pendingFlush.buffer i)] := by
      simp [FlushPhase.begun, PanelBlock.bytes, hdma, slice_add]
    exact ⟨rfl, { h with
      dma := rfl
      dmaSize := by
        rintro _ _ hnext
        cases hnext
        exact ⟨rfl, hlt⟩
      log := by
        rw [hbegun, hbyte]
        exact h.log.receive _ }⟩
  · cases hs

theorem of_dmaDone (h : s.Follows phase) (hs : s.dmaStep .dmaDone = some s') :
    phase = .sending ∧ s'.Follows .complete := by
  simp only [dmaStep] at hs
  split at hs
  · next i size hdma =>
    obtain ⟨hlast, hs⟩ := Option.ite_none_left_eq_some.mp hs
    cases hs
    obtain rfl := h.eq_sending hdma
    obtain ⟨rfl, hle⟩ := h.dmaSize i size hdma
    obtain rfl : i = s.pendingFlush.size := by omega
    have hstate : s.transferState = .flushArea := h.state
    have hregistered : s.registered = true := h.isRegistered trivial
    have hlog := h.log
    rw [hdma] at hlog
    rw [spiDataCb, if_pos hstate, hregistered, Bool.or_true, Bool.or_true]
    exact ⟨rfl, { h with
      registered := iff_of_true rfl (h.not_isInit trivial)
      isRegistered := fun _ => rfl
      txDone := rfl
      pending := fun _ => .inl rfl
      dma := rfl
      dmaSize := by
        rintro _ _ hnext
        cases hnext
      log := hlog.complete }⟩
  · cases hs

/-! ### Every step -/

/-- The user interface keeps to the protocol. -/
theorem of_uiStep {e : DisplayEvent} (h : s.Follows phase) (hs : s.uiStep e = some s')
    (hack : AcknowledgedFirst s e s') : ∃ phase', s'.Follows phase' := by
  cases e with
  | flushWaitReturns => exact ⟨_, (h.of_flushWaitReturns hs).2⟩
  | fill area pxMap => exact ⟨_, (h.of_fill hs).2⟩
  | queue => exact ⟨_, (h.of_queue hs).2⟩
  | announce =>
    rcases (h.of_announce hs).2 with h' | h'
    · exact ⟨_, h'⟩
    · exact ⟨_, h'⟩
  | acquire commands => exact ⟨_, h.of_acquire hs⟩
  | sendCommands => exact ⟨_, h.of_sendCommands hs (hack rfl)⟩
  | releaseBus => exact ⟨_, h.of_releaseBus hs⟩
  | _ => cases hs

/-- The thread of the driver keeps to the protocol. -/
theorem of_driverStep {e : DisplayEvent} (h : s.Follows phase) (hs : s.driverStep e = some s') :
    ∃ phase', s'.Follows phase' := by
  cases e with
  | initAcquire => exact ⟨_, h.of_initAcquire hs⟩
  | initSend => exact ⟨_, h.of_initSend hs⟩
  | initRelease => exact ⟨_, h.of_initRelease hs⟩
  | register => exact ⟨_, h.of_register hs⟩
  | waitAnyReturns => exact ⟨_, h.of_waitAnyReturns hs⟩
  | getAndClearFlags =>
    rcases h.of_getAndClearFlags hs with ⟨-, h'⟩ | ⟨-, h'⟩ | ⟨-, h'⟩
    · exact ⟨_, h'⟩
    · exact ⟨_, h'⟩
    · exact ⟨_, h'⟩
  | acquireForFlush => exact ⟨_, (h.of_acquireForFlush hs).2⟩
  | programWindow => exact ⟨_, (h.of_programWindow hs).2⟩
  | startSend => exact ⟨_, (h.of_startSend hs).2⟩
  | flagsHandled => exact ⟨_, h.of_flagsHandled hs⟩
  | transferDone => exact ⟨_, (h.of_transferDone hs).2⟩
  | setIdle => exact ⟨_, (h.of_setIdle hs).2⟩
  | _ => cases hs

/-- The peripheral keeps to the protocol. -/
theorem of_dmaStep {e : DisplayEvent} (h : s.Follows phase) (hs : s.dmaStep e = some s') :
    ∃ phase', s'.Follows phase' := by
  cases e with
  | dmaByte => exact ⟨_, (h.of_dmaByte hs).2⟩
  | dmaDone => exact ⟨_, (h.of_dmaDone hs).2⟩
  | _ => cases hs

end DisplayState.Follows

/-- Every step keeps to the protocol. -/
theorem DisplayState.Follows.step {s s' : DisplayState} {e : DisplayEvent} {phase : FlushPhase}
    (h : s.Follows phase) (hs : displayMachine.step s e = some s')
    (hack : AcknowledgedFirst s e s') : ∃ phase', s'.Follows phase' := by
  rcases displayMachine_step hs with hs | hs | hs
  · exact h.of_uiStep hs hack
  · exact h.of_driverStep hs
  · exact h.of_dmaStep hs

theorem DisplayState.IsStart.follows {s : DisplayState} {tempCompensation contrast : Byte}
    (h : s.IsStart tempCompensation contrast) : s.Follows .none where
  state := h.transferState
  driver := .inl (by rw [h.driver]; trivial)
  ui := .inl h.ui
  registered := by
    rw [h.registered, h.driver]
    exact iff_of_false (by simp) (not_not_intro trivial)
  isRegistered := False.elim
  bufReady := h.bufReady
  txDone := h.txDone
  pending := False.elim
  dma := by rw [h.dma]; rfl
  uiBus := iff_of_false (by simp [h.bus]) (by rw [h.ui]; exact id)
  driverBus := iff_of_false (by simp [h.bus]) (by rw [h.driver]; exact not_or_intro id id)
  selected := by rw [h.selected, h.bus]; rfl
  dataMode := by simp [h.bus]
  dmaSize := by simp [h.dma]
  missed := h.missed
  log := by
    rw [h.panel, h.flushed]
    exact ⟨[], rfl, rfl⟩

/-- **Runs** keep to the protocol. -/
theorem exists_follows {s₀ s : DisplayState} {es : List DisplayEvent}
    (hinit : displayMachine.Init s₀) (hack : displayMachine.EveryStep AcknowledgedFirst s₀ es)
    (hr : displayMachine.run s₀ es = some s) : ∃ phase, s.Follows phase := by
  obtain ⟨tempCompensation, contrast, hstart⟩ := hinit
  refine StateMachine.EveryStep.invariant (I := fun s => ∃ phase, s.Follows phase) hack hr
    ⟨_, hstart.follows⟩ ?_
  rintro s e s' ⟨phase, h⟩ hs hack
  exact h.step hs hack

/-! ### Flushes -/

/-- What the protocol is for. The panel has received whole blocks: commands, or the window of a
flush and its pixels, the flushes in the order of the calls. Of the last flush it may have received
a part only, or nothing, but not when LVGL fills the buffer again. -/
structure FlushesInOrder (s : DisplayState) : Prop where
  panel : ∃ (blocks : List PanelBlock) (begun : List (Bool × Byte)),
    s.panel = blocks.flatMap PanelBlock.bytes ++ begun ∧
    (s.flushed = blocks.filterMap PanelBlock.flushed ∧ begun = [] ∨
      s.ui ≠ .fill ∧ ∃ area pixels,
        s.flushed = blocks.filterMap PanelBlock.flushed ++ [(area, pixels)] ∧
        begun <+: PanelBlock.bytes (.flush area pixels))
  /-- Nobody uses the buffer while it is filled. -/
  filling : s.ui = .fill → s.dma = none ∧ s.driver.IsQuiet ∧ s.bufReady = false
  /-- A bus is released by its owner. -/
  initRelease : ∀ todo, s.driver = .initRelease todo → s.bus = some .driver
  transferDone : s.driver = .handle false true → s.bus = some .driver
  releaseBus : s.ui = .release → s.bus = some .ui

theorem slice_isPrefix {α : Type*} (buf : ℕ → α) {m n : ℕ} (h : m ≤ n) :
    slice buf 0 m <+: slice buf 0 n := by
  obtain ⟨k, rfl⟩ := Nat.exists_eq_add_of_le h
  rw [slice_add]
  exact List.prefix_append _ _

/-- What has begun is a part of the current flush. -/
theorem DisplayState.Follows.begun {s : DisplayState} {phase : FlushPhase} (h : s.Follows phase) :
    phase.current s.pendingFlush s.ui = [] ∧ phase.begun s.pendingFlush s.dma = [] ∨
      s.ui ≠ .fill ∧ ∃ area pixels, phase.current s.pendingFlush s.ui = [(area, pixels)] ∧
        phase.begun s.pendingFlush s.dma <+: PanelBlock.bytes (.flush area pixels) := by
  have hui := h.ui
  have hfill : ∀ ui : UiStage, ui = .free ∨ ui.OwnsBus → ui ≠ .fill := by
    rintro ui hui rfl
    rcases hui with hfree | howns
    · cases hfree
    · exact howns
  cases phase with
  | none | complete | handling | released => exact .inl ⟨rfl, rfl⟩
  | filled =>
    obtain ⟨area, size, hqueue⟩ := hui
    rw [hqueue]
    exact .inr ⟨by simp, area, _, rfl, List.nil_prefix⟩
  | queued =>
    obtain ⟨area, size, hannounce⟩ := hui
    rw [hannounce]
    exact .inr ⟨by simp, area, _, rfl, List.nil_prefix⟩
  | ready => exact .inr ⟨hfill _ hui, _, _, rfl, List.prefix_append _ _⟩
  | sending =>
    refine .inr ⟨hfill _ hui, _, _, rfl, ?_⟩
    obtain ⟨⟨i, size⟩, hdma⟩ := Option.isSome_iff_exists.mp h.dma
    obtain ⟨rfl, hle⟩ := h.dmaSize i size hdma
    rw [hdma]
    exact (List.prefix_append_right_inj _).mpr ((slice_isPrefix _ hle).map _)
  | _ => exact .inr ⟨hfill _ hui, _, _, rfl, List.nil_prefix⟩

/-- **Every flush is sent once, in order and as a whole**, in every interleaving of LVGL, the thread
of the driver, the peripheral and the commands. -/
theorem display_flushes_in_order {s₀ s : DisplayState} {es : List DisplayEvent}
    (hinit : displayMachine.Init s₀) (hack : displayMachine.EveryStep AcknowledgedFirst s₀ es)
    (hr : displayMachine.run s₀ es = some s) : FlushesInOrder s := by
  obtain ⟨phase, h⟩ := exists_follows hinit hack hr
  refine ⟨?_, ?_, ?_, ?_, ?_⟩
  · obtain ⟨blocks, hpanel, hflushed⟩ := h.log
    refine ⟨blocks, _, hpanel, ?_⟩
    rcases h.begun with ⟨hcurrent, hbegun⟩ | ⟨hfill, area, pixels, hcurrent, hbegun⟩
    · exact .inl ⟨by rw [hflushed, hcurrent, List.append_nil], hbegun⟩
    · exact .inr ⟨hfill, area, pixels, by rw [hflushed, hcurrent], hbegun⟩
  · intro hfill
    obtain rfl := h.eq_none_of_fill hfill
    exact ⟨h.dma_eq_none rfl, h.driver, h.bufReady⟩
  · intro todo hinitRelease
    exact h.driverBus.mpr (.inl (by rw [hinitRelease]; trivial))
  · intro hhandling
    obtain rfl := h.eq_handling hhandling
    exact h.driverBus.mpr (.inr trivial)
  · intro hrelease
    exact h.uiBus.mpr (by rw [hrelease]; trivial)

/-- A display with an empty buffer, before its controller is initialised. -/
def displayStart : DisplayState where
  pendingFlush := { area := ⟨0, 0, 0, 0⟩, buffer := fun _ => 0, size := 0 }
  transferState := .idle
  bufReady := false
  writes := []
  txDone := false
  eventPending := false
  registered := false
  bus := none
  selected := false
  dataMode := false
  dma := none
  driver := .initController (initCommands 0#8 0x80#8)
  ui := .free
  panel := []
  flushed := []
  missed := false

theorem displayStart_init : displayMachine.Init displayStart :=
  ⟨0#8, 0x80#8, by constructor <;> rfl⟩

/-- A flush whose buffer the peripheral has begun to send. -/
def displaySending : List DisplayEvent :=
  (List.replicate 8 [DisplayEvent.initAcquire, .initSend, .initRelease]).flatten ++
    [.register, .flushWaitReturns, .fill { x1 := 0, y1 := 0, x2 := 23, y2 := 0 } fun _ => 0, .queue,
      .announce, .waitAnyReturns, .getAndClearFlags, .acquireForFlush, .programWindow, .startSend,
      .dmaByte, .dmaByte]

theorem display_flushes_in_order_sending :
    ∃ s, displayMachine.run displayStart displaySending = some s ∧ FlushesInOrder s := by
  obtain ⟨s, hs⟩ : ∃ s, displayMachine.run displayStart displaySending = some s :=
    Option.isSome_iff_exists.mp rfl
  refine ⟨s, hs, display_flushes_in_order displayStart_init ?_ hs⟩
  refine .of_forall fun s e s' he _ hsend => ?_
  simp [displaySending, hsend] at he

end OpenMower
