import OpenMower.CoverUi.DisplayTransfers

/-!
# Waiting for the flush of the display

`LVGLFlushWaitCB` polls until the state is `IDLE`. The steps of the driver's thread and of the
peripheral lower a rank until then (`Follows.rank_lt`), and one of them can always be taken
(`Follows.goes`). The only flush that is never acknowledged is one that is announced before the
thread has registered its listener (`flush_wait_returns_iff`).
-/

namespace OpenMower

open Buffer DisplayDriver DisplayState

/-- A step of the driver's thread or of the peripheral, which go on while LVGL waits. -/
def DisplayEvent.IsBackground : DisplayEvent → Prop
  | flushWaitReturns | fill _ _ | queue | announce | acquire _ | sendCommands | releaseBus => False
  | _ => True

/-- LVGL waits in `LVGLFlushWaitCB`. -/
structure DisplayState.Waits (s : DisplayState) : Prop where
  ui : s.ui = .free
  busy : s.transferState ≠ .idle

namespace DisplayState

/-- The steps until the thread waits for an event that it has not seen. -/
def quietRank (s : DisplayState) : ℕ :=
  (if s.eventPending then 3 else 0) +
    match s.driver with
    | .getFlags => 2
    | .handle _ _ => 1
    | _ => 0

/-- A bound on the steps until the flush is acknowledged. -/
def rank (s : DisplayState) : ℕ :=
  match s.transferState with
  | .idle => 0
  | .queued =>
    if s.bufReady then s.pendingFlush.size + 60 + s.quietRank
    else s.pendingFlush.size + 50
  | .sync =>
    match s.driver with
    | .programWindow _ => s.pendingFlush.size + 40
    | _ => s.pendingFlush.size + 30
  | .flushArea =>
    match s.dma with
    | some (i, size) => size - i + 20 + s.quietRank
    | none =>
      if s.txDone then 10 + s.quietRank
      else
        match s.driver with
        | .setIdle => 1
        | _ => 2

namespace Follows

variable {s : DisplayState} {phase : FlushPhase}

theorem isRegistered_of_waits (h : s.Follows phase) (hwaits : s.Waits)
    (hmissed : s.missed = false) : phase.IsRegistered := by
  have hstate := h.state
  have hui := h.ui
  have hphase := h.missed
  rw [hwaits.ui] at hui
  cases phase with
  | none | filled => exact absurd hstate hwaits.busy
  | queued =>
    obtain ⟨area, size, hannounce⟩ := hui
    cases hannounce
  | missed =>
    rw [hmissed] at hphase
    cases hphase
  | _ => trivial

/-- The thread is quiet before it has seen a flag, or while the peripheral sends. -/
theorem phase_of_quiet (h : s.Follows phase) (hphase : phase.IsRegistered)
    (hquiet : s.driver.IsQuiet) : phase = .flagged ∨ phase = .sending ∨ phase = .complete := by
  have hdriver := h.driver
  cases phase with
  | flagged | sending | complete => simp
  | none | filled | queued | missed => cases hphase
  | _ =>
    rw [show s.driver = _ from hdriver] at hquiet
    simp [DriverStage.IsQuiet, DriverStage.IsInit] at hquiet

/-- What the rank is while the thread is quiet. -/
theorem rank_of_quiet (h : s.Follows phase) (hphase : phase.IsRegistered)
    (hquiet : s.driver.IsQuiet) (pending : Bool) (driver : DriverStage) :
    ∃ n, s.rank = n + s.quietRank ∧ { s with eventPending := pending, driver }.rank =
      n + { s with eventPending := pending, driver }.quietRank := by
  have hstate := h.state
  have hbuf := h.bufReady
  have htx := h.txDone
  have hdma := h.dma
  rcases h.phase_of_quiet hphase hquiet with rfl | rfl | rfl
  · exact ⟨s.pendingFlush.size + 60, by simp_all [rank, FlushPhase.state, FlushPhase.bufReady]⟩
  · obtain ⟨⟨i, size⟩, hnext⟩ := Option.isSome_iff_exists.mp hdma
    exact ⟨size - i + 20, by simp_all [rank, FlushPhase.state]⟩
  · have hnone := h.dma_eq_none rfl
    exact ⟨10, by simp_all [rank, FlushPhase.state, FlushPhase.txDone]⟩

theorem rank_flagged (h : s.Follows .flagged) :
    s.rank = s.pendingFlush.size + 60 + s.quietRank := by
  rw [rank, show s.transferState = .queued from h.state, h.bufReady]
  rfl

theorem rank_taken (h : s.Follows .taken) : s.rank = s.pendingFlush.size + 50 := by
  rw [rank, show s.transferState = .queued from h.state, h.bufReady]
  rfl

theorem rank_programming (h : s.Follows .programming) : s.rank = s.pendingFlush.size + 40 := by
  rw [rank, show s.transferState = .sync from h.state,
    show s.driver = .programWindow false from h.driver]

theorem rank_ready (h : s.Follows .ready) : s.rank = s.pendingFlush.size + 30 := by
  rw [rank, show s.transferState = .sync from h.state,
    show s.driver = .startSend false from h.driver]

theorem rank_sending (h : s.Follows .sending) {i size : ℕ} (hdma : s.dma = some (i, size)) :
    s.rank = size - i + 20 + s.quietRank := by
  rw [rank, show s.transferState = .flushArea from h.state, hdma]

theorem rank_complete (h : s.Follows .complete) : s.rank = 10 + s.quietRank := by
  rw [rank, show s.transferState = .flushArea from h.state, h.dma_eq_none rfl, h.txDone]
  rfl

theorem rank_handling (h : s.Follows .handling) : s.rank = 2 := by
  rw [rank, show s.transferState = .flushArea from h.state, h.dma_eq_none rfl, h.txDone,
    show s.driver = .handle false true from h.driver]
  rfl

theorem rank_released (h : s.Follows .released) : s.rank = 1 := by
  rw [rank, show s.transferState = .flushArea from h.state, h.dma_eq_none rfl, h.txDone,
    show s.driver = .setIdle from h.driver]
  rfl

end Follows

theorem quietRank_le (s : DisplayState) : s.quietRank ≤ 5 := by
  rw [quietRank]
  split <;> split <;> omega

namespace Follows

variable {s s' : DisplayState} {phase : FlushPhase}

/-! ### What a step does to the rank -/

theorem rank_lt_waitAnyReturns (h : s.Follows phase) (hphase : phase.IsRegistered)
    (hs : s.driverStep .waitAnyReturns = some s') : s'.rank < s.rank := by
  obtain ⟨⟨hdriver, hpending⟩, hs⟩ := Option.ite_none_right_eq_some.mp hs
  cases hs
  obtain ⟨n, hrank, hrank'⟩ := h.rank_of_quiet hphase (.inr (.inl hdriver)) false .getFlags
  rw [hrank, hrank', quietRank, quietRank, hdriver, hpending]
  exact Nat.add_lt_add_left (show 2 < 3 by decide) n

theorem rank_lt_getAndClearFlags (h : s.Follows phase) (hphase : phase.IsRegistered)
    (hs : s.driverStep .getAndClearFlags = some s') : s'.rank < s.rank := by
  have hnext := h.of_getAndClearFlags hs
  obtain ⟨hdriver, hs⟩ := Option.ite_none_right_eq_some.mp hs
  cases hs
  rcases hnext with ⟨rfl, h'⟩ | ⟨rfl, h'⟩ | ⟨hflagged, h'⟩
  · rw [h.rank_flagged, h'.rank_taken]
    exact Nat.lt_add_right _ (Nat.add_lt_add_left (by decide) s.pendingFlush.size)
  · rw [h.rank_complete, h'.rank_handling]
    omega
  · -- the peripheral is still sending, and the thread has seen no flag
    obtain rfl : phase = .sending :=
      (h.phase_of_quiet hphase (.inr (.inr (.inl hdriver)))).elim
        (fun heq => absurd (by rw [heq]; trivial) hflagged)
        fun hphase => hphase.resolve_right fun heq => hflagged (by rw [heq]; trivial)
    obtain ⟨⟨i, size⟩, hdma⟩ := Option.isSome_iff_exists.mp h.dma
    rw [h.bufReady, h.txDone] at h' ⊢
    rw [h.rank_sending hdma, h'.rank_sending hdma, quietRank, quietRank, hdriver]
    exact Nat.add_lt_add_left (Nat.add_lt_add_left (show 1 < 2 by decide) _) _

theorem rank_lt_acquireForFlush (h : s.Follows phase)
    (hs : s.driverStep .acquireForFlush = some s') : s'.rank < s.rank := by
  obtain ⟨rfl, h'⟩ := h.of_acquireForFlush hs
  simp only [driverStep] at hs
  split at hs
  · cases hs
    rw [h.rank_taken, h'.rank_programming]
    exact Nat.add_lt_add_left (by decide) s.pendingFlush.size
  · cases hs

theorem rank_lt_programWindow (h : s.Follows phase)
    (hs : s.driverStep .programWindow = some s') : s'.rank < s.rank := by
  obtain ⟨rfl, h'⟩ := h.of_programWindow hs
  simp only [driverStep] at hs
  split at hs
  · cases hs
    have hstate : s.transferState = .sync := h.state
    rw [h.rank_programming, h'.rank_ready, spiSend_of_ne (by rw [hstate]; simp)]
    exact Nat.add_lt_add_left (by decide) s.pendingFlush.size
  · cases hs

theorem rank_lt_startSend (h : s.Follows phase) (hs : s.driverStep .startSend = some s') :
    s'.rank < s.rank := by
  obtain ⟨rfl, h'⟩ := h.of_startSend hs
  have hquiet := quietRank_le s'
  simp only [driverStep] at hs
  split at hs
  · cases hs
    rw [h.rank_ready, h'.rank_sending rfl]
    omega
  · cases hs

theorem rank_lt_flagsHandled (h : s.Follows phase) (hphase : phase.IsRegistered)
    (hs : s.driverStep .flagsHandled = some s') : s'.rank < s.rank := by
  obtain ⟨hdriver, hs⟩ := Option.ite_none_right_eq_some.mp hs
  cases hs
  obtain ⟨n, hrank, hrank'⟩ :=
    h.rank_of_quiet hphase (.inr (.inr (.inr hdriver))) s.eventPending .waitAny
  rw [hrank, hrank', quietRank, quietRank, hdriver]
  exact Nat.add_lt_add_left (Nat.add_lt_add_left (show 0 < 1 by decide) _) n

theorem rank_lt_transferDone (h : s.Follows phase) (hs : s.driverStep .transferDone = some s') :
    s'.rank < s.rank := by
  obtain ⟨rfl, h'⟩ := h.of_transferDone hs
  rw [h.rank_handling, h'.rank_released]
  decide

theorem rank_lt_dmaByte (h : s.Follows phase) (hs : s.dmaStep .dmaByte = some s') :
    s'.rank < s.rank := by
  obtain ⟨rfl, h'⟩ := h.of_dmaByte hs
  simp only [dmaStep] at hs
  split at hs
  · next i size hdma =>
    obtain ⟨hlt, hs⟩ := Option.ite_none_right_eq_some.mp hs
    cases hs
    rw [h.rank_sending hdma, h'.rank_sending rfl]
    have hleft : size - (i + 1) + 20 < size - i + 20 := by omega
    exact Nat.add_lt_add_right hleft s.quietRank
  · cases hs

theorem rank_lt_dmaDone (h : s.Follows phase) (hs : s.dmaStep .dmaDone = some s') :
    s'.rank < s.rank := by
  obtain ⟨rfl, h'⟩ := h.of_dmaDone hs
  obtain ⟨⟨i, size⟩, hdma⟩ := Option.isSome_iff_exists.mp h.dma
  rw [h.rank_sending hdma, h'.rank_complete]
  have hquiet := quietRank_le s'
  omega

/-- **Progress**: a step of the background lowers the rank until the flush is acknowledged. -/
theorem rank_lt {e : DisplayEvent} (h : s.Follows phase) (hphase : phase.IsRegistered)
    (hbusy : s'.transferState ≠ .idle) (hs : s.driverStep e = some s' ∨ s.dmaStep e = some s') :
    s'.rank < s.rank := by
  -- a registered thread has initialised the controller
  have hinit := h.not_isInit hphase
  rcases hs with hs | hs
  · cases e with
    | initAcquire =>
      simp only [driverStep] at hs
      split at hs
      · next hdriver _ => exact absurd (by rw [hdriver]; trivial) hinit
      · cases hs
    | initSend =>
      simp only [driverStep] at hs
      split at hs
      · next hdriver => exact absurd (by rw [hdriver]; trivial) hinit
      · cases hs
    | initRelease =>
      simp only [driverStep] at hs
      split at hs
      · next hdriver => exact absurd (by rw [hdriver]; trivial) hinit
      · cases hs
    | register =>
      have hdriver := (Option.ite_none_right_eq_some.mp hs).1
      exact absurd (by rw [hdriver]; trivial) hinit
    | waitAnyReturns => exact h.rank_lt_waitAnyReturns hphase hs
    | getAndClearFlags => exact h.rank_lt_getAndClearFlags hphase hs
    | acquireForFlush => exact h.rank_lt_acquireForFlush hs
    | programWindow => exact h.rank_lt_programWindow hs
    | startSend => exact h.rank_lt_startSend hs
    | flagsHandled => exact h.rank_lt_flagsHandled hphase hs
    | transferDone => exact h.rank_lt_transferDone hs
    | setIdle => exact absurd (h.of_setIdle hs).2.state hbusy
    | _ => cases hs
  · cases e with
    | dmaByte => exact h.rank_lt_dmaByte hs
    | dmaDone => exact h.rank_lt_dmaDone hs
    | _ => cases hs

end Follows

/-- A quiet thread goes on if it has a flag to see. -/
theorem goes_of_quiet {s : DisplayState} (hinit : ¬ s.driver.IsInit) (hquiet : s.driver.IsQuiet)
    (hpending : s.eventPending = true ∨ s.driver = .getFlags) :
    ∃ e s', e.IsBackground ∧ s.driverStep e = some s' := by
  rcases hquiet with hquiet | hdriver | hdriver | hdriver
  · exact absurd hquiet hinit
  · have hevent := hpending.resolve_right (by rw [hdriver]; simp)
    exact ⟨.waitAnyReturns, _, trivial, if_pos ⟨hdriver, hevent⟩⟩
  · exact ⟨.getAndClearFlags, _, trivial, if_pos hdriver⟩
  · exact ⟨.flagsHandled, _, trivial, if_pos hdriver⟩

/-- The bus is free when the thread needs it for a flush. -/
theorem Follows.bus_eq_none {s : DisplayState} (h : s.Follows .taken) (hui : s.ui = .free) :
    s.bus = none := by
  rcases hbus : s.bus with _ | ⟨_ | _⟩
  · rfl
  · have howns := h.uiBus.mp hbus
    rw [hui] at howns
    cases howns
  · have howns := h.driverBus.mp hbus
    rw [show s.driver = .handle true false from h.driver] at howns
    rcases howns with howns | howns <;> cases howns

/-- The background goes on until the flush is acknowledged. -/
theorem Follows.goes {s : DisplayState} {phase : FlushPhase} (h : s.Follows phase)
    (hphase : phase.IsRegistered) (hui : s.ui = .free) :
    ∃ e s', e.IsBackground ∧ displayMachine.step s e = some s' := by
  have hgoes : ∀ e : DisplayEvent, e.IsBackground → (s.driverStep e).isSome = true →
      ∃ e s', e.IsBackground ∧ displayMachine.step s e = some s' := by
    intro e he hsome
    obtain ⟨s', hs⟩ := Option.isSome_iff_exists.mp hsome
    exact ⟨e, s', he, displayMachine_step_of_driver hs⟩
  have hdriver := h.driver
  cases phase with
  | none | filled | queued | missed => cases hphase
  | flagged | complete =>
    obtain ⟨e, s', he, hs⟩ := goes_of_quiet (h.not_isInit hphase) hdriver (h.pending trivial)
    exact ⟨e, s', he, displayMachine_step_of_driver hs⟩
  | taken =>
    refine hgoes .acquireForFlush trivial ?_
    rw [driverStep, show s.driver = .handle true false from hdriver, h.bus_eq_none hui]
    rfl
  | programming =>
    refine hgoes .programWindow trivial ?_
    rw [driverStep, show s.driver = .programWindow false from hdriver]
    rfl
  | ready =>
    refine hgoes .startSend trivial ?_
    rw [driverStep, show s.driver = .startSend false from hdriver]
    rfl
  | sending =>
    obtain ⟨⟨i, size⟩, hdma⟩ := Option.isSome_iff_exists.mp h.dma
    by_cases hlt : i < size
    · refine ⟨.dmaByte, { s with
        panel := s.panel ++ s.received [s.pendingFlush.buffer i]
        dma := some (i + 1, size) }, trivial, displayMachine_step_of_dma ?_⟩
      rw [dmaStep, hdma]
      exact if_pos hlt
    · refine ⟨.dmaDone, { s with dma := none }.spiDataCb, trivial, displayMachine_step_of_dma ?_⟩
      rw [dmaStep, hdma]
      exact if_neg hlt
  | handling =>
    refine hgoes .transferDone trivial ?_
    rw [driverStep, if_pos (show s.driver = .handle false true from hdriver)]
    rfl
  | released =>
    refine hgoes .setIdle trivial ?_
    rw [driverStep, if_pos (show s.driver = .setIdle from hdriver)]
    rfl

@[simp] theorem spiDataCb_ui (s : DisplayState) : s.spiDataCb.ui = s.ui := by
  rw [spiDataCb]
  split <;> rfl

@[simp] theorem spiDataCb_missed (s : DisplayState) : s.spiDataCb.missed = s.missed := by
  rw [spiDataCb]
  split <;> rfl

/-- What the background leaves alone. -/
theorem background_frame {s s' : DisplayState} {e : DisplayEvent}
    (hs : s.driverStep e = some s' ∨ s.dmaStep e = some s') :
    s'.ui = s.ui ∧ s'.missed = s.missed := by
  rcases hs with hs | hs
  · cases e <;> simp only [driverStep, reduceCtorEq] at hs
    all_goals
      split at hs
      · cases hs
        constructor <;> simp [spiSend, acquireBus, releaseBus]
      · cases hs
  · cases e <;> simp only [dmaStep, reduceCtorEq] at hs
    all_goals
      split at hs
      · split at hs
        all_goals
          cases hs <;> simp
      · cases hs

/-- A step of the background is one of the driver's thread or of the peripheral. -/
theorem of_background {s s' : DisplayState} {e : DisplayEvent} (he : e.IsBackground)
    (hs : displayMachine.step s e = some s') :
    s.driverStep e = some s' ∨ s.dmaStep e = some s' := by
  rcases displayMachine_step hs with hui | hbackground
  · cases e <;> first | exact False.elim he | cases hui
  · exact hbackground

namespace Follows

variable {s s' : DisplayState} {e : DisplayEvent}

/-- A flush that the listener has missed stays where it is. -/
theorem missed_step (h : s.Follows .missed) (hs : displayMachine.step s e = some s') :
    s'.Follows .missed := by
  rcases displayMachine_step hs with hs | hbackground
  · cases e with
    | flushWaitReturns => cases (h.of_flushWaitReturns hs).1
    | fill area pxMap => cases (h.of_fill hs).1
    | queue => cases (h.of_queue hs).1
    | announce => cases (h.of_announce hs).1
    | acquire commands => exact h.of_acquire hs
    | sendCommands =>
      refine h.of_sendCommands hs fun hdriver => ?_
      have hquiet : s.driver.IsQuiet := h.driver
      rw [hdriver] at hquiet
      simp [DriverStage.IsQuiet, DriverStage.IsInit] at hquiet
    | releaseBus => exact h.of_releaseBus hs
    | _ => cases hs
  · obtain ⟨phase', h'⟩ : ∃ phase', s'.Follows phase' := by
      rcases hbackground with hs | hs
      · exact h.of_driverStep hs
      · exact h.of_dmaStep hs
    have hmissed := h'.missed.symm.trans ((background_frame hbackground).2.trans h.missed)
    obtain rfl : phase' = .missed := by cases phase' <;> first | rfl | cases hmissed
    exact h'

theorem eq_missed {phase : FlushPhase} (h : s.Follows phase) (hmissed : s.missed = true) :
    phase = .missed := by
  have hphase := h.missed.symm.trans hmissed
  cases phase <;> first | rfl | cases hphase

/-- **A missed flush is lost**: whatever happens, its state does not become `IDLE`. -/
theorem missed_run (h : s.Follows .missed) {es : List DisplayEvent}
    (hr : displayMachine.run s es = some s') : s'.Follows .missed :=
  StateMachine.run_invariant (I := fun s => s.Follows .missed) hr h fun _ _ _ h hs =>
    h.missed_step hs

end Follows

end DisplayState

open StateMachine in
/-- **LVGL gets through**: while it waits for a flush, the driver and the peripheral inevitably
acknowledge it, unless the flush was announced before the thread of the driver had registered its
listener. Then nothing that can happen acknowledges it. -/
theorem flush_wait_returns_iff {s₀ s : DisplayState} {es : List DisplayEvent}
    (hinit : displayMachine.Init s₀) (hack : displayMachine.EveryStep AcknowledgedFirst s₀ es)
    (hr : displayMachine.run s₀ es = some s) (hwaits : s.Waits) :
    (displayMachine.Inevitable DisplayEvent.IsBackground (fun _ s' => s'.transferState = .idle) s ↔
      s.missed = false) ∧
    (s.missed = true →
      ∀ es' s', displayMachine.run s es' = some s' → s'.transferState ≠ .idle) := by
  obtain ⟨phase, h⟩ := exists_follows hinit hack hr
  have hbusy : ∀ s : DisplayState, s.Follows .missed → s.transferState ≠ .idle := by
    intro s h
    rw [h.state]
    simp [FlushPhase.state]
  refine ⟨⟨fun hinevitable => ?_, fun hmissed => ?_⟩, fun hmissed es' s' hr' => ?_⟩
  · by_contra hmissed
    obtain rfl := h.eq_missed (Bool.not_eq_false _ ▸ hmissed)
    refine Inevitable.not_of_invariant (J := fun s => s.Follows .missed) ?_ h hinevitable
    intro s e s' h he hs
    exact ⟨hbusy s' (h.missed_step hs), h.missed_step hs⟩
  · refine Inevitable.of_rank (I := fun s => (∃ phase, s.Follows phase) ∧ s.Waits ∧
      s.missed = false) rank ?_ ?_ ⟨⟨phase, h⟩, hwaits, hmissed⟩
    · rintro s ⟨⟨phase, h⟩, hwaits, hmissed⟩
      exact h.goes (h.isRegistered_of_waits hwaits hmissed) hwaits.ui
    · rintro s e s' ⟨⟨phase, h⟩, hwaits, hmissed⟩ he hs
      have hbackground := of_background he hs
      obtain ⟨hui', hmissed'⟩ := background_frame hbackground
      have h' : ∃ phase', s'.Follows phase' := by
        rcases hbackground with hs | hs
        · exact h.of_driverStep hs
        · exact h.of_dmaStep hs
      by_cases hidle : s'.transferState = .idle
      · exact .inl hidle
      · refine .inr ⟨⟨h', ⟨hui'.trans hwaits.ui, hidle⟩, hmissed'.trans hmissed⟩, ?_⟩
        exact h.rank_lt (h.isRegistered_of_waits hwaits hmissed) hidle hbackground
  · obtain rfl := h.eq_missed hmissed
    exact hbusy s' (h.missed_run hr')

/-- A flush that is announced while the controller is being initialised. -/
def displayMissed : List DisplayEvent :=
  [.flushWaitReturns, .fill { x1 := 0, y1 := 0, x2 := 23, y2 := 0 } fun _ => 0, .queue, .announce]

theorem flush_wait_returns_iff_missed :
    ∃ s, displayMachine.run displayStart displayMissed = some s ∧ s.missed = true ∧
      (displayMachine.Inevitable DisplayEvent.IsBackground
        (fun _ s' => s'.transferState = .idle) s ↔ s.missed = false) ∧
      (s.missed = true →
        ∀ es' s', displayMachine.run s es' = some s' → s'.transferState ≠ .idle) := by
  obtain ⟨s, hs, hui, hstate, hmissed⟩ :
      ∃ s, displayMachine.run displayStart displayMissed = some s ∧ s.ui = .free ∧
        s.transferState = .queued ∧ s.missed = true := ⟨_, rfl, rfl, rfl, rfl⟩
  refine ⟨s, hs, hmissed, flush_wait_returns_iff displayStart_init ?_ hs
    ⟨hui, by rw [hstate]; simp⟩⟩
  refine .of_forall fun s e s' he _ hsend => ?_
  simp [displayMissed, hsend] at he

end OpenMower
