import OpenMower.Library.StateMachine
import OpenMower.Services.DiffDriveEscs

/-!
# Dead ESCs are reported

An ESC whose last state is more than a second old should be reported as disconnected by every
tick, and one with a newer state by none (`ReportsDeadEscs`). The second part always holds. The
first does not: the time stamp is that of the last pair of states, and the flag of a state that
waits for its pair is only cleared by the other ESC. `dead_escs_reported_iff` shows that a dead
ESC goes unreported exactly as long as its state waits or the last pair is recent.
-/

namespace OpenMower

open ModularClock

/-- The ESC fields with the true time of the last event. The history is when each ESC last
delivered a state and when the last pair was complete. -/
structure EscRun (F : Type*) where
  escs : DiffDriveEscs F
  time : ℤ
  lastState : EscSide → Option ℤ
  paired : ℤ

/-- The callbacks of the ESCs and the ticks, with their true times. -/
inductive EscEvent (F : Type*)
  | state (side : EscSide) (state : EscState F) (time : ℤ)
  | tick (time : ℤ)

/-- When an event happens. -/
def EscEvent.time {F : Type*} : EscEvent F → ℤ
  | .state _ _ time => time
  | .tick time => time

namespace EscRun

variable {F : Type*} [Neg F] [Mul F] [Div F] [NatCast F] [IntCast F] (s : EscRun F)

/-- The state after an event. -/
def next (wheelTicksPerMeter : F) : EscEvent F → EscRun F
  | .state side state time =>
    { escs := (s.escs.escCallback wheelTicksPerMeter side state (micros time)).1
      time := time
      lastState := Function.update s.lastState side (some time)
      paired := if s.escs.valid side.other then time else s.paired }
  | .tick time => { s with time := time }

omit [Neg F] [Mul F] [Div F] [NatCast F] [IntCast F]

/-- The ESC has delivered no state for more than a second, or never one. -/
def Dead (side : EscSide) (time : ℤ) : Prop :=
  match s.lastState side with
  | some last => 1000000 < time - last
  | none => 1000000 < time

/-- The last state of the ESC is at most a second old. -/
def Fresh (side : EscSide) (time : ℤ) : Prop :=
  ∃ last, s.lastState side = some last ∧ time - last ≤ 1000000

/-- A tick reports the dead ESCs and none of those with a fresh state. -/
def ReportsDeadEscs (s : EscRun F) (e : EscEvent F) (_ : EscRun F) : Prop :=
  ∀ time, e = .tick time → ∀ side,
    (s.Dead side time →
      .escStatus side EscStatus.disconnected.code ∈ s.escs.tickStatus (micros time)) ∧
    (s.Fresh side time →
      .escStatus side EscStatus.disconnected.code ∉ s.escs.tickStatus (micros time))

/-- At a tick, a dead ESC has no state waiting for its pair, and the last pair is more than a
second old. -/
def DeadEscsPaired (s : EscRun F) (e : EscEvent F) (_ : EscRun F) : Prop :=
  ∀ time, e = .tick time → ∀ side, s.Dead side time →
    s.escs.valid side = false ∧ 1000000 < time - s.paired

/-- The invariant: a state that does not wait any more was part of the last pair or an earlier
one. -/
structure EscInv (s : EscRun F) : Prop where
  stamp : s.escs.lastValidEscStateMicros = micros s.paired
  paired_nonneg : 0 ≤ s.paired
  paired_le : s.paired ≤ s.time
  last_le : ∀ side last, s.lastState side = some last → last ≤ s.time
  before_pair : ∀ side last, s.lastState side = some last → s.escs.valid side = false →
    last ≤ s.paired

variable {s}

/-- An ESC is reported if the last pair is more than a second old and no state waits. -/
theorem EscInv.reported_iff (h : EscInv s) {time : ℤ} (hle : s.time ≤ time)
    (hlt : time < 2 ^ 32) {side : EscSide} :
    .escStatus side EscStatus.disconnected.code ∈ s.escs.tickStatus (micros time) ↔
      s.escs.valid side = false ∧ 1000000 < time - s.paired := by
  have hpaired := h.paired_le
  have hnonneg := h.paired_nonneg
  have hage : ((micros time - micros s.paired).toNat : ℤ) = time - s.paired :=
    toNat_reading_sub_of_lt (by omega) (by omega)
  have hlimit : 1000000#32 < micros time - micros s.paired ↔ 1000000 < time - s.paired := by
    rw [BitVec.lt_def, BitVec.toNat_ofNat, ← hage]
    omega
  rw [DiffDriveEscs.disconnected_mem_tickStatus, h.stamp, hlimit, and_comm]

/-- A fresh ESC is never reported: if its state does not wait, the last pair is as recent. -/
theorem EscInv.not_reported_of_fresh (h : EscInv s) {time : ℤ} {side : EscSide}
    (hfresh : s.Fresh side time) : ¬ (s.escs.valid side = false ∧ 1000000 < time - s.paired) := by
  obtain ⟨last, hlast, hage⟩ := hfresh
  rintro ⟨hvalid, hold⟩
  have hbefore := h.before_pair side last hlast hvalid
  omega

/-- One tick reports what it should if and only if the dead ESCs have been paired. -/
theorem EscInv.reportsDeadEscs_iff (h : EscInv s) {e : EscEvent F} {s' : EscRun F}
    (hle : s.time ≤ e.time) (hlt : e.time < 2 ^ 32) :
    ReportsDeadEscs s e s' ↔ DeadEscsPaired s e s' := by
  constructor
  · rintro hreports time rfl side hdead
    exact (h.reported_iff hle hlt).mp ((hreports time rfl side).1 hdead)
  · rintro hpaired time rfl side
    have hle' : s.time ≤ time := hle
    rw [h.reported_iff hle' hlt]
    exact ⟨hpaired time rfl side, h.not_reported_of_fresh⟩

section

variable [Neg F] [Mul F] [Div F] [NatCast F] [IntCast F]

/-- A callback: the state waits, or it completes a pair now. -/
theorem EscInv.next_state (h : EscInv s) {wheelTicksPerMeter : F} {side : EscSide}
    {state : EscState F} {time : ℤ} (hle : s.time ≤ time) :
    EscInv (s.next wheelTicksPerMeter (.state side state time)) := by
  have hpaired := h.paired_le
  have hnonneg := h.paired_nonneg
  have hother : Function.update s.escs.valid side true side.other = s.escs.valid side.other :=
    Function.update_of_ne side.other_ne _ _
  have hlast : ∀ side' last, Function.update s.lastState side (some time) side' = some last →
      last ≤ time := by
    intro side' last hside'
    by_cases heq : side' = side
    · subst heq
      obtain rfl : time = last := by simpa using hside'
      exact le_refl _
    · rw [Function.update_of_ne heq] at hside'
      exact (h.last_le side' last hside').trans hle
  cases hvalid : s.escs.valid side.other with
  | true =>
    constructor
    · simp [next, DiffDriveEscs.escCallback, DiffDriveEscs.processStatusUpdate, hother, hvalid]
    · simp only [next, hvalid, if_true]
      omega
    · simp [next, hvalid]
    · exact hlast
    · simpa [next, hvalid] using fun side' last hside' _ => hlast side' last hside'
  | false =>
    constructor
    · simp [next, DiffDriveEscs.escCallback, hother, hvalid, h.stamp]
    · simpa [next, hvalid] using hnonneg
    · simp only [next, hvalid, Bool.false_eq_true, if_false]
      omega
    · exact hlast
    · intro side' last hside' hwaits
      simp only [next, DiffDriveEscs.escCallback, hother, hvalid, Bool.false_eq_true,
        if_false] at hside' hwaits ⊢
      by_cases heq : side' = side
      · subst heq
        simp at hwaits
      · rw [Function.update_of_ne heq] at hside' hwaits
        exact h.before_pair side' last hside' hwaits

theorem EscInv.next (h : EscInv s) {wheelTicksPerMeter : F} {e : EscEvent F}
    (hle : s.time ≤ e.time) : EscInv (s.next wheelTicksPerMeter e) := by
  cases e with
  | state side state time => exact h.next_state hle
  | tick time =>
    exact ⟨h.stamp, h.paired_nonneg, h.paired_le.trans hle,
      fun side last hlast => (h.last_le side last hlast).trans hle, h.before_pair⟩

end

end EscRun

open EscRun

variable {F : Type*} [Neg F] [Mul F] [Div F] [NatCast F] [IntCast F]

/-- The callbacks and ticks of a run that begins with the clock at 0 and ends before it wraps. -/
def escSystem (wheelTicksPerMeter : F) : StateMachine (EscRun F) (EscEvent F) where
  Init s := ∃ state, s =
    { escs := .initial state, time := 0, lastState := fun _ => none, paired := 0 }
  step s e :=
    if s.time ≤ e.time ∧ e.time < 2 ^ 32 then some (s.next wheelTicksPerMeter e) else none

theorem EscInv.of_reachable {wheelTicksPerMeter : F} {s : EscRun F}
    (h : (escSystem wheelTicksPerMeter).Reachable s) : EscInv s := by
  refine h.invariant ?_ fun s e s' hI hs => ?_
  · rintro s ⟨state, rfl⟩
    exact ⟨by simp [DiffDriveEscs.initial], le_refl _, le_refl _, by simp, by simp⟩
  · simp only [escSystem, Option.ite_none_right_eq_some, Option.some.injEq] at hs
    obtain ⟨⟨hle, -⟩, rfl⟩ := hs
    exact hI.next hle

/-- **Dead ESCs are reported.** In a run of the ESC callbacks and the ticks that is shorter than
a wrap of the clock, every tick reports the dead ESCs and none with a fresh state if and only if
at every tick a dead ESC has no state that waits for its pair, and the last pair is more than a
second old. -/
theorem dead_escs_reported_iff {wheelTicksPerMeter : F} {s : EscRun F}
    (h : (escSystem wheelTicksPerMeter).Init s) (es : List (EscEvent F)) :
    (escSystem wheelTicksPerMeter).EveryStep ReportsDeadEscs s es ↔
      (escSystem wheelTicksPerMeter).EveryStep DeadEscsPaired s es := by
  refine StateMachine.everyStep_congr (fun s e s' hreach hs => ?_) (.init h) es
  simp only [escSystem, Option.ite_none_right_eq_some] at hs
  obtain ⟨⟨hle, hlt⟩, -⟩ := hs
  exact (EscInv.of_reachable hreach).reportsDeadEscs_iff hle hlt

/-- A state of a running ESC. -/
def runningState : EscState ℚ where
  temperaturePcb := 30
  currentInput := 1
  tacho := 0#32
  status := .running

/-- The service as it is created. -/
def createdEscs : EscRun ℚ where
  escs := .initial fun _ => runningState
  time := 0
  lastState := fun _ => none
  paired := 0

/-- Both ESCs deliver a state, then the left one another, and then none does any more. -/
def leftEscDiesRun : List (EscEvent ℚ) :=
  [.state .left runningState 0, .state .right runningState 0, .state .left runningState 10000]

/-- Three seconds later a tick still does not report the left ESC. -/
theorem dead_esc_not_reported :
    (escSystem (1 : ℚ)).Init createdEscs ∧
      ¬ (escSystem (1 : ℚ)).EveryStep ReportsDeadEscs createdEscs
        (leftEscDiesRun ++ [.tick 3000000]) := by
  refine ⟨⟨_, rfl⟩, fun hrun => ?_⟩
  have hreports := hrun.of_run rfl rfl
  have hdead : (1000000 : ℤ) < 3000000 - 10000 := by decide
  have hsent := (hreports 3000000 rfl .left).1 hdead
  exact absurd (DiffDriveEscs.disconnected_mem_tickStatus _ |>.mp hsent).2 (by decide)

/-- Before the left ESC delivers its last state the ticks report what they should. -/
theorem dead_escs_reported_tick :
    (escSystem (1 : ℚ)).EveryStep ReportsDeadEscs createdEscs
        [.state .left runningState 0, .state .right runningState 0, .tick 3000000] ↔
      (escSystem (1 : ℚ)).EveryStep DeadEscsPaired createdEscs
        [.state .left runningState 0, .state .right runningState 0, .tick 3000000] :=
  dead_escs_reported_iff ⟨_, rfl⟩ _

end OpenMower
