import OpenMower.Library.StateMachine
import OpenMower.Drivers.Yfr4Esc

/-!
# The heartbeat of the YFR4 driver

Every control frame should carry the duty of the most recent `SetDuty` call
(`CarriesLatestDuty`). A call in raw mode is ignored, but the heartbeat goes on in raw mode and
after it with the duty of the last call that was not. `heartbeat_carries_latestDuty_iff` shows
that this is the only way in which a frame can be out of date.
-/

namespace OpenMower

variable {D : Type*} [Zero D]

/-- The driver with the history of the `SetDuty` calls. -/
structure HeartbeatState (D : Type*) where
  driver : Yfr4EscDriver D
  /-- The duty of the most recent `SetDuty` call. -/
  latest : Option D
  /-- That call was made in raw mode. -/
  inRawMode : Bool

/-- The calls of the driver, and the expiry of its heartbeat. -/
inductive HeartbeatEvent (D : Type*)
  | setDuty (duty : D)
  | setRawAccessMode (enabled : Bool)
  | rawDataInput (data : List (BitVec 8))
  | heartbeat

namespace HeartbeatState

variable (s : HeartbeatState D)

/-- What a call transmits. -/
def frame : HeartbeatEvent D → Option (Yfr4Frame D)
  | .setDuty duty => (s.driver.setDuty duty).2
  | .setRawAccessMode _ => none
  | .rawDataInput data => s.driver.rawDataInput data
  | .heartbeat => s.driver.heartbeat

/-- The state after a call. -/
def next : HeartbeatEvent D → HeartbeatState D
  | .setDuty duty =>
    { driver := (s.driver.setDuty duty).1
      latest := some duty
      inRawMode := s.driver.rawMode }
  | .setRawAccessMode enabled => { s with driver := s.driver.setRawAccessMode enabled }
  | .rawDataInput _ => s
  | .heartbeat => s

/-- A control frame carries the duty of the most recent `SetDuty` call up to it, or 0 if there
was none. -/
def CarriesLatestDuty (s : HeartbeatState D) (e : HeartbeatEvent D) (s' : HeartbeatState D) :
    Prop :=
  ∀ duty, s.frame e = some (.control duty) → duty = s'.latest.getD 0

/-- When the heartbeat expires, the most recent `SetDuty` call was not made in raw mode, or it
asked for the duty that the driver already had. -/
def NoIgnoredDuty (s : HeartbeatState D) (e : HeartbeatEvent D) (_ : HeartbeatState D) : Prop :=
  e = .heartbeat → s.inRawMode = true → s.latest = some s.driver.lastDuty

/-- The invariant: a call outside raw mode is the one that the driver remembers. -/
structure HeartbeatInv (s : HeartbeatState D) : Prop where
  started : s.driver.started = true
  remembered : s.inRawMode = false → s.driver.lastDuty = s.latest.getD 0
  called : s.inRawMode = true → s.latest.isSome

theorem HeartbeatInv.next {s : HeartbeatState D} (h : HeartbeatInv s) (e : HeartbeatEvent D) :
    HeartbeatInv (s.next e) := by
  obtain ⟨hstarted, hremembered, hcalled⟩ := h
  cases e with
  | setDuty duty =>
    cases hraw : s.driver.rawMode with
    | true =>
      have hset : s.driver.setDuty duty = (s.driver, none) := by
        rw [Yfr4EscDriver.setDuty, if_pos (.inr hraw)]
      constructor <;> simp [HeartbeatState.next, hset, hraw, hstarted]
    | false =>
      have hset : s.driver.setDuty duty =
          ({ s.driver with lastDuty := duty }, some (.control duty)) := by
        rw [Yfr4EscDriver.setDuty, if_neg (by simp [hstarted, hraw])]
        rfl
      constructor <;> simp [HeartbeatState.next, hset, hraw, hstarted]
  | setRawAccessMode enabled => exact ⟨hstarted, hremembered, hcalled⟩
  | rawDataInput data => exact ⟨hstarted, hremembered, hcalled⟩
  | heartbeat => exact ⟨hstarted, hremembered, hcalled⟩

/-- What a `SetDuty` call transmits is its own duty. -/
theorem carriesLatestDuty_setDuty (s : HeartbeatState D) (duty : D) :
    CarriesLatestDuty s (.setDuty duty) (s.next (.setDuty duty)) := by
  intro sent hsent
  simp only [frame, Yfr4EscDriver.setDuty] at hsent
  split at hsent
  · exact absurd hsent (by simp)
  · obtain rfl : duty = sent := by simpa [Yfr4EscDriver.sendControl] using hsent
    rfl

/-- With the invariant, a frame is out of date exactly if it is a heartbeat after an ignored
call that asked for another duty. -/
theorem HeartbeatInv.carriesLatestDuty_iff {s : HeartbeatState D} (h : HeartbeatInv s)
    (e : HeartbeatEvent D) : CarriesLatestDuty s e (s.next e) ↔ NoIgnoredDuty s e (s.next e) := by
  cases e with
  | setDuty duty => exact iff_of_true (carriesLatestDuty_setDuty s duty) (by simp [NoIgnoredDuty])
  | setRawAccessMode enabled =>
    exact iff_of_true (by simp [CarriesLatestDuty, frame]) (by simp [NoIgnoredDuty])
  | rawDataInput data =>
    refine iff_of_true (fun duty hsent => ?_) (by simp [NoIgnoredDuty])
    simp only [frame, Yfr4EscDriver.rawDataInput] at hsent
    split at hsent <;> simp at hsent
  | heartbeat =>
    have hframe : s.frame .heartbeat = some (.control s.driver.lastDuty) := by
      rw [frame, Yfr4EscDriver.heartbeat, if_pos h.started]
      rfl
    constructor
    · intro hcarries _ hraw
      have hlatest : s.driver.lastDuty = s.latest.getD 0 := hcarries _ hframe
      obtain ⟨duty, hduty⟩ := Option.isSome_iff_exists.mp (h.called hraw)
      rw [hlatest, hduty, Option.getD_some]
    · intro hno duty hsent
      obtain rfl : s.driver.lastDuty = duty := by simpa [hframe] using hsent
      cases hraw : s.inRawMode with
      | false => exact h.remembered hraw
      | true =>
        have hlatest : s.latest = some s.driver.lastDuty := hno rfl hraw
        exact (congrArg (Option.getD · 0) hlatest).symm

end HeartbeatState

open HeartbeatState

/-- A started driver, and any calls and heartbeats in any order. -/
def heartbeatSystem (D : Type*) [Zero D] : StateMachine (HeartbeatState D) (HeartbeatEvent D) where
  Init s := s = { driver := .init, latest := none, inRawMode := false }
  step s e := some (s.next e)

theorem HeartbeatInv.of_reachable {s : HeartbeatState D} (h : (heartbeatSystem D).Reachable s) :
    HeartbeatInv s := by
  refine h.invariant (fun s hs => ?_) fun s e s' hI hs => ?_
  · subst hs
    exact ⟨rfl, fun _ => rfl, by simp⟩
  · obtain rfl := Option.some.inj hs
    exact hI.next e

/-- **Heartbeats.** In a run from the start of the driver every control frame carries the duty
of the most recent `SetDuty` call if and only if no heartbeat expires while the most recent
call is one that was made in raw mode and asked for another duty than the driver has. -/
theorem heartbeat_carries_latestDuty_iff {s : HeartbeatState D} (h : (heartbeatSystem D).Init s)
    (es : List (HeartbeatEvent D)) :
    (heartbeatSystem D).EveryStep CarriesLatestDuty s es ↔
      (heartbeatSystem D).EveryStep NoIgnoredDuty s es := by
  refine StateMachine.everyStep_congr (fun s e s' hreach hs => ?_) (.init h) es
  obtain rfl := Option.some.inj hs
  exact (HeartbeatInv.of_reachable hreach).carriesLatestDuty_iff e

/-- A started driver without calls. -/
def startedDriver : HeartbeatState ℤ where
  driver := .init
  latest := none
  inRawMode := false

/-- The motor runs, raw mode is entered, and the motor is stopped. -/
def stopInRawModeRun : List (HeartbeatEvent ℤ) :=
  [.setDuty 1, .setRawAccessMode true, .setDuty 0, .setRawAccessMode false]

/-- The heartbeats after this run still carry the duty 1, also with the raw mode off again. -/
theorem heartbeat_not_latestDuty :
    (heartbeatSystem ℤ).Init startedDriver ∧
      ¬ (heartbeatSystem ℤ).EveryStep CarriesLatestDuty startedDriver
        (stopInRawModeRun ++ [.heartbeat]) := by
  refine ⟨rfl, fun hrun => ?_⟩
  have hlast := hrun.of_run rfl rfl
  have hone : (1 : ℤ) = 0 := hlast 1 rfl
  exact absurd hone (by decide)

/-- Raw mode that is entered with the motor stopped does no harm. -/
theorem heartbeat_carries_latestDuty_rawMode :
    (heartbeatSystem ℤ).EveryStep CarriesLatestDuty startedDriver
        [.setDuty 0, .setRawAccessMode true, .setDuty 0, .heartbeat] ↔
      (heartbeatSystem ℤ).EveryStep NoIgnoredDuty startedDriver
        [.setDuty 0, .setRawAccessMode true, .setDuty 0, .heartbeat] :=
  heartbeat_carries_latestDuty_iff rfl _

end OpenMower
