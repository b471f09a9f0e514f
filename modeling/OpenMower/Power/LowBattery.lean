import OpenMower.Library.Runs
import OpenMower.Power.System

/-!
# Power for the high level

`update_charger_` switches the high level off when the battery is low. It counts the readings below
the voltage that the robot gives it, of the ticks that monitor the charger without an error. What
the line shows after a run depends on these readings alone (`high_level_power`): it is low if the
last eleven were, and after any other reading that was not it is high. Failures of the bus, new
configurations of the charger and restarts of the service between the readings count for nothing.

Robot and charger are any: a tick is given what its calls to the `ChargerDriver` return
(`ChargerCalls`). The Sabo with its BQ2576 is an instance (`SaboPower.charging_step`).
-/

namespace OpenMower

/-- What the calls of `update_charger_` to its charger return, if it configures the charger and if
it monitors it. -/
structure ChargerCalls where
  /-- `init` and all the calls after it succeed. -/
  configured : Bool
  monitoring : Charger.Monitoring
  /-- The monitoring has no success if the battery cannot be read. -/
  batteryRead : monitoring.success = true → monitoring.batteryVolts.isSome = true

/-- What happens to a power service. -/
inductive ChargingEvent
  | onStart
  /-- `driver_tick_`, with what the charger returns, `none` if there is none, and what the ADC
  reads. -/
  | driverTick (calls : Option ChargerCalls) (dcdcCurrent : ExactFloat)

/-- The battery voltage of a monitoring without an error. -/
def Charger.Monitoring.reading (m : Charger.Monitoring) : Option ℚ :=
  if m.success = false ∨ m.status = .commsError then none else m.batteryVolts

namespace PowerService

variable (robot : PowerRobot) (s : PowerService)

/-- `update_charger_`, with what the charger returns. -/
def afterCalls : Option ChargerCalls → PowerService
  | none => s
  | some calls =>
    if s.chargerConfigured then s.afterMonitoring robot calls.monitoring
    else { s with chargerConfigured := calls.configured }

/-- One event. The callback that may end a tick does nothing to the service. -/
def step : ChargingEvent → PowerService
  | .onStart => { s with chargerConfigured := false }
  | .driverTick calls dcdcCurrent => { s.afterCalls robot calls with dcdcCurrent := dcdcCurrent }

/-- The service after these events, from the start. -/
def after (es : List ChargingEvent) : PowerService := es.foldl (step robot) {}

/-- The battery voltage that an event reads. -/
def reading : ChargingEvent → Option ℚ
  | .driverTick (some calls) _ =>
    if s.chargerConfigured then calls.monitoring.reading else none
  | _ => none

/-- The readings of a run. -/
def readings : PowerService → List ChargingEvent → List ℚ
  | _, [] => []
  | s, e :: es => (s.reading e).toList ++ readings (s.step robot e) es

end PowerService

/-- `LINE_HIGH_LEVEL_GLOBAL_EN` after readings of which these were low. -/
def highLevelPower (lows : List Bool) : Option Bool :=
  if List.replicate 11 true <:+ lows then some false
  else if false ∈ lows then some true
  else none

/-- A reading below the voltage that the robot gives. -/
def PowerRobot.low (robot : PowerRobot) (volts : ℚ) : Bool :=
  decide (volts < robot.absoluteMinVoltage)

/-- The service knows how many of the last readings were low, up to the wraps of its counter. -/
structure PowerService.Follows (lows : List Bool) (s : PowerService) : Prop where
  count : ∃ k, s.criticalCount = BitVec.ofNat 32 k ∧
    ∀ n, n ≤ k ↔ List.replicate n true <:+ lows
  line : s.highLevelEnabled = highLevelPower lows

namespace PowerService

variable {lows : List Bool} {s : PowerService} {robot : PowerRobot}

theorem Follows.start : Follows [] {} where
  count := by
    refine ⟨0, rfl, fun n => ?_⟩
    rw [List.suffix_nil, List.replicate_eq_nil_iff]
    exact Nat.le_zero
  line := rfl

/-- What else there is in the service does not matter. -/
theorem Follows.of_eq {s' : PowerService} (h : s.Follows lows)
    (hcount : s'.criticalCount = s.criticalCount)
    (hline : s'.highLevelEnabled = s.highLevelEnabled) : s'.Follows lows where
  count := by
    rw [hcount]
    exact h.count
  line := hline.trans h.line

/-- The counter has not wrapped when it reaches the limit. -/
theorem lt_toInt_succ_iff : ∀ k ≤ 10, 10 < (BitVec.ofNat 32 k + 1).toInt ↔ 10 ≤ k := by
  decide

/-- **A low reading.** -/
theorem Follows.low {s' : PowerService} (h : s.Follows lows)
    (hcount : s'.criticalCount = s.criticalCount + 1)
    (hline : s'.highLevelEnabled =
      if 10 < (s.criticalCount + 1).toInt then some false else s.highLevelEnabled) :
    s'.Follows (lows ++ [true]) := by
  obtain ⟨k, hk, hruns⟩ := h.count
  have hlow : ∀ n, List.replicate (n + 1) true <:+ lows ++ [true] ↔ n ≤ k := by
    intro n
    rw [Runs.replicate_suffix_concat, ← hruns]
    exact and_iff_right rfl
  refine ⟨⟨k + 1, ?_, fun n => ?_⟩, ?_⟩
  · rw [hcount, hk, BitVec.ofNat_add]
    rfl
  · cases n with
    | zero => exact iff_of_true (Nat.zero_le _) List.nil_suffix
    | succ n => exact Nat.succ_le_succ_iff.trans (hlow n).symm
  · have hmem : false ∈ lows ++ [true] ↔ false ∈ lows := by simp
    rw [hline, hk, h.line, highLevelPower, highLevelPower]
    simp only [hlow, ← hruns, hmem]
    -- once the line is low, the counter may do what it wants
    by_cases hlong : 11 ≤ k
    · rw [if_pos hlong, if_pos (Nat.le_of_succ_le hlong), ite_self]
    · have hlimit := lt_toInt_succ_iff k (Nat.lt_succ_iff.mp (not_le.mp hlong))
      simp only [hlimit, if_neg hlong]

/-- **Another reading.** -/
theorem Follows.good {s' : PowerService} (hcount : s'.criticalCount = 0)
    (hline : s'.highLevelEnabled = some true) : s'.Follows (lows ++ [false]) := by
  have hnone : ∀ n, ¬ List.replicate (n + 1) true <:+ lows ++ [false] := by
    intro n hsuffix
    exact Bool.noConfusion (Runs.replicate_suffix_concat.mp hsuffix).1
  refine ⟨⟨0, hcount, fun n => ?_⟩, ?_⟩
  · cases n with
    | zero => exact iff_of_true (Nat.zero_le _) List.nil_suffix
    | succ n => exact iff_of_false (Nat.not_succ_le_zero n) (hnone n)
  · rw [hline, highLevelPower, if_neg (hnone 10),
      if_pos (List.mem_append_right _ (List.mem_singleton_self _))]

/-- **A monitoring.** -/
theorem Follows.afterMonitoring (h : s.Follows lows) {m : Charger.Monitoring}
    (hread : m.success = true → m.batteryVolts.isSome = true) :
    (s.afterMonitoring robot m).Follows (lows ++ m.reading.toList.map robot.low) := by
  rw [PowerService.afterMonitoring, Charger.Monitoring.reading]
  dsimp only
  split
  · rw [Option.toList_none, List.map_nil, List.append_nil]
    exact h.of_eq rfl rfl
  · next hok =>
    have hsuccess := Bool.not_eq_false _ ▸ (not_or.mp hok).1
    obtain ⟨volts, hvolts⟩ := Option.isSome_iff_exists.mp (hread hsuccess)
    rw [hvolts, Option.getD_some, Option.toList_some, List.map_singleton, PowerRobot.low]
    split
    · next hless =>
      rw [decide_eq_true hless]
      exact h.low rfl rfl
    · next hgood =>
      rw [decide_eq_false hgood]
      exact .good rfl rfl

/-- **One event.** -/
theorem Follows.step (h : s.Follows lows) (e : ChargingEvent) :
    (s.step robot e).Follows (lows ++ (s.reading e).toList.map robot.low) := by
  cases e with
  | onStart =>
    have hnone : s.reading .onStart = none := rfl
    rw [hnone, Option.toList_none, List.map_nil, List.append_nil]
    exact h.of_eq rfl rfl
  | driverTick calls dcdcCurrent =>
    refine Follows.of_eq (s := s.afterCalls robot calls) ?_ rfl rfl
    cases calls with
    | none =>
      have hnone : s.reading (.driverTick none dcdcCurrent) = none := rfl
      rw [hnone, Option.toList_none, List.map_nil, List.append_nil]
      exact h
    | some calls =>
      rw [afterCalls, reading]
      split
      · exact h.afterMonitoring calls.batteryRead
      · rw [Option.toList_none, List.map_nil, List.append_nil]
        exact h.of_eq rfl rfl

/-- **A run.** -/
theorem Follows.foldl (h : s.Follows lows) (es : List ChargingEvent) :
    (es.foldl (PowerService.step robot) s).Follows
      (lows ++ (readings robot s es).map robot.low) := by
  induction es generalizing s lows with
  | nil =>
    rw [readings, List.map_nil, List.append_nil]
    exact h
  | cons e es ih =>
    rw [readings, List.map_append, ← List.append_assoc]
    exact ih (h.step e)

end PowerService

/-- **The power of the high level.** After every run of the power service, with any robot and
whatever its charger returns, the service has left `LINE_HIGH_LEVEL_GLOBAL_EN` low exactly if the
last eleven readings of the battery were below the minimum, and high exactly if it is not low and
one was not. The readings are those of the monitorings without an error: nothing else counts or
changes the line. -/
theorem high_level_power (robot : PowerRobot) (es : List ChargingEvent) :
    (PowerService.after robot es).highLevelEnabled =
      highLevelPower ((PowerService.readings robot {} es).map robot.low) :=
  (PowerService.Follows.start.foldl es).line

/-! ### The Sabo -/

namespace Charger

/-- What a monitoring of a BQ2576 returns: it has no success if the battery cannot be read. -/
theorem monitor_eq (bq : Bq2576) (c : Charger) :
    ∃ (before adapterVoltage adapterCurrent : Bool) (battery : I2cOutcome) (status : ChargerStatus),
      ((monitor bq).run c).1 =
        { success := before && battery.ok && adapterVoltage && adapterCurrent
          batteryVolts :=
            if battery.ok then some (battery.value.toInt * 2 / 1000) else none
          status := status } :=
  ⟨_, _, _, _, _, rfl⟩

theorem monitor_batteryRead (bq : Bq2576) (c : Charger)
    (hsuccess : ((monitor bq).run c).1.success = true) :
    ((monitor bq).run c).1.batteryVolts.isSome = true := by
  obtain ⟨before, adapterVoltage, adapterCurrent, battery, status, heq⟩ := monitor_eq bq c
  rw [heq] at hsuccess ⊢
  rw [Bool.and_eq_true, Bool.and_eq_true, Bool.and_eq_true] at hsuccess
  rw [if_pos hsuccess.1.1.2]
  rfl

/-- What the calls of `update_charger_` to a BQ2576 return. -/
def calls (robot : PowerRobot) (bq : Bq2576) (settings : PowerSettings) (c : Charger) :
    ChargerCalls where
  configured := ((configure robot bq settings).run c).1
  monitoring := ((monitor bq).run c).1
  batteryRead := monitor_batteryRead bq c

end Charger

namespace SaboPower

variable (v : HardwareVersion) (s : SaboPower)

/-- What an event is for the service, if it is one. -/
def chargingEvent : PowerEvent → Option ChargingEvent
  | .configure _ => none
  | .onStart => some .onStart
  | .driverTick i2c dcdcCurrent =>
    some (.driverTick
      (some (Charger.calls saboRobot v.charger s.settings { s.charger with i2c := i2c }))
      (if v.hasAdc then dcdcCurrent else .nan))

/-- The power management does nothing to the service. -/
theorem onPowerManagement_service : (s.onPowerManagement v).service = s.service := by
  rw [onPowerManagement]
  split
  · rw [limitChargeCurrent, limitAdapterCurrent]
    split <;> split <;> rfl
  · rfl

theorem updateCharger_service (i2c : List I2cOutcome) :
    (s.updateCharger v i2c).service = s.service.afterCalls saboRobot
      (some (Charger.calls saboRobot v.charger s.settings { s.charger with i2c := i2c })) := by
  rw [updateCharger, PowerService.updateCharger, PowerService.afterCalls]
  split <;> rfl

/-- **The Sabo's power service** is one with its BQ2576 as the charger. -/
theorem charging_step (e : PowerEvent) :
    (s.step v e).service =
      (s.chargingEvent v e).elim s.service (s.service.step saboRobot) := by
  cases e with
  | configure settings => rfl
  | onStart => rfl
  | driverTick i2c dcdcCurrent =>
    have hservice : (s.driverTick v i2c dcdcCurrent).service =
        (s.beforePowerManagement v i2c dcdcCurrent).service := by
      rw [driverTick]
      split
      · exact onPowerManagement_service v _
      · rfl
    rw [step, hservice, beforePowerManagement, readAdc, updateCharger_service]
    rfl

end SaboPower

end OpenMower
