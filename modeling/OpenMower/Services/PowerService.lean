import OpenMower.Drivers.Bq2576

/-!
# The power service

From `services/power_service`. `driver_tick_` configures the charger or monitors it, reads the
ADC, and calls the power management of the robot if the charger is configured.

The limits that are not charging currents are only given as whether the service sets them: it sets
each to the register of the service or to the default of the robot.
-/

namespace OpenMower

/-- What the power service asks of its robot. -/
structure PowerRobot where
  /-- `Power_GetDefaultChargeCurrent`. -/
  defaultChargeCurrent : ExactFloat
  /-- `Power_GetMaxChargeCurrent`. -/
  maxChargeCurrent : ExactFloat
  /-- `Power_GetDefaultChargeVoltage`. -/
  defaultChargeVoltage : ExactFloat
  /-- `Power_GetAbsoluteMinVoltage`. -/
  absoluteMinVoltage : ℚ

/-- The registers of the service, `none` where they are not valid. -/
structure PowerSettings where
  chargeCurrent : Option ExactFloat := none
  chargeVoltage : Option ExactFloat := none
  systemCurrent : Option ExactFloat := none
  dangerouslyOverrideHardwareChargeCurrentLimit : Option Bool := none

namespace PowerSettings

variable (settings : PowerSettings)

/-- `GetConfiguredChargeCurrent`. -/
def configuredChargeCurrent : ExactFloat := settings.chargeCurrent.getD .nan

/-- `GetConfiguredSystemCurrent`. -/
def configuredSystemCurrent : ExactFloat := settings.systemCurrent.getD .nan

/-- `override_limit`. -/
def overrideLimit : Prop := settings.dangerouslyOverrideHardwareChargeCurrentLimit = some true

instance : Decidable settings.overrideLimit := inferInstanceAs (Decidable (_ = _))

/-- `software_charge_current` as `update_charger_` passes it on. -/
def softwareChargeCurrent (robot : PowerRobot) : ExactFloat :=
  let current :=
    match settings.chargeCurrent with
    | some value => if .rat 0 < value then value else robot.defaultChargeCurrent
    | none => robot.defaultChargeCurrent
  if settings.overrideLimit then current else .min' robot.maxChargeCurrent current

/-- `update_charger_` sets a charging voltage. -/
def setsChargeVoltage (robot : PowerRobot) : Bool :=
  settings.chargeVoltage.any (fun value => decide (.rat 0 < value)) ||
    decide (.rat 0 < robot.defaultChargeVoltage)

end PowerSettings

namespace Charger

/-- The charging voltage in the configuration. -/
def configureVoltage (robot : PowerRobot) (bq : Bq2576) (settings : PowerSettings) :
    StateM Charger Bool :=
  if settings.setsChargeVoltage robot then setChargingVoltage bq else return true

/-- The configuration in `update_charger_`. -/
def configure (robot : PowerRobot) (bq : Bq2576) (settings : PowerSettings) :
    StateM Charger Bool := do
  if ← init then
    let preCharge ← setLimit
    let current ← setChargingCurrent (settings.softwareChargeCurrent robot)
    let voltage ← configureVoltage robot bq settings
    let termination ← setLimit
    let reCharge ← setLimit
    let tsEnabled ← setTsEnabled
    return preCharge && current && voltage && termination && reCharge && tsEnabled
  else return false

/-- What the monitoring in `update_charger_` returns. -/
structure Monitoring where
  success : Bool
  batteryVolts : Option ℚ
  status : ChargerStatus

/-- The calls of the monitoring in `update_charger_`. -/
def monitor (bq : Bq2576) : StateM Charger Monitoring := do
  let watchdog ← resetWatchdog
  let chargeCurrent ← readRegister
  let batteryVoltage ← readRegister
  let adapterVoltage ← readRegister
  let adapterCurrent ← readAdapterCurrent bq
  let status ← getChargerStatus
  return {
    success := watchdog && chargeCurrent.ok && batteryVoltage.ok && adapterVoltage.ok &&
      adapterCurrent
    batteryVolts := if batteryVoltage.ok then some (batteryVoltage.value.toInt * 2 / 1000) else none
    status := status }

section

variable {I : Charger → Prop} (h : IgnoresI2c I) (hreset : ∀ c, I c → I c.resetRegisters)
include h

theorem keeps_monitor (bq : Bq2576) : Keeps I (monitor bq) := by
  refine .bind (keeps_writeRegister h) fun _ => .bind (keeps_access h) fun _ => ?_
  refine .bind (keeps_access h) fun _ => .bind (keeps_access h) fun _ => ?_
  exact .bind (keeps_readAdapterCurrent h bq) fun _ =>
    .bind (keeps_getChargerStatus h) fun _ => .pure _

include hreset

/-- A configuration keeps what a reset and its charging current keep. -/
theorem keeps_configure {robot : PowerRobot} {settings : PowerSettings}
    (hcurrent : ∀ c, I c →
      I { c with
        chargingCurrents := c.chargingCurrents ++ [settings.softwareChargeCurrent robot] })
    (bq : Bq2576) : Keeps I (configure robot bq settings) := by
  refine .bind (keeps_init h hreset) fun _ => .ite ?_ (.pure _)
  refine .bind (keeps_writeRegister h) fun _ => ?_
  refine .bind (keeps_setChargingCurrent h hcurrent) fun _ => ?_
  refine .bind (.ite (keeps_setChargingVoltage h bq) (.pure _)) fun _ => ?_
  refine .bind (keeps_writeRegister h) fun _ => .bind (keeps_writeRegister h) fun _ => ?_
  exact .bind (keeps_setTsEnabled h) fun _ => .pure _

end

end Charger

/-- The fields of the service that the power management depends on. -/
structure PowerService where
  chargerConfigured : Bool := false
  batteryVolts : ℚ := 0
  dcdcCurrent : ExactFloat := .nan
  /-- An `int`, which wraps. -/
  criticalCount : BitVec 32 := 0
  /-- What has been written to `LINE_HIGH_LEVEL_GLOBAL_EN`, `none` before the service does. -/
  highLevelEnabled : Option Bool := none

namespace PowerService

/-- What the monitoring in `update_charger_` does with what its calls return. -/
def afterMonitoring (robot : PowerRobot) (m : Charger.Monitoring) (s : PowerService) :
    PowerService :=
  let s' := { s with batteryVolts := m.batteryVolts.getD s.batteryVolts }
  if m.success = false ∨ m.status = .commsError then { s' with chargerConfigured := false }
  else if s'.batteryVolts < robot.absoluteMinVoltage then
    { s' with
      criticalCount := s.criticalCount + 1
      highLevelEnabled :=
        if 10 < (s.criticalCount + 1).toInt then some false else s.highLevelEnabled }
  else { s' with criticalCount := 0, highLevelEnabled := some true }

/-- `update_charger_`. -/
def updateCharger (robot : PowerRobot) (bq : Bq2576) (settings : PowerSettings)
    (s : PowerService) : StateM Charger PowerService := do
  if s.chargerConfigured then return s.afterMonitoring robot (← Charger.monitor bq)
  else return { s with chargerConfigured := ← Charger.configure robot bq settings }

theorem keeps_updateCharger {I : Charger → Prop} (h : Charger.IgnoresI2c I)
    (hreset : ∀ c, I c → I c.resetRegisters) {robot : PowerRobot} {settings : PowerSettings}
    (hcurrent : ∀ c, I c →
      I { c with
        chargingCurrents := c.chargingCurrents ++ [settings.softwareChargeCurrent robot] })
    (bq : Bq2576) (s : PowerService) : Keeps I (s.updateCharger robot bq settings) :=
  .ite (.bind (Charger.keeps_monitor h bq) fun _ => .pure _)
    (.bind (Charger.keeps_configure h hreset hcurrent bq) fun _ => .pure _)

end PowerService

end OpenMower
