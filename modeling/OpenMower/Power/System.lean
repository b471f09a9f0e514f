import OpenMower.Library.StateMachine
import OpenMower.Services.PowerService

/-!
# Power management of the Sabo

From `SaboRobot::OnPowerManagement`, with the service and the charger that it is called with. The
events are new registers of the service, `OnStart`, and `driver_tick_` with what the bus returns
during the tick and the current that the ADC reads.

A run may set new registers at any time, also those of a service that has been started.
-/

namespace OpenMower

/-- `HardwareVersion`. -/
inductive HardwareVersion
  | v0_1
  | v0_2_0
  | v0_2_1
  | v0_3
  | v0_4
  | v0_5
  deriving DecidableEq, Repr

namespace HardwareVersion

/-- `max_adapter_current`. -/
def maxAdapterCurrent : HardwareVersion → ℚ
  | v0_1 => 4.2
  | v0_2_0 => 4.9
  | v0_2_1 => 4.9
  | v0_3 => 4.8
  | v0_4 => 6
  | v0_5 => 10

/-- `max_charge_current`. -/
def maxChargeCurrent : HardwareVersion → ℚ
  | v0_1 => 5
  | v0_2_0 => 4.9
  | v0_2_1 => 4.9
  | v0_3 => 5.5
  | v0_4 => 9
  | v0_5 => 9

/-- The charger of the carrier board. -/
def charger : HardwareVersion → Bq2576
  | v0_5 => { rTop := 249000, rBot := 14300, rAcSense := 0.005 }
  | _ => { rTop := 249000, rBot := 13700, rAcSense := 0.005 }

/-- `adc != nullptr`. -/
def hasAdc : HardwareVersion → Bool
  | v0_1 => false
  | v0_2_0 => false
  | _ => true

end HardwareVersion

/-- What `SaboRobot` tells the power service. -/
def saboRobot : PowerRobot where
  defaultChargeCurrent := .rat 2.5
  maxChargeCurrent := .rat 3.9
  defaultChargeVoltage := .rat (7 * 4.157)
  absoluteMinVoltage := 7 * 3.45

/-- The power service of a Sabo, its charger, and the static variables of `OnPowerManagement`. -/
structure SaboPower where
  settings : PowerSettings := {}
  service : PowerService := {}
  charger : Charger := {}
  lastAdapterLimit : ExactFloat := .rat 0
  lastChargeLimit : ExactFloat := .rat 0

namespace SaboPower

variable (v : HardwareVersion) (s : SaboPower)

/-- The guards of `OnPowerManagement`. -/
def PassesGuards : Prop :=
  ¬ (s.settings.configuredSystemCurrent = .nan ∨ s.settings.configuredSystemCurrent ≤ .rat 0) ∧
    ¬ (s.service.dcdcCurrent = .nan ∨ s.service.dcdcCurrent ≤ .rat 0)

instance : Decidable s.PassesGuards := inferInstanceAs (Decidable (_ ∧ _))

/-- `adapter_limit`. -/
def adapterLimit : ExactFloat :=
  .min' (.max' (.rat 0.3)
      (s.settings.configuredSystemCurrent - s.service.dcdcCurrent - .rat 0.2))
    (.rat v.maxAdapterCurrent)

/-- The limit has changed by more than `HYSTERESIS`. -/
def AttemptsAdapterLimit : Prop := .rat 0.05 < (s.adapterLimit v - s.lastAdapterLimit).abs

instance : Decidable (s.AttemptsAdapterLimit v) := inferInstanceAs (Decidable (_ < _))

/-- `charge_limit`. -/
def chargeLimit : ExactFloat :=
  let config := s.settings.configuredChargeCurrent
  .min' (.rat v.maxChargeCurrent)
    (if config ≠ .nan ∧ .rat 0 < config then config else saboRobot.defaultChargeCurrent)

/-- The adapter current in `OnPowerManagement`. -/
def limitAdapterCurrent : SaboPower :=
  if s.AttemptsAdapterLimit v then
    { s with
      charger := ((Charger.setAdapterCurrent v.charger (s.adapterLimit v)).run s.charger).2
      lastAdapterLimit := s.adapterLimit v }
  else s

/-- The charging current in `OnPowerManagement`. -/
def limitChargeCurrent : SaboPower :=
  if s.lastChargeLimit ≠ s.chargeLimit v then
    { s with
      charger := ((Charger.setChargingCurrent (s.chargeLimit v)).run s.charger).2
      lastChargeLimit := s.chargeLimit v }
  else s

/-- `OnPowerManagement`. -/
def onPowerManagement : SaboPower :=
  if s.PassesGuards then (s.limitAdapterCurrent v).limitChargeCurrent v else s

/-- `update_charger_`, with what the bus returns during the tick. -/
def updateCharger (i2c : List I2cOutcome) : SaboPower :=
  let r := (s.service.updateCharger saboRobot v.charger s.settings).run
    { s.charger with i2c := i2c }
  { s with service := r.1, charger := r.2 }

/-- `read_adc_`; a conversion that is not registered is NaN. -/
def readAdc (dcdcCurrent : ExactFloat) : SaboPower :=
  { s with service := { s.service with dcdcCurrent := if v.hasAdc then dcdcCurrent else .nan } }

/-- `driver_tick_` up to `power_management_callback_`. -/
def beforePowerManagement (i2c : List I2cOutcome) (dcdcCurrent : ExactFloat) : SaboPower :=
  (s.updateCharger v i2c).readAdc v dcdcCurrent

/-- `driver_tick_`. -/
def driverTick (i2c : List I2cOutcome) (dcdcCurrent : ExactFloat) : SaboPower :=
  let s' := s.beforePowerManagement v i2c dcdcCurrent
  if s'.service.chargerConfigured then s'.onPowerManagement v else s'

/-- `OnPowerManagement` is called and passes its guards. -/
def ManagesPower : Prop := s.service.chargerConfigured = true ∧ s.PassesGuards

instance : Decidable s.ManagesPower := inferInstanceAs (Decidable (_ ∧ _))

end SaboPower

/-- What happens to the power management. -/
inductive PowerEvent
  | configure (settings : PowerSettings)
  | onStart
  | driverTick (i2c : List I2cOutcome) (dcdcCurrent : ExactFloat)

/-- One event. -/
def SaboPower.step (v : HardwareVersion) (s : SaboPower) : PowerEvent → SaboPower
  | .configure settings => { s with settings := settings }
  | .onStart => { s with service := { s.service with chargerConfigured := false } }
  | .driverTick i2c dcdcCurrent => s.driverTick v i2c dcdcCurrent

/-- The power management of a Sabo of the given version. -/
def saboPowerMachine (v : HardwareVersion) : StateMachine SaboPower PowerEvent where
  Init s := s = {}
  step s e := some (s.step v e)

namespace SaboPower

variable {v : HardwareVersion} {s : SaboPower}

/-- **A tick.** It manages the power in the state before the call, or leaves that state. -/
theorem driverTick_cases (i2c : List I2cOutcome) (dcdcCurrent : ExactFloat) :
    let t := s.beforePowerManagement v i2c dcdcCurrent
    t.ManagesPower ∧ s.driverTick v i2c dcdcCurrent =
        (t.limitAdapterCurrent v).limitChargeCurrent v ∨
      ¬ t.ManagesPower ∧ s.driverTick v i2c dcdcCurrent = t := by
  intro t
  by_cases hconf : t.service.chargerConfigured = true
  · by_cases hguards : t.PassesGuards
    · refine .inl ⟨⟨hconf, hguards⟩, ?_⟩
      exact (if_pos hconf).trans (if_pos hguards)
    · refine .inr ⟨fun h => hguards h.2, ?_⟩
      exact (if_pos hconf).trans (if_neg hguards)
  · exact .inr ⟨fun h => hconf h.1, if_neg hconf⟩

/-- What a tick up to the power management keeps of the charger. -/
theorem beforePowerManagement_charger {I : Charger → Prop} (h : Charger.IgnoresI2c I)
    (hreset : ∀ c, I c → I c.resetRegisters)
    (hcurrent : ∀ c, I c → I { c with
      chargingCurrents := c.chargingCurrents ++ [s.settings.softwareChargeCurrent saboRobot] })
    (hI : I s.charger) (i2c : List I2cOutcome) (dcdcCurrent : ExactFloat) :
    I (s.beforePowerManagement v i2c dcdcCurrent).charger :=
  PowerService.keeps_updateCharger h hreset hcurrent v.charger s.service _ (h _ i2c hI)

end SaboPower

end OpenMower
