import OpenMower.Power.System
import Mathlib.Tactic.NormNum

/-!
# The limit of the charging current

`Power_GetMaxChargeCurrent` bounds what `update_charger_` sets, and `max_charge_current` of the
hardware what `OnPowerManagement` sets. The second bound is the higher one on all versions, so that
the charging currents stay below the first exactly if no configured current above it reaches the
power management (`saboPower_chargingCurrents_iff`).
-/

namespace OpenMower

/-- The event does not set `DangerouslyOverrideHardwareChargeCurrentLimit`. -/
def PowerEvent.NoOverride : PowerEvent → Prop
  | .configure settings => ¬ settings.overrideLimit
  | _ => True

/-- What `update_charger_` sets without the override. -/
theorem PowerSettings.softwareChargeCurrent_le {settings : PowerSettings}
    (h : ¬ settings.overrideLimit) :
    settings.softwareChargeCurrent saboRobot ≤ saboRobot.maxChargeCurrent := by
  rw [softwareChargeCurrent, if_neg h]
  exact ExactFloat.min'_le_left nofun

namespace SaboPower

variable {v : HardwareVersion} {s : SaboPower}

/-- All charging currents that have been set are at most `Power_GetMaxChargeCurrent`. -/
def ChargingCurrentsLimited (_ : SaboPower) (_ : PowerEvent) (s' : SaboPower) : Prop :=
  s'.charger.AtMost saboRobot.maxChargeCurrent

/-- If the power is managed, no current above `Power_GetMaxChargeCurrent` is configured. -/
def ManagesLimitedCurrent (v : HardwareVersion) (s : SaboPower) (e : PowerEvent) (_ : SaboPower) :
    Prop :=
  ∀ i2c dcdcCurrent, e = .driverTick i2c dcdcCurrent →
    (s.beforePowerManagement v i2c dcdcCurrent).ManagesPower →
      ¬ saboRobot.maxChargeCurrent < s.settings.configuredChargeCurrent

theorem maxChargeCurrent_lt (v : HardwareVersion) : (3.9 : ℚ) < v.maxChargeCurrent := by
  cases v <;> norm_num [HardwareVersion.maxChargeCurrent]

/-- The bound of the hardware is too high to replace the one of the robot. -/
theorem chargeLimit_le_iff :
    s.chargeLimit v ≤ saboRobot.maxChargeCurrent ↔
      ¬ saboRobot.maxChargeCurrent < s.settings.configuredChargeCurrent := by
  rw [chargeLimit]
  split
  · next h =>
    have hle := ExactFloat.min'_le_iff h.1 (maxChargeCurrent_lt v)
    exact hle.trans (ExactFloat.le_rat_iff h.1)
  · next h =>
    have hdefault : ExactFloat.rat 2.5 ≤ .rat 3.9 := ExactFloat.rat_le_rat.mpr (by norm_num)
    have hle := (ExactFloat.min'_le_iff (b := .rat 2.5) nofun (maxChargeCurrent_lt v)).mpr hdefault
    refine iff_of_true hle fun hlt => h ⟨?_, ExactFloat.rat_lt_trans (by norm_num) hlt⟩
    intro hnan
    rw [hnan] at hlt
    exact ExactFloat.not_lt_nan hlt

/-- The power management sets the limit unless it is the last one, which it remembers. -/
theorem limitChargeCurrent_cases :
    (s.limitChargeCurrent v).lastChargeLimit = s.chargeLimit v ∧
      ((s.limitChargeCurrent v).charger.chargingCurrents =
          s.charger.chargingCurrents ++ [s.chargeLimit v] ∨
        s.lastChargeLimit = s.chargeLimit v ∧ s.limitChargeCurrent v = s) := by
  by_cases h : s.lastChargeLimit = s.chargeLimit v
  · rw [limitChargeCurrent, if_neg (not_not_intro h)]
    exact ⟨h, .inr ⟨h, rfl⟩⟩
  · rw [limitChargeCurrent, if_pos h]
    exact ⟨rfl, .inl (Charger.setChargingCurrent_chargingCurrents _ _)⟩

theorem limitAdapterCurrent_chargingCurrents :
    (s.limitAdapterCurrent v).charger.chargingCurrents = s.charger.chargingCurrents := by
  rw [limitAdapterCurrent]
  split
  · obtain ⟨accepted, i2c, hrun⟩ :=
      Charger.setAdapterCurrent_run v.charger (s.adapterLimit v) s.charger
    dsimp only
    rw [hrun]
    rfl
  · rfl

@[simp]
theorem limitAdapterCurrent_settings : (s.limitAdapterCurrent v).settings = s.settings := by
  rw [limitAdapterCurrent]
  split <;> rfl

@[simp]
theorem limitAdapterCurrent_lastChargeLimit :
    (s.limitAdapterCurrent v).lastChargeLimit = s.lastChargeLimit := by
  rw [limitAdapterCurrent]
  split <;> rfl

@[simp]
theorem limitChargeCurrent_settings : (s.limitChargeCurrent v).settings = s.settings := by
  rw [limitChargeCurrent]
  split <;> rfl

/-- As long as the charging currents are limited, so is the last limit of the power management. -/
structure ChargeLimitInv (s : SaboPower) : Prop where
  noOverride : ¬ s.settings.overrideLimit
  limited : s.charger.AtMost saboRobot.maxChargeCurrent
  last : s.lastChargeLimit ≤ saboRobot.maxChargeCurrent

theorem ChargeLimitInv.initial : ChargeLimitInv {} where
  noOverride := nofun
  limited := fun _ h => nomatch h
  last := ExactFloat.rat_le_rat.mpr (by norm_num [saboRobot])

/-- A tick keeps the invariant up to the power management. -/
theorem ChargeLimitInv.beforePowerManagement (h : s.ChargeLimitInv) (i2c : List I2cOutcome)
    (dcdcCurrent : ExactFloat) : (s.beforePowerManagement v i2c dcdcCurrent).ChargeLimitInv where
  noOverride := h.noOverride
  limited := by
    refine beforePowerManagement_charger (fun _ _ h => h) (fun _ h => h) (fun c hc => ?_)
      h.limited i2c dcdcCurrent
    exact (Charger.atMost_append rfl).mpr
      ⟨hc, PowerSettings.softwareChargeCurrent_le h.noOverride⟩
  last := h.last

/-- **The power management.** It keeps the charging currents limited exactly if its own limit is
below that of the robot. -/
theorem ChargeLimitInv.managePower (h : s.ChargeLimitInv) :
    (((s.limitAdapterCurrent v).limitChargeCurrent v).charger.AtMost saboRobot.maxChargeCurrent ↔
        ¬ saboRobot.maxChargeCurrent < s.settings.configuredChargeCurrent) ∧
      (¬ saboRobot.maxChargeCurrent < s.settings.configuredChargeCurrent →
        ((s.limitAdapterCurrent v).limitChargeCurrent v).ChargeLimitInv) := by
  have hle := chargeLimit_le_iff (v := v) (s := s.limitAdapterCurrent v)
  rw [limitAdapterCurrent_settings] at hle
  have hlimited : (s.limitAdapterCurrent v).charger.AtMost saboRobot.maxChargeCurrent := by
    rw [Charger.AtMost, limitAdapterCurrent_chargingCurrents]
    exact h.limited
  obtain ⟨hlast, hcases⟩ := limitChargeCurrent_cases (v := v) (s := s.limitAdapterCurrent v)
  have hiff : ((s.limitAdapterCurrent v).limitChargeCurrent v).charger.AtMost
      saboRobot.maxChargeCurrent ↔
        ¬ saboRobot.maxChargeCurrent < s.settings.configuredChargeCurrent := by
    rcases hcases with hset | ⟨heq, hsame⟩
    · rw [Charger.atMost_append hset, ← hle]
      exact and_iff_right hlimited
    · rw [hsame, ← hle, ← heq, limitAdapterCurrent_lastChargeLimit]
      exact iff_of_true hlimited h.last
  refine ⟨hiff, fun hcurrent => ⟨?_, hiff.mpr hcurrent, ?_⟩⟩
  · rw [limitChargeCurrent_settings, limitAdapterCurrent_settings]
    exact h.noOverride
  · rw [hlast]
    exact hle.mpr hcurrent

/-- One event. -/
theorem ChargeLimitInv.step {e : PowerEvent} (he : e.NoOverride) (h : s.ChargeLimitInv) :
    (ChargingCurrentsLimited s e (s.step v e) ↔ ManagesLimitedCurrent v s e (s.step v e)) ∧
      (ManagesLimitedCurrent v s e (s.step v e) → (s.step v e).ChargeLimitInv) := by
  cases e with
  | configure settings => exact ⟨iff_of_true h.limited nofun, fun _ => ⟨he, h.limited, h.last⟩⟩
  | onStart => exact ⟨iff_of_true h.limited nofun, fun _ => ⟨h.noOverride, h.limited, h.last⟩⟩
  | driverTick i2c dcdcCurrent =>
    have ht : (s.beforePowerManagement v i2c dcdcCurrent).ChargeLimitInv :=
      h.beforePowerManagement i2c dcdcCurrent
    change (Charger.AtMost _ (s.driverTick v i2c dcdcCurrent).charger ↔ _) ∧
      (_ → (s.driverTick v i2c dcdcCurrent).ChargeLimitInv)
    rcases driverTick_cases (v := v) (s := s) i2c dcdcCurrent with ⟨hm, htick⟩ | ⟨hm, htick⟩
    · have hcond : ManagesLimitedCurrent v s (.driverTick i2c dcdcCurrent)
          (s.step v (.driverTick i2c dcdcCurrent)) ↔
            ¬ saboRobot.maxChargeCurrent < s.settings.configuredChargeCurrent := by
        refine ⟨fun hc => hc i2c dcdcCurrent rfl hm, fun hc i2c' dcdcCurrent' _ _ => hc⟩
      rw [hcond, htick]
      exact ht.managePower
    · rw [htick]
      refine ⟨iff_of_true ht.limited ?_, fun _ => ht⟩
      rintro i2c' dcdcCurrent' ⟨⟩ hm'
      exact absurd hm' hm

end SaboPower

open SaboPower

/-- **One charge-current limit.** Without the override, the charging currents that are set during
a run are at most `Power_GetMaxChargeCurrent` exactly if in no tick a higher current is configured
when the power management passes its guards. -/
theorem saboPower_chargingCurrents_iff (v : HardwareVersion) (es : List PowerEvent)
    (hoverride : ∀ e ∈ es, e.NoOverride) :
    (saboPowerMachine v).EveryStep ChargingCurrentsLimited {} es ↔
      (saboPowerMachine v).EveryStep (ManagesLimitedCurrent v) {} es := by
  refine StateMachine.everyStep_iff ChargeLimitInv.initial fun s e s' he h hs => ?_
  obtain rfl := Option.some.inj hs
  exact h.step (hoverride e he)

/-- A run that configures a current, and a tick in which all accesses to the bus succeed. -/
def configuredRun (amps : ℚ) : List PowerEvent :=
  [.configure { chargeCurrent := some (.rat amps), systemCurrent := some (.rat 4) }, .onStart,
    .driverTick (List.replicate 19 ⟨true, 16#16⟩) (.rat 1)]

theorem configuredRun_noOverride (amps : ℚ) : ∀ e ∈ configuredRun amps, e.NoOverride := by
  simp [configuredRun, PowerEvent.NoOverride, PowerSettings.overrideLimit]

theorem saboPower_threeAmps :
    (saboPowerMachine .v0_3).EveryStep ChargingCurrentsLimited {} (configuredRun 3) ↔
      (saboPowerMachine .v0_3).EveryStep (ManagesLimitedCurrent .v0_3) {} (configuredRun 3) :=
  saboPower_chargingCurrents_iff .v0_3 _ (configuredRun_noOverride 3)

/-- With 5 A, `update_charger_` sets 3.9 A, and the power management 5 A. -/
theorem saboPower_fiveAmps :
    (∀ e ∈ configuredRun 5, e.NoOverride) ∧
      ¬ (saboPowerMachine .v0_3).EveryStep ChargingCurrentsLimited {} (configuredRun 5) := by
  refine ⟨configuredRun_noOverride 5, fun h => ?_⟩
  obtain ⟨-, hstart⟩ := h _ rfl
  obtain ⟨-, htick⟩ := hstart _ rfl
  have hle := (htick _ rfl).1 (.rat 5) (by decide +kernel)
  exact absurd hle (by decide +kernel)

end OpenMower
