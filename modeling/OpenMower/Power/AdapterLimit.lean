import OpenMower.Power.System
import Mathlib.Tactic.NormNum

/-!
# The limit of the adapter current

`OnPowerManagement` compares its limit with the last one that it has set, as if the charger had
accepted it and had not been reset since. Where it makes no attempt in a tick in which this is so,
the limit of the charger differs from the computed one by at most the hysteresis
(`saboPower_adapterLimit_held`).
-/

namespace OpenMower

namespace SaboPower

variable {v : HardwareVersion} {s : SaboPower}

/-- After the power management, unless its own attempt has failed, the charger has a limit that
differs from the computed one by at most 50 mA. -/
def AdapterLimitHeld (v : HardwareVersion) (s : SaboPower) (e : PowerEvent) (s' : SaboPower) :
    Prop :=
  ∀ i2c dcdcCurrent, e = .driverTick i2c dcdcCurrent →
    let t := s.beforePowerManagement v i2c dcdcCurrent
    t.ManagesPower → (t.AttemptsAdapterLimit v → s'.charger.adapterAccepted = true) →
      ∃ limit, s'.charger.adapterCurrent = some limit ∧
        (t.adapterLimit v - limit).abs ≤ .rat 0.05

/-- The power management makes an attempt, or the charger has accepted the last one and has not
been reset since. -/
def AdapterLimitCached (v : HardwareVersion) (s : SaboPower) (e : PowerEvent) (_ : SaboPower) :
    Prop :=
  ∀ i2c dcdcCurrent, e = .driverTick i2c dcdcCurrent →
    let t := s.beforePowerManagement v i2c dcdcCurrent
    t.ManagesPower → t.AttemptsAdapterLimit v ∨ t.charger.adapterAccepted = true

/-- The last limit is a number, and the charger knows it if it has accepted it. -/
structure AdapterLimitInv (s : SaboPower) : Prop where
  isRat : ∃ q, s.lastAdapterLimit = .rat q
  knows : s.charger.Knows s.lastAdapterLimit

theorem AdapterLimitInv.initial : AdapterLimitInv {} := ⟨⟨0, rfl⟩, nofun⟩

/-- A tick keeps the invariant up to the power management, since a reset makes it forget. -/
theorem AdapterLimitInv.beforePowerManagement (h : s.AdapterLimitInv) (i2c : List I2cOutcome)
    (dcdcCurrent : ExactFloat) : (s.beforePowerManagement v i2c dcdcCurrent).AdapterLimitInv where
  isRat := h.isRat
  knows := beforePowerManagement_charger (fun _ _ h => h) (fun _ _ => nofun) (fun _ h => h) h.knows
    i2c dcdcCurrent

/-- The computed limit is a number, whatever the configured and the measured current are. -/
theorem exists_adapterLimit (v : HardwareVersion) (s : SaboPower) :
    ∃ q, s.adapterLimit v = .rat q := by
  have hle : (0.3 : ℚ) ≤ v.maxAdapterCurrent := by
    cases v <;> norm_num [HardwareVersion.maxAdapterCurrent]
  obtain ⟨q, hq, -⟩ := ExactFloat.exists_clamp hle
    (s.settings.configuredSystemCurrent - s.service.dcdcCurrent - .rat 0.2)
  exact ⟨q, hq⟩

/-- **The attempt.** It leaves the limit of the charger within the hysteresis if it succeeds, and
so does no attempt if the charger has accepted the last one. -/
theorem AdapterLimitInv.limitAdapterCurrent (h : s.AdapterLimitInv) :
    (s.limitAdapterCurrent v).AdapterLimitInv ∧
      ((s.limitAdapterCurrent v).charger.adapterAccepted = true →
        ∃ limit, (s.limitAdapterCurrent v).charger.adapterCurrent = some limit ∧
          (s.adapterLimit v - limit).abs ≤ .rat 0.05) := by
  obtain ⟨q, hq⟩ := exists_adapterLimit v s
  by_cases hattempt : s.AttemptsAdapterLimit v
  · obtain ⟨accepted, i2c, hrun⟩ :=
      Charger.setAdapterCurrent_run v.charger (s.adapterLimit v) s.charger
    rw [SaboPower.limitAdapterCurrent, if_pos hattempt, hrun]
    refine ⟨⟨⟨q, hq⟩, fun haccepted => ?_⟩, fun haccepted => ⟨s.adapterLimit v, ?_, ?_⟩⟩
    · exact if_pos haccepted
    · exact if_pos haccepted
    · rw [hq, ExactFloat.rat_sub_rat, ExactFloat.abs_rat, ExactFloat.rat_le_rat, sub_self, abs_zero]
      norm_num
  · rw [SaboPower.limitAdapterCurrent, if_neg hattempt]
    refine ⟨h, fun haccepted => ⟨s.lastAdapterLimit, h.knows haccepted, ?_⟩⟩
    obtain ⟨last, hlast⟩ := h.isRat
    rw [AttemptsAdapterLimit] at hattempt
    rw [hq, hlast, ExactFloat.rat_sub_rat, ExactFloat.abs_rat] at hattempt ⊢
    exact ExactFloat.rat_le_rat.mpr (not_lt.mp hattempt)

theorem limitAdapterCurrent_of_not_attempt (h : ¬ s.AttemptsAdapterLimit v) :
    s.limitAdapterCurrent v = s := if_neg h

/-- The charging current leaves the limit of the adapter as it is. -/
theorem limitChargeCurrent_adapter :
    (s.limitChargeCurrent v).charger.adapterCurrent = s.charger.adapterCurrent ∧
      (s.limitChargeCurrent v).charger.adapterAccepted = s.charger.adapterAccepted ∧
      (s.limitChargeCurrent v).lastAdapterLimit = s.lastAdapterLimit := by
  rw [limitChargeCurrent]
  split
  · let I : Charger → Prop := fun c => c.adapterCurrent = s.charger.adapterCurrent ∧
      c.adapterAccepted = s.charger.adapterAccepted
    have hset : I ((Charger.setChargingCurrent (s.chargeLimit v)).run s.charger).2 :=
      Charger.setChargingCurrent_ensures (fun _ _ h => h) ⟨rfl, rfl⟩
    exact ⟨hset.1, hset.2, rfl⟩
  · exact ⟨rfl, rfl, rfl⟩

theorem AdapterLimitInv.limitChargeCurrent (h : s.AdapterLimitInv) :
    (s.limitChargeCurrent v).AdapterLimitInv := by
  obtain ⟨hcurrent, haccepted, hlast⟩ := limitChargeCurrent_adapter (v := v) (s := s)
  refine ⟨?_, ?_⟩
  · rw [hlast]
    exact h.isRat
  · rw [Charger.Knows, hcurrent, haccepted, hlast]
    exact h.knows

theorem AdapterLimitInv.step (h : s.AdapterLimitInv) (e : PowerEvent) :
    (s.step v e).AdapterLimitInv := by
  cases e with
  | configure settings => exact ⟨h.isRat, h.knows⟩
  | onStart => exact ⟨h.isRat, h.knows⟩
  | driverTick i2c dcdcCurrent =>
    have ht : (s.beforePowerManagement v i2c dcdcCurrent).AdapterLimitInv :=
      h.beforePowerManagement i2c dcdcCurrent
    change (s.driverTick v i2c dcdcCurrent).AdapterLimitInv
    rcases driverTick_cases (v := v) (s := s) i2c dcdcCurrent with ⟨-, htick⟩ | ⟨-, htick⟩
    · rw [htick]
      exact ht.limitAdapterCurrent.1.limitChargeCurrent
    · rw [htick]
      exact ht

/-- One event: the limit is held if it may be taken from the cache. -/
theorem AdapterLimitInv.held (h : s.AdapterLimitInv) {e : PowerEvent}
    (hcached : AdapterLimitCached v s e (s.step v e)) :
    AdapterLimitHeld v s e (s.step v e) := by
  rintro i2c dcdcCurrent rfl t hm haccepted
  have ht : t.AdapterLimitInv := h.beforePowerManagement i2c dcdcCurrent
  have htick : s.step v (.driverTick i2c dcdcCurrent) =
      (t.limitAdapterCurrent v).limitChargeCurrent v := by
    rcases driverTick_cases (v := v) (s := s) i2c dcdcCurrent with ⟨-, htick⟩ | ⟨hnot, -⟩
    · exact htick
    · exact absurd hm hnot
  obtain ⟨hcurrent, haccepted', -⟩ :=
    limitChargeCurrent_adapter (v := v) (s := t.limitAdapterCurrent v)
  rw [htick] at haccepted ⊢
  rw [haccepted'] at haccepted
  rw [hcurrent]
  refine ht.limitAdapterCurrent.2 ?_
  by_cases hattempt : t.AttemptsAdapterLimit v
  · exact haccepted hattempt
  · rw [limitAdapterCurrent_of_not_attempt hattempt]
    exact (hcached i2c dcdcCurrent rfl hm).resolve_left hattempt

end SaboPower

open SaboPower

/-- **The adapter limit of the charger.** In a run in which the power management only skips its
attempt if the charger has accepted the last one and has not been reset since, every power
management whose attempt does not fail leaves the charger with the computed limit, up to 50 mA. -/
theorem saboPower_adapterLimit_held (v : HardwareVersion) (es : List PowerEvent)
    (hcached : (saboPowerMachine v).EveryStep (AdapterLimitCached v) {} es) :
    (saboPowerMachine v).EveryStep (AdapterLimitHeld v) {} es := by
  refine hcached.imp AdapterLimitInv.initial fun s e s' h hs hc => ?_
  obtain rfl := Option.some.inj hs
  exact ⟨h.step e, h.held hc⟩

/-- A run that configures the charger and monitors it, with the answer of the bus to the limit of
the adapter current. -/
def limitedRun (accepted : Bool) : List PowerEvent :=
  [.configure { systemCurrent := some (.rat 4) }, .onStart,
    .driverTick (List.replicate 15 ⟨true, 16#16⟩ ++ [⟨accepted, 0#16⟩] ++
      List.replicate 3 ⟨true, 0#16⟩) (.rat 1),
    .driverTick (List.replicate 9 ⟨true, 0#16⟩) (.rat 1)]

theorem saboPower_acceptedLimit :
    (saboPowerMachine .v0_3).EveryStep (AdapterLimitHeld .v0_3) {} (limitedRun true) := by
  refine saboPower_adapterLimit_held .v0_3 _ ?_
  refine fun s₁ h₁ => ⟨nofun, fun s₂ h₂ => ⟨nofun, fun s₃ h₃ => ?_⟩⟩
  obtain rfl := Option.some.inj h₁
  obtain rfl := Option.some.inj h₂
  obtain rfl := Option.some.inj h₃
  refine ⟨?_, fun s₄ h₄ => ⟨?_, trivial⟩⟩
  · rintro i2c dcdcCurrent ⟨⟩
    exact fun _ => .inl (by decide +kernel)
  · rintro i2c dcdcCurrent ⟨⟩
    exact fun _ => .inr (by decide +kernel)

/-- The charger rejects the limit. In the next tick nothing is set, as the limit is the last one. -/
theorem saboPower_rejectedLimit :
    ¬ (saboPowerMachine .v0_3).EveryStep (AdapterLimitHeld .v0_3) {} (limitedRun false) := by
  intro h
  obtain ⟨-, hstart⟩ := h _ rfl
  obtain ⟨-, hfirst⟩ := hstart _ rfl
  obtain ⟨-, hsecond⟩ := hfirst _ rfl
  obtain ⟨hheld, -⟩ := hsecond _ rfl
  obtain ⟨limit, hlimit, -⟩ := hheld _ _ rfl (by decide +kernel) fun hattempt =>
    absurd hattempt (by decide +kernel)
  exact absurd hlimit (by revert limit; decide +kernel)

end OpenMower
