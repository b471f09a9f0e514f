import OpenMower.Library.ExactFloat
import OpenMower.Library.StateProgram
import OpenMower.Portable.Integers

/-!
# The battery charger

From `drivers/charger/bq_2576`, over an I2C bus that answers each access with an outcome: whether
it succeeds, and what is read. `init` resets the registers of the charger, and waits for the end of
the reset.

A register that is written is not modelled, except for the limit of the adapter current and the
arguments of `setChargingCurrent`, which are history variables: the limits are known by the
arguments of the calls, and no result depends on their encoding in the registers.
-/

namespace OpenMower

/-- The outcome of an access to a register. -/
structure I2cOutcome where
  ok : Bool
  value : BitVec 16
  deriving DecidableEq

/-- `CHARGER_STATUS`. -/
inductive ChargerStatus
  | notCharging
  | trickle
  | preCharge
  | cc
  | cv
  | topOff
  | done
  | fault
  | commsError
  | unknown
  deriving DecidableEq, Repr

/-- The resistors of a `BQ2576`. -/
structure Bq2576 where
  rTop : ℚ
  rBot : ℚ
  rAcSense : ℚ

/-- The charger on its bus. -/
structure Charger where
  /-- What the next accesses return; when nothing is left they fail. -/
  i2c : List I2cOutcome := []
  /-- History: the arguments of `setChargingCurrent`. -/
  chargingCurrents : List ExactFloat := []
  /-- History: the argument of the last `setAdapterCurrent` that the charger has accepted since it
  was reset. -/
  adapterCurrent : Option ExactFloat := none
  /-- History: the last `setAdapterCurrent` has been accepted, and no reset has come since. -/
  adapterAccepted : Bool := false

namespace Charger

/-- An access to a register. -/
def access : StateM Charger I2cOutcome := fun c =>
  match c.i2c with
  | [] => (⟨false, 0#16⟩, c)
  | outcome :: i2c => (outcome, { c with i2c := i2c })

/-- `readRegister`. -/
def readRegister : StateM Charger I2cOutcome := access

/-- `writeRegister8` and `writeRegister16`. -/
def writeRegister : StateM Charger Bool := do return (← access).ok

/-- The wait for the end of the reset in `init`, over what the bus returns. -/
def waitResetDone : List I2cOutcome → Bool × List I2cOutcome
  | [] => (false, [])
  | outcome :: i2c =>
    if outcome.ok = false then (false, i2c)
    else if outcome.value &&& 0b1000000#16 = 0#16 then (true, i2c)
    else waitResetDone i2c

/-- The charger takes the reset. -/
def resetRegisters (c : Charger) : Charger :=
  { c with adapterCurrent := none, adapterAccepted := false }

/-- `resetWatchdog`. -/
def resetWatchdog : StateM Charger Bool := writeRegister

/-- `init`. -/
def init : StateM Charger Bool := do
  let part ← readRegister
  let chargerConnected := part.ok && decide (part.value &&& 0b01111000#16 = 0b010000#16)
  if ← writeRegister then
    modify resetRegisters
    if ← (fun c => ((waitResetDone c.i2c).1, { c with i2c := (waitResetDone c.i2c).2 })) then
      let pfm ← writeRegister
      let adc ← writeRegister
      let _ ← resetWatchdog
      return chargerConnected && pfm && adc
    else return false
  else return false

/-- `setTsEnabled`. -/
def setTsEnabled : StateM Charger Bool := do
  if (← readRegister).ok then writeRegister else return false

/-- `setPreChargeCurrent`, `setTerminationCurrent` and `setReChargeVoltage`: one register. -/
def setLimit : StateM Charger Bool := writeRegister

/-- `setChargingVoltage`. -/
def setChargingVoltage (bq : Bq2576) : StateM Charger Bool :=
  let vfbRatio := (bq.rBot - 33) / (bq.rBot - 33 + bq.rTop)
  if vfbRatio ≤ 0 then return false else writeRegister

/-- `setChargingCurrent`. -/
def setChargingCurrent (currentAmps : ExactFloat) : StateM Charger Bool := do
  modify fun c => { c with chargingCurrents := c.chargingCurrents ++ [currentAmps] }
  if (← readRegister).ok then
    if ← writeRegister then writeRegister else return false
  else return false

/-- What `setAdapterCurrent` leaves of the limit. -/
def recordAdapterCurrent (currentAmps : ExactFloat) (accepted : Bool) (c : Charger) : Charger :=
  { c with
    adapterCurrent := if accepted then some currentAmps else c.adapterCurrent
    adapterAccepted := accepted }

/-- `setAdapterCurrent`. -/
def setAdapterCurrent (bq : Bq2576) (currentAmps : ExactFloat) : StateM Charger Bool := do
  let accepted ← if bq.rAcSense ≤ 0 then pure false else writeRegister
  modify (recordAdapterCurrent currentAmps accepted)
  return accepted

/-- `readAdapterCurrent`. -/
def readAdapterCurrent (bq : Bq2576) : StateM Charger Bool := do
  if bq.rAcSense ≤ 0 then return true else return (← readRegister).ok

/-- The status in the first status register. -/
def statusOf (status1 : BitVec 16) : ChargerStatus :=
  match (status1 &&& 0b111#16).toNat with
  | 0 => .notCharging
  | 1 => .trickle
  | 2 => .preCharge
  | 3 => .cc
  | 4 => .cv
  | 5 => .unknown
  | 6 => .topOff
  | 7 => .done
  | _ => .commsError

/-- `getChargerStatus`. -/
def getChargerStatus : StateM Charger ChargerStatus := do
  let status1 ← readRegister
  let status2 ← readRegister
  let status3 ← readRegister
  if status1.ok && status2.ok && status3.ok then
    let faults ← readRegister
    -- `readFaults` returns 0 when the read fails
    if faults.ok && decide (faults.value.setWidth 8 ≠ 0#8) then return .fault
    else return statusOf status1.value
  else return .commsError

/-! ### What the calls keep -/

/-- The limit is known when the last call has been accepted, and it is the one in the cache. -/
def Knows (limit : ExactFloat) (c : Charger) : Prop :=
  c.adapterAccepted = true → c.adapterCurrent = some limit

/-- All charging currents that have been set are at most this. -/
def AtMost (bound : ExactFloat) (c : Charger) : Prop := ∀ a ∈ c.chargingCurrents, a ≤ bound

/-- A property that does not depend on what the bus will return. -/
def IgnoresI2c (I : Charger → Prop) : Prop := ∀ c i2c, I c → I { c with i2c := i2c }

theorem access_run (c : Charger) :
    ∃ outcome i2c, access.run c = (outcome, { c with i2c := i2c }) := by
  rcases hi : c.i2c with - | ⟨outcome, i2c⟩
  · refine ⟨⟨false, 0#16⟩, c.i2c, ?_⟩
    change access c = (_, c)
    rw [access, hi]
  · refine ⟨outcome, i2c, ?_⟩
    change access c = _
    rw [access, hi]

section

variable {I : Charger → Prop} (h : IgnoresI2c I)
include h

theorem keeps_access : Keeps I access := by
  intro c hc
  obtain ⟨outcome, i2c, hrun⟩ := access_run c
  rw [hrun]
  exact h c i2c hc

theorem keeps_writeRegister : Keeps I writeRegister :=
  .bind (keeps_access h) fun _ => .pure _

theorem keeps_init (hreset : ∀ c, I c → I c.resetRegisters) : Keeps I init := by
  refine .bind (keeps_access h) fun part => .bind (keeps_writeRegister h) fun ok => ?_
  refine .ite (.bind (.modify hreset) fun _ => .bind (fun c hc => h c _ hc) fun done => ?_)
    (.pure _)
  refine .ite (.bind (keeps_writeRegister h) fun pfm => ?_) (.pure _)
  exact .bind (keeps_writeRegister h) fun adc => .bind (keeps_writeRegister h) fun _ => .pure _

theorem keeps_setTsEnabled : Keeps I setTsEnabled :=
  .bind (keeps_access h) fun _ => .ite (keeps_writeRegister h) (.pure _)

theorem keeps_setChargingVoltage (bq : Bq2576) : Keeps I (setChargingVoltage bq) :=
  .ite (.pure _) (keeps_writeRegister h)

theorem keeps_readAdapterCurrent (bq : Bq2576) : Keeps I (readAdapterCurrent bq) :=
  .ite (.pure _) (.bind (keeps_access h) fun _ => .pure _)

theorem keeps_getChargerStatus : Keeps I getChargerStatus := by
  refine .bind (keeps_access h) fun status1 => .bind (keeps_access h) fun status2 =>
    .bind (keeps_access h) fun status3 => .ite (.bind (keeps_access h) fun faults => ?_) (.pure _)
  exact .ite (.pure _) (.pure _)

/-- A call of `setChargingCurrent` ensures what its entry in the history ensures. -/
theorem setChargingCurrent_ensures {currentAmps : ExactFloat} {c : Charger}
    (hc : I { c with chargingCurrents := c.chargingCurrents ++ [currentAmps] }) :
    I ((setChargingCurrent currentAmps).run c).2 := by
  have hrest : Keeps I (do
      if (← readRegister).ok then
        if ← writeRegister then writeRegister else return false
      else return false) := by
    refine .bind (keeps_access h) fun pin => .ite ?_ (.pure _)
    exact .bind (keeps_writeRegister h) fun _ => .ite (keeps_writeRegister h) (.pure _)
  exact hrest _ hc

theorem keeps_setChargingCurrent {currentAmps : ExactFloat}
    (hcurrent : ∀ c, I c →
      I { c with chargingCurrents := c.chargingCurrents ++ [currentAmps] }) :
    Keeps I (setChargingCurrent currentAmps) :=
  fun c hc => setChargingCurrent_ensures h (hcurrent c hc)

end

/-- A call of `setAdapterCurrent` records its argument, and uses the bus. -/
theorem setAdapterCurrent_run (bq : Bq2576) (currentAmps : ExactFloat) (c : Charger) :
    ∃ accepted i2c, ((setAdapterCurrent bq currentAmps).run c).2 =
      recordAdapterCurrent currentAmps accepted { c with i2c := i2c } := by
  by_cases hsense : bq.rAcSense ≤ 0
  · refine ⟨false, c.i2c, ?_⟩
    simp only [setAdapterCurrent, if_pos hsense]
    rfl
  · obtain ⟨outcome, i2c, hrun⟩ := access_run c
    refine ⟨outcome.ok, i2c, ?_⟩
    simp only [setAdapterCurrent, if_neg hsense]
    change recordAdapterCurrent currentAmps (access.run c).1.ok (access.run c).2 = _
    rw [hrun]

/-- A call of `setChargingCurrent` adds its argument to the history. -/
theorem setChargingCurrent_chargingCurrents (currentAmps : ExactFloat) (c : Charger) :
    ((setChargingCurrent currentAmps).run c).2.chargingCurrents =
      c.chargingCurrents ++ [currentAmps] :=
  setChargingCurrent_ensures
    (I := fun c' => c'.chargingCurrents = c.chargingCurrents ++ [currentAmps])
    (fun _ _ h => h) rfl

theorem atMost_append {bound currentAmps : ExactFloat} {c c' : Charger}
    (h : c'.chargingCurrents = c.chargingCurrents ++ [currentAmps]) :
    c'.AtMost bound ↔ c.AtMost bound ∧ currentAmps ≤ bound := by
  rw [AtMost, h]
  exact List.forall_mem_append.trans (and_congr_right fun _ => List.forall_mem_singleton)

end Charger

end OpenMower
