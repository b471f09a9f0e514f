import OpenMower.Portable.SystemTime
import OpenMower.Services.EmergencyReason

/-!
# Inputs

`Input` and its methods, from `drivers/input/input_driver`. `Input.update` is the part of
`Input::Update` that concerns the input itself; it returns the arguments of the
`OnInputChanged` call that follows, or `none` when the compare-exchange fails and nothing
happens. Its three stages, `exchangeActive`, the clock reading and `recordEdge`, are
separate definitions, since other threads may run between them.

`timeoutReached` is the helper of `service_ext.hpp` that every delay is checked with.
-/

namespace OpenMower

open ModularClock

/-- `TimeoutReached`: whether the delay has passed, and the block time, lowered to what is
left of the delay otherwise. -/
def timeoutReached (duration delay blockTime : Micros) : Bool × Micros :=
  if delay ≤ duration then (true, blockTime)
  else (false, if blockTime < delay - duration then blockTime else delay - duration)

@[simp]
theorem timeoutReached_fst {duration delay blockTime : Micros} :
    (timeoutReached duration delay blockTime).1 = decide (delay ≤ duration) := by
  unfold timeoutReached
  split <;> simp_all

/-- An input: its configuration and its state. The union of driver specific fields is kept as
raw bits, since only the drivers read it. -/
structure Input where
  idx : BitVec 8
  invert : Bool := false
  redundancyGroup : BitVec 8 := 0#8
  emergencyReason : Reasons := 0#16
  emergencyDelayMs : BitVec 16 := 0#16
  driverData : BitVec 64 := 0#64
  active : Bool := false
  emergencyPending : Bool := false
  activeSince : Micros := 0#32
  deriving DecidableEq, Repr

namespace Input

variable (input : Input)

/-- `Input::VIRTUAL`. -/
def virtualIdx : BitVec 8 := 255#8

/-- `Input::ActiveDuration`. -/
def activeDuration (now : Micros) : Micros := now - input.activeSince

/-- `emergency_delay_ms * 1'000`, the delay in microseconds. -/
def emergencyDelay : Micros := input.emergencyDelayMs.setWidth 32 * 1000#32

/-- The configured delay in microseconds as a number. -/
def delayMicros : ℤ := input.emergencyDelayMs.toNat * 1000

/-- The product of `emergency_delay_ms * 1'000` does not overflow. -/
theorem toNat_emergencyDelay : (input.emergencyDelay.toNat : ℤ) = input.delayMicros := by
  have hlt : input.emergencyDelayMs.toNat < 2 ^ 16 := input.emergencyDelayMs.isLt
  rw [emergencyDelay, delayMicros, BitVec.toNat_mul, BitVec.toNat_setWidth, BitVec.toNat_ofNat]
  omega

/-- `if (invert) new_active = !new_active`. -/
def applyInvert (newActive : Bool) : Bool := if input.invert then !newActive else newActive

/-- `active.compare_exchange_strong(!new_active, new_active)`; `none` when it fails. -/
def exchangeActive (newActive : Bool) : Option Input :=
  if input.active = !newActive then some { input with active := newActive } else none

/-- What `Update` stores once it has read the clock: the start of the activation, or the
pending emergency of an activation that lasted for the delay. -/
def recordEdge (newActive : Bool) (now : Micros) : Input :=
  if newActive then { input with activeSince := now }
  else if input.emergencyReason ≠ 0#16 ∧ input.emergencyDelay ≤ input.activeDuration now then
    { input with emergencyPending := true }
  else input

/-- `Input::Update` up to the `OnInputChanged` call, at the clock reading `time`: the input
afterwards with the `active` and `duration` arguments of that call. -/
def update (newActive : Bool) (time predate : Micros) : Option (Input × Bool × Micros) :=
  (input.exchangeActive (input.applyInvert newActive)).map fun input' =>
    (input'.recordEdge (input.applyInvert newActive) (time - predate),
      input.applyInvert newActive,
      if input.applyInvert newActive then 0#32 else input'.activeDuration (time - predate))

/-- `Input::GetAndClearPendingEmergency`. -/
def getAndClearPendingEmergency : Bool × Input :=
  if input.emergencyPending then (true, { input with emergencyPending := false })
  else (false, input)

/-- An input as the configuration leaves it: inactive, with nothing pending. -/
def Fresh : Prop := input.active = false ∧ input.emergencyPending = false ∧ input.activeSince = 0#32

instance : Decidable input.Fresh := inferInstanceAs (Decidable (_ ∧ _ ∧ _))

/-- `Input::Update` on the input at position `i` of a list. -/
def updateAt (inputs : List Input) (i : ℕ) (newActive : Bool) (time predate : Micros) :
    List Input :=
  inputs.modify i fun input => ((input.update newActive time predate).map Prod.fst).getD input

/-! ### What an update does -/

variable {input}

/-- The configuration of an input is not touched by updates. -/
def SameConfig (a b : Input) : Prop :=
  a.idx = b.idx ∧ a.invert = b.invert ∧ a.redundancyGroup = b.redundancyGroup ∧
    a.emergencyReason = b.emergencyReason ∧ a.emergencyDelayMs = b.emergencyDelayMs

@[simp] theorem SameConfig.refl (a : Input) : SameConfig a a := ⟨rfl, rfl, rfl, rfl, rfl⟩

theorem SameConfig.trans {a b c : Input} (hab : SameConfig a b) (hbc : SameConfig b c) :
    SameConfig a c := by
  obtain ⟨h1, h2, h3, h4, h5⟩ := hab
  obtain ⟨k1, k2, k3, k4, k5⟩ := hbc
  exact ⟨h1.trans k1, h2.trans k2, h3.trans k3, h4.trans k4, h5.trans k5⟩

theorem SameConfig.delayMicros_eq {a b : Input} (h : SameConfig a b) :
    a.delayMicros = b.delayMicros := by
  rw [delayMicros, delayMicros, h.2.2.2.2]

theorem exchangeActive_eq_some {newActive : Bool} {input' : Input} :
    input.exchangeActive newActive = some input' ↔
      input.active = !newActive ∧ input' = { input with active := newActive } := by
  unfold exchangeActive
  split
  · next h => simp only [h, true_and, Option.some.injEq]; exact eq_comm
  · next h => simp [h]

/-- An update that gets through flips the flag and then records the edge. -/
theorem update_eq_some {newActive : Bool} {time predate : Micros} {r : Input × Bool × Micros}
    (h : input.update newActive time predate = some r) :
    input.active = !input.applyInvert newActive ∧
      r.1 = { input with active := input.applyInvert newActive }.recordEdge
        (input.applyInvert newActive) (time - predate) ∧
      r.2.1 = input.applyInvert newActive := by
  simp only [update, Option.map_eq_some_iff] at h
  obtain ⟨input', hx, rfl⟩ := h
  obtain ⟨ha, rfl⟩ := exchangeActive_eq_some.mp hx
  exact ⟨ha, rfl, rfl⟩

/-- An update that does not get through found the flag as it should be. -/
theorem update_eq_none {newActive : Bool} {time predate : Micros} :
    input.update newActive time predate = none ↔
      input.active = input.applyInvert newActive := by
  simp only [update, Option.map_eq_none_iff, exchangeActive, ite_eq_right_iff, reduceCtorEq,
    imp_false]
  cases input.active <;> cases input.applyInvert newActive <;> simp

theorem recordEdge_sameConfig {newActive : Bool} {now : Micros} :
    SameConfig (input.recordEdge newActive now) input := by
  unfold recordEdge
  split
  · exact ⟨rfl, rfl, rfl, rfl, rfl⟩
  · split <;> exact ⟨rfl, rfl, rfl, rfl, rfl⟩

@[simp]
theorem recordEdge_active {newActive : Bool} {now : Micros} :
    (input.recordEdge newActive now).active = input.active := by
  unfold recordEdge
  split
  · rfl
  · split <;> rfl

theorem update_sameConfig {newActive : Bool} {time predate : Micros}
    {r : Input × Bool × Micros} (h : input.update newActive time predate = some r) :
    SameConfig r.1 input := by
  obtain ⟨-, h1, -⟩ := update_eq_some h
  rw [h1]
  exact recordEdge_sameConfig.trans ⟨rfl, rfl, rfl, rfl, rfl⟩

/-- After an update the flag shows the requested level, whether or not it had to change. -/
theorem update_active {newActive : Bool} {time predate : Micros} {r : Input × Bool × Micros}
    (h : input.update newActive time predate = some r) :
    r.1.active = input.applyInvert newActive := by
  obtain ⟨-, h1, -⟩ := update_eq_some h
  rw [h1, recordEdge_active]

/-- An update that activates an input stamps it; one that deactivates it leaves the stamp. -/
theorem update_activeSince {newActive : Bool} {time predate : Micros}
    {r : Input × Bool × Micros} (h : input.update newActive time predate = some r) :
    r.1.activeSince = if r.2.1 then time - predate else input.activeSince := by
  obtain ⟨-, h1, h2⟩ := update_eq_some h
  rw [h1, h2]
  cases input.applyInvert newActive
  · simp only [recordEdge, Bool.false_eq_true, if_false]
    split <;> rfl
  · rfl

/-- The input after an update, whether or not it got through, has its configuration and shows
the requested level. -/
theorem getD_update {newActive : Bool} {time predate : Micros} :
    SameConfig (((input.update newActive time predate).map Prod.fst).getD input) input ∧
      (((input.update newActive time predate).map Prod.fst).getD input).active =
        input.applyInvert newActive := by
  cases hu : input.update newActive time predate with
  | none => exact ⟨.refl _, update_eq_none.mp hu⟩
  | some r => exact ⟨update_sameConfig hu, update_active hu⟩

/-- The data of the driver is not touched by updates. -/
theorem getD_update_driverData {newActive : Bool} {time predate : Micros} :
    (((input.update newActive time predate).map Prod.fst).getD input).driverData =
      input.driverData := by
  cases hu : input.update newActive time predate with
  | none => rfl
  | some r =>
    obtain ⟨-, h1, -⟩ := update_eq_some hu
    rw [Option.map_some, Option.getD_some, h1, recordEdge]
    split
    · rfl
    · split <;> rfl

/-! ### Updates in a list -/

theorem getElem?_updateAt {inputs : List Input} {i j : ℕ} {newActive : Bool}
    {time predate : Micros} :
    (updateAt inputs i newActive time predate)[j]? =
      if i = j then
        inputs[j]?.map fun input => ((input.update newActive time predate).map Prod.fst).getD input
      else inputs[j]? := by
  rw [updateAt, List.getElem?_modify]
  cases inputs[j]? <;> split <;> simp

/-- An update of an input of the list replaces it by its update. -/
theorem updateAt_eq_set {inputs : List Input} {i : ℕ} {input : Input} {newActive : Bool}
    {time predate : Micros} (h : inputs[i]? = some input) :
    updateAt inputs i newActive time predate =
      inputs.set i (((input.update newActive time predate).map Prod.fst).getD input) := by
  obtain ⟨hi, -⟩ := List.getElem?_eq_some_iff.mp h
  refine List.ext_getElem? fun j => ?_
  rw [getElem?_updateAt, List.getElem?_set]
  split
  · next heq =>
    subst heq
    rw [h, Option.map_some]
  · rfl

end Input

end OpenMower
