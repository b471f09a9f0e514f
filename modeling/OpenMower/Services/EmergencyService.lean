import OpenMower.Services.InputService

/-!
# The emergency service

From `services/emergency_service`. The service keeps one word of emergency reasons. Every
entry point ends in `updateEmergency`, which drops the bits of a clear mask and sets the
bits of an add mask; the entry points differ in their masks only. Methods that read
something under a lock and then update, `checkInputs`, `checkTimeouts` and
`onHighLevelEmergencyChanged`, are written as the composition of these two critical
sections, because other threads may run in between.

`updateEmergency` also tells whether the word changed: then the caller broadcasts
`EMERGENCY_CHANGED` and sends the status.
-/

namespace OpenMower

open WordMask

/-- The state of `EmergencyService`; `ι` stands for the pointers to other services. -/
structure EmergencyService (ι : Type*) where
  reasons : Reasons
  lastHighLevelEmergencyMessage : Micros
  requiredServices : List ι
  deriving DecidableEq

namespace EmergencyService

variable {ι : Type*} (E : EmergencyReason) (s : EmergencyService ι)

/-- The initial field values. -/
def initial : EmergencyService ι where
  reasons := E.mask .timeoutInputs ||| E.mask .timeoutHighLevel
  lastHighLevelEmergencyMessage := 0#32
  requiredServices := []

/-! ### The critical sections -/

/-- The locked section of `UpdateEmergency`. -/
def updateEmergency (add clear : Reasons) : EmergencyService ι :=
  { s with reasons := rewrite s.reasons add clear }

/-- Whether `UpdateEmergency` goes on to broadcast `EMERGENCY_CHANGED`. -/
def notifies (add clear : Reasons) : Bool :=
  decide ((s.updateEmergency add clear).reasons ≠ s.reasons)

/-- The locked section of `OnHighLevelEmergencyChanged`. -/
def stampHighLevelMessage (time : Micros) : EmergencyService ι :=
  { s with lastHighLevelEmergencyMessage := time }

/-- The clear mask `OnHighLevelEmergencyChanged` takes from the second word of a message. -/
def highLevelClear (newValue1 : Reasons) : Reasons := newValue1 &&& ~~~E.mask .serviceNotReady

/-- The locked section of `CheckTimeouts`: the reasons to add and the block time. -/
def sampleTimeouts (now : Micros) : Reasons × Micros :=
  let timeout :=
    timeoutReached (now - s.lastHighLevelEmergencyMessage) 1000000#32 (BitVec.allOnes 32)
  (if timeout.1 then E.mask .timeoutHighLevel else 0#16, timeout.2)

/-! ### The entry points -/

/-- `OnStop`. -/
def onStop : EmergencyService ι := s.updateEmergency (E.mask .timeoutHighLevel) 0#16

/-- `CheckInputs`: the service and the inputs afterwards, and the block time. -/
def checkInputs (inputs : List Input) (now : Micros) :
    EmergencyService ι × List Input × Micros :=
  let r := getEmergencyReasons now inputs
  (s.updateEmergency r.2.1 E.conditions, r.1, r.2.2)

/-- `OnHighLevelEmergencyChanged`, for the two words of the message. -/
def onHighLevelEmergencyChanged (newValue0 newValue1 : Reasons) (time : Micros) :
    EmergencyService ι :=
  (s.stampHighLevelMessage time).updateEmergency newValue0 (highLevelClear E newValue1)

/-- `CheckTimeouts`. -/
def checkTimeouts (now : Micros) : EmergencyService ι × Micros :=
  let r := s.sampleTimeouts E now
  (s.updateEmergency r.1 E.timeouts, r.2)

/-- `GetEmergencyReasons`. -/
def getReasons : Reasons := s.reasons

/-- `RequireService`; `none` when the 16 places of the vector are taken. -/
def requireService (svc : ι) : Option (EmergencyService ι) :=
  if s.requiredServices.length < 16 then
    some { s with
      requiredServices := s.requiredServices ++ [svc]
      reasons := s.reasons ||| E.mask .serviceNotReady }
  else none

/-- `CheckRequiredServices`, given what the services answer to `IsHealthy`. -/
def checkRequiredServices (isHealthy : ι → Bool) : EmergencyService ι × Micros :=
  if s.requiredServices.isEmpty then (s, BitVec.allOnes 32)
  else
    let allReady := s.requiredServices.all isHealthy
    (s.updateEmergency (if allReady then 0#16 else E.mask .serviceNotReady)
        (E.mask .serviceNotReady),
      if allReady then BitVec.allOnes 32 else 100000#32)

/-- The smaller of two block times, `etl::min`. -/
def minBlockTime (a b : Micros) : Micros := if b < a then b else a

/-- `OnLoop`: one pass of the three checks. -/
def onLoop (inputs : List Input) (isHealthy : ι → Bool) (now : Micros) :
    EmergencyService ι × List Input × Micros :=
  let c := s.checkInputs E inputs now
  let t := c.1.checkTimeouts E now
  let r := t.1.checkRequiredServices E isHealthy
  (r.1, c.2.1, minBlockTime c.2.2 (minBlockTime t.2 r.2))

/-- What `OnLoop` does after its poll of the inputs: the service afterwards and the block
time. -/
def afterPoll (polled : Reasons × Micros) (isHealthy : ι → Bool) (now : Micros) :
    EmergencyService ι × Micros :=
  let t := (s.updateEmergency polled.1 E.conditions).checkTimeouts E now
  let r := t.1.checkRequiredServices E isHealthy
  (r.1, minBlockTime polled.2 (minBlockTime t.2 r.2))

/-! ### Bits after an update -/

variable {E s}

@[simp]
theorem updateEmergency_requiredServices {add clear : Reasons} :
    (s.updateEmergency add clear).requiredServices = s.requiredServices := rfl

@[simp]
theorem updateEmergency_reasons {add clear : Reasons} :
    (s.updateEmergency add clear).reasons = rewrite s.reasons add clear := rfl

/-- Membership of a reason after an update. -/
theorem mem_updateEmergency {r : Reason} {add clear : Reasons} :
    E.mem r (s.updateEmergency add clear).reasons =
      ((E.mem r s.reasons && !E.mem r clear) || E.mem r add) :=
  getLsbD_rewrite

/-- A high-level message never clears `SERVICE_NOT_READY`. -/
@[simp]
theorem mem_highLevelClear {r : Reason} {newValue1 : Reasons} :
    E.mem r (highLevelClear E newValue1) =
      (E.mem r newValue1 && decide (r ≠ .serviceNotReady)) := by
  simp only [highLevelClear, EmergencyReason.mem_and, EmergencyReason.mem_not,
    EmergencyReason.mem_mask]
  by_cases h : r = .serviceNotReady <;> simp [h, eq_comm]

/-- A timeout is sampled exactly when the clock difference reaches one second. -/
theorem mem_sampleTimeouts {now : Micros} :
    E.mem .timeoutHighLevel (s.sampleTimeouts E now).1 =
      decide (1000000#32 ≤ now - s.lastHighLevelEmergencyMessage) := by
  simp only [sampleTimeouts, timeoutReached_fst]
  split <;> simp_all

theorem minBlockTime_le_left {a b : Micros} : minBlockTime a b ≤ a := by
  unfold minBlockTime
  split
  · next h => exact BitVec.le_of_lt h
  · exact BitVec.le_refl _

/-- `OnLoop` never sleeps longer than its poll of the inputs allows. -/
theorem afterPoll_blockTime_le {polled : Reasons × Micros} {isHealthy : ι → Bool} {now : Micros} :
    (s.afterPoll E polled isHealthy now).2 ≤ polled.2 :=
  minBlockTime_le_left

/-- `OnLoop` is a poll of the inputs and what comes after it. -/
theorem onLoop_eq_afterPoll (inputs : List Input) (isHealthy : ι → Bool) (now : Micros) :
    s.onLoop E inputs isHealthy now =
      ((s.afterPoll E (getEmergencyReasons now inputs).2 isHealthy now).1,
        (getEmergencyReasons now inputs).1,
        (s.afterPoll E (getEmergencyReasons now inputs).2 isHealthy now).2) := rfl

end EmergencyService

end OpenMower
