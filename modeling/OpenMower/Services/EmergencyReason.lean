import OpenMower.Library.WordMask

/-!
# Emergency reasons

The constants of `EmergencyReason` are generated from the service definition, so the model
takes them as a parameter. `EmergencyReason` assigns a bit of the 16-bit word to every
reason, two reasons never the same bit: the constants are distinct single bits by
construction. `E.mask r` is the constant itself and `E.mem r word` the test `word & r`.
-/

namespace OpenMower

open WordMask

/-- A `uint16_t` set of emergency reasons. -/
abbrev Reasons := BitVec 16

/-- The reasons the firmware names. -/
inductive Reason
  | stop
  | lift
  | liftMultiple
  | collision
  | collisionMultiple
  | latch
  | timeoutHighLevel
  | timeoutInputs
  | serviceNotReady
  deriving DecidableEq, Repr

/-- The generated constants: one bit for each reason. -/
structure EmergencyReason where
  /-- The bit of a reason. -/
  bit : Reason → Fin 16
  /-- Distinct reasons have distinct bits. -/
  injective : Function.Injective bit

namespace EmergencyReason

variable (E : EmergencyReason)

/-- The constant of a reason. -/
def mask (r : Reason) : Reasons := BitVec.twoPow 16 (E.bit r)

/-- The reason is in the set. -/
def mem (r : Reason) (word : Reasons) : Bool := word.getLsbD (E.bit r)

@[simp]
theorem getLsbD_mask {r : Reason} {i : ℕ} :
    (E.mask r).getLsbD i = decide ((E.bit r : ℕ) = i) := by
  simp [mask, BitVec.getLsbD_twoPow, (E.bit r).isLt]

/-- Two constants share a bit only if they are the same. -/
@[simp]
theorem mem_mask {r r' : Reason} : E.mem r (E.mask r') = decide (r' = r) := by
  simp only [mem, getLsbD_mask, decide_eq_decide]
  exact ⟨fun h => E.injective (Fin.ext h), fun h => by rw [h]⟩

@[simp] theorem mem_zero {r : Reason} : E.mem r 0#16 = false := by simp [mem]

@[simp]
theorem mem_or {r : Reason} {a b : Reasons} : E.mem r (a ||| b) = (E.mem r a || E.mem r b) := by
  simp [mem]

@[simp]
theorem mem_and {r : Reason} {a b : Reasons} : E.mem r (a &&& b) = (E.mem r a && E.mem r b) := by
  simp [mem]

@[simp]
theorem mem_not {r : Reason} {a : Reasons} : E.mem r (~~~a) = !E.mem r a := by
  simp [mem, (E.bit r).isLt]

/-- The bits of physical conditions, the `potential_reasons` of `CheckInputs`. -/
def conditions : Reasons :=
  E.mask .stop ||| E.mask .lift ||| E.mask .liftMultiple ||| E.mask .collision
    ||| E.mask .collisionMultiple

/-- The `potential_reasons` of `CheckTimeouts`. -/
def timeouts : Reasons := E.mask .timeoutHighLevel ||| E.mask .timeoutInputs

@[simp]
theorem mem_conditions {r : Reason} : E.mem r E.conditions =
    decide (r ∈ [Reason.stop, .lift, .liftMultiple, .collision, .collisionMultiple]) := by
  cases r <;> simp [conditions]

@[simp]
theorem mem_timeouts {r : Reason} : E.mem r E.timeouts =
    decide (r ∈ [Reason.timeoutHighLevel, .timeoutInputs]) := by
  cases r <;> simp [timeouts]

/-- One admissible assignment, in the order of the reasons. -/
def standard : EmergencyReason where
  bit r := match r with
    | .stop => 0
    | .lift => 1
    | .liftMultiple => 2
    | .collision => 3
    | .collisionMultiple => 4
    | .latch => 5
    | .timeoutHighLevel => 6
    | .timeoutInputs => 7
    | .serviceNotReady => 8
  injective := by
    intro r r' h
    cases r <;> cases r' <;> first | rfl | simp at h

end EmergencyReason

end OpenMower
