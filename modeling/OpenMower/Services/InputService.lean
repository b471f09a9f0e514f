import OpenMower.Drivers.Input

/-!
# The input service: emergency reasons

From `services/input_service`. `getEmergencyReasons` is the poll of the emergency service
over all inputs. Its loop is characterised input by input: an input contributes its reasons
exactly when it `Reports` (`getLsbD_reasons_iff`), the pending flags are cleared
(`getEmergencyReasons_inputs`), and the block time does not exceed what is left of any
running delay (`blockTime_le_remaining`).
-/

namespace OpenMower

open WordMask

namespace Input

/-- The body of the loop in `GetEmergencyReasons`: the input afterwards, the reasons and the
block time collected so far. -/
def collect (now : Micros) (input : Input) (acc : Reasons × Micros) : Input × Reasons × Micros :=
  if input.emergencyReason = 0#16 then (input, acc)
  else if input.getAndClearPendingEmergency.1 then
    (input.getAndClearPendingEmergency.2, acc.1 ||| input.emergencyReason, 0#32)
  else if input.active then
    let timeout := timeoutReached (input.activeDuration now) input.emergencyDelay acc.2
    (input, if timeout.1 then acc.1 ||| input.emergencyReason else acc.1, timeout.2)
  else (input, acc)

/-- The input contributes its reasons to a poll at `now`. -/
def Reports (now : Micros) (input : Input) : Prop :=
  input.emergencyReason ≠ 0#16 ∧ (input.emergencyPending = true ∨
    (input.active = true ∧ input.emergencyDelay ≤ input.activeDuration now))

instance (now : Micros) (input : Input) : Decidable (input.Reports now) :=
  inferInstanceAs (Decidable (_ ∧ _))

/-- The input after a poll. -/
def polled (input : Input) : Input :=
  if input.emergencyReason = 0#16 then input else { input with emergencyPending := false }

theorem polled_sameConfig {input : Input} : SameConfig input.polled input := by
  unfold polled
  split <;> exact ⟨rfl, rfl, rfl, rfl, rfl⟩

@[simp] theorem polled_active {input : Input} : input.polled.active = input.active := by
  unfold polled
  split <;> rfl

@[simp]
theorem polled_activeSince {input : Input} : input.polled.activeSince = input.activeSince := by
  unfold polled
  split <;> rfl

/-- The four cases of the loop body. -/
theorem collect_cases (now : Micros) (input : Input) (acc : Reasons × Micros) :
    (¬ input.Reports now ∧ (input.emergencyReason = 0#16 ∨ input.active = false) ∧
        input.collect now acc = (input.polled, acc)) ∨
    (input.Reports now ∧ input.emergencyPending = true ∧
        input.collect now acc = (input.polled, acc.1 ||| input.emergencyReason, 0#32)) ∨
    (input.Reports now ∧ input.emergencyPending = false ∧
        input.collect now acc = (input.polled, acc.1 ||| input.emergencyReason, acc.2)) ∨
    (¬ input.Reports now ∧ input.activeDuration now < input.emergencyDelay ∧
        input.collect now acc = (input.polled, acc.1,
          if acc.2 < input.emergencyDelay - input.activeDuration now then acc.2
          else input.emergencyDelay - input.activeDuration now)) := by
  by_cases hr : input.emergencyReason = 0#16
  · exact .inl ⟨fun h => h.1 hr, .inl hr, by simp [collect, polled, hr]⟩
  by_cases hp : input.emergencyPending = true
  · exact .inr (.inl ⟨⟨hr, .inl hp⟩, hp, by
      simp [collect, polled, hr, hp, getAndClearPendingEmergency]⟩)
  have hpf : input.emergencyPending = false := by simpa using hp
  have hpoll : input.polled = input := by
    rw [polled, if_neg hr, ← hpf]
  by_cases ha : input.active = true
  · by_cases hd : input.emergencyDelay ≤ input.activeDuration now
    · exact .inr (.inr (.inl ⟨⟨hr, .inr ⟨ha, hd⟩⟩, hpf, by
        simp [collect, hr, hpf, ha, hpoll, getAndClearPendingEmergency, timeoutReached, hd]⟩))
    · exact .inr (.inr (.inr ⟨fun h => h.2.elim hp fun h => hd h.2, BitVec.not_le.mp hd, by
        simp [collect, hr, hpf, ha, hpoll, getAndClearPendingEmergency, timeoutReached, hd]⟩))
  · have haf : input.active = false := by simpa using ha
    exact .inl ⟨fun h => h.2.elim hp fun h => ha h.1, .inr haf, by
      simp [collect, hr, hpf, haf, hpoll, getAndClearPendingEmergency]⟩

end Input

/-- The loop of `GetEmergencyReasons`. -/
def collectReasons (now : Micros) :
    List Input → Reasons × Micros → List Input × Reasons × Micros
  | [], acc => ([], acc)
  | input :: rest, acc =>
    let r := input.collect now acc
    let q := collectReasons now rest r.2
    (r.1 :: q.1, q.2)

/-- `InputService::GetEmergencyReasons` on the inputs: the inputs afterwards, the reasons and
the block time. -/
def getEmergencyReasons (now : Micros) (inputs : List Input) : List Input × Reasons × Micros :=
  collectReasons now inputs (0#16, BitVec.allOnes 32)

private theorem collectReasons_inputs (now : Micros) (inputs : List Input)
    (acc : Reasons × Micros) :
    (collectReasons now inputs acc).1 = inputs.map Input.polled := by
  induction inputs generalizing acc with
  | nil => rfl
  | cons input rest ih =>
    have hc : (input.collect now acc).1 = input.polled := by
      obtain ⟨-, -, h⟩ | ⟨-, -, h⟩ | ⟨-, -, h⟩ | ⟨-, -, h⟩ := input.collect_cases now acc <;>
        rw [h]
    rw [collectReasons, List.map_cons, hc, ih]

/-- A poll clears every pending emergency and changes nothing else. -/
theorem getEmergencyReasons_inputs (now : Micros) (inputs : List Input) :
    (getEmergencyReasons now inputs).1 = inputs.map Input.polled :=
  collectReasons_inputs now inputs _

private theorem getLsbD_collectReasons_iff (now : Micros) (inputs : List Input)
    (acc : Reasons × Micros) (i : ℕ) :
    (collectReasons now inputs acc).2.1.getLsbD i = true ↔
      acc.1.getLsbD i = true ∨
        ∃ input ∈ inputs, input.Reports now ∧ input.emergencyReason.getLsbD i = true := by
  induction inputs generalizing acc with
  | nil => simp [collectReasons]
  | cons input rest ih =>
    rw [collectReasons, ih, List.exists_mem_cons_iff]
    obtain ⟨hr, -, h⟩ | ⟨hr, -, h⟩ | ⟨hr, -, h⟩ | ⟨hr, -, h⟩ := input.collect_cases now acc <;>
      simp [h, hr, or_assoc]

/-- **What a poll returns.** A bit is reported exactly when some reporting input has it. -/
theorem getLsbD_reasons_iff (now : Micros) (inputs : List Input) (i : ℕ) :
    (getEmergencyReasons now inputs).2.1.getLsbD i = true ↔
      ∃ input ∈ inputs, input.Reports now ∧ input.emergencyReason.getLsbD i = true := by
  rw [getEmergencyReasons, getLsbD_collectReasons_iff]
  simp

/-- The reasons of a reporting input are part of the result. -/
theorem covers_of_reports {now : Micros} {inputs : List Input} {input : Input}
    (hmem : input ∈ inputs) (h : input.Reports now) :
    Covers (getEmergencyReasons now inputs).2.1 input.emergencyReason :=
  fun i hi => (getLsbD_reasons_iff now inputs i).mpr ⟨input, hmem, h, hi⟩

private theorem collectReasons_blockTime_le (now : Micros) (inputs : List Input)
    (acc : Reasons × Micros) : (collectReasons now inputs acc).2.2 ≤ acc.2 := by
  induction inputs generalizing acc with
  | nil => exact BitVec.le_refl _
  | cons input rest ih =>
    refine BitVec.le_trans (ih _) ?_
    obtain ⟨-, -, h⟩ | ⟨-, -, h⟩ | ⟨-, -, h⟩ | ⟨-, -, h⟩ := input.collect_cases now acc
    · rw [h]
      exact BitVec.le_refl _
    · rw [h]
      exact BitVec.le_def.mpr (Nat.zero_le _)
    · rw [h]
      exact BitVec.le_refl _
    · rw [h]
      dsimp only
      split
      · exact BitVec.le_refl _
      · next hlt => exact BitVec.not_lt.mp hlt

private theorem collectReasons_blockTime_le_remaining {now : Micros} {inputs : List Input}
    (acc : Reasons × Micros) {input : Input} (hmem : input ∈ inputs)
    (hr : input.emergencyReason ≠ 0#16) (ha : input.active = true)
    (hd : input.activeDuration now < input.emergencyDelay) :
    (collectReasons now inputs acc).2.2 ≤ input.emergencyDelay - input.activeDuration now := by
  induction inputs generalizing acc with
  | nil => simp at hmem
  | cons head rest ih =>
    rcases List.mem_cons.mp hmem with rfl | hmem
    · refine BitVec.le_trans (collectReasons_blockTime_le now rest _) ?_
      obtain ⟨-, h | h, -⟩ | ⟨-, -, h⟩ | ⟨hR, hp, -⟩ | ⟨-, -, h⟩ := input.collect_cases now acc
      · exact absurd h hr
      · simp [ha] at h
      · rw [h]
        exact BitVec.le_def.mpr (Nat.zero_le _)
      · have hle := (hR.2.resolve_left (by simp [hp])).2
        exact absurd hd (BitVec.not_lt.mpr hle)
      · rw [h]
        dsimp only
        split
        · next hlt => exact BitVec.le_of_lt hlt
        · exact BitVec.le_refl _
    · exact ih _ hmem

/-- **The block time of a poll.** It is at most what is left of the delay of any active
input whose delay is still running. -/
theorem blockTime_le_remaining {now : Micros} {inputs : List Input} {input : Input}
    (hmem : input ∈ inputs) (hr : input.emergencyReason ≠ 0#16) (ha : input.active = true)
    (hd : input.activeDuration now < input.emergencyDelay) :
    (getEmergencyReasons now inputs).2.2 ≤ input.emergencyDelay - input.activeDuration now :=
  collectReasons_blockTime_le_remaining _ hmem hr ha hd

end OpenMower
