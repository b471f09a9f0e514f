import OpenMower.Emergency.System

/-!
# Who may clear which emergency bit

Six methods write the word of emergency reasons, each with its own masks. Over every
interleaving of their critical sections, `emergencyBits_owned` shows who owns the three
sticky bits: `SERVICE_NOT_READY` is cleared only by a `CheckRequiredServices` pass in which
all registered services are healthy, `LATCH` only by a high-level message that names it, and
`TIMEOUT_HIGH_LEVEL` only by `CheckTimeouts` or a high-level message that names it. No event
changes a bit outside its masks.

All four parts are read off `EmergencyState.step_reasons`: a bit is cleared only by an event
whose clear mask has it.
-/

namespace OpenMower

open WordMask

variable {ι : Type*} {E : EmergencyReason}

namespace EmergencyState

variable {s s' : EmergencyState ι} {e : EmergencyEvent ι}

/-- The step turns the bit of `r` from set to clear. -/
def Clears (E : EmergencyReason) (r : Reason) (s s' : EmergencyState ι) : Prop :=
  E.mem r s.service.reasons = true ∧ E.mem r s'.service.reasons = false

/-- A bit is cleared only by an event whose clear mask has it and whose add mask has not. -/
theorem Clears.mem_masks {r : Reason} (h : Clears E r s s') (hs : s.step E e = some s') :
    E.mem r (s.masks E e).2 = true ∧ E.mem r (s.masks E e).1 = false := by
  obtain ⟨hset, hclear⟩ := h
  rw [step_reasons hs] at hclear
  exact (clears_iff hset).mp hclear

/-- A change outside the masks of the event is impossible. -/
theorem mem_masks_of_changed (hs : s.step E e = some s') {i : ℕ}
    (h : s'.service.reasons.getLsbD i ≠ s.service.reasons.getLsbD i) :
    (s.masks E e).1.getLsbD i = true ∨ (s.masks E e).2.getLsbD i = true := by
  by_contra hno
  rw [not_or, Bool.not_eq_true, Bool.not_eq_true] at hno
  rw [step_reasons hs] at h
  exact h (getLsbD_rewrite_of_not hno.1 hno.2)

/-- The clear masks of the pending methods, reason by reason. -/
theorem mem_pendingMasks_snd {r : Reason} {p : Pending}
    (h : E.mem r (pendingMasks E p).2 = true) :
    (∃ newValue0 newValue1, p = .highLevel newValue0 newValue1 ∧ E.mem r newValue1 = true ∧
        r ≠ .serviceNotReady) ∨
      (∃ time reasons, p = .checkTimeouts time reasons ∧
        (r = .timeoutHighLevel ∨ r = .timeoutInputs)) ∨
      (∃ reasons, p = .checkInputs reasons ∧ E.mem r E.conditions = true) := by
  cases p with
  | idle => simp [pendingMasks] at h
  | checkInputs reasons => exact .inr (.inr ⟨reasons, rfl, h⟩)
  | highLevel newValue0 newValue1 =>
    simp only [pendingMasks, EmergencyService.mem_highLevelClear, Bool.and_eq_true,
      decide_eq_true_eq] at h
    exact .inl ⟨newValue0, newValue1, rfl, h.1, h.2⟩
  | checkTimeouts time reasons =>
    simp only [pendingMasks, EmergencyReason.mem_timeouts, decide_eq_true_eq, List.mem_cons,
      List.not_mem_nil, or_false] at h
    exact .inr (.inl ⟨time, reasons, rfl, h⟩)

/-- `SERVICE_NOT_READY` is cleared only when every entry of the service list is healthy. -/
theorem Clears.serviceNotReady (h : Clears E .serviceNotReady s s')
    (hs : s.step E e = some s') : ∃ isHealthy, e = .checkRequiredServices isHealthy ∧
      ∀ svc ∈ s.service.requiredServices, isHealthy svc = true := by
  obtain ⟨hclear, hadd⟩ := h.mem_masks hs
  cases e with
  | finish t =>
    obtain ⟨_, _, -, -, hne⟩ | ⟨_, _, -, hr⟩ | ⟨_, -, hr⟩ := mem_pendingMasks_snd hclear
    · exact absurd rfl hne
    · simp at hr
    · simp at hr
  | checkRequiredServices isHealthy =>
    refine ⟨isHealthy, rfl, ?_⟩
    rw [← List.all_eq_true]
    by_contra hall
    rw [Bool.not_eq_true] at hall
    simp only [masks, hall] at hclear hadd
    split at hclear <;> simp_all
  | _ => simp [masks] at hclear

/-- `LATCH` is cleared only by a high-level message that names it. -/
theorem Clears.latch (h : Clears E .latch s s') (hs : s.step E e = some s') :
    ∃ t newValue0 newValue1, e = .finish t ∧ s.pending t = .highLevel newValue0 newValue1 ∧
      E.mem .latch newValue1 = true := by
  obtain ⟨hclear, -⟩ := h.mem_masks hs
  cases e with
  | finish t =>
    obtain ⟨v0, v1, hp, hv, -⟩ | ⟨_, _, -, hr⟩ | ⟨_, -, hr⟩ := mem_pendingMasks_snd hclear
    · exact ⟨t, v0, v1, rfl, hp, hv⟩
    · simp at hr
    · simp at hr
  | checkRequiredServices isHealthy =>
    simp only [masks] at hclear
    split at hclear <;> simp at hclear
  | _ => simp [masks] at hclear

/-- `TIMEOUT_HIGH_LEVEL` is cleared only by `CheckTimeouts` or by a message that names it. -/
theorem Clears.timeoutHighLevel (h : Clears E .timeoutHighLevel s s')
    (hs : s.step E e = some s') :
    ∃ t, e = .finish t ∧ ((∃ time reasons, s.pending t = .checkTimeouts time reasons) ∨
      ∃ newValue0 newValue1, s.pending t = .highLevel newValue0 newValue1 ∧
        E.mem .timeoutHighLevel newValue1 = true) := by
  obtain ⟨hclear, -⟩ := h.mem_masks hs
  cases e with
  | finish t =>
    obtain ⟨v0, v1, hp, hv, -⟩ | ⟨time, reasons, hp, -⟩ | ⟨_, -, hr⟩ :=
      mem_pendingMasks_snd hclear
    · exact ⟨t, rfl, .inr ⟨v0, v1, hp, hv⟩⟩
    · exact ⟨t, rfl, .inl ⟨time, reasons, hp⟩⟩
    · simp at hr
  | checkRequiredServices isHealthy =>
    simp only [masks] at hclear
    split at hclear <;> simp at hclear
  | _ => simp [masks] at hclear

/-! ### The registered services -/

/-- The service an event registers. -/
def registers : EmergencyEvent ι → List ι
  | .requireService svc => [svc]
  | _ => []

/-- The service list only grows, by the service an event registers. -/
theorem step_requiredServices (hs : s.step E e = some s') :
    s'.service.requiredServices = s.service.requiredServices ++ registers e := by
  cases e with
  | requireService svc =>
    simp only [step, Option.ite_none_right_eq_some, Option.map_eq_some_iff,
      EmergencyService.requireService, Option.some.injEq] at hs
    obtain ⟨-, service, ⟨-, rfl⟩, rfl⟩ := hs
    rfl
  | finish t =>
    simp only [step, Option.ite_none_left_eq_some, Option.some.injEq] at hs
    obtain ⟨-, rfl⟩ := hs
    simp [applyPending_eq, registers]
  | checkRequiredServices isHealthy =>
    simp only [step, Option.ite_none_right_eq_some, Option.some.injEq] at hs
    obtain ⟨-, rfl⟩ := hs
    simp only [EmergencyService.checkRequiredServices, registers, List.append_nil]
    split <;> rfl
  | _ =>
    simp only [step, Option.ite_none_right_eq_some, Option.some.injEq] at hs
    obtain ⟨-, rfl⟩ := hs
    exact (List.append_nil _).symm

/-- What a run registers ends up in the service list. -/
theorem mem_requiredServices_of_run {es : List (EmergencyEvent ι)}
    (hr : (emergencySystem E ι).run s es = some s') {svc : ι}
    (h : svc ∈ s.service.requiredServices ∨ .requireService svc ∈ es) :
    svc ∈ s'.service.requiredServices := by
  induction es generalizing s with
  | nil =>
    obtain rfl : s = s' := by simpa using hr
    simpa using h
  | cons e es ih =>
    rw [StateMachine.run_cons, Option.bind_eq_some_iff] at hr
    obtain ⟨s₁, hs, hr⟩ := hr
    refine ih hr ?_
    rw [step_requiredServices hs, List.mem_append]
    rcases h with h | h
    · exact .inl (.inl h)
    · rcases List.mem_cons.mp h with rfl | h
      · exact .inl (.inr (by simp [registers]))
      · exact .inr h

end EmergencyState

open EmergencyState

/-- **Ownership of the emergency bits.** After any run, the next step clears
`SERVICE_NOT_READY` only in a `CheckRequiredServices` pass in which every service registered
during the run answers healthy, clears `LATCH` only at the end of a high-level message whose
second word has the bit, clears `TIMEOUT_HIGH_LEVEL` only at the end of a `CheckTimeouts` or
of a message naming it, and changes no bit outside its two masks. -/
theorem emergencyBits_owned {s₀ s s' : EmergencyState ι} {es : List (EmergencyEvent ι)}
    {e : EmergencyEvent ι} (hr : (emergencySystem E ι).run s₀ es = some s)
    (hs : (emergencySystem E ι).step s e = some s') :
    (Clears E .serviceNotReady s s' → ∃ isHealthy, e = .checkRequiredServices isHealthy ∧
        ∀ svc, .requireService svc ∈ es → isHealthy svc = true) ∧
      (Clears E .latch s s' → ∃ t newValue0 newValue1, e = .finish t ∧
        s.pending t = .highLevel newValue0 newValue1 ∧ E.mem .latch newValue1 = true) ∧
      (Clears E .timeoutHighLevel s s' → ∃ t, e = .finish t ∧
        ((∃ time reasons, s.pending t = .checkTimeouts time reasons) ∨
          ∃ newValue0 newValue1, s.pending t = .highLevel newValue0 newValue1 ∧
            E.mem .timeoutHighLevel newValue1 = true)) ∧
      ∀ i, s'.service.reasons.getLsbD i ≠ s.service.reasons.getLsbD i →
        (s.masks E e).1.getLsbD i = true ∨ (s.masks E e).2.getLsbD i = true := by
  refine ⟨fun h => ?_, fun h => h.latch hs, fun h => h.timeoutHighLevel hs,
    fun i => mem_masks_of_changed hs⟩
  obtain ⟨isHealthy, he, hall⟩ := h.serviceNotReady hs
  exact ⟨isHealthy, he, fun svc hsvc => hall svc (mem_requiredServices_of_run hr (.inr hsvc))⟩

/-- Two services are registered and then found healthy. -/
theorem emergencyBits_owned_two_services :
    ∃ s s', (emergencySystem .standard ℕ).run (.initial .standard [])
        [.requireService 0, .requireService 1] = some s ∧
      (emergencySystem .standard ℕ).step s (.checkRequiredServices fun _ => true) = some s' ∧
      (Clears .standard .serviceNotReady s s' → ∃ isHealthy : ℕ → Bool,
        EmergencyEvent.checkRequiredServices (fun _ => true) = .checkRequiredServices isHealthy ∧
          ∀ svc, EmergencyEvent.requireService svc ∈
            [EmergencyEvent.requireService 0, .requireService 1] → isHealthy svc = true) :=
  ⟨_, _, rfl, rfl, (@emergencyBits_owned ℕ .standard (.initial .standard []) _ _
    [.requireService 0, .requireService 1] _ rfl rfl).1⟩

end OpenMower
