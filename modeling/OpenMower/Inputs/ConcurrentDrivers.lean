import OpenMower.Inputs.CollisionCounting

/-!
# Drivers on several threads

Two drivers with threads of their own may be inside `Input::Update` at the same time. The machine
of this file interleaves the atomic steps of any number of threads: the compare-exchange of an
input, the change of a counter, the read of the counter that follows (for collision sensors
both are one operation), and the compare-exchange of the virtual input. Lift sensors of
redundancy groups are left out. `Threads.leads_update` shows that a call without interruption
is `InputService.update`.

A thread may set a virtual input by a counter that has changed since it was read. When nobody
else is about to set the virtual input, it stays wrong. `concurrent_multiple_exact` shows that
without such a step the virtual inputs agree with the counters whenever all calls have
returned.
-/

namespace OpenMower

/-- Where a thread is in a call of `Update`, for the input at a position and the new state of
the input. What was read from a counter is kept until the virtual input is set. -/
inductive UpdateStage
  | idle
  | exchanged (i : ℕ) (active : Bool)
  | entered (i : ℕ) (active : Bool)
  | liftCounted (i : ℕ) (active : Bool)
  | liftRead (i : ℕ) (active : Bool) (num : BitVec 8)
  | liftDone (i : ℕ) (active : Bool)
  | collisionCounted (num : BitVec 8)
  deriving DecidableEq, Repr

namespace UpdateStage

/-- Between the change of the lift counter and the update of the virtual lift input. -/
def InLift : UpdateStage → Bool
  | .liftCounted _ _ => true
  | .liftRead _ _ _ => true
  | _ => false

/-- Between the change of the collision counter and the update of the virtual collision input. -/
def InCollision : UpdateStage → Bool
  | .collisionCounted _ => true
  | _ => false

end UpdateStage

/-- The service and the threads of the drivers. -/
structure Threads (τ : Type*) where
  service : InputService
  stage : τ → UpdateStage

/-- The atomic steps of a thread. -/
inductive ThreadStep (τ : Type*)
  | exchange (t : τ) (i : ℕ) (newActive : Bool)
  | recordEdge (t : τ) (now : Micros)
  | advance (t : τ) (time : Micros)

namespace Threads

variable {τ : Type*} [DecidableEq τ] (E : EmergencyReason) (s : Threads τ)

/-- The emergency reasons of an input. -/
def reasonsAt (i : ℕ) : Reasons :=
  match s.service.allInputs[i]? with
  | some input => input.emergencyReason
  | none => 0#16

/-- A thread goes on to its next stage, with the service as it has left it. -/
def goTo (t : τ) (service : InputService) (stage : UpdateStage) : Threads τ where
  service := service
  stage := Function.update s.stage t stage

/-- The next atomic step of a call that is in `OnInputChanged`. -/
def advance (t : τ) (time : Micros) : Option (Threads τ) :=
  match s.stage t with
  | .entered i active =>
    if E.mem .lift (s.reasonsAt i) then
      some (s.goTo t (s.service.countLift 0#8 active) (.liftCounted i active))
    else some (s.goTo t s.service (.liftDone i active))
  | .liftCounted i active => some (s.goTo t s.service (.liftRead i active s.service.numActiveLift))
  | .liftRead i active num =>
    some (s.goTo t
      (s.service.updateVirtual s.service.liftMultipleInput (decide (2#8 ≤ num)) time)
      (.liftDone i active))
  | .liftDone i active =>
    if E.mem .collision (s.reasonsAt i) then
      some (s.goTo t (s.service.countCollision active)
        (.collisionCounted (s.service.countCollision active).numActiveCollision))
    else some (s.goTo t s.service .idle)
  | .collisionCounted num =>
    some (s.goTo t
      (s.service.updateVirtual s.service.collisionMultipleInput (decide (2#8 ≤ num)) time) .idle)
  | _ => none

/-- One atomic step. -/
def step : ThreadStep τ → Option (Threads τ)
  | .exchange t i newActive =>
    if s.stage t = .idle then
      s.service.allInputs[i]?.bind fun input =>
        if input.idx = Input.virtualIdx then none
        else if E.mem .lift input.emergencyReason ∧ input.redundancyGroup ≠ 0#8 then none
        else
          match input.exchangeActive (input.applyInvert newActive) with
          | none => some s
          | some input' =>
            some (s.goTo t { s.service with allInputs := s.service.allInputs.set i input' }
              (.exchanged i (input.applyInvert newActive)))
    else none
  | .recordEdge t now =>
    match s.stage t with
    | .exchanged i active =>
      some (s.goTo t
        { s.service with allInputs := s.service.allInputs.modify i (·.recordEdge active now) }
        (.entered i active))
    | _ => none
  | .advance t time => s.advance E t time

/-- The virtual inputs agree with the counters once all calls have returned. -/
def MultipleExact : Prop :=
  (∀ t, s.stage t = .idle) → LiftMultipleExact s.service ∧ CollisionMultipleExact s.service

/-- When a thread sets a virtual input and no other one is about to set it, the counter is on
the same side of 2 as when the thread read it. -/
def LastReadCurrent (s : Threads τ) (e : ThreadStep τ) (_ : Threads τ) : Prop :=
  ∀ t time, e = .advance t time →
    (∀ i active num, s.stage t = .liftRead i active num →
      (∀ t', t' ≠ t → (s.stage t').InLift = false) →
        (2#8 ≤ num ↔ 2#8 ≤ s.service.numActiveLift)) ∧
    (∀ num, s.stage t = .collisionCounted num →
      (∀ t', t' ≠ t → (s.stage t').InCollision = false) →
        (2#8 ≤ num ↔ 2#8 ≤ s.service.numActiveCollision))

/-- The invariant: a virtual input that no thread is about to set is right. -/
structure RaceInv (E : EmergencyReason) (s : Threads τ) : Prop where
  configured : Configured E s.service
  lift : (∀ t, (s.stage t).InLift = false) → LiftMultipleExact s.service
  collision : (∀ t, (s.stage t).InCollision = false) → CollisionMultipleExact s.service

variable {E} {s} {t : τ} {service : InputService} {stage : UpdateStage}

@[simp] theorem goTo_service : (s.goTo t service stage).service = service := rfl

@[simp]
theorem goTo_stage : (s.goTo t service stage).stage = Function.update s.stage t stage := rfl

end Threads

namespace Threads

variable {τ : Type*} [DecidableEq τ] {E : EmergencyReason} {s s' : Threads τ} {t : τ}
  {service : InputService} {stage : UpdateStage}

/-- A step of one thread: when the others are not about to set a virtual input, and this thread
is not any more, the virtual input has to be right. -/
theorem RaceInv.goTo (hconfigured : Configured E service)
    (hlift : stage.InLift = false → (∀ t', t' ≠ t → (s.stage t').InLift = false) →
      LiftMultipleExact service)
    (hcollision : stage.InCollision = false →
      (∀ t', t' ≠ t → (s.stage t').InCollision = false) → CollisionMultipleExact service) :
    RaceInv E (s.goTo t service stage) := by
  have hothers : ∀ p : UpdateStage → Bool,
      (∀ t', p ((s.goTo t service stage).stage t') = false) →
        p stage = false ∧ ∀ t', t' ≠ t → p (s.stage t') = false := by
    intro p h
    refine ⟨by simpa using h t, fun t' hne => ?_⟩
    simpa [Function.update_of_ne hne] using h t'
  constructor
  · exact hconfigured
  · intro h
    obtain ⟨hthis, hrest⟩ := hothers UpdateStage.InLift h
    exact hlift hthis hrest
  · intro h
    obtain ⟨hthis, hrest⟩ := hothers UpdateStage.InCollision h
    exact hcollision hthis hrest

/-- With this thread and the others not about to set the virtual lift input, it is right. -/
theorem RaceInv.lift_of (h : RaceInv E s) (hthis : (s.stage t).InLift = false)
    (hothers : ∀ t', t' ≠ t → (s.stage t').InLift = false) : LiftMultipleExact s.service := by
  refine h.lift fun t' => ?_
  by_cases heq : t' = t
  · rw [heq, hthis]
  · exact hothers t' heq

theorem RaceInv.collision_of (h : RaceInv E s) (hthis : (s.stage t).InCollision = false)
    (hothers : ∀ t', t' ≠ t → (s.stage t').InCollision = false) :
    CollisionMultipleExact s.service := by
  refine h.collision fun t' => ?_
  by_cases heq : t' = t
  · rw [heq, hthis]
  · exact hothers t' heq

/-- A step that concerns neither the counters nor the flags of the virtual inputs. -/
theorem RaceInv.keep (h : RaceInv E s) (hconfigured : Configured E service)
    (hthis : (s.stage t).InLift = false ∧ (s.stage t).InCollision = false)
    (hlift : service.numActiveLift = s.service.numActiveLift)
    (hcollision : service.numActiveCollision = s.service.numActiveCollision)
    (hactive : ∀ k, k < 2 → service.allInputs[k]?.map Input.active =
      s.service.allInputs[k]?.map Input.active) :
    RaceInv E (s.goTo t service stage) := by
  refine RaceInv.goTo hconfigured (fun _ hothers => ?_) fun _ hothers => ?_
  · refine (h.lift_of hthis.1 hothers).of_eq ?_ hlift ?_
    · rw [hconfigured.liftMultipleInput, h.configured.liftMultipleInput]
    · rw [h.configured.liftMultipleInput]
      exact hactive 0 (by omega)
  · refine (h.collision_of hthis.2 hothers).of_eq ?_ hcollision ?_
    · rw [hconfigured.collisionMultipleInput, h.configured.collisionMultipleInput]
    · rw [h.configured.collisionMultipleInput]
      exact hactive 1 (by omega)

theorem RaceInv.exchange (h : RaceInv E s) {i : ℕ} {newActive : Bool}
    (hs : s.step E (.exchange t i newActive) = some s') : RaceInv E s' := by
  simp only [step, Option.ite_none_right_eq_some, Option.bind_eq_some_iff,
    Option.ite_none_left_eq_some] at hs
  obtain ⟨hidle, input, hi, hreal, -, hs⟩ := hs
  split at hs
  · obtain rfl := Option.some.inj hs
    exact h
  · next input' hexchange =>
    obtain rfl := Option.some.inj hs
    obtain ⟨-, rfl⟩ := Input.exchangeActive_eq_some.mp hexchange
    have h2 : 2 ≤ i := h.configured.two_le hi hreal
    refine h.keep (h.configured.set hi ⟨rfl, rfl, rfl, rfl, rfl⟩) ?_ rfl rfl fun k hk => ?_
    · simp [hidle, UpdateStage.InLift, UpdateStage.InCollision]
    · exact congrArg _ (List.getElem?_set_ne (by omega))

/-- The record of an edge keeps configurations and flags. -/
theorem RaceInv.recordEdge (h : RaceInv E s) {now : Micros}
    (hs : s.step E (.recordEdge t now) = some s') : RaceInv E s' := by
  simp only [step] at hs
  split at hs
  · next i active hstage =>
    obtain rfl := Option.some.inj hs
    have hkeep : KeepsConfig s.service.allInputs
        (s.service.allInputs.modify i (·.recordEdge active now)) := by
      refine ⟨List.length_modify .., fun j b hb => ?_⟩
      rw [List.getElem?_modify, Option.map_eq_map, Option.map_eq_some_iff] at hb
      obtain ⟨a, ha, rfl⟩ := hb
      refine ⟨a, ha, ?_⟩
      split
      · exact Input.recordEdge_sameConfig
      · exact .refl a
    refine h.keep (h.configured.of_keepsConfig hkeep rfl rfl) ?_ rfl rfl fun k _ => ?_
    · simp [hstage, UpdateStage.InLift, UpdateStage.InCollision]
    · rw [List.getElem?_modify, Option.map_eq_map, Option.map_map]
      congr 1
      funext a
      by_cases heq : i = k
      · simp [heq]
      · simp [heq]
  · exact absurd hs (by simp)

/-- **The steps inside `OnInputChanged`.** -/
theorem RaceInv.advance (h : RaceInv E s) {time : Micros}
    (hs : s.step E (.advance t time) = some s')
    (hcurrent : LastReadCurrent s (.advance t time) s') : RaceInv E s' := by
  obtain ⟨hlift, hcollision⟩ := hcurrent t time rfl
  have hconfigured := h.configured
  simp only [step, Threads.advance] at hs
  split at hs
  · next i active hstage =>
    have hnot : (s.stage t).InLift = false ∧ (s.stage t).InCollision = false := by
      simp [hstage, UpdateStage.InLift, UpdateStage.InCollision]
    split at hs
    · obtain rfl := Option.some.inj hs
      refine RaceInv.goTo ?_ (fun hstill => ?_) fun _ hothers => ?_
      · exact ⟨hconfigured.1, hconfigured.2, hconfigured.3, hconfigured.4, hconfigured.5⟩
      · simp [UpdateStage.InLift] at hstill
      · exact (h.collision_of hnot.2 hothers).of_eq rfl rfl rfl
    · obtain rfl := Option.some.inj hs
      exact h.keep hconfigured hnot rfl rfl fun _ _ => rfl
  · next i active hstage =>
    obtain rfl := Option.some.inj hs
    refine RaceInv.goTo hconfigured (fun hstill => ?_) fun _ hothers => ?_
    · simp [UpdateStage.InLift] at hstill
    · exact h.collision_of (by simp [hstage, UpdateStage.InCollision]) hothers
  · next i active num hstage =>
    obtain rfl := Option.some.inj hs
    have hset := updateVirtual_setsVirtual hconfigured (by omega : 0 < 2)
      (decide (2#8 ≤ num)) time
    have hexact := @liftMultipleExact_updateVirtual E _ hconfigured num time
    rw [hconfigured.liftMultipleInput] at hexact ⊢
    refine RaceInv.goTo (hset.configured hconfigured) (fun _ hothers => ?_) fun _ hothers => ?_
    · exact hexact (hlift i active num hstage hothers)
    · have hold := h.collision_of (show (s.stage t).InCollision = false by rw [hstage]; rfl) hothers
      refine hold.of_eq rfl rfl (congrArg _ (hset.getElem? ?_))
      rw [hconfigured.collisionMultipleInput]
      omega
  · next i active hstage =>
    have hnot : (s.stage t).InLift = false ∧ (s.stage t).InCollision = false := by
      simp [hstage, UpdateStage.InLift, UpdateStage.InCollision]
    split at hs
    · obtain rfl := Option.some.inj hs
      refine RaceInv.goTo ?_ (fun _ hothers => ?_) fun hstill => ?_
      · exact ⟨hconfigured.1, hconfigured.2, hconfigured.3, hconfigured.4, hconfigured.5⟩
      · exact (h.lift_of hnot.1 hothers).of_eq rfl rfl rfl
      · simp [UpdateStage.InCollision] at hstill
    · obtain rfl := Option.some.inj hs
      exact h.keep hconfigured hnot rfl rfl fun _ _ => rfl
  · next num hstage =>
    obtain rfl := Option.some.inj hs
    have hset := updateVirtual_setsVirtual hconfigured (by omega : 1 < 2)
      (decide (2#8 ≤ num)) time
    have hexact := @collisionMultipleExact_updateVirtual E _ hconfigured num time
    rw [hconfigured.collisionMultipleInput] at hexact ⊢
    refine RaceInv.goTo (hset.configured hconfigured) (fun _ hothers => ?_) fun _ hothers => ?_
    · have hold := h.lift_of (show (s.stage t).InLift = false by rw [hstage]; rfl) hothers
      refine hold.of_eq rfl rfl (congrArg _ (hset.getElem? ?_))
      rw [hconfigured.liftMultipleInput]
      omega
    · exact hexact (hcollision num hstage hothers)
  · exact absurd hs (by simp)

/-- **One step with a current read keeps the invariant.** -/
theorem RaceInv.step (h : RaceInv E s) {e : ThreadStep τ} (hs : s.step E e = some s')
    (hcurrent : LastReadCurrent s e s') : RaceInv E s' := by
  cases e with
  | exchange t i newActive => exact h.exchange hs
  | recordEdge t now => exact h.recordEdge hs
  | advance t time => exact h.advance hs hcurrent

omit [DecidableEq τ] in
/-- When all calls have returned nobody is about to set a virtual input. -/
theorem RaceInv.multipleExact (h : RaceInv E s) : s.MultipleExact := by
  intro hidle
  constructor
  · exact h.lift fun t => by rw [hidle t]; rfl
  · exact h.collision fun t => by rw [hidle t]; rfl

end Threads

open Threads

/-- The threads of the drivers, from any state of a configured service in which no call is in
progress and the virtual inputs agree with the counters. -/
def driverSystem (τ : Type*) [DecidableEq τ] (E : EmergencyReason) :
    StateMachine (Threads τ) (ThreadStep τ) where
  Init s := Configured E s.service ∧ LiftMultipleExact s.service ∧
    CollisionMultipleExact s.service ∧ ∀ t, s.stage t = .idle
  step s e := s.step E e

/-- **Virtual inputs under concurrency.** In every interleaving of the atomic steps of any
number of threads in which no thread is the last to set a virtual input by a counter that has
crossed 2 since it was read, the virtual inputs agree with the counters whenever all calls have
returned. -/
theorem concurrent_multiple_exact {τ : Type*} [DecidableEq τ] {E : EmergencyReason}
    {s s' : Threads τ} (h : (driverSystem τ E).Init s) {es : List (ThreadStep τ)}
    (hr : (driverSystem τ E).run s es = some s')
    (hcurrent : (driverSystem τ E).EveryStep LastReadCurrent s es) : s'.MultipleExact := by
  obtain ⟨hconfigured, hlift, hcollision, -⟩ := h
  have hinit : RaceInv E s := ⟨hconfigured, fun _ => hlift, fun _ => hcollision⟩
  have hinv : RaceInv E s' :=
    hcurrent.invariant hr hinit fun s e s' hI hs hstep => hI.step hs hstep
  exact hinv.multipleExact

/-! ### Calls without interruption -/

namespace Threads

variable {τ : Type*} [DecidableEq τ] {E : EmergencyReason} {s : Threads τ} {t : τ} {i : ℕ}
  {b : Input} {active : Bool}

@[simp]
theorem goTo_goTo {service service' : InputService} {stage stage' : UpdateStage} :
    (s.goTo t service stage).goTo t service' stage' = s.goTo t service' stage' := by
  simp [Threads.goTo]

omit [DecidableEq τ] in
theorem reasonsAt_eq (hb : s.service.allInputs[i]? = some b) :
    s.reasonsAt i = b.emergencyReason := by
  rw [reasonsAt, hb]

/-- The lift part of `OnInputChanged`. -/
theorem leads_liftChanged (hstage : s.stage t = .entered i active)
    (hb : s.service.allInputs[i]? = some b)
    (hgroup : E.mem .lift b.emergencyReason = true → b.redundancyGroup = 0#8) (time : Micros) :
    (driverSystem τ E).Leads s
      (s.goTo t (s.service.liftChanged E b active time) (.liftDone i active)) := by
  rw [InputService.liftChanged]
  cases hlift : E.mem .lift b.emergencyReason with
  | false =>
    have hskip : (driverSystem τ E).step s (.advance t time) =
        some (s.goTo t s.service (.liftDone i active)) := by
      simp [driverSystem, step, advance, hstage, reasonsAt_eq hb, hlift]
    exact .of_step hskip
  | true =>
    rw [hgroup hlift]
    have hcount : (driverSystem τ E).step s (.advance t time) =
        some (s.goTo t (s.service.countLift 0#8 active) (.liftCounted i active)) := by
      simp [driverSystem, step, advance, hstage, reasonsAt_eq hb, hlift]
    generalize s.service.countLift 0#8 active = counted at hcount ⊢
    have hread : (driverSystem τ E).step (s.goTo t counted (.liftCounted i active))
        (.advance t time) =
          some (s.goTo t counted (.liftRead i active counted.numActiveLift)) := by
      simp [driverSystem, step, advance]
    have hset : (driverSystem τ E).step
        (s.goTo t counted (.liftRead i active counted.numActiveLift)) (.advance t time) =
          some (s.goTo t (counted.updateVirtual counted.liftMultipleInput
            (decide (2#8 ≤ counted.numActiveLift)) time) (.liftDone i active)) := by
      simp [driverSystem, step, advance]
    exact ((StateMachine.Leads.of_step hcount).trans (.of_step hread)).trans (.of_step hset)

/-- The collision part of `OnInputChanged`. -/
theorem leads_collisionChanged (hstage : s.stage t = .liftDone i active)
    (hreasons : s.reasonsAt i = b.emergencyReason) (time : Micros) :
    (driverSystem τ E).Leads s
      (s.goTo t (s.service.collisionChanged E b active time) .idle) := by
  rw [InputService.collisionChanged]
  cases hcollision : E.mem .collision b.emergencyReason with
  | false =>
    have hskip : (driverSystem τ E).step s (.advance t time) = some (s.goTo t s.service .idle) := by
      simp [driverSystem, step, advance, hstage, hreasons, hcollision]
    exact .of_step hskip
  | true =>
    have hcount : (driverSystem τ E).step s (.advance t time) =
        some (s.goTo t (s.service.countCollision active)
          (.collisionCounted (s.service.countCollision active).numActiveCollision)) := by
      simp [driverSystem, step, advance, hstage, hreasons, hcollision]
    generalize s.service.countCollision active = counted at hcount ⊢
    have hset : (driverSystem τ E).step
        (s.goTo t counted (.collisionCounted counted.numActiveCollision)) (.advance t time) =
          some (s.goTo t (counted.updateVirtual counted.collisionMultipleInput
            (decide (2#8 ≤ counted.numActiveCollision)) time) .idle) := by
      simp [driverSystem, step, advance]
    exact (StateMachine.Leads.of_step hcount).trans (.of_step hset)

/-- **Calls without interruption.** An update of a sensor, all of whose steps one thread makes
while the others wait, is `InputService.update`. -/
theorem leads_update (hidle : s.stage t = .idle) (h : Configured E s.service) {a : Input}
    (hi : s.service.allInputs[i]? = some a) (hreal : a.idx ≠ Input.virtualIdx)
    (hgroup : E.mem .lift a.emergencyReason = true → a.redundancyGroup = 0#8) (newActive : Bool)
    (time predate : Micros) :
    (driverSystem τ E).Leads s
      (s.goTo t (s.service.update E i newActive time predate) .idle) := by
  have hallowed : ¬ (E.mem .lift a.emergencyReason ∧ a.redundancyGroup ≠ 0#8) :=
    fun hnot => hnot.2 (hgroup hnot.1)
  have h2 : 2 ≤ i := h.two_le hi hreal
  have hlt : i < s.service.allInputs.length := (List.getElem?_eq_some_iff.mp hi).1
  simp only [InputService.update, hi, Input.update]
  cases hexchange : a.exchangeActive (a.applyInvert newActive) with
  | none =>
    refine ⟨[], congrArg some ?_⟩
    rw [Option.map_none, Threads.goTo, ← hidle, Function.update_eq_self]
  | some a' =>
    obtain ⟨-, ha'⟩ := Input.exchangeActive_eq_some.mp hexchange
    obtain ⟨b, hb⟩ : ∃ b, a'.recordEdge (a.applyInvert newActive) (time - predate) = b := ⟨_, rfl⟩
    have hconf : Input.SameConfig b a := by
      rw [← hb]
      exact Input.recordEdge_sameConfig.trans (ha' ▸ ⟨rfl, rfl, rfl, rfl, rfl⟩)
    have hidx : b.idx ≠ Input.virtualIdx := hconf.1 ▸ hreal
    have hb' : (s.service.allInputs.set i b)[i]? = some b := List.getElem?_set_self hlt
    simp only [Option.map_some, hb, InputService.onInputChanged, if_neg hidx]
    have hstep : (driverSystem τ E).step s (.exchange t i newActive) =
        some (s.goTo t { s.service with allInputs := s.service.allInputs.set i a' }
          (.exchanged i (a.applyInvert newActive))) := by
      simp [driverSystem, step, hidle, hi, hreal, hallowed, hexchange]
    have hrecord : (driverSystem τ E).step
        (s.goTo t { s.service with allInputs := s.service.allInputs.set i a' }
          (.exchanged i (a.applyInvert newActive))) (.recordEdge t (time - predate)) =
        some (s.goTo t { s.service with allInputs := s.service.allInputs.set i b }
          (.entered i (a.applyInvert newActive))) := by
      have hset : (s.service.allInputs.set i a').modify i
          (·.recordEdge (a.applyInvert newActive) (time - predate)) =
            s.service.allInputs.set i b := by
        rw [modify_eq_set (List.getElem?_set_self hlt), List.set_set, hb]
      simp [driverSystem, step, hset]
    refine ((StateMachine.Leads.of_step hstep).trans (.of_step hrecord)).trans ?_
    have hset := h.set hi hconf
    have hlift := liftChanged_setsVirtual hset b (a.applyInvert newActive) time
    have hfirst := @leads_liftChanged τ _ E
      (s.goTo t { s.service with allInputs := s.service.allInputs.set i b }
        (.entered i (a.applyInvert newActive))) t i b (a.applyInvert newActive)
      (by simp) hb' (fun hmem => hconf.2.2.1.trans (hgroup (hconf.2.2.2.1 ▸ hmem))) time
    rw [goTo_goTo] at hfirst
    refine hfirst.trans ?_
    have hreasons : (s.goTo t ({ s.service with
        allInputs := s.service.allInputs.set i b }.liftChanged E b (a.applyInvert newActive) time)
          (.liftDone i (a.applyInvert newActive))).reasonsAt i = b.emergencyReason := by
      refine reasonsAt_eq ?_
      rw [goTo_service, hlift.getElem? (by omega)]
      exact hb'
    have hsecond := @leads_collisionChanged τ _ E _ t i b (a.applyInvert newActive)
      (by simp) hreasons time
    rwa [goTo_goTo] at hsecond

end Threads

/-! ### An example run -/

/-- Three lift sensors without groups, and two threads that are idle. -/
def threeLiftSensors : Threads Bool where
  service := { (InputConfig.start gpioEnv).service with
    allInputs := (InputConfig.start gpioEnv).service.allInputs ++
      [{ idx := 0#8, emergencyReason := EmergencyReason.standard.mask .lift },
        { idx := 1#8, emergencyReason := EmergencyReason.standard.mask .lift },
        { idx := 2#8, emergencyReason := EmergencyReason.standard.mask .lift }] }
  stage := fun _ => .idle

/-- A complete call of a thread, for a lift sensor. -/
def liftCall (t : Bool) (i : ℕ) (newActive : Bool) : List (ThreadStep Bool) :=
  [.exchange t i newActive, .recordEdge t 0#32, .advance t 0#32, .advance t 0#32,
    .advance t 0#32, .advance t 0#32]

/-- Two sensors have become active. One becomes inactive, and its thread reads 1; before it goes
on, the other thread processes a third sensor that becomes active. -/
def thirdSensorRun : List (ThreadStep Bool) :=
  liftCall false 2 true ++ liftCall false 3 true ++
    [.exchange false 2 false, .recordEdge false 0#32, .advance false 0#32, .advance false 0#32] ++
    liftCall true 4 true ++ [.advance false 0#32, .advance false 0#32]

theorem threeLiftSensors_init : (driverSystem Bool .standard).Init threeLiftSensors := by
  refine ⟨⟨rfl, rfl, fun i hi => ?_, fun i input hi hin => ?_, by decide⟩, ⟨_, rfl, by decide⟩,
    ⟨_, rfl, by decide⟩, fun _ => rfl⟩
  · have hstart : Configured gpioEnv.reason (InputConfig.start gpioEnv).service :=
      InputConfig.ConfigInv.of_start.configured
    obtain ⟨input, hin, hvirtual⟩ := hstart.virtual i hi
    refine ⟨input, ?_, hvirtual⟩
    exact (List.getElem?_append_left (List.getElem?_eq_some_iff.mp hin).1).trans hin
  · have hlt : i < 5 := (List.getElem?_eq_some_iff.mp hin).1
    obtain rfl | rfl | rfl : i = 2 ∨ i = 3 ∨ i = 4 := by omega
    all_goals
      obtain rfl := Option.some.inj hin
      decide

/-- In the end two sensors are active, and the virtual lift input is not. -/
theorem concurrent_multiple_not_exact :
    ∃ s, (driverSystem Bool .standard).Init threeLiftSensors ∧
      (driverSystem Bool .standard).run threeLiftSensors thirdSensorRun = some s ∧
        ¬ s.MultipleExact := by
  have hvalues : ((driverSystem Bool .standard).run threeLiftSensors thirdSensorRun).map (fun s =>
      (s.stage false, s.stage true, s.service.numActiveLift,
        s.service.allInputs[s.service.liftMultipleInput]?.map (·.active))) =
          some (.idle, .idle, 2#8, some false) := by decide +kernel
  obtain ⟨s, hrun, hs⟩ := Option.map_eq_some_iff.mp hvalues
  simp only [Prod.mk.injEq] at hs
  obtain ⟨hfalse, htrue, hnum, hactive⟩ := hs
  refine ⟨s, threeLiftSensors_init, hrun, fun hexact => ?_⟩
  have hidle : ∀ t, s.stage t = .idle := by
    intro t
    cases t with
    | false => exact hfalse
    | true => exact htrue
  obtain ⟨v, hv, hiff⟩ := (hexact hidle).1
  rw [hv, Option.map_some] at hactive
  have hon : v.active = true := hiff.mpr (by rw [hnum]; decide)
  rw [hon] at hactive
  exact absurd hactive (by decide)

/-- A call that nothing interrupts reads a current counter. -/
theorem concurrent_multiple_exact_liftCall :
    ∃ s, (driverSystem Bool .standard).run threeLiftSensors (liftCall false 2 true) = some s ∧
      s.MultipleExact := by
  have hsome : ((driverSystem Bool .standard).run threeLiftSensors
      (liftCall false 2 true)).isSome := by decide +kernel
  obtain ⟨s, hrun⟩ := Option.isSome_iff_exists.mp hsome
  refine ⟨s, hrun, concurrent_multiple_exact threeLiftSensors_init hrun ?_⟩
  rintro s₁ ⟨⟩
  refine ⟨by rintro t time ⟨⟩, ?_⟩
  rintro s₂ ⟨⟩
  refine ⟨by rintro t time ⟨⟩, ?_⟩
  rintro s₃ ⟨⟩
  refine ⟨?_, ?_⟩
  · rintro t time ⟨⟩
    exact ⟨fun _ _ _ hstage => (nomatch hstage), fun _ hstage => (nomatch hstage)⟩
  rintro s₄ ⟨⟩
  refine ⟨?_, ?_⟩
  · rintro t time ⟨⟩
    exact ⟨fun _ _ _ hstage => (nomatch hstage), fun _ hstage => (nomatch hstage)⟩
  rintro s₅ ⟨⟩
  refine ⟨?_, ?_⟩
  -- the thread has read the counter, and nothing has changed it
  · rintro t time ⟨⟩
    refine ⟨?_, fun _ hstage => (nomatch hstage)⟩
    rintro i active num ⟨⟩ -
    exact Iff.rfl
  rintro s₆ ⟨⟩
  refine ⟨?_, trivial⟩
  rintro t time ⟨⟩
  exact ⟨fun _ _ _ hstage => (nomatch hstage), fun _ hstage => (nomatch hstage)⟩

end OpenMower
