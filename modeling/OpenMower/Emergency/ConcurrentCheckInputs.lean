import OpenMower.Emergency.System

/-!
# Concurrent `CheckInputs` calls

`CheckInputs` polls the inputs under one mutex and writes the result under another, and two
threads call it. When no call is between its two steps, the condition bits of the reasons
should be those of the most recent poll (`ShowsLastPoll`). A call that polled earlier but
writes later destroys that: a fresh emergency is overwritten with an outdated result.

`conditions_show_last_poll` proves the property for every interleaving without overtaking
(`NoOvertaking`), by the invariant `PollInv`.
-/

namespace OpenMower

open WordMask

variable {ι : Type*} {E : EmergencyReason}

namespace EmergencyState

/-- The events of `CheckInputs` calls and of input updates. -/
def IsCheckInputsEvent : EmergencyEvent ι → Prop
  | .poll _ _ => True
  | .finish _ => True
  | .updateInput _ _ _ _ => True
  | _ => False

/-- If no `CheckInputs` call is between its two steps, then the condition bits of the reasons
are those of the most recent poll. -/
def ShowsLastPoll (E : EmergencyReason) (s : EmergencyState ι) : Prop :=
  (∀ t, s.pending t = .idle) → ∀ t reasons, s.lastPoll = some (t, reasons) →
    s.service.reasons &&& E.conditions = reasons &&& E.conditions

/-- The step belongs to a `CheckInputs` call or an update, and if it ends a call while no
other call is between its two steps, then the ending call was the last one to poll. -/
def NoOvertaking (s : EmergencyState ι) (e : EmergencyEvent ι) (_ : EmergencyState ι) : Prop :=
  IsCheckInputsEvent e ∧ ∀ t, e = .finish t → (∀ t', t' ≠ t → s.pending t' = .idle) →
    s.lastPoll.map Prod.fst = some t

/-- Only polls are pending, the last poll is still held by a thread that has not written it
yet, and the reasons show the last poll when nothing is pending. -/
structure PollInv (E : EmergencyReason) (s : EmergencyState ι) : Prop where
  onlyPolls : ∀ t, s.pending t = .idle ∨ ∃ reasons, s.pending t = .checkInputs reasons
  held : ∀ t reasons, s.lastPoll = some (t, reasons) → s.pending t ≠ .idle →
    s.pending t = .checkInputs reasons
  shows : ShowsLastPoll E s

theorem PollInv.of_isInitial {s : EmergencyState ι} (h : s.IsInitial E) : PollInv E s := by
  obtain ⟨inputs, -, rfl⟩ := h
  exact ⟨fun _ => .inl rfl, by simp [initial], by simp [ShowsLastPoll, initial]⟩

/-- Writing a poll makes its condition bits those of the reasons. -/
theorem updateEmergency_conditions {service : EmergencyService ι} {reasons : Reasons} :
    (service.updateEmergency reasons E.conditions).reasons &&& E.conditions =
      reasons &&& E.conditions := by
  refine BitVec.eq_of_getLsbD_eq fun i _ => ?_
  rw [EmergencyService.updateEmergency_reasons, BitVec.getLsbD_and, BitVec.getLsbD_and,
    getLsbD_rewrite]
  cases E.conditions.getLsbD i <;> simp

theorem PollInv.poll {s s' : EmergencyState ι} {t : Thread} {now : Micros} (h : PollInv E s)
    (hs : s.step E (.poll t now) = some s') : PollInv E s' := by
  simp only [step, Option.ite_none_right_eq_some, Option.some.injEq] at hs
  obtain ⟨-, rfl⟩ := hs
  refine ⟨fun t' => ?_, fun t' reasons hl _ => ?_, fun hidle => ?_⟩
  · by_cases ht : t' = t
    · subst ht
      exact .inr ⟨_, Function.update_self ..⟩
    · simpa [Function.update_of_ne ht] using h.onlyPolls t'
  · simp only [Option.some.injEq, Prod.mk.injEq] at hl
    obtain ⟨rfl, rfl⟩ := hl
    exact Function.update_self ..
  · have hpoll := hidle t
    simp at hpoll

/-- The end of a call keeps the invariant: unless another call is still pending, what it writes is
the last poll. -/
theorem PollInv.finish {s s' : EmergencyState ι} {t : Thread} (h : PollInv E s)
    (hn : NoOvertaking s (.finish t) s') (hs : s.step E (.finish t) = some s') :
    PollInv E s' := by
  simp only [step, Option.ite_none_left_eq_some, Option.some.injEq] at hs
  obtain ⟨hp, rfl⟩ := hs
  refine ⟨fun t' => ?_, fun t' reasons hl hne => ?_, fun hidle t' reasons hl => ?_⟩
  · by_cases ht : t' = t
    · subst ht
      exact .inl (Function.update_self ..)
    · simpa [Function.update_of_ne ht] using h.onlyPolls t'
  · by_cases ht : t' = t
    · subst ht
      exact absurd (Function.update_self ..) hne
    · simp only [Function.update_of_ne ht] at hne ⊢
      exact h.held t' reasons hl hne
  · have hothers : ∀ u, u ≠ t → s.pending u = .idle := fun u hu => by
      simpa [Function.update_of_ne hu] using hidle u
    have hlast := hn.2 t rfl hothers
    rw [hl] at hlast
    obtain rfl : t' = t := Option.some.inj hlast
    have hheld : s.pending t' = .checkInputs reasons := h.held t' reasons hl hp
    simp only [applyPending, hheld]
    exact updateEmergency_conditions

theorem PollInv.step {s s' : EmergencyState ι} {e : EmergencyEvent ι} (h : PollInv E s)
    (hs : s.step E e = some s') (hn : NoOvertaking s e s') : PollInv E s' := by
  cases e with
  | poll t now => exact h.poll hs
  | finish t => exact h.finish hn hs
  | updateInput i newActive predate time =>
    simp only [EmergencyState.step, Option.ite_none_right_eq_some, Option.some.injEq] at hs
    obtain ⟨-, rfl⟩ := hs
    exact ⟨h.onlyPolls, h.held, h.shows⟩
  | _ => exact absurd hn.1 id

end EmergencyState

open EmergencyState

/-- **No lost update without overtaking.** In every run of `CheckInputs` calls by the two
threads and of input updates in which no call that polled earlier ends after the last poll
has been written, every state without a call between its steps shows the condition bits of
the most recent poll. -/
theorem conditions_show_last_poll {s : EmergencyState ι} (h : s.IsInitial E)
    (es : List (EmergencyEvent ι))
    (hes : (emergencySystem E ι).EveryStep NoOvertaking s es) :
    (emergencySystem E ι).EveryStep (fun _ _ s' => ShowsLastPoll E s') s es :=
  hes.imp (PollInv.of_isInitial h) fun _ _ _ hI hs hn =>
    have hI' := hI.step hs hn
    ⟨hI', hI'.shows⟩

/-- A stop input without a latch. -/
def plainStop : Input where
  idx := 0#8
  emergencyReason := EmergencyReason.standard.mask .stop

/-- The emergency thread polls, the input becomes active, the main thread polls and writes,
and the emergency thread writes its outdated result. -/
def overtakingRun : List (EmergencyEvent ℕ) :=
  [.poll .emergency (micros 0), .updateInput 0 true 0#32 0, .poll .main (micros 0),
    .finish .main, .finish .emergency]

/-- Overtaking erases a fresh emergency. -/
theorem not_showsLastPoll_overtakingRun :
    ¬ (emergencySystem .standard ℕ).EveryStep (fun _ _ s' => ShowsLastPoll .standard s')
      (.initial .standard [plainStop]) overtakingRun := by
  intro h
  have hlast := (((((h _ rfl).2 _ rfl).2 _ rfl).2 _ rfl).2 _ rfl).1
  exact absurd (hlast (fun t => by cases t <;> rfl) _ _ rfl) (by decide)

/-- The two calls in order. -/
def orderedRun : List (EmergencyEvent ℕ) :=
  [.poll .emergency (micros 0), .updateInput 0 true 0#32 0, .poll .main (micros 0),
    .finish .emergency, .finish .main]

/-- In order, the emergency is shown. -/
theorem conditions_show_last_poll_orderedRun :
    (emergencySystem .standard ℕ).EveryStep (fun _ _ s' => ShowsLastPoll .standard s')
      (.initial .standard [plainStop]) orderedRun := by
  refine conditions_show_last_poll ⟨[plainStop], by decide, rfl⟩ orderedRun ?_
  rintro s₁ ⟨⟩
  refine ⟨⟨trivial, by simp⟩, ?_⟩
  rintro s₂ ⟨⟩
  refine ⟨⟨trivial, by simp⟩, ?_⟩
  rintro s₃ ⟨⟩
  refine ⟨⟨trivial, by simp⟩, ?_⟩
  rintro s₄ ⟨⟩
  refine ⟨⟨trivial, ?_⟩, ?_⟩
  · rintro t ⟨⟩ hidle
    have hmain := hidle .main (by decide)
    exact absurd hmain (by decide)
  · rintro s₅ ⟨⟩
    refine ⟨⟨trivial, ?_⟩, trivial⟩
    rintro t ⟨⟩ -
    rfl

end OpenMower
