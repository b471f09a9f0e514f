import Mathlib.Logic.Relation
import Mathlib.Tactic.Common

/-!
# State machines, runs and invariants

A `StateMachine σ ε` has initial states and a partial step function: `step s e` is `none`
where the event `e` cannot happen in `s`. Interleavings of several threads are runs of one
machine whose events are the threads' atomic steps.

* `run` executes a finite list of events, `Leads` relates the ends of a run, and `Reachable`
  are the states that runs reach; `Reachable.invariant` is the induction over runs.
* `EveryStep P s es` says that `P` holds of every step that the run `es` from `s` takes.
  Conditions on runs and properties of runs both have this form. `EveryStep.imp` carries an
  invariant along a run whose steps meet a condition, and `everyStep_congr` lifts an
  equivalence that holds for single steps from reachable states to whole runs.
* `Inevitable T Q s` says that the events in `T` can go on from `s` and, whichever of them happen,
  one of the next steps meets `Q`. It follows from a rank (`Inevitable.of_rank`) and is refuted by
  an invariant (`Inevitable.not_of_invariant`).
-/

universe u v

/-- A machine with initial states and a partial step function. -/
structure StateMachine (σ : Type u) (ε : Type v) where
  /-- The initial states. -/
  Init : σ → Prop
  /-- One atomic step; `none` where the event is disabled. -/
  step : σ → ε → Option σ

namespace StateMachine

variable {σ : Type u} {ε : Type v} (M : StateMachine σ ε)

/-- The state after a list of events, `none` as soon as one of them is disabled. -/
def run : σ → List ε → Option σ
  | s, [] => some s
  | s, e :: es => (M.step s e).bind fun s' => run s' es

@[simp] theorem run_nil (s : σ) : M.run s [] = some s := rfl

theorem run_cons (s : σ) (e : ε) (es : List ε) :
    M.run s (e :: es) = (M.step s e).bind fun s' => M.run s' es := rfl

/-- The states reached from an initial state. -/
inductive Reachable : σ → Prop
  | init {s : σ} (h : M.Init s) : Reachable s
  | step {s s' : σ} {e : ε} (h : Reachable s) (hs : M.step s e = some s') : Reachable s'

/-- Some run leads from the one state to the other. -/
def Leads (s s' : σ) : Prop := ∃ es, M.run s es = some s'

/-- Every step taken by the run `es` from `s` satisfies `P`. -/
def EveryStep (P : σ → ε → σ → Prop) : σ → List ε → Prop
  | _, [] => True
  | s, e :: es => ∀ s', M.step s e = some s' → P s e s' ∧ EveryStep P s' es

/-- However the events in `T` go on from `s`, they take a step that meets `Q`. -/
inductive Inevitable (T : ε → Prop) (Q : σ → σ → Prop) : σ → Prop
  | intro {s : σ} (hgoes : ∃ e s', T e ∧ M.step s e = some s')
    (hnext : ∀ e s', T e → M.step s e = some s' → ¬ Q s s' → Inevitable T Q s') :
    Inevitable T Q s

variable {M} {P Q : σ → ε → σ → Prop} {s s' : σ}

theorem run_append (s : σ) (es es' : List ε) :
    M.run s (es ++ es') = (M.run s es).bind fun s' => M.run s' es' := by
  induction es generalizing s with
  | nil => rfl
  | cons e es ih =>
    rw [List.cons_append, run_cons, run_cons, Option.bind_assoc]
    exact Option.bind_congr fun s' _ => ih s'

theorem run_concat (s : σ) (es : List ε) (e : ε) :
    M.run s (es ++ [e]) = (M.run s es).bind fun s' => M.step s' e := by
  rw [run_append]
  refine Option.bind_congr fun s' _ => ?_
  rw [run_cons]
  exact Option.bind_fun_some _

theorem Leads.of_step {e : ε} (hs : M.step s e = some s') : M.Leads s s' := by
  refine ⟨[e], ?_⟩
  rw [run_cons, hs]
  rfl

theorem Leads.trans {s'' : σ} (h : M.Leads s s') (h' : M.Leads s' s'') : M.Leads s s'' := by
  obtain ⟨es, hes⟩ := h
  obtain ⟨es', hes'⟩ := h'
  refine ⟨es ++ es', ?_⟩
  rw [run_append, hes]
  exact hes'

/-- **Invariant rule.** What holds initially and is kept by every step from a state that
satisfies it holds in every reachable state. -/
theorem Reachable.invariant {I : σ → Prop} (h : M.Reachable s) (hinit : ∀ s, M.Init s → I s)
    (hstep : ∀ s e s', I s → M.step s e = some s' → I s') : I s := by
  induction h with
  | init h => exact hinit _ h
  | step _ hs ih => exact hstep _ _ _ ih hs

/-- **Invariants of runs.** What every step keeps holds at the end of a run. -/
theorem run_invariant {I : σ → Prop} {es : List ε} (hr : M.run s es = some s') (hI : I s)
    (hstep : ∀ s e s', I s → M.step s e = some s' → I s') : I s' := by
  induction es generalizing s with
  | nil =>
    obtain rfl : s = s' := by simpa using hr
    exact hI
  | cons e es ih =>
    rw [run_cons, Option.bind_eq_some_iff] at hr
    obtain ⟨s₁, hs, hr⟩ := hr
    exact ih hr (hstep s e s₁ hI hs)

/-- A run continues a reachable state to a reachable state. -/
theorem Reachable.run (h : M.Reachable s) {es : List ε} (hr : M.run s es = some s') :
    M.Reachable s' :=
  run_invariant hr h fun _ _ _ h hs => h.step hs

/-- **Guarded runs.** If each step that meets `P` from a state satisfying `I` keeps `I` and
satisfies `Q`, then a run all of whose steps meet `P` satisfies `Q` in every step. -/
theorem EveryStep.imp {I : σ → Prop} {es : List ε} (h : M.EveryStep P s es) (hI : I s)
    (hstep : ∀ s e s', I s → M.step s e = some s' → P s e s' → I s' ∧ Q s e s') :
    M.EveryStep Q s es := by
  induction es generalizing s with
  | nil => trivial
  | cons e es ih =>
    intro s' hs
    obtain ⟨hP, hrest⟩ := h s' hs
    obtain ⟨hI', hQ⟩ := hstep s e s' hI hs hP
    exact ⟨hQ, ih hrest hI'⟩

/-- **Guarded invariants.** What each step that meets `P` keeps holds at the end of a run all of
whose steps meet `P`. -/
theorem EveryStep.invariant {I : σ → Prop} {es : List ε} (h : M.EveryStep P s es)
    (hr : M.run s es = some s') (hI : I s)
    (hstep : ∀ s e s', I s → M.step s e = some s' → P s e s' → I s') : I s' := by
  induction es generalizing s with
  | nil =>
    obtain rfl : s = s' := by simpa using hr
    exact hI
  | cons e es ih =>
    rw [run_cons, Option.bind_eq_some_iff] at hr
    obtain ⟨s₁, hs, hr⟩ := hr
    obtain ⟨hP, hrest⟩ := h s₁ hs
    exact ih hrest hr (hstep s e s₁ hI hs hP)

/-- **Whole runs from single steps.** Two step properties that agree in reachable states
hold along the same runs. -/
theorem everyStep_congr (hPQ : ∀ s e s', M.Reachable s → M.step s e = some s' →
      (P s e s' ↔ Q s e s')) (h : M.Reachable s) (es : List ε) :
    M.EveryStep P s es ↔ M.EveryStep Q s es :=
  ⟨fun hP => hP.imp h fun s e s' hr hs h => ⟨hr.step hs, (hPQ s e s' hr hs).mp h⟩,
    fun hQ => hQ.imp h fun s e s' hr hs h => ⟨hr.step hs, (hPQ s e s' hr hs).mpr h⟩⟩

/-- **Equivalent guards.** Two step properties that agree in the steps of a run, as long as an
invariant holds that one of them keeps, hold along the same runs. -/
theorem everyStep_iff {I : σ → Prop} {es : List ε} (hI : I s)
    (hstep : ∀ s e s', e ∈ es → I s → M.step s e = some s' →
      (P s e s' ↔ Q s e s') ∧ (Q s e s' → I s')) :
    M.EveryStep P s es ↔ M.EveryStep Q s es := by
  induction es generalizing s with
  | nil => rfl
  | cons e es ih =>
    refine forall_congr' fun s' => forall_congr' fun hs => ?_
    obtain ⟨hPQ, hkeep⟩ := hstep s e s' List.mem_cons_self hI hs
    rw [hPQ]
    refine and_congr_right fun hQ => ?_
    exact ih (hkeep hQ) fun s e s' he => hstep s e s' (List.mem_cons_of_mem _ he)

theorem EveryStep.of_forall {es : List ε}
    (h : ∀ s e s', e ∈ es → M.step s e = some s' → P s e s') : M.EveryStep P s es := by
  induction es generalizing s with
  | nil => trivial
  | cons e es ih =>
    intro s' hs
    exact ⟨h s e s' List.mem_cons_self hs,
      ih fun s e s' he hs => h s e s' (List.mem_cons_of_mem _ he) hs⟩

/-- One run after the other. -/
theorem EveryStep.append {es es' : List ε} (h : M.EveryStep P s es)
    (h' : ∀ s', M.run s es = some s' → M.EveryStep P s' es') : M.EveryStep P s (es ++ es') := by
  induction es generalizing s with
  | nil => exact h' s rfl
  | cons e es ih =>
    intro s' hs
    obtain ⟨hP, hrest⟩ := h s' hs
    refine ⟨hP, ih hrest fun s'' hr => h' s'' ?_⟩
    rw [run_cons, hs]
    exact hr

/-- A run of a list of events is evaluated step by step. -/
theorem EveryStep.of_run {es : List ε} {e : ε} {s₁ s₂ : σ} (h : M.EveryStep P s (es ++ [e]))
    (hr : M.run s es = some s₁) (hs : M.step s₁ e = some s₂) : P s₁ e s₂ := by
  induction es generalizing s with
  | nil =>
    obtain rfl : s = s₁ := by simpa using hr
    exact (h s₂ hs).1
  | cons e' es ih =>
    rw [run_cons, Option.bind_eq_some_iff] at hr
    obtain ⟨s', hs', hr⟩ := hr
    exact ih (h s' hs').2 hr

/-- **Ranks.** If each step of `T` from a state that satisfies `I` meets `Q`, or keeps `I` and
lowers the rank, then a step that meets `Q` is inevitable. -/
theorem Inevitable.of_rank {T : ε → Prop} {Q : σ → σ → Prop} {I : σ → Prop} (μ : σ → ℕ)
    (hgoes : ∀ s, I s → ∃ e s', T e ∧ M.step s e = some s')
    (hstep : ∀ s e s', I s → T e → M.step s e = some s' → Q s s' ∨ I s' ∧ μ s' < μ s)
    (hI : I s) : M.Inevitable T Q s := by
  induction hn : μ s using Nat.strongRecOn generalizing s with
  | ind n ih =>
    refine .intro (hgoes s hI) fun e s' he hs hQ => ?_
    obtain ⟨hI', hlt⟩ := (hstep s e s' hI he hs).resolve_left hQ
    exact ih (μ s') (hn ▸ hlt) hI' rfl

/-- What keeps every step of `T` from meeting `Q` refutes that one is inevitable. -/
theorem Inevitable.not_of_invariant {T : ε → Prop} {Q : σ → σ → Prop} {J : σ → Prop}
    (hstep : ∀ s e s', J s → T e → M.step s e = some s' → ¬ Q s s' ∧ J s') (hJ : J s) :
    ¬ M.Inevitable T Q s := by
  intro h
  induction h with
  | intro hgoes _ ih =>
    obtain ⟨e, s', he, hs⟩ := hgoes
    obtain ⟨hQ, hJ'⟩ := hstep _ e s' hJ he hs
    exact ih e s' he hs hQ hJ'

end StateMachine
