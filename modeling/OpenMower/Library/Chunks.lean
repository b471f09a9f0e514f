import Mathlib.Logic.Relation
import Mathlib.Tactic.Common

/-!
# Consumers of chunked streams

A stream arrives in chunks, and each chunk is consumed by a loop whose passes take one or more
elements from its front: a `Consumer`. `feed` is the loop on one chunk and `feedAll` the whole
stream.

* `Steps` are the passes between two points of a stream, so that a statement about every point
  is one about all `(s', chunks')` with `Steps (s, chunks) (s', chunks')`.
* `Steps.invariant` is the rule for what relates the state to the stream that is still to come;
  it does not depend on where the stream is cut.
* `visits_within` is the rule for progress: what is due after `μ s` elements is met by then.
-/

universe u v

/-- A loop over a chunk. -/
structure Consumer (σ : Type u) (α : Type v) where
  /-- One pass: the state after it and what is left of the chunk. -/
  pass : σ → List α → σ × List α
  /-- A pass takes something from the front of the chunk. -/
  pass_takes : ∀ s chunk, chunk ≠ [] → ∃ taken, taken ≠ [] ∧ chunk = taken ++ (pass s chunk).2

namespace Consumer

variable {σ : Type u} {α : Type v} (C : Consumer σ α)

/-- Dropping elements from the front takes them. -/
theorem takes_drop {chunk : List α} (h : chunk ≠ []) {n : ℕ} (hn : 0 < n) :
    ∃ taken, taken ≠ [] ∧ chunk = taken ++ chunk.drop n := by
  refine ⟨chunk.take n, ?_, (List.take_append_drop n chunk).symm⟩
  rw [ne_eq, List.take_eq_nil_iff, not_or]
  exact ⟨Nat.pos_iff_ne_zero.mp hn, h⟩

theorem length_pass_lt (s : σ) {chunk : List α} (h : chunk ≠ []) :
    (C.pass s chunk).2.length < chunk.length := by
  obtain ⟨taken, hne, heq⟩ := C.pass_takes s chunk h
  have hpos := List.length_pos_iff.mpr hne
  have hlen := congrArg List.length heq
  rw [List.length_append] at hlen
  omega

/-- The loop: passes until the chunk is empty. -/
def feed (s : σ) (chunk : List α) : σ :=
  if _h : chunk = [] then s else feed (C.pass s chunk).1 (C.pass s chunk).2
termination_by chunk.length
decreasing_by exact C.length_pass_lt s _h

/-- The chunks of a stream one after the other. -/
def feedAll (s : σ) (chunks : List (List α)) : σ := chunks.foldl C.feed s

@[simp]
theorem feed_nil (s : σ) : C.feed s [] = s := by
  rw [feed, dif_pos rfl]

theorem feed_of_ne_nil (s : σ) {chunk : List α} (h : chunk ≠ []) :
    C.feed s chunk = C.feed (C.pass s chunk).1 (C.pass s chunk).2 := by
  rw [feed, dif_neg h]

/-- **Two runs** over a chunk stay related if their passes do and leave the same. -/
theorem feed_rel {R : σ → σ → Prop}
    (hpass : ∀ s t chunk, chunk ≠ [] → R s t →
      R (C.pass s chunk).1 (C.pass t chunk).1 ∧ (C.pass s chunk).2 = (C.pass t chunk).2)
    {s t : σ} (h : R s t) (chunk : List α) : R (C.feed s chunk) (C.feed t chunk) := by
  induction hn : chunk.length using Nat.strongRecOn generalizing s t chunk with
  | ind n ih =>
    by_cases hchunk : chunk = []
    · rwa [hchunk, feed_nil, feed_nil]
    · obtain ⟨hrel, hrest⟩ := hpass s t chunk hchunk h
      have hlt := C.length_pass_lt s hchunk
      rw [C.feed_of_ne_nil s hchunk, C.feed_of_ne_nil t hchunk, ← hrest]
      exact ih _ (hn ▸ hlt) hrel _ rfl

/-- From one point of a stream to the next. -/
inductive Step : σ × List (List α) → σ × List (List α) → Prop
  | next (s : σ) (chunks : List (List α)) : Step (s, [] :: chunks) (s, chunks)
  | pass (s : σ) {chunk : List α} (chunks : List (List α)) (h : chunk ≠ []) :
    Step (s, chunk :: chunks) ((C.pass s chunk).1, (C.pass s chunk).2 :: chunks)

/-- From one point of a stream to a later one. -/
def Steps : σ × List (List α) → σ × List (List α) → Prop := Relation.ReflTransGen C.Step

/-- Every pass from here on meets `G`. -/
def EveryPass (G : σ → List α → Prop) (p : σ × List (List α)) : Prop :=
  ∀ s chunk chunks, C.Steps p (s, chunk :: chunks) → chunk ≠ [] → G s chunk

variable {C} {s s' : σ} {chunks chunks' : List (List α)}

theorem Steps.refl (p : σ × List (List α)) : C.Steps p p := Relation.ReflTransGen.refl

theorem Steps.trans {p q r : σ × List (List α)} (h : C.Steps p q) (h' : C.Steps q r) :
    C.Steps p r := Relation.ReflTransGen.trans h h'

theorem Steps.of_step {p q : σ × List (List α)} (h : C.Step p q) : C.Steps p q :=
  Relation.ReflTransGen.single h

theorem EveryPass.of_steps {G : σ → List α → Prop} {p q : σ × List (List α)}
    (h : C.EveryPass G p) (hq : C.Steps p q) : C.EveryPass G q :=
  fun s chunk chunks hs => h s chunk chunks (hq.trans hs)

/-- The passes over a chunk. -/
theorem steps_feed (s : σ) (chunk : List α) (chunks : List (List α)) :
    C.Steps (s, chunk :: chunks) (C.feed s chunk, [] :: chunks) := by
  induction hn : chunk.length using Nat.strongRecOn generalizing s chunk with
  | ind n ih =>
    by_cases hchunk : chunk = []
    · rw [hchunk, feed_nil]
      exact .refl _
    · rw [C.feed_of_ne_nil s hchunk]
      have hlt := C.length_pass_lt s hchunk
      exact (Steps.of_step (.pass s chunks hchunk)).trans (ih _ (hn ▸ hlt) _ _ rfl)

/-- The end of the stream is a point of it. -/
theorem steps_feedAll (s : σ) (chunks : List (List α)) :
    C.Steps (s, chunks) (C.feedAll s chunks, []) := by
  induction chunks generalizing s with
  | nil => exact .refl _
  | cons chunk chunks ih =>
    have hnext : C.Steps (C.feed s chunk, [] :: chunks) (C.feed s chunk, chunks) :=
      .of_step (.next _ _)
    exact ((steps_feed s chunk chunks).trans hnext).trans (ih _)

/-- **Points of a stream.** What the passes and the ends of chunks keep holds at every later
point. -/
theorem Steps.rule {I : σ → List (List α) → Prop}
    (hnext : ∀ s chunks, I s ([] :: chunks) → I s chunks)
    (hpass : ∀ s chunk chunks, chunk ≠ [] → I s (chunk :: chunks) →
      I (C.pass s chunk).1 ((C.pass s chunk).2 :: chunks))
    (h : C.Steps (s, chunks) (s', chunks')) (hI : I s chunks) : I s' chunks' := by
  have hsteps : ∀ p, C.Steps (s, chunks) p → I p.1 p.2 := by
    intro p hp
    induction hp with
    | refl => exact hI
    | tail _ hstep ih =>
      cases hstep with
      | next s chunks => exact hnext s chunks ih
      | pass s chunks hne => exact hpass s _ chunks hne ih
  exact hsteps _ h

/-- **Guarded passes.** What each pass that meets `G` keeps holds at every point of a stream all
of whose passes meet `G`. -/
theorem EveryPass.invariant {G : σ → List α → Prop} {I : σ → Prop} {p q : σ × List (List α)}
    (h : C.EveryPass G p) (hI : I p.1)
    (hpass : ∀ s chunk, chunk ≠ [] → I s → G s chunk → I (C.pass s chunk).1)
    (hq : C.Steps p q) : I q.1 := by
  induction hq with
  | refl => exact hI
  | tail hsteps hstep ih =>
    cases hstep with
    | next s chunks => exact ih
    | pass s chunks hne => exact hpass s _ hne ih (h s _ chunks hsteps hne)

/-- One guard implies another if it keeps what the other rests on. -/
theorem EveryPass.imp {G H : σ → List α → Prop} {I : σ → Prop} {p : σ × List (List α)}
    (h : C.EveryPass G p) (hI : I p.1)
    (hpass : ∀ s chunk, chunk ≠ [] → I s → G s chunk → I (C.pass s chunk).1 ∧ H s chunk) :
    C.EveryPass H p := by
  intro s chunk chunks hsteps hne
  have hs : I s := h.invariant hI (fun s chunk hne hI hG => (hpass s chunk hne hI hG).1) hsteps
  exact (hpass s chunk hne hs (h s chunk chunks hsteps hne)).2

/-- What holds at every point holds after every pass. -/
theorem everyPass_of_points {P : σ → Prop} {p : σ × List (List α)}
    (h : ∀ q, C.Steps p q → P q.1) : C.EveryPass (fun s chunk => P (C.pass s chunk).1) p := by
  intro s chunk chunks hsteps hne
  exact h _ (hsteps.trans (.of_step (.pass s chunks hne)))

/-- **Invariants of a stream.** What a pass keeps, as a relation between the state and all that
is still to come, holds at every later point. -/
theorem Steps.invariant {J : σ → List α → Prop}
    (hpass : ∀ s chunk later, chunk ≠ [] → J s (chunk ++ later) →
      J (C.pass s chunk).1 ((C.pass s chunk).2 ++ later))
    (h : C.Steps (s, chunks) (s', chunks')) (hJ : J s chunks.flatten) : J s' chunks'.flatten := by
  refine @Steps.rule _ _ C s s' chunks chunks' (fun s chunks => J s chunks.flatten) ?_ ?_ h hJ
  · intro s chunks hJ
    simpa using hJ
  · intro s chunk chunks hne hJ
    rw [List.flatten_cons] at hJ ⊢
    exact hpass s chunk _ hne hJ

theorem feedAll_invariant {J : σ → List α → Prop}
    (hpass : ∀ s chunk later, chunk ≠ [] → J s (chunk ++ later) →
      J (C.pass s chunk).1 ((C.pass s chunk).2 ++ later))
    (hJ : J s chunks.flatten) : J (C.feedAll s chunks) [] :=
  (steps_feedAll s chunks).invariant hpass hJ

/-- **Progress.** If each pass that meets `G` before the goal brings it nearer by what it takes,
then the goal is met within `μ s` elements. -/
theorem visits_within {goal : σ → Prop} {μ : σ → ℕ} {G : σ → List α → Prop}
    (hzero : ∀ s, μ s = 0 → goal s)
    (hpass : ∀ s chunk, chunk ≠ [] → ¬ goal s → G s chunk →
      μ (C.pass s chunk).1 + chunk.length ≤ μ s + (C.pass s chunk).2.length)
    (hG : C.EveryPass G (s, chunks)) (hlen : μ s ≤ chunks.flatten.length) :
    ∃ s' chunks', C.Steps (s, chunks) (s', chunks') ∧ goal s' ∧
      chunks.flatten.length ≤ chunks'.flatten.length + μ s := by
  -- a step takes an element or a chunk that is used up
  induction hn : chunks.flatten.length + chunks.length using Nat.strongRecOn
    generalizing s chunks with
  | ind n ih =>
    by_cases hgoal : goal s
    · exact ⟨s, chunks, .refl _, hgoal, Nat.le_add_right _ _⟩
    cases chunks with
    | nil => exact absurd (hzero s (by simpa using hlen)) hgoal
    | cons chunk chunks =>
      by_cases hchunk : chunk = []
      · subst hchunk
        have hnext : C.Steps (s, [] :: chunks) (s, chunks) := .of_step (.next _ _)
        obtain ⟨s', chunks', hsteps, hgoal', hle⟩ :=
          ih _ (by simp [← hn]) (hG.of_steps hnext) (by simpa using hlen) rfl
        exact ⟨s', chunks', hnext.trans hsteps, hgoal', by simpa using hle⟩
      · have hstep : C.Steps (s, chunk :: chunks)
            ((C.pass s chunk).1, (C.pass s chunk).2 :: chunks) := .of_step (.pass s chunks hchunk)
        have hnear := hpass s chunk hchunk hgoal (hG s chunk chunks (.refl _) hchunk)
        have hlt := C.length_pass_lt s hchunk
        simp only [List.flatten_cons, List.length_append, List.length_cons] at hlen hn ⊢
        have hrest : ((C.pass s chunk).2 :: chunks).flatten.length =
            (C.pass s chunk).2.length + chunks.flatten.length := by
          rw [List.flatten_cons, List.length_append]
        obtain ⟨s', chunks', hsteps, hgoal', hle⟩ := ih _
          (by rw [hrest, List.length_cons]; omega) (hG.of_steps hstep) (by omega) rfl
        exact ⟨s', chunks', hstep.trans hsteps, hgoal', by omega⟩

end Consumer
