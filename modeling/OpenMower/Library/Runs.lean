import Mathlib.Data.List.Infix
import Mathlib.Tactic.Common

/-!
# Runs of equal elements

A filter for noisy samples takes over a value once it has been seen a number of times in a row. What
such a filter computes from the samples so far is the value of their latest run of this length
(`LatestRun`), or the initial value (`Debounced`). A saturating counter knows whether there is one
at the end (`Counts`).

A stretch of samples without a run of values that look different does not change what is seen of the
filtered value (`Debounced.bounce`).
-/

universe u v

namespace Runs

variable {α : Type u} {β : Type v} {n : ℕ} {a x : α} {hist : List α}

/-- The latest run of `n` equal elements is one of these. -/
def LatestRun (n : ℕ) (hist : List α) (a : α) : Prop :=
  ∃ front back, hist = front ++ List.replicate n a ++ back ∧
    ∀ front' b back', hist = front' ++ List.replicate n b ++ back' → back.length ≤ back'.length

/-- The value of the latest run, or the initial value if there is none. -/
def Debounced (n : ℕ) (initial : α) (hist : List α) (a : α) : Prop :=
  LatestRun n hist a ∨ (∀ b, ¬ List.replicate n b <:+: hist) ∧ a = initial

/-- Wherever `n` elements in a row end behind the history, what is seen of one of them is what is
seen of `a`. -/
def ShortBounce (n : ℕ) (see : α → β) (a : α) (hist bounce : List α) : Prop :=
  ∀ front run back, hist ++ bounce = front ++ run ++ back → run.length = n →
    back.length < bounce.length → ∃ b ∈ run, see b = see a

/-! ### The run at the end -/

theorem replicate_suffix_concat :
    List.replicate (n + 1) a <:+ hist ++ [x] ↔ a = x ∧ List.replicate n a <:+ hist := by
  rw [List.suffix_concat_iff, List.replicate_succ']
  constructor
  · rintro (hnil | ⟨t, heq, ht⟩)
    · exact absurd hnil (by simp)
    · obtain ⟨rfl, hx⟩ := List.append_inj' heq rfl
      exact ⟨List.singleton_inj.mp hx, ht⟩
  · rintro ⟨rfl, h⟩
    exact .inr ⟨_, rfl, h⟩

/-- A shorter run is a part of a longer one. -/
theorem replicate_suffix_of_le {m : ℕ} (h : List.replicate n a <:+ hist) (hle : m ≤ n) :
    List.replicate m a <:+ hist := by
  obtain ⟨k, rfl⟩ := Nat.exists_eq_add_of_le' hle
  rw [← List.replicate_append_replicate] at h
  exact (List.suffix_append _ _).trans h

/-- **A saturating counter**: how often the last element has been there before it, in a row. -/
structure Counts (limit : ℕ) (hist : List α) (last : α) (counter : ℕ) : Prop where
  le_limit : counter ≤ limit
  run : List.replicate (counter + 1) last <:+ hist
  longest : counter < limit → ¬ List.replicate (counter + 2) last <:+ hist

namespace Counts

variable {limit counter : ℕ} {last : α}

/-- The counter is full if there is a run at the end. -/
theorem limit_le_iff (h : Counts limit hist last counter) :
    limit ≤ counter ↔ List.replicate (limit + 1) last <:+ hist := by
  constructor
  · intro hfull
    exact replicate_suffix_of_le h.run (by omega)
  · intro hrun
    by_contra hlt
    exact h.longest (by omega) (replicate_suffix_of_le hrun (by omega))

/-- The element is there once more. -/
theorem same (h : Counts limit hist last counter) :
    Counts limit (hist ++ [last]) last (if counter < limit then counter + 1 else counter) := by
  split
  · next hlt =>
    refine ⟨hlt, replicate_suffix_concat.mpr ⟨rfl, h.run⟩, fun _ hlonger => ?_⟩
    exact h.longest hlt (replicate_suffix_concat.mp hlonger).2
  · next hfull =>
    refine ⟨h.le_limit, replicate_suffix_concat.mpr ⟨rfl, ?_⟩, fun hlt => absurd hlt hfull⟩
    exact replicate_suffix_of_le h.run (by omega)

/-- Another element is there. -/
theorem changed (h : Counts limit hist last counter) (hne : x ≠ last) :
    Counts limit (hist ++ [x]) x 0 := by
  refine ⟨Nat.zero_le _, replicate_suffix_concat.mpr ⟨rfl, List.nil_suffix⟩, fun _ hlonger => ?_⟩
  have hx := (replicate_suffix_concat.mp hlonger).2
  have hlast := replicate_suffix_of_le h.run (Nat.succ_le_succ (Nat.zero_le counter))
  have heq := (List.suffix_of_suffix_length_le hx hlast (Nat.le_refl _)).eq_of_length rfl
  exact hne (List.singleton_inj.mp heq)

end Counts

/-! ### The latest run -/

theorem LatestRun.of_suffix (h : List.replicate n a <:+ hist) : LatestRun n hist a := by
  obtain ⟨front, rfl⟩ := h
  exact ⟨front, [], (List.append_nil _).symm, fun _ _ _ _ => Nat.zero_le _⟩

/-- There is only one. -/
theorem LatestRun.unique {b : α} (hn : 0 < n) (ha : LatestRun n hist a)
    (hb : LatestRun n hist b) : a = b := by
  obtain ⟨front, back, heq, hlatest⟩ := ha
  obtain ⟨front', back', heq', hlatest'⟩ := hb
  have hlen : back.length = back'.length :=
    Nat.le_antisymm (hlatest _ _ _ heq') (hlatest' _ _ _ heq)
  have hruns := (List.append_inj' (heq.symm.trans heq') hlen).1
  have hrun := (List.append_inj' hruns (by simp)).2
  exact List.replicate_right_injective (by omega) hrun

/-- What is behind the latest run can be left out. -/
theorem LatestRun.of_append {front back bounce : List α}
    (heq : hist = front ++ List.replicate n a ++ back)
    (h : ∀ front' b back', hist ++ bounce = front' ++ List.replicate n b ++ back' →
      (back ++ bounce).length ≤ back'.length) : LatestRun n hist a := by
  refine ⟨front, back, heq, fun front' b back' heq' => ?_⟩
  have hlen := h front' b (back' ++ bounce) (by rw [heq', List.append_assoc])
  rw [List.length_append, List.length_append] at hlen
  omega

/-- **A sample that completes a run** is taken over. -/
theorem Debounced.of_run {initial : α} (h : List.replicate n x <:+ hist ++ [x]) :
    Debounced n initial (hist ++ [x]) x :=
  .inl (LatestRun.of_suffix h)

/-- A run that ends with the last sample is one of it. -/
theorem eq_of_replicate_suffix {b : α} (hn : 0 < n) (h : List.replicate n b <:+ hist ++ [x]) :
    b = x := by
  obtain ⟨m, rfl⟩ := Nat.exists_eq_succ_of_ne_zero hn.ne'
  exact (replicate_suffix_concat.mp h).1

/-- **A sample that completes no run** changes nothing. -/
theorem Debounced.of_not_run {initial : α} (hn : 0 < n) (h : Debounced n initial hist a)
    (hno : ¬ List.replicate n x <:+ hist ++ [x]) : Debounced n initial (hist ++ [x]) a := by
  have hend : ∀ b, ¬ List.replicate n b <:+ hist ++ [x] := by
    intro b hb
    obtain rfl := eq_of_replicate_suffix hn hb
    exact hno hb
  rcases h with ⟨front, back, heq, hlatest⟩ | ⟨hnone, rfl⟩
  · refine .inl ⟨front, back ++ [x], by rw [heq, List.append_assoc], fun front' b back' heq' => ?_⟩
    rcases List.eq_nil_or_concat' back' with rfl | ⟨rest, y, rfl⟩
    · rw [List.append_nil] at heq'
      exact absurd ⟨front', heq'.symm⟩ (hend b)
    · rw [← List.append_assoc] at heq'
      have hrest := hlatest front' b rest (List.append_inj' heq' rfl).1
      simpa using hrest
  · refine .inr ⟨fun b hb => ?_, rfl⟩
    rcases List.infix_concat_iff.mp hb with hend' | hinside
    · exact hend b hend'
    · exact hnone b hinside

/-- **Bounces.** What is seen of the filtered value does not change in a stretch that no run of
values that look different ends in. -/
theorem Debounced.bounce {initial b : α} {bounce : List α} {see : α → β} (hn : 0 < n)
    (ha : Debounced n initial hist a) (hb : Debounced n initial (hist ++ bounce) b)
    (hshort : ShortBounce n see a hist bounce) : see b = see a := by
  rcases hb with ⟨front, back, heq, hlatest⟩ | ⟨hnone, rfl⟩
  · by_cases hback : back.length < bounce.length
    · obtain ⟨c, hc, hsee⟩ := hshort front _ back heq (List.length_replicate ..) hback
      rwa [List.eq_of_mem_replicate hc] at hsee
    · -- the run ends in the history, where it is the latest one as well
      obtain ⟨rest, rfl⟩ : ∃ rest, back = rest ++ bounce := by
        have hsuffix : bounce <:+ hist ++ bounce := List.suffix_append _ _
        have hsuffix' : back <:+ hist ++ bounce := ⟨_, heq.symm⟩
        obtain ⟨rest, hrest⟩ := List.suffix_of_suffix_length_le hsuffix hsuffix' (by omega)
        exact ⟨rest, hrest.symm⟩
      rw [← List.append_assoc] at heq
      have hhist := List.append_cancel_right heq
      have hlatest' := LatestRun.of_append hhist hlatest
      rcases ha with ha | ⟨hnone, -⟩
      · rw [hlatest'.unique hn ha]
      · exact absurd ⟨front, rest, hhist.symm⟩ (hnone b)
  · rcases ha with ⟨front, back, heq, -⟩ | ⟨-, rfl⟩
    · have hinside : List.replicate n a <:+: hist := ⟨front, back, heq.symm⟩
      exact absurd (hinside.trans ⟨[], bounce, rfl⟩) (hnone a)
    · rfl

end Runs
