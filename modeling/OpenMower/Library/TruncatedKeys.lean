import Mathlib.Data.List.Nodup
import Mathlib.Tactic.Common

/-!
# Tables with keys of a fixed capacity

A name is cut to the capacity of the keys before it is looked up (`find`). If all keys fit, then a
name that fits is found exactly if it is a key. A longer name is no key, but it is found if its
first part is one, and then that key has the full capacity (`Extends`). `find_exact_iff` says that
this is the only way in which the search differs from a search for the name itself.
-/

universe u v

namespace TruncatedKeys

variable {α : Type u} {β : Type v}

/-- All keys fit the capacity, and no key occurs twice. -/
structure Fits (capacity : ℕ) (table : List (List α × β)) : Prop where
  length_le : ∀ entry ∈ table, entry.1.length ≤ capacity
  nodup : (table.map Prod.fst).Nodup

/-- The name goes on behind a key that has the full capacity. -/
def Extends (capacity : ℕ) (table : List (List α × β)) (name : List α) : Prop :=
  ∃ entry ∈ table, entry.1.length = capacity ∧ entry.1 <+: name ∧ entry.1 ≠ name

variable {capacity : ℕ} {table : List (List α × β)} {name : List α} {value : β}

/-- A name that is longer than the capacity is no key. -/
theorem Fits.notMem_of_lt (h : Fits capacity table) (hlen : capacity < name.length) :
    (name, value) ∉ table :=
  fun hmem => absurd (h.length_le _ hmem) (Nat.not_le.mpr hlen)

/-- A name that fits extends no key of the full capacity. -/
theorem not_extends_of_le (hlen : name.length ≤ capacity) : ¬ Extends capacity table name := by
  rintro ⟨entry, -, hcap, hfront, hne⟩
  exact hne (hfront.eq_of_length_le (by omega))

/-- Of a longer name the first part counts. -/
theorem extends_iff_of_lt (hlen : capacity < name.length) :
    Extends capacity table name ↔ ∃ value, (name.take capacity, value) ∈ table := by
  constructor
  · rintro ⟨⟨key, value⟩, hmem, hcap, hfront, -⟩
    refine ⟨value, ?_⟩
    rwa [← hcap, ← List.prefix_iff_eq_take.mp hfront]
  · rintro ⟨value, hmem⟩
    have hcap : (name.take capacity).length = capacity := List.length_take_of_le (Nat.le_of_lt hlen)
    refine ⟨_, hmem, hcap, List.take_prefix _ _, fun heq => ?_⟩
    dsimp only at heq
    rw [heq] at hcap
    omega

variable [DecidableEq α]

/-- The search for a name that is cut to the capacity. -/
def find (capacity : ℕ) (table : List (List α × β)) (name : List α) : Option β :=
  table.lookup (name.take capacity)

theorem mem_of_lookup (h : table.lookup name = some value) : (name, value) ∈ table := by
  obtain ⟨before, after, rfl, -⟩ := List.lookup_eq_some_iff.mp h
  exact List.mem_append_right before List.mem_cons_self

/-- Where no key occurs twice, every entry is found. -/
theorem lookup_of_mem (hnodup : (table.map Prod.fst).Nodup) (h : (name, value) ∈ table) :
    table.lookup name = some value := by
  induction table with
  | nil => exact absurd h List.not_mem_nil
  | cons entry table ih =>
    rw [List.map_cons, List.nodup_cons] at hnodup
    rw [List.lookup_cons]
    rcases List.mem_cons.mp h with rfl | hrest
    · simp
    · have hne : name ≠ entry.1 := fun heq =>
        hnodup.1 (heq ▸ List.mem_map_of_mem (f := Prod.fst) hrest)
      rw [beq_eq_false_iff_ne.mpr hne]
      exact ih hnodup.2 hrest

theorem Fits.lookup_eq_some_iff (h : Fits capacity table) :
    table.lookup name = some value ↔ (name, value) ∈ table :=
  ⟨mem_of_lookup, lookup_of_mem h.nodup⟩

/-- A name that fits is not cut. -/
theorem find_of_le (hlen : name.length ≤ capacity) :
    find capacity table name = table.lookup name := by
  rw [find, List.take_of_length_le hlen]

/-- **When a cut name is found as if it had not been cut.** -/
theorem find_exact_iff (h : Fits capacity table) :
    (∀ value, find capacity table name = some value ↔ (name, value) ∈ table) ↔
      ¬ Extends capacity table name := by
  rcases Nat.lt_or_ge capacity name.length with hlen | hlen
  · rw [extends_iff_of_lt hlen]
    simp only [find, h.lookup_eq_some_iff, not_exists]
    exact forall_congr' fun value => iff_false_right (h.notMem_of_lt hlen)
  · simp only [find_of_le hlen, h.lookup_eq_some_iff, not_extends_of_le hlen, not_false_eq_true,
      implies_true]

end TruncatedKeys
