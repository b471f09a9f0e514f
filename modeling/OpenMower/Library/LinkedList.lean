import Mathlib.Data.List.Nodup
import Mathlib.Tactic.Common

/-!
# Linked lists

The pointers of an intrusive list are a function `next` from nodes to nodes. `Linked next head xs`
says that from `head` on they lead through exactly the nodes `xs` and then end; such a list is
finite, so it cannot run into itself (`Linked.nodup`), and it is determined by its head
(`Linked.unique`).

`lastFrom` is the loop that walks to the last node. It has a bound on its steps, which is not met in
a list that is not longer (`Linked.next_lastFrom`). A node that is hung behind the last one is added
at the end (`Linked.append`), and other lists do not see it (`Linked.congr`).
-/

universe u

namespace LinkedList

variable {α : Type u}

/-- From `head` on the pointers lead through these nodes, and then they end. -/
inductive Linked (next : α → Option α) : Option α → List α → Prop
  | nil : Linked next none []
  | cons {a : α} {xs : List α} (h : Linked next (next a) xs) : Linked next (some a) (a :: xs)

/-- The loop to the last node, for at most this number of steps. -/
def lastFrom (next : α → Option α) : ℕ → α → α
  | 0, a => a
  | n + 1, a =>
    match next a with
    | none => a
    | some b => lastFrom next n b

variable {next next' : α → Option α} {head : Option α} {xs ys : List α} {a : α}

theorem Linked.unique (h : Linked next head xs) (h' : Linked next head ys) : xs = ys := by
  induction h generalizing ys with
  | nil =>
    cases h'
    rfl
  | cons _ ih =>
    cases h' with
    | cons h' => rw [ih h']

/-- The list from one of its nodes on. -/
theorem Linked.from_node {before after : List α} (h : Linked next head (before ++ a :: after)) :
    Linked next (some a) (a :: after) := by
  induction before generalizing head with
  | nil =>
    cases h with
    | cons h => exact .cons h
  | cons b before ih =>
    cases h with
    | cons h => exact ih h

/-- **No cycles.** A list that ends visits no node twice. -/
theorem Linked.nodup (h : Linked next head xs) : xs.Nodup := by
  induction h with
  | nil => exact List.nodup_nil
  | @cons a xs h ih =>
    refine List.nodup_cons.mpr ⟨fun hmem => ?_, ih⟩
    -- the list from the second visit on would be the whole list
    obtain ⟨before, after, rfl⟩ := List.append_of_mem hmem
    have heq : a :: after = a :: (before ++ a :: after) := h.from_node.unique (.cons h)
    have hlen := congrArg List.length heq
    simp only [List.length_cons, List.length_append] at hlen
    omega

/-- Only the pointers of its nodes matter for a list. -/
theorem Linked.congr (h : Linked next head xs) (heq : ∀ a ∈ xs, next' a = next a) :
    Linked next' head xs := by
  induction h with
  | nil => exact .nil
  | cons _ ih =>
    refine .cons ?_
    rw [heq _ List.mem_cons_self]
    exact ih fun b hb => heq b (List.mem_cons_of_mem _ hb)

/-- The loop stays in the list. -/
theorem Linked.lastFrom_mem (h : Linked next (some a) xs) (n : ℕ) : lastFrom next n a ∈ xs := by
  induction n generalizing a xs with
  | zero =>
    cases h
    exact List.mem_cons_self
  | succ n ih =>
    cases h with
    | cons h =>
      rw [lastFrom]
      split
      · exact List.mem_cons_self
      · next b hb =>
        rw [hb] at h
        exact List.mem_cons_of_mem _ (ih h)

/-- **The loop ends** at a node without a successor. -/
theorem Linked.next_lastFrom (h : Linked next (some a) xs) {n : ℕ} (hn : xs.length ≤ n + 1) :
    next (lastFrom next n a) = none := by
  induction n generalizing a xs with
  | zero =>
    cases h with
    | @cons _ xs h =>
      obtain rfl : xs = [] := List.length_eq_zero_iff.mp (by simpa using hn)
      rw [lastFrom]
      generalize hnext : next a = tail at h
      cases h
      rfl
  | succ n ih =>
    cases h with
    | cons h =>
      rw [lastFrom]
      split
      · next hb => exact hb
      · next b hb =>
        rw [hb] at h
        exact ih h (by simpa using hn)

/-- **A node is added at the end**, behind the one that the loop finds. -/
theorem Linked.append [DecidableEq α] {b : α} (h : Linked next (some a) xs) {n : ℕ}
    (hn : xs.length ≤ n + 1) (hb : b ∉ xs) (hnext : next b = none) :
    Linked (Function.update next (lastFrom next n a) (some b)) (some a) (xs ++ [b]) := by
  induction n generalizing a xs with
  | zero =>
    cases h with
    | @cons _ xs h =>
      obtain rfl : xs = [] := List.length_eq_zero_iff.mp (by simpa using hn)
      have hne : b ≠ a := by simpa using hb
      refine .cons ?_
      rw [lastFrom, Function.update_self]
      refine .cons ?_
      rw [Function.update_of_ne hne, hnext]
      exact .nil
  | succ n ih =>
    have hnodup := h.nodup
    cases h with
    | @cons _ xs h =>
      have hne : b ≠ a := fun heq => hb (heq ▸ List.mem_cons_self)
      rw [lastFrom]
      split
      · next hend =>
        rw [hend] at h
        cases h
        refine .cons ?_
        rw [Function.update_self]
        refine .cons ?_
        rw [Function.update_of_ne hne, hnext]
        exact .nil
      · next c hc =>
        rw [hc] at h
        -- the first node is not the last one
        have hlast : a ≠ lastFrom next n c := fun heq =>
          (List.nodup_cons.mp hnodup).1 (heq ▸ h.lastFrom_mem n)
        refine .cons ?_
        rw [Function.update_of_ne hlast, hc]
        exact ih h (by simpa using hn) fun hmem => hb (List.mem_cons_of_mem _ hmem)

end LinkedList
