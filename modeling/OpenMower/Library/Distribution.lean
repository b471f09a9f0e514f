import Mathlib.Data.List.Perm.Basic
import Mathlib.Tactic.Common

/-!
# Resources of several owners

Each owner in a list holds a list of resources. When one owner takes a resource, all resources
together are those from before and this one (`flatMap_set_take`), and when it gives one away they
are those from before without it (`flatMap_set_give`).
-/

universe u v

variable {α : Type u} {β : Type v} {f : α → List β} {owners : List α} {i : ℕ} {a b : α} {x : β}

/-- One owner takes a resource. -/
theorem flatMap_set_take (h : owners[i]? = some a) (hb : (f b).Perm (x :: f a)) :
    ((owners.set i b).flatMap f).Perm (x :: owners.flatMap f) := by
  induction owners generalizing i with
  | nil => simp at h
  | cons c owners ih =>
    cases i with
    | zero =>
      obtain rfl : c = a := by simpa using h
      exact hb.append_right _
    | succ i =>
      have htail := ih (i := i) (by simpa using h)
      rw [List.set_cons_succ, List.flatMap_cons, List.flatMap_cons]
      exact (htail.append_left _).trans List.perm_middle

/-- One owner gives a resource away. -/
theorem flatMap_set_give (h : owners[i]? = some a) (hb : (f a).Perm (x :: f b)) :
    (owners.flatMap f).Perm (x :: (owners.set i b).flatMap f) := by
  obtain ⟨hi, hget⟩ := List.getElem?_eq_some_iff.mp h
  have hback : (owners.set i b).set i a = owners := by
    rw [List.set_set, ← hget, List.set_getElem_self]
  have htake := flatMap_set_take (List.getElem?_set_self hi) hb
  rwa [hback] at htake

/-- One owner changes and keeps its resources. -/
theorem flatMap_set_of_eq (h : owners[i]? = some a) (hb : f b = f a) :
    (owners.set i b).flatMap f = owners.flatMap f := by
  induction owners generalizing i with
  | nil => rfl
  | cons c owners ih =>
    cases i with
    | zero =>
      obtain rfl : c = a := by simpa using h
      rw [List.set_cons_zero, List.flatMap_cons, List.flatMap_cons, hb]
    | succ i =>
      have htail := ih (i := i) (by simpa using h)
      rw [List.set_cons_succ, List.flatMap_cons, List.flatMap_cons, htail]
