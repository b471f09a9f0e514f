import Mathlib.Data.List.Basic
import Mathlib.Tactic.Common

/-!
# Searching a chunk

`memchr` finds the first occurrence of an element. What it finds in a chunk is related to the
stream that the chunk is cut out of by two facts about lists that are cut at the first
occurrence of an element: the cut is unique (`eq_of_append_cons_eq`), and a chunk without the
element ends before it (`exists_of_append_eq_append_cons`).
-/

universe u

namespace Search

variable {α : Type u}

/-- The index of the first occurrence. -/
def memchr [DecidableEq α] (data : List α) (a : α) : Option ℕ :=
  data.findIdx? fun b => decide (b = a)

/-- Either the element does not occur, or the data is cut at its first occurrence. -/
theorem memchr_cases [DecidableEq α] (data : List α) (a : α) :
    (a ∉ data ∧ memchr data a = none) ∨
      ∃ before after, data = before ++ a :: after ∧ a ∉ before ∧
        memchr data a = some before.length := by
  induction data with
  | nil => exact .inl ⟨List.not_mem_nil, rfl⟩
  | cons b data ih =>
    by_cases hb : b = a
    · subst hb
      exact .inr ⟨[], data, rfl, List.not_mem_nil, by simp [memchr, List.findIdx?_cons]⟩
    · have hne : a ≠ b := Ne.symm hb
      have hnext : memchr (b :: data) a = (memchr data a).map (· + 1) := by
        simp [memchr, List.findIdx?_cons, hb]
      rcases ih with ⟨hnot, hnone⟩ | ⟨before, after, rfl, hnot, hsome⟩
      · exact .inl ⟨by simp [hne, hnot], by rw [hnext, hnone]; rfl⟩
      · exact .inr ⟨b :: before, after, rfl, by simp [hne, hnot], by rw [hnext, hsome]; rfl⟩

/-- The cut at the first occurrence is unique. -/
theorem eq_of_append_cons_eq {x y u v : List α} {a : α} (hx : a ∉ x) (hy : a ∉ y)
    (h : x ++ a :: u = y ++ a :: v) : x = y ∧ u = v := by
  rw [List.append_eq_append_iff] at h
  rcases h with ⟨z, rfl, hz⟩ | ⟨z, rfl, hz⟩
  · cases z with
    | nil => simpa using hz
    | cons b z =>
      obtain ⟨rfl, -⟩ := List.cons.inj hz
      exact absurd (by simp) hy
  · cases z with
    | nil => simpa [eq_comm] using hz
    | cons b z =>
      obtain ⟨rfl, -⟩ := List.cons.inj hz
      exact absurd (by simp) hx

/-- A part from the front without the element ends before the first occurrence. -/
theorem exists_of_append_eq_append_cons {x y u v : List α} {a : α} (hx : a ∉ x)
    (h : x ++ u = y ++ a :: v) : ∃ z, y = x ++ z ∧ u = z ++ a :: v := by
  rw [List.append_eq_append_iff] at h
  rcases h with hcut | ⟨z, rfl, hz⟩
  · exact hcut
  · cases z with
    | nil => exact ⟨[], by simp, by simpa using hz.symm⟩
    | cons b z =>
      obtain ⟨rfl, -⟩ := List.cons.inj hz
      exact absurd (by simp) hx

end Search
