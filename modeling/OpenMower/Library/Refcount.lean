import Mathlib.Data.Finset.Card
import Mathlib.Data.Finset.Dedup
import Mathlib.Tactic.Common

/-!
# Reference counts of the keys in a list

Each element of a list holds at most one key. `refcount key l k` is the number of elements
that hold `k`, and `keys key l` are the keys that some element holds.

When one element acquires a key, the count of that key goes up by one, and the number of keys
goes up exactly if that count was zero (`refcount_set_acquire`, `card_keys_set_acquire`). The
release of a key is the same step backwards. Hence a program that maintains the counts and the
number of keys by such steps always has the right numbers.
-/

namespace Refcount

variable {α κ : Type*} {key : α → Option κ} {l : List α} {i : ℕ} {a b : α} {k k' : κ}

/-- An element that holds no key acquires one. -/
private theorem filterMap_set_perm (h : l[i]? = some a) (ha : key a = none)
    (hb : key b = some k) : ((l.set i b).filterMap key).Perm (k :: l.filterMap key) := by
  induction l generalizing i with
  | nil => simp at h
  | cons c l ih =>
    cases i with
    | zero =>
      obtain rfl : c = a := by simpa using h
      simp [ha, hb]
    | succ i =>
      have hperm := ih (i := i) (by simpa using h)
      rw [List.set_cons_succ, List.filterMap_cons, List.filterMap_cons]
      cases key c with
      | none => exact hperm
      | some k' => exact (hperm.cons k').trans (List.Perm.swap k k' _)

/-- A change that keeps the key of the element changes no count and no key. -/
theorem filterMap_set_of_key_eq (h : l[i]? = some a) (hkey : key b = key a) :
    (l.set i b).filterMap key = l.filterMap key := by
  induction l generalizing i with
  | nil => rfl
  | cons c l ih =>
    cases i with
    | zero =>
      obtain rfl : c = a := by simpa using h
      simp [List.filterMap_cons, hkey]
    | succ i =>
      have htail := ih (i := i) (by simpa using h)
      rw [List.set_cons_succ, List.filterMap_cons, List.filterMap_cons, htail]

variable [DecidableEq κ]

/-- The number of elements that hold the key. -/
def refcount (key : α → Option κ) (l : List α) (k : κ) : ℕ := (l.filterMap key).count k

/-- The keys that are held. -/
def keys (key : α → Option κ) (l : List α) : Finset κ := (l.filterMap key).toFinset

/-- A key is held exactly when its count is positive. -/
theorem mem_keys : k ∈ keys key l ↔ refcount key l k ≠ 0 := by
  rw [keys, refcount, List.mem_toFinset, ← List.count_pos_iff, Nat.pos_iff_ne_zero]

/-- Counting the elements that satisfy a predicate is the case of a single key. -/
theorem countP_eq_refcount (p : α → Bool) (l : List α) :
    l.countP p = refcount (fun a => if p a then some () else none) l () := by
  induction l with
  | nil => rfl
  | cons a l ih =>
    rw [refcount] at ih
    rw [refcount, List.countP_cons, List.filterMap_cons, ih]
    cases p a <;> simp

theorem refcount_le_length : refcount key l k ≤ l.length :=
  List.count_le_length.trans (List.length_filterMap_le key l)

theorem card_keys_le_length : (keys key l).card ≤ l.length :=
  (List.toFinset_card_le _).trans (List.length_filterMap_le key l)

theorem refcount_set_of_key_eq (h : l[i]? = some a) (hkey : key b = key a) :
    refcount key (l.set i b) k = refcount key l k := by
  rw [refcount, filterMap_set_of_key_eq h hkey, refcount]

theorem keys_set_of_key_eq (h : l[i]? = some a) (hkey : key b = key a) :
    keys key (l.set i b) = keys key l := by
  rw [keys, filterMap_set_of_key_eq h hkey, keys]

/-- **Acquire.** The count of the key goes up by one. -/
theorem refcount_set_acquire (h : l[i]? = some a) (ha : key a = none) (hb : key b = some k) :
    refcount key (l.set i b) k' = refcount key l k' + if k' = k then 1 else 0 := by
  rw [refcount, (filterMap_set_perm h ha hb).count_eq, List.count_cons, refcount]
  simp only [beq_iff_eq, @eq_comm _ k k']

/-- **Acquire.** The number of keys goes up exactly if the key was not held. -/
theorem card_keys_set_acquire (h : l[i]? = some a) (ha : key a = none) (hb : key b = some k) :
    (keys key (l.set i b)).card = (keys key l).card + if refcount key l k = 0 then 1 else 0 := by
  have hkeys : keys key (l.set i b) = insert k (keys key l) := by
    rw [keys, List.toFinset_eq_of_perm _ _ (filterMap_set_perm h ha hb), List.toFinset_cons, keys]
  rw [hkeys]
  split
  · next hzero => exact Finset.card_insert_of_notMem (by simpa [mem_keys] using hzero)
  · next hpos => rw [Finset.insert_eq_of_mem (mem_keys.mpr hpos), Nat.add_zero]

private theorem set_set_of_getElem? (h : l[i]? = some a) : (l.set i b).set i a = l := by
  obtain ⟨hi, rfl⟩ := List.getElem?_eq_some_iff.mp h
  rw [List.set_set, List.set_getElem_self]

private theorem getElem?_set_of_getElem? (h : l[i]? = some a) : (l.set i b)[i]? = some b := by
  obtain ⟨hi, -⟩ := List.getElem?_eq_some_iff.mp h
  rw [List.getElem?_set_self hi]

/-- **Release.** The count of the key goes down by one. -/
theorem refcount_set_release (h : l[i]? = some a) (ha : key a = some k) (hb : key b = none) :
    refcount key l k' = refcount key (l.set i b) k' + if k' = k then 1 else 0 := by
  have hback : refcount key ((l.set i b).set i a) k' = _ :=
    refcount_set_acquire (getElem?_set_of_getElem? h) hb ha
  rwa [set_set_of_getElem? h] at hback

/-- **Release.** The number of keys goes down exactly if the key is not held any more. -/
theorem card_keys_set_release (h : l[i]? = some a) (ha : key a = some k) (hb : key b = none) :
    (keys key l).card =
      (keys key (l.set i b)).card + if refcount key (l.set i b) k = 0 then 1 else 0 := by
  have hback : (keys key ((l.set i b).set i a)).card = _ :=
    card_keys_set_acquire (getElem?_set_of_getElem? h) hb ha
  rwa [set_set_of_getElem? h] at hback

end Refcount
