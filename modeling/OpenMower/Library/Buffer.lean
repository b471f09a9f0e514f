import Mathlib.Data.List.GetD
import Mathlib.Logic.Function.Basic
import Mathlib.Tactic.Common

/-!
# Buffers

A buffer is a function from indices to elements, so that an access out of range is visible as
an index. `writeAt` is `memcpy` into a buffer and `slice` reads a range of it.

The lemmas relate the two: a buffer that is filled from the front has read back what was
written (`slice_writeAt`), and the parts of a slice are slices (`slice_of_append`).

A `Writer` is a buffer with the number of elements that have been written to it, one behind the
other. An element can be left out and filled in later (`skip`, `patch`).
-/

universe u

namespace Buffer

variable {α : Type u}

/-- Overwrites the buffer from index `start` on. -/
def writeAt (buf : ℕ → α) (start : ℕ) (data : List α) : ℕ → α :=
  fun i => if start ≤ i then data[i - start]?.getD (buf i) else buf i

/-- The elements from index `start` on. -/
def slice (buf : ℕ → α) (start len : ℕ) : List α := (List.range' start len).map buf

variable {buf : ℕ → α} {start len : ℕ}

theorem writeAt_of_lt {data : List α} {i : ℕ} (h : i < start) :
    writeAt buf start data i = buf i := by
  rw [writeAt, if_neg (by omega)]

@[simp] theorem length_slice : (slice buf start len).length = len := by simp [slice]

@[simp] theorem slice_one : slice buf start 1 = [buf start] := rfl

/-- A slice is one after the other. -/
theorem slice_add (m n : ℕ) :
    slice buf start (m + n) = slice buf start m ++ slice buf (start + m) n := by
  rw [slice, slice, slice, ← List.map_append, List.range'_append_1]

/-- A write outside of a slice. -/
theorem slice_update {i : ℕ} (h : i < start ∨ start + len ≤ i) (a : α) :
    slice (Function.update buf i a) start len = slice buf start len := by
  refine List.map_congr_left fun j hj => Function.update_of_ne ?_ _ _
  rw [List.mem_range'_1] at hj
  omega

/-- A write right behind a slice. -/
theorem slice_update_succ (a : α) :
    slice (Function.update buf (start + len) a) start (len + 1) = slice buf start len ++ [a] := by
  rw [slice_add, slice_update (.inr (Nat.le_refl _)), slice_one, Function.update_self]

/-- The parts of a slice. -/
theorem slice_of_append {before part after : List α}
    (h : slice buf start len = before ++ part ++ after) :
    slice buf (start + before.length) part.length = part := by
  have hlen : len = before.length + part.length + after.length := by
    rw [← @length_slice _ buf start len, h]
    simp only [List.length_append]
  rw [hlen, slice_add, slice_add, List.append_assoc, List.append_assoc] at h
  obtain ⟨-, hrest⟩ := List.append_inj h (by simp)
  exact (List.append_inj hrest (by simp)).1

/-- An element of a slice. -/
theorem apply_of_slice {before after : List α} {a : α}
    (h : slice buf start len = before ++ a :: after) : buf (start + before.length) = a := by
  have hpart : slice buf start len = before ++ [a] ++ after := by simpa using h
  simpa using slice_of_append hpart

/-- A slice that is known element by element. -/
theorem slice_eq_of_getD {data : List α} {d : α}
    (h : ∀ i < data.length, buf (start + i) = data.getD i d) :
    slice buf start data.length = data := by
  refine List.ext_getElem length_slice fun i hi hi' => ?_
  have hbyte : buf (start + i) = data[i] := by
    rw [h i hi', List.getD_eq_getElem?_getD, List.getElem?_eq_getElem hi', Option.getD_some]
  simpa [slice] using hbyte

/-- A buffer that has been filled from the front. -/
theorem slice_writeAt {data : List α} (n : ℕ) :
    slice (writeAt buf n data) 0 (n + data.length) = slice buf 0 n ++ data := by
  rw [slice_add]
  congr 1
  · refine List.map_congr_left fun i hi => writeAt_of_lt ?_
    simpa using hi
  · refine List.ext_getElem (by simp) fun i hi hi' => ?_
    simp [slice, writeAt, hi']

/-- A buffer that is being filled. -/
structure Writer (α : Type u) where
  buffer : ℕ → α
  /-- The index that is written next. -/
  len : ℕ

namespace Writer

/-- Nothing has been written. -/
def ofBuffer (buffer : ℕ → α) : Writer α := { buffer, len := 0 }

variable (w : Writer α)

/-- Writes the next element. -/
def put (a : α) : Writer α :=
  { buffer := Function.update w.buffer w.len a, len := w.len + 1 }

/-- Leaves out the next element. -/
def skip : Writer α := { w with len := w.len + 1 }

/-- Overwrites an element. -/
def patch (i : ℕ) (a : α) : Writer α := { w with buffer := Function.update w.buffer i a }

/-- What has been written. -/
def contents : List α := slice w.buffer 0 w.len

variable {w}

@[simp] theorem ofBuffer_len {buffer : ℕ → α} : (ofBuffer buffer).len = 0 := rfl

@[simp] theorem put_len {a : α} : (w.put a).len = w.len + 1 := rfl

@[simp] theorem skip_len : w.skip.len = w.len + 1 := rfl

@[simp] theorem patch_len {i : ℕ} {a : α} : (w.patch i a).len = w.len := rfl

@[simp] theorem length_contents : w.contents.length = w.len := length_slice

@[simp] theorem contents_ofBuffer {buffer : ℕ → α} : (ofBuffer buffer).contents = [] := rfl

@[simp]
theorem contents_put {a : α} : (w.put a).contents = w.contents ++ [a] := by
  have hwrite := @slice_update_succ _ w.buffer 0 w.len a
  rw [Nat.zero_add] at hwrite
  exact hwrite

/-- What has been written is read from the buffer. -/
theorem apply_of_contents {f : ℕ → α} (h : w.contents = (List.range w.len).map f) {i : ℕ}
    (hi : i < w.len) : w.buffer i = f i := by
  rw [contents, slice, ← List.range_eq_range', List.map_inj_left] at h
  exact h i (List.mem_range.mpr hi)

theorem contents_skip : w.skip.contents = w.contents ++ [w.buffer w.len] := by
  rw [contents, contents, skip_len, slice_add, slice_one, Nat.zero_add]
  rfl

/-- The element that was left out is filled in. -/
theorem contents_patch {before after : List α} {hole a : α}
    (h : w.contents = before ++ hole :: after) :
    (w.patch before.length a).contents = before ++ a :: after := by
  have hlen : w.len = before.length + (after.length + 1) := by
    rw [← w.length_contents, h, List.length_append, List.length_cons]
  rw [contents, hlen] at h
  rw [contents, patch_len, hlen]
  refine List.ext_getElem (by simp) fun i hi hi' => ?_
  have hbound : i < (before ++ hole :: after).length := by simpa using hi'
  have hold : w.buffer i = (before ++ hole :: after)[i] := by
    simp [← h, slice]
  by_cases hi : i = before.length
  · subst hi
    simp [slice, patch]
  · have hread : (w.patch before.length a).buffer i = w.buffer i := Function.update_of_ne hi _ _
    simp only [slice, List.getElem_map, List.getElem_range', Nat.one_mul, Nat.zero_add, hread,
      hold]
    rcases Nat.lt_or_gt_of_ne hi with hlt | hgt
    · rw [List.getElem_append_left hlt, List.getElem_append_left hlt]
    · rw [List.getElem_append_right (by omega), List.getElem_append_right (by omega),
        List.getElem_cons, List.getElem_cons, dif_neg (by omega), dif_neg (by omega)]

end Writer

end Buffer
