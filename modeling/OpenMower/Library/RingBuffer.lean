import OpenMower.Library.Buffer

/-!
# Ring buffers that are filled by another party

Elements arrive in a buffer of `size` slots from the front on. At the end of the buffer the other
party begins at the front again. A reader sees how many slots are left, and remembers up to where
it has read.

`Unread` relates what has not been read to the buffer. It is kept by arrivals and by the return to
the front as long as less than a whole buffer is unread, and then the reader can tell from its
position alone whether the writer has returned to the front (`Unread.cases`).

`Laps` counts the returns to the front instead, and says what each slot holds however much of it
has been read. A reader that has counted the returns for itself reads the right element exactly if
its count is the writer's, or one less in the slots that the writer has yet to fill
(`Laps.read_iff`).
-/

universe u

open Buffer

/-- The buffer, and how many slots are left up to its end. -/
structure RingBuffer (α : Type u) where
  buffer : ℕ → α
  left : ℕ

namespace RingBuffer

variable {α : Type u} (size : ℕ) (r : RingBuffer α)

/-- Nothing has arrived. -/
def empty (buffer : ℕ → α) : RingBuffer α := { buffer, left := size }

/-- How many slots have been filled from the front on. -/
def position : ℕ := size - r.left

/-- An element arrives. -/
def arrive (a : α) : RingBuffer α :=
  { buffer := Function.update r.buffer (r.position size) a, left := r.left - 1 }

/-- The other party begins at the front again. -/
def rearm : RingBuffer α := { r with left := size }

/-- What has arrived since the reader was at `seen`: a slice from there on, or one up to the end
and one from the front. -/
inductive Unread (seen : ℕ) (unread : List α) : Prop
  | straight (hposition : seen + unread.length + r.left = size)
      (hslice : slice r.buffer seen unread.length = unread)
  | wrapped (tail head : List α) (hunread : unread = tail ++ head)
      (htail : seen + tail.length = size) (hhead : head.length + r.left = size)
      (hslice : slice r.buffer seen tail.length = tail)
      (hfront : slice r.buffer 0 head.length = head)

variable {size r} {seen : ℕ} {unread : List α}

/-- Everything has been read. -/
theorem Unread.nil (h : seen + r.left = size) : Unread size r seen [] := .straight h rfl

theorem Unread.left_le (h : Unread size r seen unread) : r.left ≤ size := by
  cases h with
  | straight hposition _ => omega
  | wrapped _ _ _ _ hhead _ _ => omega

/-- **An arrival** that does not overwrite what has not been read. -/
theorem Unread.arrive (h : Unread size r seen unread) (hleft : 0 < r.left)
    (hroom : unread.length < size) (a : α) :
    Unread size (r.arrive size a) seen (unread ++ [a]) := by
  cases h with
  | straight hposition hslice =>
    have hindex : r.position size = seen + unread.length := by
      rw [position]
      omega
    refine .straight ?_ ?_
    · rw [RingBuffer.arrive, List.length_append, List.length_singleton]
      dsimp only
      omega
    · rw [RingBuffer.arrive, hindex, List.length_append, List.length_singleton, slice_update_succ,
        hslice]
  | wrapped tail head hunread htail hhead hslice hfront =>
    have hindex : r.position size = 0 + head.length := by
      rw [position]
      omega
    have hlen := congrArg List.length hunread
    rw [List.length_append] at hlen
    -- the slot is behind the head, and before the tail since there is room
    refine .wrapped tail (head ++ [a]) (by rw [hunread, List.append_assoc]) htail ?_ ?_ ?_
    · rw [RingBuffer.arrive, List.length_append, List.length_singleton]
      dsimp only
      omega
    · rw [RingBuffer.arrive, hindex, slice_update (by omega), hslice]
    · rw [RingBuffer.arrive, hindex, List.length_append, List.length_singleton, slice_update_succ,
        hfront]

/-- **A return to the front.** -/
theorem Unread.rearm (h : Unread size r seen unread) (hleft : r.left = 0)
    (hroom : unread.length < size) : Unread size (r.rearm size) seen unread := by
  cases h with
  | straight hposition hslice =>
    exact .wrapped unread [] (List.append_nil _).symm (by omega) (Nat.zero_add _) hslice rfl
  | wrapped tail head hunread htail hhead _ _ =>
    -- the head would reach the end, and a whole buffer would be unread
    have hlen := congrArg List.length hunread
    rw [List.length_append] at hlen
    omega

/-- **What the position says.** If less than a whole buffer is unread, the writer has returned to
the front exactly if its position is before the reader's. -/
theorem Unread.cases (h : Unread size r seen unread) (hroom : unread.length < size) :
    (seen ≤ r.position size ∧ slice r.buffer seen (r.position size - seen) = unread) ∨
      (r.position size < seen ∧
        slice r.buffer seen (size - seen) ++ slice r.buffer 0 (r.position size) = unread) := by
  cases h with
  | straight hposition hslice =>
    have hindex : r.position size = seen + unread.length := by
      rw [position]
      omega
    refine .inl ⟨by omega, ?_⟩
    rw [hindex, Nat.add_sub_cancel_left, hslice]
  | wrapped tail head hunread htail hhead hslice hfront =>
    have hindex : r.position size = head.length := by
      rw [position]
      omega
    have hlen := congrArg List.length hunread
    rw [List.length_append] at hlen
    have hrest : size - seen = tail.length := by omega
    refine .inr ⟨by omega, ?_⟩
    rw [hrest, hindex, hslice, hfront, hunread]

/-- What the slots hold after so many returns to the front. -/
structure Laps (size : ℕ) (r : RingBuffer α) (arrived : List α) (laps : ℕ) : Prop where
  left_le : r.left ≤ size
  length_eq : arrived.length = laps * size + r.position size
  front : ∀ i < r.position size, arrived[laps * size + i]? = some (r.buffer i)
  back : ∀ n, laps = n + 1 → ∀ i < size, r.position size ≤ i →
    arrived[n * size + i]? = some (r.buffer i)

section

variable {arrived : List α} {laps : ℕ}

theorem Laps.empty (buffer : ℕ → α) : Laps size (empty size buffer) [] 0 := by
  have hposition : (RingBuffer.empty size buffer).position size = 0 := Nat.sub_self size
  refine ⟨Nat.le_refl _, ?_, fun i hi => ?_, fun n hn => nomatch hn⟩
  · rw [hposition, Nat.zero_mul]
    rfl
  · rw [hposition] at hi
    exact absurd hi (Nat.not_lt_zero i)

theorem position_arrive (hle : r.left ≤ size) (hleft : 0 < r.left) (a : α) :
    (r.arrive size a).position size = r.position size + 1 := by
  rw [position, position, RingBuffer.arrive]
  dsimp only
  omega

theorem Laps.position_lt (h : Laps size r arrived laps) (hleft : 0 < r.left) :
    r.position size < size := by
  have hle := h.left_le
  rw [position]
  omega

/-- **An arrival.** -/
theorem Laps.arrive (h : Laps size r arrived laps) (hleft : 0 < r.left) (a : α) :
    Laps size (r.arrive size a) (arrived ++ [a]) laps := by
  have hposition := position_arrive h.left_le hleft a
  have hlt := h.position_lt hleft
  refine ⟨Nat.le_trans (Nat.sub_le _ _) h.left_le, ?_, fun i hi => ?_, fun n hn i hi hback => ?_⟩
  · rw [List.length_append, h.length_eq, hposition]
    rfl
  · rw [hposition] at hi
    rcases Nat.lt_succ_iff_lt_or_eq.mp hi with hold | rfl
    · have hbound : laps * size + i < arrived.length := by
        rw [h.length_eq]
        omega
      rw [List.getElem?_append_left hbound, h.front i hold]
      exact congrArg some (Function.update_of_ne (Nat.ne_of_lt hold) _ _).symm
    · have hwritten : (r.arrive size a).buffer (r.position size) = a := Function.update_self _ _ _
      rw [← h.length_eq, List.getElem?_concat_length, hwritten]
  · rw [hposition] at hback
    have hbound : n * size + i < arrived.length := by
      rw [h.length_eq, hn, Nat.succ_mul]
      omega
    rw [List.getElem?_append_left hbound, h.back n hn i hi (by omega)]
    exact congrArg some (Function.update_of_ne (Nat.ne_of_gt hback) _ _).symm

/-- **A return to the front.** -/
theorem Laps.rearm (h : Laps size r arrived laps) (hleft : r.left = 0) :
    Laps size (r.rearm size) arrived (laps + 1) := by
  have hfull : r.position size = size := by
    rw [position, hleft]
    rfl
  have hposition : (r.rearm size).position size = 0 := Nat.sub_self size
  refine ⟨Nat.le_refl _, ?_, fun i hi => ?_, fun n hn i hi _ => ?_⟩
  · rw [h.length_eq, hfull, hposition, Nat.succ_mul]
    rfl
  · rw [hposition] at hi
    exact absurd hi (Nat.not_lt_zero i)
  · obtain rfl : laps = n := Nat.succ.inj hn
    exact h.front i (Nat.lt_of_lt_of_eq hi hfull.symm)

/-- A prefix goes on with the element at its length. -/
theorem concat_isPrefix_iff {l l' : List α} (h : l <+: l') (a : α) :
    l ++ [a] <+: l' ↔ l'[l.length]? = some a := by
  obtain ⟨rest, rfl⟩ := h
  rw [List.prefix_append_right_inj, List.getElem?_append_right (Nat.le_refl _), Nat.sub_self]
  cases rest with
  | nil => simp
  | cons b rest => simp [eq_comm]

/-- Whole buffers and a slot say which element it is. -/
theorem index_inj {m n slot : ℕ} (hslot : slot < size) (h : m * size + slot = n * size + slot) :
    m = n :=
  Nat.eq_of_mul_eq_mul_right (Nat.zero_lt_of_lt hslot) (Nat.add_right_cancel h)

/-- **A slot that is read.** A reader that has counted `n` returns to the front finds the element
that it expects there exactly if the writer has returned as often and has refilled the slot, or has
returned once more and has not. -/
theorem Laps.read_iff (h : Laps size r arrived laps) (hnodup : arrived.Nodup) {slot n : ℕ}
    (hslot : slot < size) :
    arrived[n * size + slot]? = some (r.buffer slot) ↔
      if slot < r.position size then laps = n else laps = n + 1 := by
  -- the element in the slot came at one time only
  have hunique : ∀ m, arrived[m * size + slot]? = some (r.buffer slot) →
      arrived[n * size + slot]? = some (r.buffer slot) → m = n := fun m hm hn => by
    obtain ⟨hbound, -⟩ := List.getElem?_eq_some_iff.mp hm
    exact index_inj hslot ((List.getElem?_inj hbound hnodup).mp (hm.trans hn.symm))
  split
  · next hfront =>
    have hread := h.front slot hfront
    exact ⟨hunique laps hread, fun heq => heq ▸ hread⟩
  · next hback =>
    constructor
    · intro hread
      cases laps with
      | zero =>
        -- nothing has been written to the slot, and too little has arrived
        obtain ⟨hbound, -⟩ := List.getElem?_eq_some_iff.mp hread
        have hlen := h.length_eq
        omega
      | succ m => exact congrArg (· + 1) (hunique m (h.back m rfl slot hslot (by omega)) hread)
    · rintro rfl
      exact h.back n rfl slot hslot (by omega)

end

end RingBuffer
