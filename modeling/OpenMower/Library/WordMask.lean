import Mathlib.Data.BitVec
import Mathlib.Tactic.Common

/-!
# Words of flag bits

A word of flags is rewritten with two masks: `rewrite old add clear` first drops the bits
of `clear` and then sets the bits of `add`. `Covers word mask` says that the word has every
bit of the mask. `setField` writes a number of bits at an offset. All laws are read off bit by bit
from `getLsbD_rewrite`.
-/

namespace WordMask

variable {w : ℕ}

/-- Drop the bits of `clear`, then set the bits of `add`. -/
def rewrite (old add clear : BitVec w) : BitVec w := (old &&& ~~~clear) ||| add

/-- A rewritten word, bit by bit. -/
theorem getLsbD_rewrite {old add clear : BitVec w} {i : ℕ} :
    (rewrite old add clear).getLsbD i =
      ((old.getLsbD i && !clear.getLsbD i) || add.getLsbD i) := by
  simp only [rewrite, BitVec.getLsbD_or, BitVec.getLsbD_and, BitVec.getLsbD_not]
  by_cases hi : i < w
  · simp [hi]
  · simp [BitVec.getLsbD_of_ge old i (by omega)]

/-- Without a clear mask a rewrite only sets bits. -/
theorem rewrite_zero_right {old add : BitVec w} : rewrite old add 0#w = old ||| add := by
  refine BitVec.eq_of_getLsbD_eq fun i _ => ?_
  simp [getLsbD_rewrite]

/-- Two empty masks change nothing. -/
@[simp]
theorem rewrite_zero_zero {old : BitVec w} : rewrite old 0#w 0#w = old := by
  rw [rewrite_zero_right, BitVec.or_zero]

/-- Outside the two masks nothing changes. -/
theorem getLsbD_rewrite_of_not {old add clear : BitVec w} {i : ℕ}
    (ha : add.getLsbD i = false) (hc : clear.getLsbD i = false) :
    (rewrite old add clear).getLsbD i = old.getLsbD i := by
  rw [getLsbD_rewrite, ha, hc]
  simp

/-- A bit goes from set to clear only if the clear mask names it and the add mask does not. -/
theorem clears_iff {old add clear : BitVec w} {i : ℕ} (h : old.getLsbD i = true) :
    (rewrite old add clear).getLsbD i = false ↔
      clear.getLsbD i = true ∧ add.getLsbD i = false := by
  rw [getLsbD_rewrite, h]
  cases clear.getLsbD i <;> cases add.getLsbD i <;> simp

/-- The word has every bit of the mask. -/
def Covers (word mask : BitVec w) : Prop := ∀ i, mask.getLsbD i = true → word.getLsbD i = true

/-- Covering as the test that code makes. -/
theorem covers_iff_and_eq {word mask : BitVec w} : Covers word mask ↔ word &&& mask = mask := by
  constructor
  · intro h
    refine BitVec.eq_of_getLsbD_eq fun i _ => ?_
    rw [BitVec.getLsbD_and]
    cases hm : mask.getLsbD i with
    | false => simp
    | true => simp [h i hm]
  · intro h i hi
    rw [← h, BitVec.getLsbD_and] at hi
    exact ((Bool.and_eq_true _ _).mp hi).1

instance (word mask : BitVec w) : Decidable (Covers word mask) :=
  decidable_of_iff _ covers_iff_and_eq.symm

/-- A word that covers a non-zero mask is non-zero. -/
theorem Covers.ne_zero {word mask : BitVec w} (h : Covers word mask) (hm : mask ≠ 0#w) :
    word ≠ 0#w := by
  rintro rfl
  refine hm (BitVec.eq_of_getLsbD_eq fun i _ => ?_)
  cases hi : mask.getLsbD i with
  | false => simp
  | true => simpa using h i hi

/-- The test of one bit. -/
theorem and_twoPow_ne_zero_iff {word : BitVec w} {i : ℕ} :
    word &&& BitVec.twoPow w i ≠ 0#w ↔ word.getLsbD i = true := by
  rw [BitVec.and_twoPow]
  constructor
  · intro hne
    by_contra hbit
    exact hne (if_neg hbit)
  · intro hbit hzero
    rw [if_pos hbit] at hzero
    have hset := congrArg (·.getLsbD i) hzero
    simp [BitVec.lt_of_getLsbD hbit] at hset

/-- The same with the bit moved to the end. -/
theorem and_twoPow_ushiftRight_ne_zero_iff {word : BitVec w} {i : ℕ} :
    (word &&& BitVec.twoPow w i) >>> i ≠ 0#w ↔ word.getLsbD i = true := by
  rw [← and_twoPow_ne_zero_iff]
  refine not_congr ⟨fun hshift => ?_, fun hzero => by rw [hzero, BitVec.zero_ushiftRight]⟩
  by_contra hne
  have hbit := and_twoPow_ne_zero_iff.mp hne
  have hmoved : ((word &&& BitVec.twoPow w i) >>> i).getLsbD 0 = false := by
    rw [hshift, BitVec.getLsbD_zero]
  rw [BitVec.getLsbD_ushiftRight, Nat.add_zero, BitVec.getLsbD_and, hbit, BitVec.getLsbD_twoPow,
    decide_eq_true (BitVec.lt_of_getLsbD hbit), decide_eq_true rfl] at hmoved
  exact absurd hmoved (by decide)

/-- **When a rewrite keeps a mask.** Of a mask that the old word covers, the new word loses
exactly the bits that are cleared and not added. -/
theorem covers_rewrite_iff {old add clear mask : BitVec w} (h : Covers old mask) :
    Covers (rewrite old add clear) mask ↔ mask &&& (clear &&& ~~~add) = 0#w := by
  have key : ∀ i, i < w → ((mask &&& (clear &&& ~~~add)).getLsbD i = false ↔
      (mask.getLsbD i = true → (rewrite old add clear).getLsbD i = true)) := by
    intro i hi
    simp only [BitVec.getLsbD_and, BitVec.getLsbD_not, hi, decide_true, Bool.true_and]
    cases hm : mask.getLsbD i with
    | false => simp
    | true =>
      have hold := h i hm
      rw [getLsbD_rewrite, hold]
      cases clear.getLsbD i <;> cases add.getLsbD i <;> simp
  constructor
  · intro hc
    refine BitVec.eq_of_getLsbD_eq fun i hi => ?_
    rw [(key i hi).mpr (hc i), BitVec.getLsbD_zero]
  · intro hz i hm
    have hi : i < w := BitVec.lt_of_getLsbD hm
    exact (key i hi).mp (by rw [hz, BitVec.getLsbD_zero]) hm

/-! ### Fields -/

variable {k k' : ℕ} {word : BitVec w} {o o' i : ℕ} {value value₂ : BitVec k} {value' : BitVec k'}

/-- Writes the field of a width at an offset. -/
def setField (word : BitVec w) (o : ℕ) (value : BitVec k) : BitVec w :=
  rewrite word (value.setWidth w <<< o) ((BitVec.allOnes k).setWidth w <<< o)

/-- A word with a new field, bit by bit. -/
theorem getLsbD_setField (hi : i < w) :
    (setField word o value).getLsbD i =
      if o ≤ i ∧ i < o + k then value.getLsbD (i - o) else word.getLsbD i := by
  rw [setField, getLsbD_rewrite]
  by_cases hlow : i < o
  · have hnot : ¬ (o ≤ i ∧ i < o + k) := by omega
    simp [hlow, hnot]
  · by_cases hhigh : i < o + k
    · have hin : o ≤ i ∧ i < o + k := by omega
      have hk : i - o < k := by omega
      simp [hlow, hin, hi, hk]
    · have hnot : ¬ (o ≤ i ∧ i < o + k) := by omega
      have hk : ¬ i - o < k := by omega
      have hge : k ≤ i - o := by omega
      simp [hlow, hnot, hi, hk, BitVec.getLsbD_of_ge value _ hge]

/-- The field that has been written is read back. -/
theorem extractLsb'_setField_self (h : o + k ≤ w) :
    (setField word o value).extractLsb' o k = value := by
  refine BitVec.eq_of_getLsbD_eq fun i hi => ?_
  have hin : o ≤ o + i ∧ o + i < o + k := by omega
  rw [BitVec.getLsbD_extractLsb', getLsbD_setField (by omega), if_pos hin, Nat.add_sub_cancel_left]
  simp [hi]

/-- Another field stays as it is. -/
theorem extractLsb'_setField_of_disjoint (h : o' + k' ≤ w) (hdisj : o' + k' ≤ o ∨ o + k ≤ o') :
    (setField word o value).extractLsb' o' k' = word.extractLsb' o' k' := by
  refine BitVec.eq_of_getLsbD_eq fun i hi => ?_
  have hout : ¬ (o ≤ o' + i ∧ o' + i < o + k) := by omega
  rw [BitVec.getLsbD_extractLsb', BitVec.getLsbD_extractLsb', getLsbD_setField (by omega),
    if_neg hout]

/-- Two fields are written in any order. -/
theorem setField_comm (hdisj : o' + k' ≤ o ∨ o + k ≤ o') :
    setField (setField word o value) o' value' = setField (setField word o' value') o value := by
  refine BitVec.eq_of_getLsbD_eq fun i hi => ?_
  rw [getLsbD_setField hi, getLsbD_setField hi, getLsbD_setField hi, getLsbD_setField hi]
  split_ifs
  · omega
  · rfl
  · rfl
  · rfl

/-- The last write to a field counts. -/
theorem setField_setField :
    setField (setField word o value) o value₂ = setField word o value₂ := by
  refine BitVec.eq_of_getLsbD_eq fun i hi => ?_
  rw [getLsbD_setField hi, getLsbD_setField hi, getLsbD_setField hi]
  split_ifs <;> rfl
end WordMask
