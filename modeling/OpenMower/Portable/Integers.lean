import Mathlib.Data.BitVec

/-!
# Machine integers

The bytes of the received streams, and the arithmetic of `size_t`, which has 32 bits on the
target.
-/

namespace OpenMower

/-- A `uint8_t`. -/
abbrev Byte := BitVec 8

/-- The subtraction of `size_t`. -/
def sizeSub (a b : ℕ) : ℕ := (a + 2 ^ 32 - b) % 2 ^ 32

/-- Without an underflow it is the subtraction. -/
theorem sizeSub_of_le {a b : ℕ} (h : b ≤ a) (ha : a < 2 ^ 32) : sizeSub a b = a - b := by
  rw [sizeSub]
  omega

/-- A word is put together again from its two bytes. -/
theorem join_bytes (w : BitVec 16) :
    ((w >>> 8).setWidth 8).setWidth 16 <<< 8 ||| (w.setWidth 8).setWidth 16 = w := by
  refine BitVec.eq_of_getLsbD_eq fun i hi => ?_
  simp only [BitVec.getLsbD_or, BitVec.getLsbD_shiftLeft, BitVec.getLsbD_setWidth,
    BitVec.getLsbD_ushiftRight]
  by_cases hlow : i < 8
  · simp [hi, hlow]
  · have hback : 8 + (i - 8) = i := by omega
    have hhigh : i - 8 < 8 := by omega
    simp [hi, hlow, hback, hhigh]
    omega

/-- The low byte of a word, with or without the mask. -/
theorem setWidth_and_ff (w : BitVec 16) : (w &&& 0xFF#16).setWidth 8 = w.setWidth 8 := by
  have hmask : (0xFF#16).setWidth 8 = BitVec.allOnes 8 := rfl
  rw [BitVec.setWidth_and, hmask, BitVec.and_allOnes]

end OpenMower
