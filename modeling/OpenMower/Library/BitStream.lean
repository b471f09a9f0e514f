import Mathlib.Data.BitVec
import Mathlib.Tactic.Common

/-!
# Streams of bits and of nibbles

A buffer of bytes is a stream of bits, with the high bit of each byte first, and a stream of
nibbles, with the high nibble first. Three bytes that are joined into a word hold 24 bits of the
stream (`getLsbD_join24_slice`), and a bitmap whose rows are whole bytes is a stream of rows
(`bitAt_row`).
-/

namespace BitStream

variable {buf : ℕ → BitVec 8}

/-- Bit `k` of the stream. -/
def bitAt (buf : ℕ → BitVec 8) (k : ℕ) : Bool := (buf (k / 8)).getLsbD (7 - k % 8)

/-- Nibble `k` of the stream. -/
def nibbleAt (buf : ℕ → BitVec 8) (k : ℕ) : BitVec 4 :=
  if k % 2 = 0 then (buf (k / 2) >>> 4).setWidth 4 else (buf (k / 2)).setWidth 4

/-- Three bytes, the first of them on top. -/
def join24 (a b c : BitVec 8) : BitVec 32 :=
  a.setWidth 32 <<< 16 ||| b.setWidth 32 <<< 8 ||| c.setWidth 32

/-- The bits of three joined bytes. -/
theorem getLsbD_join24 {a b c : BitVec 8} {i : ℕ} (hi : i < 24) :
    (join24 a b c).getLsbD i =
      if i < 8 then c.getLsbD i else if i < 16 then b.getLsbD (i - 8) else a.getLsbD (i - 16) := by
  have hword : i < 32 := by omega
  simp only [join24, BitVec.getLsbD_or, BitVec.getLsbD_shiftLeft, BitVec.getLsbD_setWidth]
  split
  · next hlow => simp [hlow, hword, show i < 16 by omega]
  · next hlow =>
    rw [BitVec.getLsbD_of_ge c i (by omega)]
    split
    · next hmiddle => simp [hlow, hmiddle, hword, show i - 8 < 32 by omega]
    · next hmiddle =>
      rw [BitVec.getLsbD_of_ge b (i - 8) (by omega)]
      simp [hmiddle, hword, show i - 16 < 32 by omega]

/-- **Three bytes of the stream** are 24 bits of it, from the top. -/
theorem getLsbD_join24_slice (start : ℕ) {j : ℕ} (hj : j < 24) :
    (join24 (buf start) (buf (start + 1)) (buf (start + 2))).getLsbD (23 - j) =
      bitAt buf (8 * start + j) := by
  rw [getLsbD_join24 (by omega), bitAt]
  split
  · next hthird =>
    rw [show (8 * start + j) / 8 = start + 2 by omega,
      show 7 - (8 * start + j) % 8 = 23 - j by omega]
  split
  · next hsecond =>
    rw [show (8 * start + j) / 8 = start + 1 by omega,
      show 7 - (8 * start + j) % 8 = 23 - j - 8 by omega]
  · next hfirst =>
    rw [show (8 * start + j) / 8 = start by omega,
      show 7 - (8 * start + j) % 8 = 23 - j - 16 by omega]

/-- **Rows of whole bytes** are one behind the other. -/
theorem bitAt_row {width : ℕ} (hwidth : 8 ∣ width) (row col : ℕ) :
    bitAt buf (row * width + col) = (buf (row * (width / 8) + col / 8)).getLsbD (7 - col % 8) := by
  obtain ⟨stride, rfl⟩ := hwidth
  have hbit : row * (8 * stride) + col = 8 * (row * stride) + col := by rw [Nat.mul_left_comm]
  have hbyte : (8 * (row * stride) + col) / 8 = row * stride + col / 8 := by omega
  have hmod : (8 * (row * stride) + col) % 8 = col % 8 := by omega
  rw [bitAt, hbit, hbyte, hmod, Nat.mul_div_cancel_left stride (by omega)]

end BitStream
