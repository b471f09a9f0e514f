import Mathlib.Data.BitVec
import Mathlib.Tactic.Common
import Mathlib.Tactic.Positivity
import Mathlib.Tactic.Lift

/-!
# Clocks that wrap

A `w`-bit clock shows the true time modulo `2 ^ w`. True times are integers, so that a time
stamp may lie before the start of the clock. The difference of two readings is the true age
modulo `2 ^ w` (`toNat_reading_sub`), hence the true age itself as long as that is below
`2 ^ w` (`toNat_reading_sub_of_lt`).

`InWrapWindow w limit age` are the ages that have reached `limit` although the wrapped age
has not: for those, and only for those, a comparison of the wrapped age with the limit
misses an expired limit (`le_emod_iff_of_not_inWrapWindow`).
-/

namespace ModularClock

variable {w : ℕ}

/-- What a `w`-bit clock shows at the true time `t`. -/
def reading (w : ℕ) (t : ℤ) : BitVec w := BitVec.ofInt w t

theorem toNat_reading (t : ℤ) : ((reading w t).toNat : ℤ) = t % 2 ^ w := by
  rw [reading, BitVec.toNat_ofInt]
  push_cast
  exact Int.toNat_of_nonneg (Int.emod_nonneg _ (by positivity))

@[simp] theorem reading_zero : reading w 0 = 0#w := by simp [reading]

/-- Subtracting readings subtracts the true times. -/
theorem reading_sub (t s : ℤ) : reading w t - reading w s = reading w (t - s) := by
  apply BitVec.eq_of_toInt_eq
  simp only [reading, BitVec.toInt_sub, BitVec.toInt_ofInt]
  simp

/-- Predating a reading by a duration is a reading at the earlier time. -/
theorem reading_sub_eq (t : ℤ) (d : BitVec w) : reading w t - d = reading w (t - d.toNat) := by
  have hd : reading w d.toNat = d := by simp [reading]
  rw [← reading_sub, hd]

/-- The difference of two readings is the age modulo `2 ^ w`. -/
theorem toNat_reading_sub (t s : ℤ) :
    ((reading w t - reading w s).toNat : ℤ) = (t - s) % 2 ^ w := by
  rw [reading_sub, toNat_reading]

/-- A limit compared with the difference of two readings is compared with the age modulo
`2 ^ w`. -/
theorem le_reading_sub_iff {limit : BitVec w} {t s : ℤ} :
    limit ≤ reading w t - reading w s ↔ (limit.toNat : ℤ) ≤ (t - s) % 2 ^ w := by
  rw [BitVec.le_def, ← toNat_reading_sub, Int.ofNat_le]

/-- Below the wrap the difference of two readings is the age. -/
theorem toNat_reading_sub_of_lt {t s : ℤ} (h₀ : s ≤ t) (h : t - s < 2 ^ w) :
    ((reading w t - reading w s).toNat : ℤ) = t - s := by
  rw [toNat_reading_sub, Int.emod_eq_of_lt (by omega) h]

private theorem emod_le_self {age : ℤ} (h : 0 ≤ age) : age % 2 ^ w ≤ age := by
  lift age to ℕ using h
  exact_mod_cast Nat.mod_le age (2 ^ w)

/-- A wrapped age never exceeds a non-negative age. -/
theorem toNat_reading_sub_le {t s : ℤ} (h : s ≤ t) :
    ((reading w t - reading w s).toNat : ℤ) ≤ t - s := by
  rw [toNat_reading_sub]
  exact emod_le_self (by omega)

/-- The ages that reach the limit while the wrapped age does not. -/
def InWrapWindow (w : ℕ) (limit age : ℤ) : Prop := limit ≤ age ∧ age % 2 ^ w < limit

instance (w : ℕ) (limit age : ℤ) : Decidable (InWrapWindow w limit age) :=
  inferInstanceAs (Decidable (_ ∧ _))

/-- No age below `2 ^ w` is in the wrap window: the clock has to wrap first. -/
theorem not_inWrapWindow_of_lt {limit age : ℤ} (h₀ : 0 ≤ age) (h : age < 2 ^ w) :
    ¬ InWrapWindow w limit age := by
  rintro ⟨hle, hlt⟩
  rw [Int.emod_eq_of_lt h₀ h] at hlt
  omega

/-- Outside the wrap window the wrapped age reaches the limit exactly when the age does. -/
theorem le_emod_iff_of_not_inWrapWindow {limit age : ℤ} (h₀ : 0 ≤ age)
    (h : ¬ InWrapWindow w limit age) : limit ≤ age % 2 ^ w ↔ limit ≤ age := by
  have hle : age % 2 ^ w ≤ age := emod_le_self h₀
  simp only [InWrapWindow] at h
  omega

end ModularClock
