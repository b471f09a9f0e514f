import Mathlib.Algebra.Order.Ring.Rat
import Mathlib.Algebra.Order.AbsoluteValue.Basic
import Mathlib.Tactic.Linarith

/-!
# Floating-point numbers without rounding

Rational numbers, the two infinities, and NaN, with which no comparison holds. `min'` and `max'`
are `std::min` and `std::max`, which return their first argument when the comparison fails, so that
they are not symmetric: a NaN is returned if it comes first.
-/

/-- A floating-point number without rounding. -/
inductive ExactFloat
  | nan
  | negInf
  | rat (q : ℚ)
  | posInf
  deriving DecidableEq

namespace ExactFloat

/-- `a < b`. -/
protected def Lt : ExactFloat → ExactFloat → Prop
  | rat a, rat b => a < b
  | negInf, rat _ => True
  | negInf, posInf => True
  | rat _, posInf => True
  | _, _ => False

instance : LT ExactFloat := ⟨ExactFloat.Lt⟩

/-- `a <= b`. -/
instance : LE ExactFloat := ⟨fun a b => a < b ∨ a = b ∧ a ≠ nan⟩

instance decidableLt (a b : ExactFloat) : Decidable (a < b) := by
  change Decidable (ExactFloat.Lt a b)
  cases a <;> cases b <;> unfold ExactFloat.Lt <;> infer_instance

instance decidableLe (a b : ExactFloat) : Decidable (a ≤ b) :=
  inferInstanceAs (Decidable (a < b ∨ a = b ∧ a ≠ nan))

/-- `a - b`. -/
protected def sub : ExactFloat → ExactFloat → ExactFloat
  | rat a, rat b => rat (a - b)
  | posInf, rat _ => posInf
  | posInf, negInf => posInf
  | negInf, rat _ => negInf
  | negInf, posInf => negInf
  | rat _, posInf => negInf
  | rat _, negInf => posInf
  | _, _ => nan

instance : Sub ExactFloat := ⟨ExactFloat.sub⟩

/-- `fabsf`. -/
def abs : ExactFloat → ExactFloat
  | nan => nan
  | rat a => rat |a|
  | _ => posInf

/-- `std::min`. -/
def min' (a b : ExactFloat) : ExactFloat := if b < a then b else a

/-- `std::max`. -/
def max' (a b : ExactFloat) : ExactFloat := if a < b then b else a

variable {a b c : ExactFloat} {p q : ℚ}

@[simp] theorem rat_lt_rat : rat p < rat q ↔ p < q := Iff.rfl

@[simp] theorem rat_sub_rat : rat p - rat q = rat (p - q) := rfl

@[simp] theorem abs_rat : (rat p).abs = rat |p| := rfl

@[simp]
theorem rat_le_rat : rat p ≤ rat q ↔ p ≤ q := by
  constructor
  · rintro (hlt | ⟨heq, -⟩)
    · exact le_of_lt hlt
    · exact le_of_eq (rat.inj heq)
  · intro hle
    rcases lt_or_eq_of_le hle with hlt | rfl
    · exact .inl hlt
    · exact .inr ⟨rfl, nofun⟩

@[simp] theorem nan_sub : nan - a = nan := by cases a <;> rfl

@[simp] theorem not_lt_nan : ¬ a < nan := by cases a <;> exact id

@[simp] theorem not_nan_lt : ¬ nan < a := by cases a <;> exact id

theorem le_rat_iff (ha : a ≠ nan) : a ≤ rat q ↔ ¬ rat q < a := by
  cases a with
  | nan => exact absurd rfl ha
  | negInf => exact iff_of_true (.inl trivial) id
  | rat r => exact rat_le_rat.trans not_lt.symm
  | posInf => exact iff_of_false (by rintro (hlt | ⟨⟨⟩, -⟩); exact hlt) (not_not_intro trivial)

theorem rat_lt_trans (hpq : p < q) (ha : rat q < a) : rat p < a := by
  cases a with
  | nan => exact ha
  | negInf => exact ha
  | rat r => exact lt_trans hpq ha
  | posInf => trivial

/-- The minimum of two numbers is at most the first one. -/
theorem min'_le_left (ha : a ≠ nan) : min' a b ≤ a := by
  rw [min']
  split
  · next hlt => exact .inl hlt
  · exact .inr ⟨rfl, ha⟩

/-- A bound below the first number bounds the minimum if it bounds the second one. -/
theorem min'_le_iff (hb : b ≠ nan) (hpq : p < q) : min' (rat q) b ≤ rat p ↔ b ≤ rat p := by
  rw [min']
  split
  · rfl
  · next hnot =>
    have hq : ¬ rat q ≤ rat p := by
      rw [rat_le_rat]
      exact not_le_of_gt hpq
    refine iff_of_false hq fun hle => hnot ?_
    cases b with
    | nan => exact absurd rfl hb
    | negInf => trivial
    | rat r => exact lt_of_le_of_lt (rat_le_rat.mp hle) hpq
    | posInf =>
      rcases hle with hlt | ⟨heq, -⟩
      · exact hlt.elim
      · cases heq

/-- Whatever is clamped to two rational numbers is a rational number between them. -/
theorem exists_clamp (hpq : p ≤ q) (a : ExactFloat) :
    ∃ r, min' (max' (rat p) a) (rat q) = rat r ∧ p ≤ r ∧ r ≤ q := by
  have hclamp : ∀ r, p ≤ r → ∃ r', min' (rat r) (rat q) = rat r' ∧ p ≤ r' ∧ r' ≤ q := by
    intro r hr
    rw [min']
    split
    · exact ⟨q, rfl, hpq, le_refl q⟩
    · next hnot => exact ⟨r, rfl, hr, not_lt.mp hnot⟩
  rw [max']
  split
  · next hlt =>
    cases a with
    | nan => exact hlt.elim
    | negInf => exact hlt.elim
    | rat r => exact hclamp r (le_of_lt hlt)
    | posInf => exact ⟨q, rfl, hpq, le_refl q⟩
  · exact hclamp p (le_refl p)

end ExactFloat
