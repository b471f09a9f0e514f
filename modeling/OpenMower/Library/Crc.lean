import Mathlib.Data.BitVec
import Mathlib.Logic.Function.Iterate
import Mathlib.Tactic.Common

/-!
# Cyclic redundancy checks

A register that bytes are shifted through from the top, and that a polynomial is added to whenever
a one falls out. Shifting is linear (`shift_xor`), and it loses nothing when the polynomial has its
lowest bit (`shift_injective`). So as many bytes as the register holds can be told from what they
leave in it, and a message of which no more than these have been changed has another remainder
(`run_ne_of_burst`). A byte may as well be looked up in a table (`feed_eq_table`).
-/

namespace Crc

variable {w : ℕ} (poly : BitVec w)

/-- One bit: when a one falls out, the polynomial is added. -/
def shift (c : BitVec w) : BitVec w := if c.msb then c <<< 1 ^^^ poly else c <<< 1

/-- A byte in the top bits of the register. -/
def top (w : ℕ) (b : BitVec 8) : BitVec w := b.setWidth w <<< (w - 8)

/-- A byte is added at the top and shifted through. -/
def feed (c : BitVec w) (b : BitVec 8) : BitVec w := (shift poly)^[8] (c ^^^ top w b)

/-- The bytes of a message, one after the other. -/
def run (c : BitVec w) (message : List (BitVec 8)) : BitVec w := message.foldl (feed poly) c

/-- A message from the top bits of the register on. -/
def align (w : ℕ) : List (BitVec 8) → BitVec w
  | [] => 0#w
  | b :: message => top w b ^^^ align w message >>> 8

/-- The messages differ in at most `n` neighbouring bytes. -/
def Burst (n : ℕ) (message damaged : List (BitVec 8)) : Prop :=
  ∃ front x y back, message = front ++ x ++ back ∧ damaged = front ++ y ++ back ∧
    x.length = y.length ∧ x.length ≤ n ∧ x ≠ y

variable {poly} {c : BitVec w}

theorem Burst.length_eq {n : ℕ} {message damaged : List (BitVec 8)} (h : Burst n message damaged) :
    damaged.length = message.length := by
  obtain ⟨front, x, y, back, rfl, rfl, hlen, -, -⟩ := h
  simp only [List.length_append, hlen]

theorem Burst.ne {n : ℕ} {message damaged : List (BitVec 8)} (h : Burst n message damaged) :
    message ≠ damaged := by
  obtain ⟨front, x, y, back, rfl, rfl, -, -, hne⟩ := h
  intro heq
  rw [List.append_assoc, List.append_assoc, List.append_cancel_left_eq,
    List.append_cancel_right_eq] at heq
  exact hne heq

/-! ### Shifting -/

/-- **Shifting is linear.** -/
theorem shift_xor (a b : BitVec w) : shift poly (a ^^^ b) = shift poly a ^^^ shift poly b := by
  unfold shift
  rw [BitVec.msb_xor, BitVec.shiftLeft_xor_distrib]
  cases a.msb <;> cases b.msb <;> simp only [Bool.xor_false, Bool.xor_true, Bool.not_true,
    Bool.not_false, Bool.false_eq_true, if_true, if_false]
  · ac_rfl
  · ac_rfl
  · rw [show a <<< 1 ^^^ poly ^^^ (b <<< 1 ^^^ poly) = a <<< 1 ^^^ b <<< 1 ^^^ (poly ^^^ poly) by
      ac_rfl, BitVec.xor_self, BitVec.xor_zero]

theorem iterate_shift_xor (n : ℕ) (a b : BitVec w) :
    (shift poly)^[n] (a ^^^ b) = (shift poly)^[n] a ^^^ (shift poly)^[n] b := by
  induction n generalizing a b with
  | zero => rfl
  | succ n ih => rw [Function.iterate_succ_apply, shift_xor, ih]; rfl

/-- **Nothing is lost**: the lowest bit tells what has fallen out. -/
theorem shift_injective (hpoly : poly.getLsbD 0 = true) : Function.Injective (shift poly) := by
  intro a b hab
  have hw : 0 < w := by
    by_contra hzero
    rw [BitVec.getLsbD_of_ge _ _ (by omega)] at hpoly
    cases hpoly
  have hlow : ∀ d : BitVec w, (shift poly d).getLsbD 0 = d.msb := by
    intro d
    unfold shift
    split
    · next hmsb => simp [hpoly, hmsb]
    · next hmsb => simpa using hmsb
  have hmsb : a.msb = b.msb := by rw [← hlow, hab, hlow]
  have hleft : a <<< 1 = b <<< 1 := by
    unfold shift at hab
    rw [hmsb] at hab
    split at hab
    · exact (BitVec.xor_left_inj poly).mp hab
    · exact hab
  refine BitVec.eq_of_getLsbD_eq fun i hi => ?_
  by_cases hlast : i = w - 1
  · rw [hlast, ← BitVec.msb_eq_getLsbD_last, ← BitVec.msb_eq_getLsbD_last, hmsb]
  · have hbit := congrArg (BitVec.getLsbD · (i + 1)) hleft
    have hnext : i + 1 < w := by omega
    simpa [hnext, BitVec.getLsbD_eq_getElem hi] using hbit

/-- A register whose lowest bit is clear has come from below. -/
theorem shift_ushiftRight (hlow : c.getLsbD 0 = false) : shift poly (c >>> 1) = c := by
  have hmsb : (c >>> 1).msb = false := by
    rw [BitVec.msb_eq_getLsbD_last, BitVec.getLsbD_ushiftRight]
    exact BitVec.getLsbD_of_ge _ _ (by omega)
  rw [shift, hmsb, if_neg Bool.false_ne_true]
  refine BitVec.eq_of_getLsbD_eq fun i hi => ?_
  rw [BitVec.getLsbD_shiftLeft, BitVec.getLsbD_ushiftRight, decide_eq_true hi, Bool.true_and]
  by_cases hzero : i = 0
  · simp [hzero, hlow]
  · simp [show ¬ i < 1 by omega, show 1 + (i - 1) = i by omega]

theorem iterate_shift_ushiftRight {n : ℕ} (hlow : ∀ i < n, c.getLsbD i = false) :
    (shift poly)^[n] (c >>> n) = c := by
  induction n with
  | zero => exact BitVec.ushiftRight_zero _
  | succ n ih =>
    have hbit : (c >>> n).getLsbD 0 = false := by
      rw [BitVec.getLsbD_ushiftRight]
      exact hlow n (Nat.lt_succ_self n)
    rw [Function.iterate_succ_apply, BitVec.shiftRight_add, shift_ushiftRight hbit]
    exact ih fun i hi => hlow i (hi.trans (Nat.lt_succ_self n))

/-! ### Messages -/

theorem getLsbD_top (b : BitVec 8) (i : ℕ) :
    (top w b).getLsbD i = (decide (i < w ∧ w - 8 ≤ i) && b.getLsbD (i - (w - 8))) := by
  rw [top, BitVec.getLsbD_shiftLeft, BitVec.getLsbD_setWidth]
  by_cases hi : i < w <;> by_cases hge : w - 8 ≤ i
  · have hlt : i - (w - 8) < w := by omega
    simp [hi, hge, hlt]
  · simp [hi, hge, Nat.lt_of_not_le hge]
  · simp [hi]
  · simp [hi]

theorem top_injective (hw : 8 ≤ w) : Function.Injective (top w) := by
  intro a b hab
  refine BitVec.eq_of_getLsbD_eq fun i hi => ?_
  have hbit := congrArg (BitVec.getLsbD · (w - 8 + i)) hab
  have hin : w - 8 + i < w := by omega
  simpa only [getLsbD_top, hin, Nat.le_add_right, and_self, decide_true, Bool.true_and,
    Nat.add_sub_cancel_left] using hbit

/-- A message leaves the bits behind it clear. -/
theorem getLsbD_align {message : List (BitVec 8)} {i : ℕ} (hi : i + 8 * message.length < w) :
    (align w message).getLsbD i = false := by
  induction message generalizing i with
  | nil => exact BitVec.getLsbD_zero
  | cons b message ih =>
    rw [List.length_cons] at hi
    rw [align, BitVec.getLsbD_xor, getLsbD_top, BitVec.getLsbD_ushiftRight, ih (by omega)]
    simp [show ¬ w - 8 ≤ i by omega]

/-- The bits in which a further byte finds room are clear. -/
theorem getLsbD_align_of_fits {b : BitVec 8} {message : List (BitVec 8)}
    (hw : 8 * (b :: message).length ≤ w) (i : ℕ) (hi : i < 8) :
    (align w message).getLsbD i = false := by
  rw [List.length_cons] at hw
  exact getLsbD_align (by omega)

theorem align_injective {x y : List (BitVec 8)} (hlen : x.length = y.length)
    (hw : 8 * x.length ≤ w) (h : align w x = align w y) : x = y := by
  induction x generalizing y with
  | nil => exact (List.eq_nil_of_length_eq_zero hlen.symm).symm
  | cons b x ih =>
    obtain ⟨d, y, rfl⟩ := List.exists_cons_of_length_pos (by rw [← hlen]; exact Nat.succ_pos _)
    have hwy : 8 * (d :: y).length ≤ w := hlen ▸ hw
    rw [List.length_cons] at hw
    -- the first byte falls out at the top
    have hfirst : ∀ (a : BitVec 8) (z : List (BitVec 8)), 8 * (a :: z).length ≤ w →
        align w (a :: z) <<< 8 = align w z := by
      intro a z hz
      refine BitVec.eq_of_getLsbD_eq fun i hi => ?_
      rw [BitVec.getLsbD_shiftLeft, align, BitVec.getLsbD_xor, getLsbD_top,
        BitVec.getLsbD_ushiftRight, decide_eq_true hi, Bool.true_and]
      by_cases hlow : i < 8
      · rw [getLsbD_align_of_fits hz i hlow]
        simp [hlow]
      · simp [hlow, show ¬ w - 8 ≤ i - 8 by omega, show 8 + (i - 8) = i by omega]
    have hrest : align w x = align w y := by
      rw [← hfirst b x (by rw [List.length_cons]; exact hw), h, hfirst d y hwy]
    have htop : top w b = top w d := by
      rw [align, align, hrest] at h
      exact (BitVec.xor_left_inj (align w y >>> 8)).mp h
    rw [top_injective (by omega) htop, ih (Nat.succ.inj hlen) (by omega) hrest]

/-- **A short message** is shifted through the register as a whole. -/
theorem run_eq_iterate {message : List (BitVec 8)} (hw : 8 * message.length ≤ w) :
    run poly c message = (shift poly)^[8 * message.length] (c ^^^ align w message) := by
  induction message generalizing c with
  | nil => exact (BitVec.xor_zero).symm
  | cons b message ih =>
    have hback := @iterate_shift_ushiftRight w poly (align w message) 8
      (getLsbD_align_of_fits hw)
    rw [List.length_cons] at hw
    have hstep : run poly c (b :: message) = run poly (feed poly c b) message := rfl
    have hfeed : feed poly c b ^^^ align w message =
        (shift poly)^[8] (c ^^^ align w (b :: message)) := by
      conv_lhs => rw [← hback]
      rw [feed, ← iterate_shift_xor, align, BitVec.xor_assoc]
    rw [hstep, ih (by omega), hfeed, ← Function.iterate_add_apply]
    rfl

theorem run_append (front back : List (BitVec 8)) :
    run poly c (front ++ back) = run poly (run poly c front) back := List.foldl_append

theorem feed_injective (hpoly : poly.getLsbD 0 = true) (b : BitVec 8) :
    Function.Injective (feed poly · b) := fun _ _ h =>
  (BitVec.xor_left_inj (top w b)).mp ((shift_injective hpoly).iterate 8 h)

theorem run_injective (hpoly : poly.getLsbD 0 = true) (message : List (BitVec 8)) :
    Function.Injective (run poly · message) := by
  induction message with
  | nil => exact Function.injective_id
  | cons b message ih => exact ih.comp (feed_injective hpoly b)

/-- **A burst is detected**: no more neighbouring bytes are changed than the register holds. -/
theorem run_ne_of_burst (hpoly : poly.getLsbD 0 = true) {n : ℕ} (hw : 8 * n ≤ w)
    {message damaged : List (BitVec 8)} (h : Burst n message damaged) :
    run poly c damaged ≠ run poly c message := by
  obtain ⟨front, x, y, back, rfl, rfl, hlen, hle, hne⟩ := h
  intro heq
  rw [run_append, run_append, run_append, run_append] at heq
  have hx : 8 * x.length ≤ w := by omega
  have hy : 8 * y.length ≤ w := by omega
  have hmiddle := run_injective hpoly back heq
  rw [@run_eq_iterate _ _ _ y hy, @run_eq_iterate _ _ _ x hx, hlen] at hmiddle
  have halign := (BitVec.xor_right_inj (run poly c front)).mp
    ((shift_injective hpoly).iterate _ hmiddle)
  exact hne (align_injective hlen.symm hy halign).symm

theorem shift_zero : shift poly 0#w = 0#w := by
  rw [shift, BitVec.msb_zero, if_neg Bool.false_ne_true, BitVec.zero_shiftLeft]

/-- **A message with its remainder behind it** leaves nothing, and with anything else it does. -/
theorem run_append_eq_zero_iff (hpoly : poly.getLsbD 0 = true) {check : List (BitVec 8)}
    (hw : 8 * check.length ≤ w) (message : List (BitVec 8)) :
    run poly c (message ++ check) = 0#w ↔ align w check = run poly c message := by
  have hzero : (shift poly)^[8 * check.length] 0#w = 0#w := Function.iterate_fixed shift_zero _
  rw [run_append, run_eq_iterate hw]
  constructor
  · intro h
    have hsum := (shift_injective hpoly).iterate _ (h.trans hzero.symm)
    exact (BitVec.xor_eq_zero_iff.mp hsum).symm
  · intro h
    rw [h, BitVec.xor_self, hzero]

/-- **The table**: what the top byte of the register and the byte leave behind, and the rest of
the register. -/
theorem feed_eq_table (hw : 8 ≤ w) (b : BitVec 8) :
    feed poly c b = feed poly 0#w ((c >>> (w - 8)).setWidth 8 ^^^ b) ^^^ c <<< 8 := by
  have hlow : ∀ i < 8, (c <<< 8).getLsbD i = false := by
    intro i hi
    simp [hi]
  have hsplit : c ^^^ top w b =
      top w ((c >>> (w - 8)).setWidth 8 ^^^ b) ^^^ c <<< 8 >>> 8 := by
    refine BitVec.eq_of_getLsbD_eq fun i hi => ?_
    rw [BitVec.getLsbD_xor, BitVec.getLsbD_xor, getLsbD_top, getLsbD_top, BitVec.getLsbD_xor,
      BitVec.getLsbD_setWidth, BitVec.getLsbD_ushiftRight, BitVec.getLsbD_ushiftRight,
      BitVec.getLsbD_shiftLeft]
    by_cases hge : w - 8 ≤ i
    · simp [hi, hge, show i - (w - 8) < 8 by omega, show w - 8 + (i - (w - 8)) = i by omega,
        show ¬ 8 + i < w by omega]
    · simp [hge, show 8 + i < w by omega]
  rw [feed, hsplit, iterate_shift_xor, iterate_shift_ushiftRight hlow, feed, BitVec.zero_xor]

end Crc
