import Mathlib.Data.BitVec
import Mathlib.Data.List.GetD
import Mathlib.Logic.Function.Basic
import Mathlib.Tactic.Common

/-!
# NOR flash

The contents of a NOR flash under its two operations. Programming only clears bits, and erasing a
sector sets all of its bits. A page program command writes from an address on, and wraps at the end
of the page (`programPage`); for data that stays in the page it is the plain `program`
(`programPage_eq_program`). Programs one behind the other are one program (`program_program`).
-/

namespace NorFlash

variable {mem : ℕ → BitVec 8} {addr : ℕ} {data : List (BitVec 8)}

/-- All bits of a sector are set. -/
def erase (sectorSize : ℕ) (mem : ℕ → BitVec 8) (sector : ℕ) : ℕ → BitVec 8 :=
  fun a => if a / sectorSize = sector then 0xFF#8 else mem a

/-- The bits that are zero in the data are cleared. -/
def program (mem : ℕ → BitVec 8) (addr : ℕ) (data : List (BitVec 8)) : ℕ → BitVec 8 :=
  fun a => if addr ≤ a then mem a &&& data.getD (a - addr) 0xFF#8 else mem a

/-- The next address in a page. -/
def nextInPage (page addr : ℕ) : ℕ := addr / page * page + (addr + 1) % page

/-- The command that programs a page. -/
def programPage (page : ℕ) (mem : ℕ → BitVec 8) (addr : ℕ) : List (BitVec 8) → ℕ → BitVec 8
  | [] => mem
  | b :: bs =>
    programPage page (Function.update mem addr (mem addr &&& b)) (nextInPage page addr) bs

@[simp] theorem program_nil : program mem addr [] = mem := by
  funext a
  rw [program, List.getD_nil]
  split
  · exact BitVec.and_allOnes
  · rfl

theorem program_of_lt {a : ℕ} (h : a < addr) : program mem addr data a = mem a :=
  if_neg (Nat.not_le_of_lt h)

theorem program_of_ge {a : ℕ} (h : addr + data.length ≤ a) : program mem addr data a = mem a := by
  rw [program, if_pos (by omega), List.getD_eq_default _ _ (by omega)]
  exact BitVec.and_allOnes

/-- What is programmed to an erased byte. -/
theorem program_of_erased {a : ℕ} (hle : addr ≤ a) (h : mem a = 0xFF#8) :
    program mem addr data a = data.getD (a - addr) 0xFF#8 := by
  rw [program, if_pos hle, h]
  exact BitVec.allOnes_and

/-- **Programs one behind the other** are one program. -/
theorem program_program (front back : List (BitVec 8)) :
    program (program mem addr front) (addr + front.length) back =
      program mem addr (front ++ back) := by
  funext a
  by_cases hback : addr + front.length ≤ a
  · rw [program, if_pos hback, program_of_ge hback, program, if_pos (by omega),
      List.getD_append_right _ _ _ _ (by omega), Nat.sub_sub]
  · rw [program_of_lt (by omega)]
    by_cases hle : addr ≤ a
    · rw [program, program, if_pos hle, if_pos hle, List.getD_append _ _ _ _ (by omega)]
    · rw [program_of_lt (by omega), program_of_lt (by omega)]

theorem program_singleton (b : BitVec 8) :
    program mem addr [b] = Function.update mem addr (mem addr &&& b) := by
  funext a
  by_cases ha : a = addr
  · simp [program, ha]
  · rw [Function.update_of_ne ha]
    by_cases hle : addr ≤ a
    · exact program_of_ge (Nat.lt_of_le_of_ne hle (Ne.symm ha))
    · exact program_of_lt (by omega)

theorem succ_mod_of_lt {page : ℕ} (h : addr % page + 1 < page) :
    (addr + 1) % page = addr % page + 1 := by
  rw [Nat.add_mod, Nat.mod_eq_of_lt (show 1 < page by omega), Nat.mod_eq_of_lt h]

/-- Before the end of a page the next address is the next one. -/
theorem nextInPage_eq {page : ℕ} (h : addr % page + 1 < page) :
    nextInPage page addr = addr + 1 := by
  rw [nextInPage, succ_mod_of_lt h, ← Nat.add_assoc, Nat.div_add_mod']

/-- **A program that stays in its page** does not wrap. -/
theorem programPage_eq_program {page : ℕ} (h : addr % page + data.length ≤ page) :
    programPage page mem addr data = program mem addr data := by
  induction data generalizing mem addr with
  | nil => exact program_nil.symm
  | cons b bs ih =>
    rw [programPage, ← program_singleton]
    rcases bs with _ | ⟨c, cs⟩
    · rfl
    · rw [List.length_cons, List.length_cons] at h
      have hlt : addr % page + 1 < page := by omega
      rw [nextInPage_eq hlt, ih (by rw [succ_mod_of_lt hlt, List.length_cons]; omega)]
      exact program_program [b] (c :: cs)

end NorFlash
