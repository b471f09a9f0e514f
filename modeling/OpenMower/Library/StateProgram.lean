import Mathlib.Tactic.Common

/-!
# Programs with a state

Rules for what a program in `StateM` keeps. `Keeps I m` says that a property of the state that
holds before `m` holds after it, whatever `m` returns; the rules follow the structure of the
program.
-/

universe u

variable {σ α β : Type u}

/-- The program keeps the property. -/
def Keeps (I : σ → Prop) (m : StateM σ α) : Prop := ∀ s, I s → I (m.run s).2

namespace Keeps

variable {I : σ → Prop} {m m' : StateM σ α} {f : α → StateM σ β}

theorem pure (a : α) : Keeps I (Pure.pure a : StateM σ α) := fun _ h => h

theorem bind (hm : Keeps I m) (hf : ∀ a, Keeps I (f a)) : Keeps I (m >>= f) :=
  fun s h => hf _ _ (hm s h)

theorem ite {c : Prop} [Decidable c] (hm : Keeps I m) (hm' : Keeps I m') :
    Keeps I (if c then m else m') := by
  split
  · exact hm
  · exact hm'

theorem modify {g : σ → σ} (hg : ∀ s, I s → I (g s)) : Keeps I (modify g : StateM σ PUnit) := hg

end Keeps
