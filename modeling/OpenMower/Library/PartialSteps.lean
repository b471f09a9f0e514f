import Mathlib.Data.List.Perm.Basic
import Mathlib.Tactic.Common

/-!
# Partial steps in any order

A list of inputs is processed by a partial step, `List.foldlM` in `Option`. If the steps of any two
inputs commute in all states that satisfy an invariant, the order of the inputs does not matter
(`foldlM_perm`). A step on a pair of states that acts on each of them by itself processes the list
on each of them by itself (`foldlM_both`).
-/

namespace PartialSteps

universe u v w

variable {σ : Type u} {τ : Type v} {α : Type w} {f : σ → α → Option σ} {g : τ → α → Option τ}
  {I : σ → Prop} {l l' : List α} {x y : α} {s s' : σ}

/-- The steps of the inputs keep the invariant. -/
def KeepsAll (f : σ → α → Option σ) (I : σ → Prop) (l : List α) : Prop :=
  ∀ x ∈ l, ∀ s s', I s → f s x = some s' → I s'

/-- Two steps commute, also in what they reject. -/
def Commute (f : σ → α → Option σ) (I : σ → Prop) (x y : α) : Prop :=
  ∀ s, I s → (f s x).bind (f · y) = (f s y).bind (f · x)

theorem Commute.symm (h : Commute f I x y) : Commute f I y x := fun s hs => (h s hs).symm

theorem foldlM_cons_some (h : f s x = some s') : (x :: l).foldlM f s = l.foldlM f s' := by
  rw [List.foldlM_cons, h]
  rfl

theorem foldlM_cons_none (h : f s x = none) : (x :: l).foldlM f s = none := by
  rw [List.foldlM_cons, h]
  rfl

/-- An input whose step changes nothing commutes with all others. -/
theorem Commute.of_idle (hI : ∀ s s', I s → f s y = some s' → I s')
    (h : ∀ s, I s → f s x = some s) : Commute f I x y := by
  intro s hs
  rw [h s hs, Option.bind_some]
  cases hy : f s y with
  | none => rfl
  | some s' => exact (h s' (hI s s' hs hy)).symm

/-- So does an input whose step is always rejected. -/
theorem Commute.of_rejected (hI : ∀ s s', I s → f s y = some s' → I s')
    (h : ∀ s, I s → f s x = none) : Commute f I x y := by
  intro s hs
  rw [h s hs, Option.bind_none]
  cases hy : f s y with
  | none => rfl
  | some s' => exact (h s' (hI s s' hs hy)).symm

/-- An input whose step changes nothing, or is always rejected. -/
def Inert (f : σ → α → Option σ) (I : σ → Prop) (x : α) : Prop :=
  (∀ s, I s → f s x = some s) ∨ ∀ s, I s → f s x = none

theorem Inert.commute (h : Inert f I x) (hI : ∀ s s', I s → f s y = some s' → I s') :
    Commute f I x y :=
  h.elim (.of_idle hI) (.of_rejected hI)

/-- An inert input that is rejected once is always rejected. -/
theorem Inert.rejected (h : Inert f I x) (hs : I s) (hrej : f s x = none) (hs' : I s') :
    f s' x = none := by
  rcases h with h | h
  · rw [h s hs] at hrej
    cases hrej
  · exact h s' hs'

/-- An inert input that is accepted once changes nothing. -/
theorem Inert.idle (h : Inert f I x) (hs : I s) (haccept : (f s x).isSome) (hs' : I s') :
    f s' x = some s' := by
  rcases h with h | h
  · exact h s' hs'
  · rw [h s hs] at haccept
    cases haccept

/-- Two inputs commute if at most one of them is not inert. -/
theorem commute_of_inert {κ : Type*} {key : α → κ} {k : κ} (hne : key x ≠ key y)
    (hIx : ∀ s s', I s → f s x = some s' → I s') (hIy : ∀ s s', I s → f s y = some s' → I s')
    (hx : key x ≠ k → Inert f I x) (hy : key y ≠ k → Inert f I y) : Commute f I x y := by
  by_cases hxk : key x = k
  · have hyk : key y ≠ k := fun h => hne (hxk.trans h.symm)
    exact ((hy hyk).commute hIx).symm
  · exact (hx hxk).commute hIy

theorem KeepsAll.perm (hI : KeepsAll f I l) (h : l.Perm l') : KeepsAll f I l' :=
  fun x hx => hI x (h.mem_iff.mpr hx)

theorem KeepsAll.foldlM (hI : KeepsAll f I l) (hs : I s) (h : l.foldlM f s = some s') : I s' := by
  induction l generalizing s with
  | nil =>
    obtain rfl := Option.some.inj h
    exact hs
  | cons x l ih =>
    rw [List.foldlM_cons] at h
    obtain ⟨s₁, hx, h⟩ := Option.bind_eq_some_iff.mp h
    exact ih (fun y hy => hI y (List.mem_cons_of_mem x hy)) (hI x List.mem_cons_self s s₁ hs hx) h

/-- **Any order.** Inputs whose steps commute have the same result in any order. -/
theorem foldlM_perm (h : l.Perm l') (hI : KeepsAll f I l)
    (hcomm : ∀ x ∈ l, ∀ y ∈ l, x ≠ y → Commute f I x y) (hs : I s) :
    l.foldlM f s = l'.foldlM f s := by
  induction h generalizing s with
  | nil => rfl
  | cons x h ih =>
    rw [List.foldlM_cons, List.foldlM_cons]
    refine Option.bind_congr fun s' hx => ?_
    exact ih (fun y hy => hI y (List.mem_cons_of_mem x hy))
      (fun y hy z hz => hcomm y (List.mem_cons_of_mem x hy) z (List.mem_cons_of_mem x hz))
      (hI x List.mem_cons_self s s' hs hx)
  | swap x y l =>
    rw [List.foldlM_cons, List.foldlM_cons]
    by_cases hxy : y = x
    · rw [hxy]
    · have hswap := hcomm y List.mem_cons_self x (List.mem_cons_of_mem y List.mem_cons_self) hxy
        s hs
      simp only [List.foldlM_cons]
      change (f s y).bind (fun s' => (f s' x).bind _) = (f s x).bind (fun s' => (f s' y).bind _)
      rw [← Option.bind_assoc, ← Option.bind_assoc, hswap]
  | trans h _ ih ih' =>
    rw [ih hI hcomm hs]
    exact ih' (hI.perm h) (fun x hx y hy => hcomm x (h.mem_iff.mpr hx) y (h.mem_iff.mpr hy)) hs

/-- An input that is always rejected is rejected wherever it stands. -/
theorem foldlM_eq_none (hx : x ∈ l) (hI : KeepsAll f I l) (hrej : ∀ s, I s → f s x = none)
    (hs : I s) : l.foldlM f s = none := by
  induction l generalizing s with
  | nil => cases hx
  | cons y l ih =>
    rw [List.foldlM_cons]
    rcases List.mem_cons.mp hx with rfl | hx
    · rw [hrej s hs]
      rfl
    · refine Option.bind_eq_none_iff.mpr fun s' hy => ?_
      exact ih hx (fun z hz => hI z (List.mem_cons_of_mem y hz))
        (hI y List.mem_cons_self s s' hs hy)

/-- Inputs whose steps change nothing. -/
theorem foldlM_of_idle (h : ∀ x ∈ l, f s x = some s) : l.foldlM f s = some s := by
  induction l with
  | nil => rfl
  | cons x l ih =>
    rw [List.foldlM_cons, h x List.mem_cons_self]
    exact ih fun y hy => h y (List.mem_cons_of_mem x hy)

/-- An input that is rejected at the start is rejected wherever it stands, if all commute. -/
theorem foldlM_eq_none_of_start (hI : KeepsAll f I l)
    (hcomm : ∀ x ∈ l, ∀ y ∈ l, x ≠ y → Commute f I x y) (hs : I s) (hx : x ∈ l)
    (hrej : f s x = none) : l.foldlM f s = none := by
  classical
  rw [foldlM_perm (List.perm_cons_erase hx) hI hcomm hs]
  exact foldlM_cons_none hrej

/-- Inputs that are accepted in every state. -/
theorem foldlM_isSome (h : ∀ x ∈ l, ∀ s, (f s x).isSome) (s : σ) : (l.foldlM f s).isSome := by
  induction l generalizing s with
  | nil => rfl
  | cons x l ih =>
    obtain ⟨s', hs'⟩ := Option.isSome_iff_exists.mp (h x List.mem_cons_self s)
    rw [foldlM_cons_some hs']
    exact ih (fun y hy => h y (List.mem_cons_of_mem x hy)) s'

/-- If the inputs with one key act, and the others change nothing, the inputs are accepted if each
of them is accepted at the start. -/
theorem foldlM_isSome_of_single {κ : Type*} {key : α → κ} {k : κ} (hnodup : (l.map key).Nodup)
    (hidle : ∀ x ∈ l, key x ≠ k → ∀ s, f s x = some s) (haccept : ∀ x ∈ l, (f s x).isSome) :
    (l.foldlM f s).isSome := by
  induction l with
  | nil => rfl
  | cons x l ih =>
    rw [List.map_cons, List.nodup_cons] at hnodup
    have hidle' : ∀ y ∈ l, key y ≠ k → ∀ s, f s y = some s :=
      fun y hy => hidle y (List.mem_cons_of_mem x hy)
    by_cases hx : key x = k
    · obtain ⟨s', hs'⟩ := Option.isSome_iff_exists.mp (haccept x List.mem_cons_self)
      rw [foldlM_cons_some hs', foldlM_of_idle]
      · rfl
      · refine fun y hy => hidle' y hy (fun hkey => hnodup.1 ?_) s'
        rw [hx, ← hkey]
        exact List.mem_map_of_mem hy
    · rw [foldlM_cons_some (hidle x List.mem_cons_self hx s)]
      exact ih hnodup.2 hidle' fun y hy => haccept y (List.mem_cons_of_mem x hy)

/-- A step on two states. -/
def both (f : σ → α → Option σ) (g : τ → α → Option τ) (p : σ × τ) (x : α) : Option (σ × τ) :=
  (f p.1 x).bind fun s => (g p.2 x).map fun t => (s, t)

/-- The result on both states. -/
def zipOption (a : Option σ) (b : Option τ) : Option (σ × τ) :=
  a.bind fun s => b.map fun t => (s, t)

@[simp] theorem zipOption_none_left (b : Option τ) : zipOption (none : Option σ) b = none := rfl

@[simp]
theorem zipOption_none_right (a : Option σ) : zipOption a (none : Option τ) = none := by
  cases a <;> rfl

@[simp] theorem zipOption_some (s : σ) (t : τ) : zipOption (some s) (some t) = some (s, t) := rfl

/-- **Separate states.** The list is processed on each of the states by itself. -/
theorem foldlM_both (l : List α) (p : σ × τ) :
    l.foldlM (both f g) p = zipOption (l.foldlM f p.1) (l.foldlM g p.2) := by
  induction l generalizing p with
  | nil => rfl
  | cons x l ih =>
    rw [List.foldlM_cons, List.foldlM_cons, List.foldlM_cons]
    cases hf : f p.1 x with
    | none => simp [both, hf]
    | some s =>
      cases hg : g p.2 x with
      | none => simp [both, hf, hg]
      | some t =>
        have hboth : both f g p x = some (s, t) := by simp [both, hf, hg]
        rw [hboth]
        exact ih (s, t)

end PartialSteps
