import Mathlib.Algebra.Group.Basic
import Mathlib.Data.List.Basic
import Mathlib.Tactic.Common

/-!
# Fletcher's checksum

Two sums are formed over the symbols of a message: that of the symbols, and that of the first sums.
The second one weighs each symbol by its distance from the end, so that two neighbouring symbols
cannot be changed without one of the sums noticing. With the sums behind it, a message is a word;
no two words differ in two neighbouring symbols only, be they of the message or of the sums
(`eq_of_word`).
-/

namespace Fletcher

variable {M : Type*} [AddCommGroup M]

/-- One symbol. -/
def step (s : M × M) (x : M) : M × M := (s.1 + x, s.2 + (s.1 + x))

/-- The sums over a message. -/
def sums (message : List M) : M × M := message.foldl step (0, 0)

/-- A message with its sums. -/
def word (message : List M) : List M := message ++ [(sums message).1, (sums message).2]

theorem length_word (message : List M) : (word message).length = message.length + 2 := by
  rw [word, List.length_append]
  rfl

theorem sums_append (front back : List M) :
    sums (front ++ back) = back.foldl step (sums front) := List.foldl_append

theorem sums_concat (message : List M) (x : M) : sums (message ++ [x]) = step (sums message) x :=
  sums_append message [x]

/-- A symbol can be taken back. -/
theorem step_injective (x : M) : Function.Injective fun s : M × M => step s x := by
  intro s t h
  obtain ⟨hfirst, hsecond⟩ := Prod.mk.inj h
  have hone : s.1 = t.1 := add_right_cancel hfirst
  rw [hone] at hsecond
  exact Prod.ext hone (add_right_cancel hsecond)

theorem foldl_step_injective (message : List M) :
    Function.Injective fun s : M × M => message.foldl step s := by
  induction message with
  | nil => exact Function.injective_id
  | cons x message ih => exact ih.comp (step_injective x)

/-- **Two symbols** are determined by the sums. -/
theorem step_step_inj {s : M × M} {x x' y y' : M}
    (h : step (step s x) y = step (step s x') y') : x = x' ∧ y = y' := by
  obtain ⟨hfirst, hsecond⟩ := Prod.mk.inj h
  -- the second sums are the second sums after the first symbol, and the first sums
  have hsum : s.1 + x + y = s.1 + x' + y' := hfirst
  have hx : s.2 + (s.1 + x) + (s.1 + x + y) = s.2 + (s.1 + x') + (s.1 + x' + y') := hsecond
  rw [hsum] at hx
  obtain rfl : x = x' := add_left_cancel (add_left_cancel (add_right_cancel hx))
  exact ⟨rfl, add_left_cancel hsum⟩

/-- Up to two symbols are. -/
theorem foldl_step_inj {s : M × M} {x y : List M} (hlen : x.length = y.length)
    (htwo : x.length ≤ 2) (h : x.foldl step s = y.foldl step s) : x = y := by
  match x, y, hlen with
  | [], [], _ => rfl
  | [a], [b], _ => rw [add_left_cancel (Prod.mk.inj h).1]
  | [a, b], [c, d], _ =>
    obtain ⟨rfl, rfl⟩ := step_step_inj h
    rfl

theorem take_word (message : List M) : (word message).take message.length = message :=
  List.take_left

/-- The last two symbols of a word are the sums. -/
theorem word_eq_append {message front : List M} {a b : M} (h : word message = front ++ [a, b]) :
    message = front ∧ sums message = (a, b) := by
  obtain ⟨hmessage, hsums⟩ := List.append_inj' h rfl
  rw [List.cons.injEq, List.cons.injEq] at hsums
  exact ⟨hmessage, Prod.ext hsums.1 hsums.2.1⟩

/-- The last symbol of the message and the first sum are determined by the second sum. -/
theorem eq_of_word_inside {m m' front : List M} {p p' q q' c : M}
    (h : word m = front ++ [p, q] ++ [c]) (h' : word m' = front ++ [p', q'] ++ [c]) :
    p = p' ∧ q = q' := by
  obtain ⟨rfl, hsums⟩ := @word_eq_append _ _ m (front ++ [p]) q c (by rw [h]; simp)
  obtain ⟨rfl, hsums'⟩ := @word_eq_append _ _ m' (front ++ [p']) q' c (by rw [h']; simp)
  rw [sums_concat] at hsums hsums'
  obtain ⟨hq, hc⟩ := Prod.mk.inj hsums
  obtain ⟨hq', hc'⟩ := Prod.mk.inj hsums'
  obtain rfl : p = p' := add_left_cancel (add_left_cancel (hc.trans hc'.symm))
  exact ⟨rfl, hq.symm.trans hq'⟩

/-- **Words are far apart**: two of them do not differ in two neighbouring symbols only. -/
theorem eq_of_word {m m' front x y back : List M} (h : word m = front ++ x ++ back)
    (h' : word m' = front ++ y ++ back) (hlen : x.length = y.length) (htwo : x.length ≤ 2) :
    x = y := by
  have hlength := congrArg List.length h
  have hlength' := congrArg List.length h'
  simp only [length_word, List.length_append] at hlength hlength'
  rcases Nat.lt_or_ge front.length m.length with hin | hout
  · rcases Nat.lt_or_ge back.length 2 with hback | hback
    · obtain ⟨p, q, rfl⟩ := List.length_eq_two.mp (show x.length = 2 by omega)
      obtain ⟨p', q', rfl⟩ := List.length_eq_two.mp hlen.symm
      obtain ⟨c, rfl⟩ := List.length_eq_one_iff.mp (show back.length = 1 by omega)
      obtain ⟨rfl, rfl⟩ := eq_of_word_inside h h'
      rfl
    · -- they are in the message, and the sums are the same
      obtain ⟨rest, a, b, rfl⟩ : ∃ rest a b, back = rest ++ [a, b] := by
        have hdrop : (back.drop (back.length - 2)).length = 2 := by
          rw [List.length_drop]
          omega
        obtain ⟨a, b, hab⟩ := List.length_eq_two.mp hdrop
        exact ⟨back.take (back.length - 2), a, b, by rw [← hab, List.take_append_drop]⟩
      rw [← List.append_assoc] at h h'
      obtain ⟨rfl, hsums⟩ := word_eq_append h
      obtain ⟨rfl, hsums'⟩ := word_eq_append h'
      rw [← hsums', sums_append, sums_append, sums_append, sums_append] at hsums
      exact foldl_step_inj hlen htwo (foldl_step_injective rest hsums)
  · -- the messages end in front of them
    have hmessage : ∀ message z : List M, message.length = m.length →
        word message = front ++ z ++ back → message = front.take m.length := by
      intro message z hz hword
      rw [← hz, ← take_word message, hword, List.append_assoc, hz,
        List.take_append_of_le_length hout, List.length_take, Nat.min_eq_left hout]
    have hm := hmessage m x rfl h
    have hm' := hmessage m' y (by omega) h'
    rw [hm'.trans hm.symm, h] at h'
    exact List.append_cancel_left (List.append_cancel_right h')

end Fletcher
