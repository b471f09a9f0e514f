import Mathlib.Data.List.Basic
import Mathlib.Tactic.Common

/-!
# JSON strings

The text between the quotes of a JSON string, as a list of codes. `unescape` reads it and fails on
a quote, on a control character, and on a backslash that does not begin a complete escape
sequence.

The rules say what is read from the front of a text (`unescape_raw`, `unescape_short`,
`unescape_unicode`), and that a text does not end inside an escape sequence
(`unescape_incomplete`).
-/

namespace JsonString

/-- The double quote. -/
def quote : ℕ := 0x22

/-- The backslash. -/
def backslash : ℕ := 0x5C

/-- The letter u, which begins a code in hexadecimal digits. -/
def letterU : ℕ := 0x75

/-- A code that stands for itself. -/
def Raw (c : ℕ) : Prop := 0x20 ≤ c ∧ c ≠ quote ∧ c ≠ backslash

instance (c : ℕ) : Decidable (Raw c) := inferInstanceAs (Decidable (_ ∧ _ ∧ _))

/-- What a character behind a backslash stands for. -/
def shortEscape (c : ℕ) : Option ℕ :=
  [(quote, quote), (backslash, backslash), (0x2F, 0x2F), (0x62, 0x08), (0x66, 0x0C), (0x6E, 0x0A),
    (0x72, 0x0D), (0x74, 0x09)].lookup c

/-- The value of a hexadecimal digit. -/
def hexDigit (c : ℕ) : Option ℕ :=
  if 0x30 ≤ c ∧ c ≤ 0x39 then some (c - 0x30)
  else if 0x41 ≤ c ∧ c ≤ 0x46 then some (c - 0x41 + 10)
  else if 0x61 ≤ c ∧ c ≤ 0x66 then some (c - 0x61 + 10)
  else none

/-- The value of four digits. -/
def hexValue (digits : List ℕ) : Option ℕ :=
  digits.foldlM (fun value c => (hexDigit c).map (value * 16 + ·)) 0

/-- What a text stands for, or `none` if it is not the text of a string. -/
def unescape : List ℕ → Option (List ℕ)
  | [] => some []
  | c :: text =>
    if c = backslash then
      match text with
      | [] => none
      | e :: text =>
        if e = letterU then
          match text with
          | d₁ :: d₂ :: d₃ :: d₄ :: text =>
            (hexValue [d₁, d₂, d₃, d₄]).bind fun value => (unescape text).map (value :: ·)
          | _ => none
        else (shortEscape e).bind fun value => (unescape text).map (value :: ·)
    else if Raw c then (unescape text).map (c :: ·)
    else none

@[simp] theorem unescape_nil : unescape [] = some [] := rfl

theorem unescape_raw {c : ℕ} (h : Raw c) (text : List ℕ) :
    unescape (c :: text) = (unescape text).map (c :: ·) := by
  rw [unescape.eq_def]
  dsimp only
  rw [if_neg h.2.2, if_pos h]

theorem unescape_short {e value : ℕ} (h : shortEscape e = some value) (text : List ℕ) :
    unescape (backslash :: e :: text) = (unescape text).map (value :: ·) := by
  have hne : e ≠ letterU := by
    rintro rfl
    have hnone : shortEscape letterU = none := by decide
    rw [hnone] at h
    cases h
  rw [unescape.eq_def]
  dsimp only
  rw [if_pos rfl, if_neg hne, h, Option.bind_some]

theorem unescape_unicode {d₁ d₂ d₃ d₄ value : ℕ} (h : hexValue [d₁, d₂, d₃, d₄] = some value)
    (text : List ℕ) : unescape (backslash :: letterU :: d₁ :: d₂ :: d₃ :: d₄ :: text) =
      (unescape text).map (value :: ·) := by
  rw [unescape.eq_def]
  dsimp only
  rw [if_pos rfl, if_pos rfl, h, Option.bind_some]

/-- A text does not end with the beginning of an escape sequence. -/
theorem unescape_incomplete {digits : List ℕ} (h : digits.length < 4) :
    unescape [backslash] = none ∧ unescape (backslash :: letterU :: digits) = none := by
  refine ⟨rfl, ?_⟩
  match digits, h with
  | [], _ => rfl
  | [_], _ => rfl
  | [_, _], _ => rfl
  | [_, _, _], _ => rfl

end JsonString
