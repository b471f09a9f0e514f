import OpenMower.Library.Buffer
import OpenMower.Portable.Integers

/-!
# Escaping JSON strings

From `json_utils`. `EscapeStringInto` copies a string with the escape sequence of each character
that needs one, byte by byte, until the output is full. A C string is the list of its bytes
without the NUL; neither of the pointers is null.

`escapeStringInto_written` says what is written: as much of the escaped text as there is room for,
and a NUL behind it.
-/

namespace OpenMower

open Buffer

/-- `kHex`. -/
def kHex : List Byte :=
  [0x30#8, 0x31#8, 0x32#8, 0x33#8, 0x34#8, 0x35#8, 0x36#8, 0x37#8, 0x38#8, 0x39#8, 0x41#8, 0x42#8,
    0x43#8, 0x44#8, 0x45#8, 0x46#8]

/-- `repl`, for one character. -/
def repl (c : Byte) : List Byte :=
  if c = 0x22#8 then [0x5C#8, 0x22#8]
  else if c = 0x5C#8 then [0x5C#8, 0x5C#8]
  else if c = 0x08#8 then [0x5C#8, 0x62#8]
  else if c = 0x0C#8 then [0x5C#8, 0x66#8]
  else if c = 0x0A#8 then [0x5C#8, 0x6E#8]
  else if c = 0x0D#8 then [0x5C#8, 0x72#8]
  else if c = 0x09#8 then [0x5C#8, 0x74#8]
  else if c < 0x20#8 then
    [0x5C#8, 0x75#8, 0x30#8, 0x30#8, kHex.getD ((c >>> 4) &&& 0x0F#8).toNat 0x00#8,
      kHex.getD (c &&& 0x0F#8).toNat 0x00#8]
  else [c]

/-- The output while it is written. -/
structure EscapeOutput where
  out : ℕ → Byte
  w : ℕ
  /-- History: the indices at which `out` has been written. -/
  writes : List ℕ

namespace EscapeOutput

variable (o : EscapeOutput)

/-- `out[w++] = b`. -/
def put (b : Byte) : EscapeOutput where
  out := Function.update o.out o.w b
  w := o.w + 1
  writes := o.writes ++ [o.w]

/-- `out[w] = '\0'`. -/
def terminate : EscapeOutput :=
  { o with out := Function.update o.out o.w 0x00#8, writes := o.writes ++ [o.w] }

/-- The inner loop: whether there has been room. -/
def putRepl (outCap : ℕ) : List Byte → EscapeOutput → Bool × EscapeOutput
  | [], o => (true, o)
  | b :: rest, o => if outCap ≤ o.w + 1 then (false, o.terminate) else putRepl outCap rest (o.put b)

/-- The outer loop. -/
def escape (outCap : ℕ) : List Byte → EscapeOutput → EscapeOutput
  | [], o => o.terminate
  | c :: input, o =>
    let (room, o') := putRepl outCap (repl c) o
    if room then escape outCap input o' else o'

end EscapeOutput

/-- `EscapeStringInto`: the returned length is `w`. -/
def escapeStringInto (input : List Byte) (out : ℕ → Byte) (outCap : ℕ) : EscapeOutput :=
  if outCap = 0 then { out, w := 0, writes := [] }
  else
    .escape outCap input { out := Function.update out 0 0x00#8, w := 0, writes := [0] }

/-- The whole escaped text. -/
def escaped (input : List Byte) : List Byte := input.flatMap repl

namespace EscapeOutput

variable {o : EscapeOutput} {outCap : ℕ}

/-- What has been written so far, with room for the NUL. -/
structure Writing (outCap : ℕ) (text : List Byte) (o : EscapeOutput) : Prop where
  w_eq : o.w = text.length
  contents : slice o.out 0 text.length = text
  inBounds : ∀ i ∈ o.writes, i < outCap
  room : text.length < outCap

/-- A text with a NUL behind it. -/
structure Written (outCap : ℕ) (text : List Byte) (o : EscapeOutput) : Prop
    extends Writing outCap text o where
  terminated : o.out text.length = 0x00#8

/-- The next write is in bounds. -/
theorem Writing.inBounds_write {text : List Byte} (h : Writing outCap text o) :
    ∀ i ∈ o.writes ++ [o.w], i < outCap := by
  intro i hi
  rcases List.mem_append.mp hi with hi | hi
  · exact h.inBounds i hi
  · rw [List.mem_singleton.mp hi, h.w_eq]
    exact h.room

theorem Writing.terminate {text : List Byte} (h : Writing outCap text o) :
    Written outCap text o.terminate where
  w_eq := h.w_eq
  contents := by
    rw [EscapeOutput.terminate, h.w_eq, slice_update (.inr (by omega)), h.contents]
  inBounds := h.inBounds_write
  room := h.room
  terminated := by
    rw [EscapeOutput.terminate, h.w_eq]
    exact Function.update_self _ _ _

theorem Writing.put {text : List Byte} (h : Writing outCap text o)
    (hroom : text.length + 1 < outCap) (b : Byte) : Writing outCap (text ++ [b]) (o.put b) where
  w_eq := by rw [EscapeOutput.put, h.w_eq, List.length_append, List.length_singleton]
  contents := by
    have hwrite := @slice_update_succ _ o.out 0 text.length b
    rw [Nat.zero_add] at hwrite
    rw [EscapeOutput.put, h.w_eq, List.length_append, List.length_singleton, hwrite, h.contents]
  inBounds := h.inBounds_write
  room := by rwa [List.length_append, List.length_singleton]

/-- **The inner loop** writes the whole sequence, or what there is room for. -/
theorem Writing.putRepl {text : List Byte} (h : Writing outCap text o) (rest : List Byte) :
    ((text ++ rest).length < outCap ∧ (o.putRepl outCap rest).1 = true ∧
        Writing outCap (text ++ rest) (o.putRepl outCap rest).2) ∨
      (outCap ≤ (text ++ rest).length ∧ (o.putRepl outCap rest).1 = false ∧
        Written outCap ((text ++ rest).take (outCap - 1)) (o.putRepl outCap rest).2) := by
  induction rest generalizing text o with
  | nil =>
    rw [List.append_nil]
    exact .inl ⟨h.room, rfl, h⟩
  | cons b rest ih =>
    have hroom := h.room
    have hassoc : text ++ b :: rest = text ++ [b] ++ rest := by simp
    rw [EscapeOutput.putRepl, h.w_eq]
    split
    · next hfull =>
      have hlen : outCap - 1 = text.length := by omega
      refine .inr ⟨?_, rfl, ?_⟩
      · rw [List.length_append, List.length_cons]
        omega
      · rw [hlen, List.take_left]
        exact h.terminate
    · next hspace =>
      rw [hassoc]
      exact ih (h.put (by omega) b)

/-- **The outer loop** writes the escaped text as far as there is room for it. -/
theorem Writing.escape {text : List Byte} (h : Writing outCap text o) (input : List Byte) :
    Written outCap ((text ++ escaped input).take (outCap - 1)) (o.escape outCap input) := by
  induction input generalizing text o with
  | nil =>
    have hroom := h.room
    have hwhole : (text ++ escaped []).take (outCap - 1) = text := by
      rw [escaped, List.flatMap_nil, List.append_nil, List.take_of_length_le (by omega)]
    rw [hwhole]
    exact h.terminate
  | cons c input ih =>
    have hassoc : text ++ escaped (c :: input) = text ++ repl c ++ escaped input := by
      rw [escaped, List.flatMap_cons, ← escaped, List.append_assoc]
    rw [EscapeOutput.escape, hassoc]
    rcases h.putRepl (repl c) with ⟨-, hroom, hnext⟩ | ⟨hfull, hroom, hwritten⟩
    · simp only [hroom, if_true]
      exact ih hnext
    · simp only [hroom, Bool.false_eq_true, if_false]
      rwa [List.take_append_of_le_length (by omega)]

end EscapeOutput

open EscapeOutput

/-- **What is written**: as much of the escaped text as there is room for, with a NUL behind it, and
nothing outside of the output. -/
theorem escapeStringInto_written (input : List Byte) (out : ℕ → Byte) {outCap : ℕ}
    (hcap : 0 < outCap) :
    Written outCap ((escaped input).take (outCap - 1)) (escapeStringInto input out outCap) := by
  have hstart : Writing outCap []
      { out := Function.update out 0 0x00#8, w := 0, writes := [0] } :=
    { w_eq := rfl
      contents := rfl
      inBounds := by simpa using hcap
      room := hcap }
  rw [escapeStringInto, if_neg (by omega)]
  exact hstart.escape input

end OpenMower
