import OpenMower.JsonUtils
import OpenMower.Library.JsonString

/-!
# Escaped strings that are cut off

`EscapeStringInto` never leaves its output and always terminates it, but it stops where the output
is full, be it inside of an escape sequence. The text is then not that of a JSON string
(`unescape_incomplete`). This is so exactly if the escaped text does not fit, and no prefix of the
string fills the output (`escapeStringInto_iff`).
-/

namespace OpenMower

open Buffer JsonString EscapeOutput

/-- A C string. -/
abbrev CBytes : Type := { text : List Byte // 0x00#8 ∉ text }

/-- The codes of a text. -/
def codes (text : List Byte) : List ℕ := text.map BitVec.toNat

/-- The bytes that a character takes. -/
def escapedLength (c : Byte) : ℕ :=
  if c = 0x22#8 ∨ c = 0x5C#8 ∨ c = 0x08#8 ∨ c = 0x0C#8 ∨ c = 0x0A#8 ∨ c = 0x0D#8 ∨ c = 0x09#8 then 2
  else if c < 0x20#8 then 6
  else 1

/-- The bytes that a string takes. -/
def escapedTotal (input : List Byte) : ℕ := (input.map escapedLength).sum

/-- What `EscapeStringInto` is for: it stays in the output, terminates it and returns the length,
and what it has written is the text of a JSON string, for a prefix of the input, and for all of it
if there is room. -/
structure EscapesWell (input : CBytes) (out : ℕ → Byte) (outCap : ℕ) : Prop where
  inBounds : ∀ i ∈ (escapeStringInto input.val out outCap).writes, i < outCap
  terminated : (escapeStringInto input.val out outCap).out
    (escapeStringInto input.val out outCap).w = 0x00#8
  length : ∀ i < (escapeStringInto input.val out outCap).w,
    (escapeStringInto input.val out outCap).out i ≠ 0x00#8
  wellFormed : ∃ value, unescape (codes (slice (escapeStringInto input.val out outCap).out 0
      (escapeStringInto input.val out outCap).w)) = some value ∧
    value <+: codes input.val ∧ (escapedTotal input.val < outCap → value = codes input.val)

/-! ### The sequence of a character -/

/-- Every digit is written as one. -/
theorem hexValue_kHex : ∀ n < 32, hexValue [0x30, 0x30,
    (kHex.getD ((BitVec.ofNat 8 n >>> 4) &&& 0x0F#8).toNat 0x00#8).toNat,
    (kHex.getD (BitVec.ofNat 8 n &&& 0x0F#8).toNat 0x00#8).toNat] = some n := by
  decide

/-- **The sequence of a character** is the character itself, or one of the two kinds of escape
sequences for it. -/
theorem repl_cases (c : Byte) :
    (repl c = [c] ∧ Raw c.toNat ∧ escapedLength c = 1) ∨
    (∃ e, repl c = [0x5C#8, e] ∧ shortEscape e.toNat = some c.toNat ∧ escapedLength c = 2) ∨
    (∃ high low, repl c = [0x5C#8, 0x75#8, 0x30#8, 0x30#8, high, low] ∧
      hexValue [0x30, 0x30, high.toNat, low.toNat] = some c.toNat ∧ escapedLength c = 6) := by
  by_cases hshort : c = 0x22#8 ∨ c = 0x5C#8 ∨ c = 0x08#8 ∨ c = 0x0C#8 ∨ c = 0x0A#8 ∨ c = 0x0D#8 ∨
      c = 0x09#8
  · refine .inr (.inl ?_)
    have hlength : escapedLength c = 2 := if_pos hshort
    rcases hshort with rfl | rfl | rfl | rfl | rfl | rfl | rfl <;>
      exact ⟨_, rfl, by decide, hlength⟩
  · obtain ⟨hquote, hbackslash, hb, hf, hn, hr, ht⟩ : c ≠ 0x22#8 ∧ c ≠ 0x5C#8 ∧ c ≠ 0x08#8 ∧
        c ≠ 0x0C#8 ∧ c ≠ 0x0A#8 ∧ c ≠ 0x0D#8 ∧ c ≠ 0x09#8 := by
      simpa only [not_or] using hshort
    have hrepl : repl c = if c < 0x20#8 then
        [0x5C#8, 0x75#8, 0x30#8, 0x30#8, kHex.getD ((c >>> 4) &&& 0x0F#8).toNat 0x00#8,
          kHex.getD (c &&& 0x0F#8).toNat 0x00#8] else [c] := by
      rw [repl, if_neg hquote, if_neg hbackslash, if_neg hb, if_neg hf, if_neg hn, if_neg hr,
        if_neg ht]
    rw [hrepl, escapedLength, if_neg hshort]
    split
    · next hcontrol =>
      refine .inr (.inr ⟨_, _, rfl, ?_, rfl⟩)
      have hvalue := hexValue_kHex c.toNat hcontrol
      rwa [BitVec.ofNat_toNat, BitVec.setWidth_eq] at hvalue
    · next hprintable =>
      refine .inl ⟨rfl, ⟨?_, ?_, ?_⟩, rfl⟩
      · bv_omega
      · exact fun hcode => hquote (BitVec.eq_of_toNat_eq hcode)
      · exact fun hcode => hbackslash (BitVec.eq_of_toNat_eq hcode)

/-- What is read from the sequence of a character is the character. -/
theorem unescape_repl (c : Byte) (text : List ℕ) :
    unescape (codes (repl c) ++ text) = (unescape text).map (c.toNat :: ·) := by
  rcases repl_cases c with ⟨heq, hraw, -⟩ | ⟨e, heq, hshort, -⟩ | ⟨high, low, heq, hvalue, -⟩
  · rw [heq]
    exact unescape_raw hraw text
  · rw [heq]
    exact unescape_short hshort text
  · rw [heq]
    exact unescape_unicode hvalue text

theorem length_repl (c : Byte) : (repl c).length = escapedLength c := by
  rcases repl_cases c with ⟨heq, -, hlen⟩ | ⟨e, heq, -, hlen⟩ | ⟨high, low, heq, -, hlen⟩ <;>
    rw [heq, hlen] <;> rfl

/-- **A part of a sequence** is not the text of a string. -/
theorem unescape_part {c : Byte} {part : List Byte} (hfront : part <+: repl c) (hne : part ≠ [])
    (hlt : part.length < (repl c).length) : unescape (codes part) = none := by
  obtain ⟨b, part, rfl⟩ := List.exists_cons_of_ne_nil hne
  rcases repl_cases c with ⟨heq, -, -⟩ | ⟨e, heq, -, -⟩ | ⟨high, low, heq, -, -⟩
  · rw [heq, List.length_cons, List.length_singleton] at hlt
    omega
  · rw [heq] at hfront hlt
    obtain ⟨rfl, -⟩ := List.cons_prefix_cons.mp hfront
    simp only [List.length_cons, List.length_nil] at hlt
    obtain rfl : part = [] := List.eq_nil_of_length_eq_zero (by omega)
    rfl
  · rw [heq] at hfront hlt
    obtain ⟨rfl, hrest⟩ := List.cons_prefix_cons.mp hfront
    cases part with
    | nil => rfl
    | cons b digits =>
      obtain ⟨rfl, -⟩ := List.cons_prefix_cons.mp hrest
      refine (@unescape_incomplete (codes digits) ?_).2
      rw [codes, List.length_map]
      simp only [List.length_cons, List.length_nil] at hlt
      omega

/-! ### The cut -/

theorem length_escaped (input : List Byte) : (escaped input).length = escapedTotal input := by
  rw [escaped, List.length_flatMap, escapedTotal]
  simp only [length_repl]

/-- The whole text is read back. -/
theorem unescape_escaped (input : List Byte) (text : List ℕ) :
    unescape (codes (escaped input) ++ text) = (unescape text).map (codes input ++ ·) := by
  induction input with
  | nil => simp [escaped, codes]
  | cons c input ih =>
    have hsplit : codes (escaped (c :: input)) ++ text =
        codes (repl c) ++ (codes (escaped input) ++ text) := by
      simp [escaped, codes]
    rw [hsplit, unescape_repl, ih, Option.map_map]
    rfl

/-- **Where the text is cut**: behind the sequence of a character, or inside of one. -/
theorem take_escaped (input : List Byte) (n : ℕ) :
    (∃ start, start <+: input ∧ (escaped input).take n = escaped start ∧
      (start = input ∨ escapedTotal start = n)) ∨
    (∃ start c part, (escaped input).take n = escaped start ++ part ∧ part <+: repl c ∧
      part ≠ [] ∧ part.length < (repl c).length) := by
  induction input generalizing n with
  | nil => exact .inl ⟨[], List.prefix_refl _, by simp [escaped], .inl rfl⟩
  | cons c input ih =>
    have hcons : ∀ start, escaped (c :: start) = repl c ++ escaped start := fun _ => rfl
    rw [hcons]
    by_cases hroom : (repl c).length ≤ n
    · have htake : (repl c ++ escaped input).take n =
          repl c ++ (escaped input).take (n - (repl c).length) := by
        rw [List.take_append, List.take_of_length_le hroom]
      rw [htake]
      rcases ih (n - (repl c).length) with
        ⟨start, hstart, htaken, hcut⟩ | ⟨start, c', part, htaken, hpart⟩
      · refine .inl ⟨c :: start, List.cons_prefix_cons.mpr ⟨rfl, hstart⟩, by rw [htaken, hcons], ?_⟩
        rcases hcut with rfl | hcut
        · exact .inl rfl
        · have htotal : escapedTotal (c :: start) = (repl c).length + escapedTotal start := by
            rw [length_repl]
            rfl
          exact .inr (by omega)
      · exact .inr ⟨c :: start, c', part, by rw [htaken, hcons, List.append_assoc], hpart⟩
    · rw [List.take_append_of_le_length (by omega)]
      by_cases hzero : n = 0
      · subst hzero
        exact .inl ⟨[], List.nil_prefix, rfl, .inr rfl⟩
      · refine .inr ⟨[], c, (repl c).take n, rfl, List.take_prefix _ _, ?_, ?_⟩
        · refine List.ne_nil_of_length_pos ?_
          rw [List.length_take]
          omega
        · rw [List.length_take]
          omega

/-- The text of a prefix of the string is well formed. -/
theorem unescape_of_prefix {input start : List Byte} (hstart : start <+: input) :
    unescape (codes (escaped start)) = some (codes start) ∧ codes start <+: codes input := by
  have hread := unescape_escaped start []
  rw [List.append_nil] at hread
  exact ⟨hread.trans (by simp), hstart.map _⟩

/-- No sequence has a NUL in it. -/
theorem zero_notMem_escaped (input : List Byte) : 0x00#8 ∉ escaped input := by
  intro hmem
  obtain ⟨c, -, hc⟩ := List.mem_flatMap.mp hmem
  rcases repl_cases c with ⟨heq, ⟨hraw, -⟩, -⟩ | ⟨e, heq, hshort, -⟩ | ⟨high, low, heq, hvalue, -⟩
  · rw [heq, List.mem_singleton] at hc
    rw [← hc] at hraw
    exact absurd hraw (by decide)
  · rw [heq] at hc
    simp only [List.mem_cons, List.not_mem_nil, or_false] at hc
    rcases hc with hc | rfl
    · exact absurd hc (by decide)
    · have hnone : shortEscape (0x00#8).toNat = none := by decide
      rw [hnone] at hshort
      cases hshort
  · rw [heq] at hc
    simp only [List.mem_cons, List.not_mem_nil, or_false] at hc
    rcases hc with hc | hc | hc | hc | rfl | rfl
    · exact absurd hc (by decide)
    · exact absurd hc (by decide)
    · exact absurd hc (by decide)
    · exact absurd hc (by decide)
    · exact absurd hvalue (by simp [hexValue, hexDigit])
    · exact absurd hvalue (by simp [hexValue, hexDigit])

/-! ### The result -/

/-- **The text that is written** decides everything else. -/
theorem escapesWell_iff (input : CBytes) (out : ℕ → Byte) {outCap : ℕ} (hcap : 0 < outCap) :
    EscapesWell input out outCap ↔
      ∃ value, unescape (codes ((escaped input.val).take (outCap - 1))) = some value ∧
        value <+: codes input.val ∧
          (escapedTotal input.val < outCap → value = codes input.val) := by
  have hwritten := escapeStringInto_written input.val out hcap
  have htext : slice (escapeStringInto input.val out outCap).out 0
      (escapeStringInto input.val out outCap).w = (escaped input.val).take (outCap - 1) := by
    rw [hwritten.w_eq]
    exact hwritten.contents
  constructor
  · intro h
    rw [← htext]
    exact h.wellFormed
  · intro h
    refine ⟨hwritten.inBounds, ?_, fun i hi hzero => ?_, ?_⟩
    · rw [hwritten.w_eq]
      exact hwritten.terminated
    · have hmem : (escapeStringInto input.val out outCap).out i ∈
          (escaped input.val).take (outCap - 1) := by
        rw [← htext, slice, List.mem_map]
        exact ⟨i, List.mem_range'_1.mpr ⟨Nat.zero_le _, by omega⟩, rfl⟩
      rw [hzero] at hmem
      exact zero_notMem_escaped _ (List.mem_of_mem_take hmem)
    · rwa [htext]

/-- **Escaping works** if and only if the escaped text fits, or some prefix of the string fills the
output up to the NUL. -/
theorem escapeStringInto_iff (input : CBytes) (out : ℕ → Byte) (outCap : ℕ)
    (hcap : 0 < outCap) : EscapesWell input out outCap ↔
      escapedTotal input.val < outCap ∨
        ∃ start, start <+: input.val ∧ escapedTotal start + 1 = outCap := by
  rw [escapesWell_iff input out hcap]
  constructor
  · rintro ⟨value, hvalue, -⟩
    rcases take_escaped input.val (outCap - 1) with
      ⟨start, hstart, htake, hcut⟩ | ⟨start, c, part, htake, hpart, hne, hlt⟩
    · rcases hcut with rfl | hcut
      · have hlen := congrArg List.length htake
        rw [List.length_take, length_escaped] at hlen
        exact .inl (by omega)
      · exact .inr ⟨start, hstart, by omega⟩
    · rw [htake, codes, List.map_append, ← codes, ← codes, unescape_escaped,
        unescape_part hpart hne hlt] at hvalue
      cases hvalue
  · intro h
    by_cases hfits : escapedTotal input.val < outCap
    · have hwhole : (escaped input.val).take (outCap - 1) = escaped input.val := by
        rw [List.take_of_length_le]
        rw [length_escaped]
        omega
      obtain ⟨hread, hfront⟩ := unescape_of_prefix (List.prefix_refl input.val)
      exact ⟨_, by rw [hwhole, hread], hfront, fun _ => rfl⟩
    · obtain ⟨start, hstart, hcut⟩ := h.resolve_left hfits
      have hpart : (escaped input.val).take (outCap - 1) = escaped start := by
        obtain ⟨rest, hrest⟩ := hstart
        have hlength : outCap - 1 = (escaped start).length := by
          rw [length_escaped]
          omega
        rw [← hrest, escaped, List.flatMap_append, ← escaped, hlength, List.take_left]
      obtain ⟨hread, hfront⟩ := unescape_of_prefix hstart
      exact ⟨_, by rw [hpart, hread], hfront, fun hlt => absurd hlt hfits⟩

/-- A quote in an output of three bytes. -/
theorem escapeStringInto_iff_quote :
    EscapesWell ⟨[0x22#8], by decide⟩ (fun _ => 0xFF#8) 3 :=
  (escapeStringInto_iff ⟨[0x22#8], by decide⟩ (fun _ => 0xFF#8) 3 (by decide)).mpr
    (.inl (by decide))

/-- The name of a manufacturer that is 30 quotes, in an output of 60 bytes: it ends with a single
backslash, which makes the quote behind it a part of the string. -/
theorem escapeStringInto_not_quotes :
    (escapeStringInto (List.replicate 30 0x22#8) (fun _ => 0x00#8) 60).w = 59 ∧
      (escapeStringInto (List.replicate 30 0x22#8) (fun _ => 0x00#8) 60).out 58 = 0x5C#8 ∧
      ¬ EscapesWell ⟨List.replicate 30 0x22#8, by decide⟩ (fun _ => 0x00#8) 60 := by
  refine ⟨by decide, by decide, fun h => ?_⟩
  obtain ⟨value, hvalue, -⟩ := (escapesWell_iff _ _ (by decide)).mp h
  have hnone : unescape (codes ((escaped (List.replicate 30 0x22#8)).take (60 - 1))) = none := by
    decide
  rw [hnone] at hvalue
  cases hvalue

end OpenMower
