import OpenMower.Library.Buffer
import OpenMower.Library.Cobs
import OpenMower.Portable.Integers

/-!
# The two COBS codecs

`cobsEncode` and `cobsDecode` are from `drivers/motor/yfr4esc/cobs.h`; `YfCoverUi.cobsEncode` and
`YfCoverUi.cobsDecode` are the codec of `drivers/ui/yf_cover_ui`. Both encoders write the code byte
of a block when the block is complete: the one leaves it out until then, the other has a
placeholder for it. The decoders write what they have decoded until they find an error.

Each of the four functions computes what `Cobs.encode` and `Cobs.decode` say, whatever the output
buffer holds before (`cobsEncode_eq` to `YfCoverUi.cobsDecode_eq`).
-/

namespace OpenMower

open Buffer

/-- The state of an encoder: the output, and the position and the value of the code byte of the
current block. -/
structure CobsEncoder where
  output : Writer Byte
  codePtr : ℕ
  code : Byte

namespace CobsEncoder

variable (s : CobsEncoder)

/-! ### `cobs.h` -/

/-- `cobs_encode` before the loop. -/
def init (output : ℕ → Byte) : CobsEncoder where
  output := (Writer.ofBuffer output).skip
  codePtr := 0
  code := 1#8

/-- `*code_ptr = code; code_ptr = out++; code = 1`. -/
def nextBlock : CobsEncoder where
  output := (s.output.patch s.codePtr s.code).skip
  codePtr := s.output.len
  code := 1#8

/-- A pass of the loop in `cobs_encode`. -/
def step (b : Byte) : CobsEncoder :=
  if b ≠ 0#8 then
    let s' := { s with output := s.output.put b, code := s.code + 1#8 }
    if s'.code = 0xFF#8 then s'.nextBlock else s'
  else s.nextBlock

/-! ### `YFCoverUI` -/

/-- `CobsEncode` before the loop, with a placeholder. -/
def initPlaceholder (dst : ℕ → Byte) : CobsEncoder where
  output := (Writer.ofBuffer dst).put 0x00#8
  codePtr := 0
  code := 0x01#8

/-- `dst[code_idx] = code; code_idx = dst_idx; dst[dst_idx++] = 0x01; code = 0x01`. -/
def nextPlaceholder : CobsEncoder where
  output := (s.output.patch s.codePtr s.code).put 0x01#8
  codePtr := s.output.len
  code := 0x01#8

/-- A pass of the loop in `CobsEncode`. -/
def stepPlaceholder (b : Byte) : CobsEncoder :=
  if b = 0#8 then s.nextPlaceholder
  else
    let s' := { s with output := s.output.put b, code := s.code + 1#8 }
    if s'.code = 0xFF#8 then s'.nextPlaceholder else s'

/-- The last block is closed. -/
def finish : List Byte := (s.output.patch s.codePtr s.code).contents

/-- An encoder has written the blocks `done` and the data of the next block, with a hole for its
code byte. -/
structure Encoding (done data : List Byte) (s : CobsEncoder) : Prop where
  contents : ∃ hole, s.output.contents = done ++ hole :: data
  codePtr : s.codePtr = done.length
  code : s.code = BitVec.ofNat 8 (data.length + 1)

variable {s} {done data : List Byte}

/-- The block is closed. -/
theorem Encoding.finish (h : Encoding done data s) : s.finish = done ++ Cobs.block data := by
  obtain ⟨hole, hcontents⟩ := h.contents
  rw [CobsEncoder.finish, h.codePtr, h.code]
  exact Writer.contents_patch hcontents

/-- The block is closed and another one is begun. -/
theorem Encoding.nextBlock (h : Encoding done data s) :
    Encoding (done ++ Cobs.block data) [] s.nextBlock := by
  have hclosed : (s.output.patch s.codePtr s.code).contents = _ := h.finish
  refine ⟨⟨(s.output.patch s.codePtr s.code).buffer s.output.len, ?_⟩, ?_, rfl⟩
  · rw [CobsEncoder.nextBlock, Writer.contents_skip, hclosed, Writer.patch_len]
  · rw [CobsEncoder.nextBlock, ← hclosed, Writer.length_contents, Writer.patch_len]

theorem Encoding.nextPlaceholder (h : Encoding done data s) :
    Encoding (done ++ Cobs.block data) [] s.nextPlaceholder := by
  have hclosed : (s.output.patch s.codePtr s.code).contents = _ := h.finish
  refine ⟨⟨0x01#8, ?_⟩, ?_, rfl⟩
  · rw [CobsEncoder.nextPlaceholder, Writer.contents_put, hclosed]
  · rw [CobsEncoder.nextPlaceholder, ← hclosed, Writer.length_contents, Writer.patch_len]

/-- A byte goes into the block. -/
theorem Encoding.put (h : Encoding done data s) (b : Byte) :
    Encoding done (data ++ [b]) { s with output := s.output.put b, code := s.code + 1#8 } := by
  obtain ⟨hole, hcontents⟩ := h.contents
  refine ⟨⟨hole, ?_⟩, h.codePtr, ?_⟩
  · rw [Writer.contents_put, hcontents, List.append_assoc, List.cons_append]
  · dsimp only
    rw [h.code, List.length_append, List.length_singleton, BitVec.ofNat_add_ofNat]

/-- **One pass** of an encoder. -/
structure Encodes (step : CobsEncoder → Byte → CobsEncoder) : Prop where
  zero : ∀ {done data s}, Encoding done data s → Encoding (done ++ Cobs.block data) [] (step s 0#8)
  full : ∀ {done data s b}, Encoding done data s → b ≠ 0#8 → data.length = 253 →
    Encoding (done ++ Cobs.block (data ++ [b])) [] (step s b)
  data : ∀ {done data s b}, Encoding done data s → b ≠ 0#8 → data.length < 253 →
    Encoding done (data ++ [b]) (step s b)

/-- The code byte reaches its maximum with the 254th byte. -/
theorem Encoding.code_eq_iff (h : Encoding done data s) (hlen : data.length ≤ 253) :
    s.code + 1#8 = 0xFF#8 ↔ data.length = 253 := by
  rw [h.code, ← BitVec.toNat_inj, BitVec.toNat_add, BitVec.toNat_ofNat, BitVec.toNat_ofNat,
    BitVec.toNat_ofNat]
  omega

theorem encodes_step : Encodes step where
  zero h := by
    rw [step, if_neg (by simp)]
    exact h.nextBlock
  full h hb hlen := by
    rw [step, if_pos hb, if_pos ((h.code_eq_iff (by omega)).mpr hlen)]
    exact (h.put _).nextBlock
  data h hb hlen := by
    rw [step, if_pos hb, if_neg fun heq => by have := (h.code_eq_iff (by omega)).mp heq; omega]
    exact h.put _

theorem encodes_stepPlaceholder : Encodes stepPlaceholder where
  zero h := by
    rw [stepPlaceholder, if_pos rfl]
    exact h.nextPlaceholder
  full h hb hlen := by
    rw [stepPlaceholder, if_neg hb, if_pos ((h.code_eq_iff (by omega)).mpr hlen)]
    exact (h.put _).nextPlaceholder
  data h hb hlen := by
    rw [stepPlaceholder, if_neg hb,
      if_neg fun heq => by have := (h.code_eq_iff (by omega)).mp heq; omega]
    exact h.put _

/-- **All passes** of an encoder. -/
theorem Encodes.finish_foldl {step : CobsEncoder → Byte → CobsEncoder} (hstep : Encodes step)
    (h : Encoding done data s) (hlen : data.length ≤ 253) (packet : List Byte) :
    (packet.foldl step s).finish = done ++ Cobs.encodeFrom data packet := by
  induction packet generalizing done data s with
  | nil => exact h.finish
  | cons b bs ih =>
    rw [List.foldl_cons, Cobs.encodeFrom]
    by_cases hb : b = 0#8
    · subst hb
      rw [if_pos rfl, ih (hstep.zero h) (by simp), List.append_assoc]
    · rw [if_neg hb]
      by_cases hfull : data.length = 253
      · rw [if_pos hfull, ih (hstep.full h hb hfull) (by simp), List.append_assoc]
      · rw [if_neg hfull]
        refine ih (hstep.data h hb (by omega)) ?_
        rw [List.length_append, List.length_singleton]
        omega

end CobsEncoder

open CobsEncoder

/-- `cobs_encode`: the bytes in `output` up to the returned length. -/
def cobsEncode (input : List Byte) (output : ℕ → Byte) : List Byte :=
  (input.foldl step (init output)).finish

/-- `YFCoverUI::CobsEncode`. -/
def YfCoverUi.cobsEncode (src : List Byte) (dst : ℕ → Byte) : List Byte :=
  (src.foldl stepPlaceholder (initPlaceholder dst)).finish

theorem cobsEncode_eq (input : List Byte) (output : ℕ → Byte) :
    cobsEncode input output = Cobs.encode input := by
  have hinit : Encoding [] [] (init output) := ⟨⟨output 0, Writer.contents_skip⟩, rfl, rfl⟩
  exact encodes_step.finish_foldl hinit (by simp) input

theorem YfCoverUi.cobsEncode_eq (src : List Byte) (dst : ℕ → Byte) :
    cobsEncode src dst = Cobs.encode src := by
  have hinit : Encoding [] [] (initPlaceholder dst) := ⟨⟨0x00#8, Writer.contents_put⟩, rfl, rfl⟩
  exact encodes_stepPlaceholder.finish_foldl hinit (by simp) src

/-! ### Decoding with pointers -/

/-- The `for` loop in `cobs_decode`: whether the input was long enough, what is left of it, and
the output. -/
def cobsCopy : ℕ → List Byte → Writer Byte → Bool × List Byte × Writer Byte
  | 0, input, out => (true, input, out)
  | _ + 1, [], out => (false, [], out)
  | n + 1, b :: input, out => cobsCopy n input (out.put b)

theorem length_cobsCopy_le (n : ℕ) (input : List Byte) (out : Writer Byte) :
    (cobsCopy n input out).2.1.length ≤ input.length := by
  induction n, input, out using cobsCopy.induct with
  | case1 input out => simp [cobsCopy]
  | case2 n out => simp [cobsCopy]
  | case3 n b input out ih =>
    rw [cobsCopy, List.length_cons]
    omega

/-- The `while` loop in `cobs_decode`: whether it comes to the end of the input, and the
output. -/
def cobsDecodeLoop (input : List Byte) (out : Writer Byte) : Bool × Writer Byte :=
  match input with
  | [] => (true, out)
  | code :: input =>
    if code = 0#8 then (false, out)
    else
      let copied := cobsCopy (code.toNat - 1) input out
      if copied.1 = false then (false, copied.2.2)
      else
        cobsDecodeLoop copied.2.1
          (if code ≠ 0xFF#8 ∧ copied.2.1 ≠ [] then copied.2.2.put 0#8 else copied.2.2)
termination_by input.length
decreasing_by exact Nat.lt_succ_of_le (length_cobsCopy_le _ _ _)

/-- `cobs_decode`: the number it returns, which is 0 on an error, and the output. -/
def cobsDecode (input : List Byte) (output : ℕ → Byte) : ℕ × Writer Byte :=
  let decoded := cobsDecodeLoop input (Writer.ofBuffer output)
  (if decoded.1 then decoded.2.len else 0, decoded.2)

/-- Enough input. -/
theorem cobsCopy_of_le {n : ℕ} {input : List Byte} (h : n ≤ input.length) (out : Writer Byte) :
    (cobsCopy n input out).1 = true ∧ (cobsCopy n input out).2.1 = input.drop n ∧
      (cobsCopy n input out).2.2.contents = out.contents ++ input.take n := by
  induction n, input, out using cobsCopy.induct with
  | case1 input out => simp [cobsCopy]
  | case2 n out => simp at h
  | case3 n b input out ih =>
    obtain ⟨hok, hrest, hcontents⟩ := ih (by simpa using h)
    refine ⟨hok, hrest, ?_⟩
    rw [cobsCopy, hcontents, Writer.contents_put, List.append_assoc, List.take_succ_cons]
    rfl

/-- Not enough input. -/
theorem cobsCopy_of_lt {n : ℕ} {input : List Byte} (h : input.length < n) (out : Writer Byte) :
    (cobsCopy n input out).1 = false ∧
      (cobsCopy n input out).2.2.contents = out.contents ++ input := by
  induction n, input, out using cobsCopy.induct with
  | case1 input out => simp at h
  | case2 n out => simp [cobsCopy]
  | case3 n b input out ih =>
    obtain ⟨hok, hcontents⟩ := ih (by simpa using h)
    refine ⟨hok, ?_⟩
    rw [cobsCopy, hcontents, Writer.contents_put, List.append_assoc]
    rfl

/-- **The decoder with pointers** computes the specified function. -/
theorem cobsDecodeLoop_eq (input : List Byte) (out : Writer Byte) :
    (cobsDecodeLoop input out).1 = (Cobs.decode input).1 ∧
      (cobsDecodeLoop input out).2.contents = out.contents ++ (Cobs.decode input).2 := by
  induction input using Cobs.decode.induct generalizing out with
  | case1 => simp [cobsDecodeLoop]
  | case2 rest => simp [cobsDecodeLoop, Cobs.decode]
  | case3 code rest hzero hshort =>
    obtain ⟨hok, hcontents⟩ := cobsCopy_of_lt hshort out
    rw [cobsDecodeLoop, Cobs.decode, if_neg hzero, if_neg hzero, if_pos hok, if_pos hshort]
    exact ⟨rfl, hcontents⟩
  | case4 code rest hzero hlong ih =>
    obtain ⟨hok, hrest, hcontents⟩ := cobsCopy_of_le (Nat.not_lt.mp hlong) out
    rw [cobsDecodeLoop, Cobs.decode, if_neg hzero, if_neg hzero, if_neg hlong,
      if_neg (by simp [hok])]
    dsimp only
    rw [hrest]
    refine ⟨(ih _).1, (ih _).2.trans ?_⟩
    rw [Cobs.implicitZero]
    split
    · rw [Writer.contents_put, hcontents]
      simp
    · rw [hcontents]
      simp

/-- **`cobs_decode`.** -/
theorem cobsDecode_eq (input : List Byte) (output : ℕ → Byte) :
    (cobsDecode input output).2.contents = (Cobs.decode input).2 ∧
      (cobsDecode input output).1 =
        if (Cobs.decode input).1 then (Cobs.decode input).2.length else 0 := by
  obtain ⟨hok, hcontents⟩ := cobsDecodeLoop_eq input (Writer.ofBuffer output)
  rw [Writer.contents_ofBuffer, List.nil_append] at hcontents
  refine ⟨hcontents, ?_⟩
  rw [← hok, ← hcontents, Writer.length_contents]
  rfl

/-! ### Decoding with indices -/

/-- The state of `CobsDecode`: the index `i` into the input, and `dst` with `out_len`. -/
structure CobsDecoder where
  i : ℕ
  dst : Writer Byte

namespace CobsDecoder

variable (src : List Byte)

/-- The `for` loop in `CobsDecode`: whether the packet is not truncated. -/
def copyBlock : ℕ → CobsDecoder → Bool × CobsDecoder
  | 0, s => (true, s)
  | n + 1, s =>
    match src[s.i]? with
    | none => (false, s)
    | some b => copyBlock n { i := s.i + 1, dst := s.dst.put b }

theorem le_copyBlock_i (n : ℕ) (s : CobsDecoder) : s.i ≤ (copyBlock src n s).2.i := by
  induction n generalizing s with
  | zero => exact Nat.le_refl _
  | succ n ih =>
    rw [copyBlock]
    split
    · exact Nat.le_refl _
    · next b _ =>
      have hle := ih { i := s.i + 1, dst := s.dst.put b }
      exact Nat.le_of_succ_le hle

/-- The `while` loop in `CobsDecode`. -/
def decodeLoop (s : CobsDecoder) : Bool × CobsDecoder :=
  if h : s.i < src.length then
    let code := src[s.i]
    let next := { s with i := s.i + 1 }
    if code = 0x00#8 then (false, next)
    else
      let block := code - 1#8
      let copied := copyBlock src block.toNat next
      if copied.1 = false then (false, copied.2)
      else
        decodeLoop
          { copied.2 with
            dst := if code ≠ 0xFF#8 ∧ copied.2.i < src.length then copied.2.dst.put 0x00#8
              else copied.2.dst }
  else (true, s)
termination_by src.length - s.i
decreasing_by
  have hle := le_copyBlock_i src (src[s.i] - 1#8).toNat { s with i := s.i + 1 }
  dsimp only at hle
  omega

variable {src} {s : CobsDecoder}

/-- The packet has enough bytes for the block. -/
theorem copyBlock_of_le {n : ℕ} (h : s.i + n ≤ src.length) : (copyBlock src n s).1 = true ∧
    (copyBlock src n s).2.i = s.i + n ∧
    (copyBlock src n s).2.dst.contents = s.dst.contents ++ (src.drop s.i).take n := by
  induction n generalizing s with
  | zero => simp [copyBlock]
  | succ n ih =>
    have hget : src[s.i]? = some src[s.i] := List.getElem?_eq_getElem (by omega)
    obtain ⟨hok, hi, hcontents⟩ :=
      @ih { i := s.i + 1, dst := s.dst.put src[s.i] } (by dsimp only; omega)
    have hsum : s.i + 1 + n = s.i + (n + 1) := by omega
    have hdrop : src.drop s.i = src[s.i] :: src.drop (s.i + 1) :=
      List.drop_eq_getElem_cons (by omega)
    rw [copyBlock, hget]
    refine ⟨hok, hi.trans hsum, hcontents.trans ?_⟩
    rw [Writer.contents_put, List.append_assoc, hdrop, List.take_succ_cons]
    rfl

/-- The packet is truncated. -/
theorem copyBlock_of_lt {n : ℕ} (h : src.length < s.i + n) (hi : s.i ≤ src.length) :
    (copyBlock src n s).1 = false ∧
      (copyBlock src n s).2.dst.contents = s.dst.contents ++ src.drop s.i := by
  induction n generalizing s with
  | zero => omega
  | succ n ih =>
    rw [copyBlock]
    by_cases hlt : s.i < src.length
    · rw [List.getElem?_eq_getElem hlt]
      obtain ⟨hok, hcontents⟩ :=
        @ih { i := s.i + 1, dst := s.dst.put src[s.i] } (by dsimp only; omega) hlt
      refine ⟨hok, hcontents.trans ?_⟩
      rw [Writer.contents_put, List.append_assoc, List.drop_eq_getElem_cons hlt]
      rfl
    · rw [List.getElem?_eq_none (by omega), List.drop_eq_nil_of_le (by omega)]
      simp

/-- **The decoder with indices** computes the specified function. -/
theorem decodeLoop_eq (s : CobsDecoder) :
    (decodeLoop src s).1 = (Cobs.decode (src.drop s.i)).1 ∧
      (decodeLoop src s).2.dst.contents = s.dst.contents ++ (Cobs.decode (src.drop s.i)).2 := by
  -- on what is left of the packet; `Cobs.decode` recurses on the rest behind the block
  induction hn : src.length - s.i using Nat.strongRecOn generalizing s with
  | ind n ih =>
    rw [decodeLoop]
    by_cases hlt : s.i < src.length
    · rw [dif_pos hlt, List.drop_eq_getElem_cons hlt, Cobs.decode]
      by_cases hzero : src[s.i] = 0#8
      · simp [hzero]
      have hpos : 0 < src[s.i].toNat := by
        rw [Nat.pos_iff_ne_zero]
        exact fun h => hzero (BitVec.eq_of_toNat_eq h)
      have hblock : (src[s.i] - 1#8).toNat = src[s.i].toNat - 1 := by bv_omega
      have hrest : (src.drop (s.i + 1)).length = src.length - (s.i + 1) := List.length_drop
      rw [if_neg hzero, if_neg hzero]
      dsimp only
      rw [hblock]
      by_cases hshort : (src.drop (s.i + 1)).length < src[s.i].toNat - 1
      · -- the block is truncated
        obtain ⟨hok, hcontents⟩ := @copyBlock_of_lt src { s with i := s.i + 1 }
          (src[s.i].toNat - 1) (by dsimp only; omega) (by dsimp only; omega)
        rw [if_pos hshort, if_pos hok]
        exact ⟨rfl, hcontents⟩
      · -- the block is copied, and the loop goes on behind it
        obtain ⟨hok, hi, hcontents⟩ := @copyBlock_of_le src { s with i := s.i + 1 }
          (src[s.i].toNat - 1) (by dsimp only; omega)
        rw [if_neg hshort, if_neg (by simp [hok])]
        generalize (copyBlock src (src[s.i].toNat - 1) { s with i := s.i + 1 }).2 = copied
          at hi hcontents ⊢
        obtain ⟨i, dst⟩ := copied
        dsimp only at hi hcontents ⊢
        subst hi
        have hdrop : (src.drop (s.i + 1)).drop (src[s.i].toNat - 1) =
            src.drop (s.i + 1 + (src[s.i].toNat - 1)) := List.drop_drop
        have hmore : src.drop (s.i + 1 + (src[s.i].toNat - 1)) ≠ [] ↔
            s.i + 1 + (src[s.i].toNat - 1) < src.length := by
          rw [ne_eq, List.drop_eq_nil_iff, Nat.not_le]
        have hfewer : src.length - (s.i + 1 + (src[s.i].toNat - 1)) < n := by omega
        have hrec := fun dst =>
          ih _ hfewer { i := s.i + 1 + (src[s.i].toNat - 1), dst } rfl
        rw [hdrop]
        refine ⟨(hrec _).1, (hrec _).2.trans ?_⟩
        rw [Cobs.implicitZero]
        by_cases hzeros : src[s.i] ≠ 0xFF#8 ∧ s.i + 1 + (src[s.i].toNat - 1) < src.length
        · rw [if_pos hzeros, if_pos ⟨hzeros.1, hmore.mpr hzeros.2⟩, Writer.contents_put, hcontents]
          simp only [List.append_assoc]
        · rw [if_neg hzeros, if_neg fun h => hzeros ⟨h.1, hmore.mp h.2⟩, hcontents]
          simp only [List.append_assoc, List.append_nil]
    · rw [dif_neg hlt, List.drop_eq_nil_of_le (by omega)]
      simp

end CobsDecoder

/-- `YFCoverUI::CobsDecode`: what it returns, and `dst` with `out_len`. -/
def YfCoverUi.cobsDecode (src : List Byte) (dst : ℕ → Byte) : Bool × Writer Byte :=
  let decoded := CobsDecoder.decodeLoop src { i := 0, dst := Writer.ofBuffer dst }
  (decoded.1, decoded.2.dst)

/-- **`CobsDecode`.** -/
theorem YfCoverUi.cobsDecode_eq (src : List Byte) (dst : ℕ → Byte) :
    (cobsDecode src dst).1 = (Cobs.decode src).1 ∧
      (cobsDecode src dst).2.contents = (Cobs.decode src).2 :=
  CobsDecoder.decodeLoop_eq { i := 0, dst := Writer.ofBuffer dst }

end OpenMower
