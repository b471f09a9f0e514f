import Mathlib.Data.BitVec
import Mathlib.Tactic.Common

/-!
# Consistent overhead byte stuffing

A packet is cut at its zero bytes, and a run of 254 other bytes is cut off too. Each of these
blocks of data is sent behind a code byte, which is one more than the length of the data. A
block with code `0xFF` is not followed by a zero of the packet; another one is, unless it is the
last. The encoded packet has no zero byte, so that a zero can delimit it on the wire.

* `encode` and `decode` are the two directions. `decode` also says what has been written when
  it fails, so that the space a decoder needs is known of malformed input too (`length_decode`).
* `decode_encode`, `zero_notMem_encode` and `length_encode_le` are what a sender relies on.
-/

namespace Cobs

/-- A block on the wire. -/
def block (data : List (BitVec 8)) : List (BitVec 8) := BitVec.ofNat 8 (data.length + 1) :: data

/-- Encodes what comes behind `data`, the block that has been begun. -/
def encodeFrom (data : List (BitVec 8)) : List (BitVec 8) → List (BitVec 8)
  | [] => block data
  | b :: bs =>
    if b = 0#8 then block data ++ encodeFrom [] bs
    else if data.length = 253 then block (data ++ [b]) ++ encodeFrom [] bs
    else encodeFrom (data ++ [b]) bs

/-- The encoded packet, without a delimiter. -/
def encode (packet : List (BitVec 8)) : List (BitVec 8) := encodeFrom [] packet

/-- The zero that a block stands for besides its data. -/
def implicitZero (code : BitVec 8) (rest : List (BitVec 8)) : List (BitVec 8) :=
  if code ≠ 0xFF#8 ∧ rest ≠ [] then [0#8] else []

/-- Whether the input is complete and well formed, and what has been written up to the end or
the error. -/
def decode : List (BitVec 8) → Bool × List (BitVec 8)
  | [] => (true, [])
  | code :: rest =>
    if code = 0#8 then (false, [])
    else if rest.length < code.toNat - 1 then (false, rest)
    else
      let decoded := decode (rest.drop (code.toNat - 1))
      (decoded.1, rest.take (code.toNat - 1) ++
        implicitZero code (rest.drop (code.toNat - 1)) ++ decoded.2)
termination_by input => input.length
decreasing_by simp only [List.length_drop, List.length_cons]; omega

variable {data packet : List (BitVec 8)}

@[simp] theorem length_block : (block data).length = data.length + 1 := rfl

@[simp] theorem decode_nil : decode [] = (true, []) := by rw [decode]

/-- The code byte of a block. -/
theorem toNat_code (hlen : data.length ≤ 254) :
    (BitVec.ofNat 8 (data.length + 1)).toNat = data.length + 1 := by
  rw [BitVec.toNat_ofNat]
  omega

theorem code_ne_zero (hlen : data.length ≤ 254) : BitVec.ofNat 8 (data.length + 1) ≠ 0#8 := by
  intro heq
  have hnat := congrArg BitVec.toNat heq
  rw [toNat_code hlen] at hnat
  simp at hnat

theorem code_eq_ff_iff (hlen : data.length ≤ 254) :
    BitVec.ofNat 8 (data.length + 1) = 0xFF#8 ↔ data.length = 254 := by
  rw [← BitVec.toNat_inj, toNat_code hlen, BitVec.toNat_ofNat]
  omega

/-! ### What is encoded -/

theorem encodeFrom_ne_nil (data packet : List (BitVec 8)) : encodeFrom data packet ≠ [] := by
  induction packet generalizing data with
  | nil => simp [encodeFrom, block]
  | cons b bs ih =>
    rw [encodeFrom]
    split
    · simp [block]
    split
    · simp [block]
    · exact ih _

theorem zero_notMem_block (hlen : data.length ≤ 254) (hdata : 0#8 ∉ data) : 0#8 ∉ block data := by
  rw [block, List.mem_cons, not_or]
  exact ⟨(code_ne_zero hlen).symm, hdata⟩

theorem zero_notMem_encodeFrom (hlen : data.length ≤ 253) (hdata : 0#8 ∉ data) :
    0#8 ∉ encodeFrom data packet := by
  induction packet generalizing data with
  | nil => exact zero_notMem_block (by omega) hdata
  | cons b bs ih =>
    rw [encodeFrom]
    by_cases hb : b = 0#8
    · rw [if_pos hb, List.mem_append, not_or]
      exact ⟨zero_notMem_block (by omega) hdata, ih (by simp) (by simp)⟩
    · have hnext : 0#8 ∉ data ++ [b] := by simp [hdata, Ne.symm hb]
      rw [if_neg hb]
      by_cases hfull : data.length = 253
      · rw [if_pos hfull, List.mem_append, not_or]
        exact ⟨zero_notMem_block (by simp [hfull]) hnext, ih (by simp) (by simp)⟩
      · rw [if_neg hfull]
        exact ih (by rw [List.length_append, List.length_singleton]; omega) hnext

/-- **Frame safety.** An encoded packet has no zero byte. -/
theorem zero_notMem_encode : 0#8 ∉ encode packet := zero_notMem_encodeFrom (by simp) (by simp)

/-- The code bytes: one for each zero, one for each full block, and the last one. -/
theorem length_encodeFrom_le (hlen : data.length ≤ 253) : (encodeFrom data packet).length ≤
    data.length + packet.length + (data.length + packet.length) / 254 + 1 := by
  induction packet generalizing data with
  | nil =>
    rw [encodeFrom, length_block, List.length_nil]
    omega
  | cons b bs ih =>
    have hempty := @ih [] (by simp)
    rw [List.length_nil] at hempty
    rw [encodeFrom, List.length_cons]
    split
    · rw [List.length_append, length_block]
      omega
    split
    · rw [List.length_append, length_block, List.length_append, List.length_singleton]
      omega
    · have hnext := @ih (data ++ [b])
      rw [List.length_append, List.length_singleton] at hnext
      have hle := hnext (by omega)
      omega

/-- **Overhead.** One byte, and one more for each 254 bytes. -/
theorem length_encode_le (packet : List (BitVec 8)) :
    (encode packet).length ≤ packet.length + packet.length / 254 + 1 := by
  have hle := @length_encodeFrom_le [] packet (by simp)
  rwa [List.length_nil, Nat.zero_add] at hle

/-! ### Decoding -/

/-- A block at the front. -/
theorem decode_block_append (hlen : data.length ≤ 254) (later : List (BitVec 8)) :
    decode (block data ++ later) = ((decode later).1,
      data ++ implicitZero (BitVec.ofNat 8 (data.length + 1)) later ++ (decode later).2) := by
  have hcode := toNat_code hlen
  rw [block, List.cons_append, decode, if_neg (code_ne_zero hlen), hcode, Nat.add_sub_cancel,
    if_neg (by simp), List.drop_left, List.take_left]

theorem decode_encodeFrom (hlen : data.length ≤ 253) :
    decode (encodeFrom data packet) = (true, data ++ packet) := by
  induction packet generalizing data with
  | nil =>
    have hblock := @decode_block_append data (by omega) []
    rw [List.append_nil] at hblock
    rw [encodeFrom, hblock]
    simp [implicitZero]
  | cons b bs ih =>
    rw [encodeFrom]
    by_cases hb : b = 0#8
    · have hshort : BitVec.ofNat 8 (data.length + 1) ≠ 0xFF#8 := by
        rw [ne_eq, code_eq_ff_iff (by omega)]
        omega
      rw [if_pos hb, decode_block_append (by omega), ih (by simp), implicitZero,
        if_pos ⟨hshort, encodeFrom_ne_nil [] bs⟩, hb]
      simp
    · rw [if_neg hb]
      by_cases hfull : data.length = 253
      · -- a full block is not followed by a zero
        have hlast : (data ++ [b]).length = 254 := by simp [hfull]
        rw [if_pos hfull, decode_block_append (by omega), ih (by simp), implicitZero,
          if_neg (fun h => h.1 ((code_eq_ff_iff (by omega)).mpr hlast))]
        simp
      · rw [if_neg hfull, ih (by rw [List.length_append, List.length_singleton]; omega)]
        simp

/-- **Round trip.** -/
theorem decode_encode (packet : List (BitVec 8)) : decode (encode packet) = (true, packet) :=
  decode_encodeFrom (by simp)

/-- Up to 255 bytes without a zero, all blocks but the last are followed by a zero of the
packet, and exactly one byte is saved. -/
theorem length_decode {input : List (BitVec 8)} (h : input ≠ []) (hzero : 0#8 ∉ input)
    (hlen : input.length ≤ 255) : (decode input).2.length + 1 = input.length := by
  induction input using decode.induct with
  | case1 => exact absurd rfl h
  | case2 rest => exact absurd List.mem_cons_self hzero
  | case3 code rest hne hshort => simp [decode, hne, hshort]
  | case4 code rest hne hlong ih =>
    rw [decode, if_neg hne, if_neg hlong]
    have hlater : (rest.drop (code.toNat - 1)).length = rest.length - (code.toNat - 1) :=
      List.length_drop
    rw [List.length_cons] at hlen
    simp only [List.length_append, List.length_take, List.length_cons]
    by_cases hnil : rest.drop (code.toNat - 1) = []
    · rw [hnil, List.length_nil] at hlater
      rw [implicitZero, if_neg (fun h => h.2 hnil), hnil, decode_nil, List.length_nil]
      omega
    · have hpos := List.length_pos_iff.mpr hnil
      -- a full block and another one do not fit
      have hff : code ≠ 0xFF#8 := by
        rintro rfl
        have hnat : (0xFF#8).toNat = 255 := rfl
        omega
      have hrec := ih hnil (fun hmem => hzero (List.mem_cons_of_mem _ (List.mem_of_mem_drop hmem)))
        (by omega)
      rw [implicitZero, if_pos ⟨hff, hnil⟩, List.length_singleton]
      omega

end Cobs
