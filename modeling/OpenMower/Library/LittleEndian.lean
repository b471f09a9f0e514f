import Mathlib.Data.BitVec
import Mathlib.Tactic.Common
import Mathlib.Tactic.Ring

/-!
# Packed little-endian records

A number is written to a fixed count of bytes with the lowest first (`split`), and read back from
them (`join`). A packed record is the numbers of its fields one behind the other (`pack`), and as
many bytes as its fields have are a record in exactly one way (`pack_unpack`, `unpack_pack`). A
packet is a payload with two bytes behind it that are computed from it (`checked_iff`).
-/

namespace LittleEndian

/-- The bytes of a number. -/
def split : ℕ → ℕ → List (BitVec 8)
  | 0, _ => []
  | n + 1, x => BitVec.ofNat 8 x :: split n (x / 256)

/-- The number that is made of bytes. -/
def join : List (BitVec 8) → ℕ
  | [] => 0
  | b :: bytes => b.toNat + 256 * join bytes

/-- The bytes of the fields of a record, each with its width. -/
def pack : List (ℕ × ℕ) → List (BitVec 8)
  | [] => []
  | (n, x) :: fields => split n x ++ pack fields

/-- The numbers of the fields that have these widths. -/
def unpack : List ℕ → List (BitVec 8) → List ℕ
  | [], _ => []
  | n :: widths, bytes => join (bytes.take n) :: unpack widths (bytes.drop n)

/-- A payload with a check of two bytes. -/
def withCheck (check : List (BitVec 8) → BitVec 16) (payload : List (BitVec 8)) :
    List (BitVec 8) :=
  payload ++ split 2 (check payload).toNat

@[simp]
theorem length_split (n x : ℕ) : (split n x).length = n := by
  induction n generalizing x with
  | zero => rfl
  | succ n ih => rw [split, List.length_cons, ih]

theorem join_lt (bytes : List (BitVec 8)) : join bytes < 256 ^ bytes.length := by
  induction bytes with
  | nil => exact Nat.one_pos
  | cons b bytes ih =>
    have hb := b.isLt
    rw [join, List.length_cons, pow_succ]
    omega

/-- **Reading what has been written.** -/
theorem join_split {n x : ℕ} (h : x < 256 ^ n) : join (split n x) = x := by
  induction n generalizing x with
  | zero =>
    rw [pow_zero] at h
    rw [split, join]
    omega
  | succ n ih =>
    rw [pow_succ] at h
    rw [split, join, ih (by omega), BitVec.toNat_ofNat]
    omega

/-- **Writing what has been read.** -/
theorem split_join (bytes : List (BitVec 8)) : split bytes.length (join bytes) = bytes := by
  induction bytes with
  | nil => rfl
  | cons b bytes ih =>
    have hb := b.isLt
    have hlow : BitVec.ofNat 8 (b.toNat + 256 * join bytes) = b := by
      refine BitVec.eq_of_toNat_eq ?_
      rw [BitVec.toNat_ofNat]
      omega
    have hrest : (b.toNat + 256 * join bytes) / 256 = join bytes := by omega
    rw [join, List.length_cons, split, hlow, hrest, ih]

theorem length_pack (fields : List (ℕ × ℕ)) :
    (pack fields).length = (fields.map Prod.fst).sum := by
  induction fields with
  | nil => rfl
  | cons field fields ih =>
    rw [pack, List.length_append, length_split, ih, List.map_cons, List.sum_cons]

/-- **A record that has been packed** is read back, whatever is behind it. -/
theorem unpack_pack {fields : List (ℕ × ℕ)} (h : ∀ field ∈ fields, field.2 < 256 ^ field.1)
    (rest : List (BitVec 8)) :
    unpack (fields.map Prod.fst) (pack fields ++ rest) = fields.map Prod.snd := by
  induction fields with
  | nil => rfl
  | cons field fields ih =>
    obtain ⟨hfield, hfields⟩ := List.forall_mem_cons.mp h
    have hlen := length_split field.1 field.2
    rw [List.map_cons, List.map_cons, pack, unpack, List.append_assoc, List.take_left' hlen,
      List.drop_left' hlen, join_split hfield, ih hfields]

/-- The same for a record that is given by its widths and its numbers. -/
theorem unpack_pack_zip {widths values : List ℕ} (hlen : widths.length = values.length)
    (h : ∀ field ∈ widths.zip values, field.2 < 256 ^ field.1) (rest : List (BitVec 8)) :
    unpack widths (pack (widths.zip values) ++ rest) = values := by
  have hunpack := unpack_pack h rest
  rwa [List.map_fst_zip hlen.le, List.map_snd_zip hlen.ge] at hunpack

/-- **Bytes that have been read** are packed again. -/
theorem pack_unpack {widths : List ℕ} {bytes : List (BitVec 8)}
    (h : widths.sum ≤ bytes.length) :
    pack (widths.zip (unpack widths bytes)) = bytes.take widths.sum := by
  induction widths generalizing bytes with
  | nil => exact (List.take_zero).symm
  | cons n widths ih =>
    rw [List.sum_cons] at h ⊢
    have htake : (bytes.take n).length = n := by
      rw [List.length_take]
      omega
    have hsplit := split_join (bytes.take n)
    rw [htake] at hsplit
    rw [unpack, List.zip_cons_cons, pack, hsplit, ih (by rw [List.length_drop]; omega),
      List.take_add]

/-- The field of a record that has been read is in range. -/
theorem getD_unpack_lt {widths : List ℕ} {bytes : List (BitVec 8)} {i n : ℕ}
    (h : widths[i]? = some n) : (unpack widths bytes).getD i 0 < 256 ^ n := by
  induction widths generalizing bytes i with
  | nil => cases h
  | cons m widths ih =>
    cases i with
    | zero =>
      obtain rfl := Option.some.inj h
      have hlen : (bytes.take m).length ≤ m := List.length_take_le _ _
      exact (join_lt _).trans_le (Nat.pow_le_pow_right (by decide) hlen)
    | succ i => exact ih h

/-- As a number of its width the field is itself. -/
theorem toNat_getD_unpack {widths : List ℕ} (bytes : List (BitVec 8)) {i n : ℕ}
    (h : widths[i]? = some n) :
    (BitVec.ofNat (8 * n) ((unpack widths bytes).getD i 0)).toNat =
      (unpack widths bytes).getD i 0 := by
  rw [BitVec.toNat_ofNat, pow_mul]
  exact Nat.mod_eq_of_lt (getD_unpack_lt h)

/-- A first field of one byte. -/
theorem getD_unpack_head (widths : List ℕ) (bytes : List (BitVec 8)) :
    (unpack (1 :: widths) bytes).getD 0 0 = (bytes.headD 0#8).toNat := by
  cases bytes with
  | nil => rfl
  | cons b bytes => exact Nat.add_zero _

/-! ### Checks -/

variable {check : List (BitVec 8) → BitVec 16}

theorem length_withCheck (payload : List (BitVec 8)) :
    (withCheck check payload).length = payload.length + 2 := by
  rw [withCheck, List.length_append, length_split]

/-- **The comparison of a check**: the packet is a payload with its check. -/
theorem checked_iff {packet : List (BitVec 8)} (h : 2 ≤ packet.length) :
    BitVec.ofNat 16 (join (packet.drop (packet.length - 2))) =
        check (packet.take (packet.length - 2)) ↔
      packet = withCheck check (packet.take (packet.length - 2)) := by
  have hlen : (packet.drop (packet.length - 2)).length = 2 := by
    rw [List.length_drop]
    omega
  have hlt := join_lt (packet.drop (packet.length - 2))
  have hsplit := split_join (packet.drop (packet.length - 2))
  rw [hlen] at hlt hsplit
  have hparts := List.take_append_drop (packet.length - 2) packet
  constructor
  · intro heq
    have hcheck : (check (packet.take (packet.length - 2))).toNat =
        join (packet.drop (packet.length - 2)) := by
      rw [← heq, BitVec.toNat_ofNat]
      exact Nat.mod_eq_of_lt hlt
    rw [withCheck, hcheck, hsplit, hparts]
  · intro heq
    have hdrop := List.append_cancel_left (hparts.trans heq)
    rw [hdrop, join_split (BitVec.isLt _), BitVec.ofNat_toNat, BitVec.setWidth_eq]

end LittleEndian
