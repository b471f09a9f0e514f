import OpenMower.Drivers.SaboBms

/-!
# The texts of the BMS

Each attempt of `ReadBlock` overwrites the buffer with what comes from the device, and only an
accepted block is terminated. If the last attempt is rejected, its bytes are left in the buffer, and
`rtrim` is called all the same. The texts of the BMS have 33 bytes, as many as an attempt writes, so
that there is a NUL in them only if the device has sent one (`block_text_safe_iff`).
-/

namespace OpenMower

open Buffer

namespace SaboBms

variable {dataCapacity : ℕ} {data : ℕ → Byte} {outcome : Transmission}

/-- The bytes that an attempt leaves in the buffer, before the zeros. -/
def receivedBytes (dataCapacity : ℕ) (outcome : Transmission) : List Byte :=
  outcome.received.take (rxMax dataCapacity)

/-- The length byte. -/
def lengthByte (dataCapacity : ℕ) (outcome : Transmission) : ℕ :=
  ((receivedBytes dataCapacity outcome).headD 0x00#8).toNat

/-- The block is whole. -/
def Accepted (dataCapacity : ℕ) (outcome : Transmission) : Prop :=
  outcome.msg = .ok ∧ lengthByte dataCapacity outcome ≤ 32 ∧
    1 + lengthByte dataCapacity outcome ≤ rxMax dataCapacity

/-- Not all of the bytes have been received, or there is a NUL among them. -/
def LeavesZero (dataCapacity : ℕ) (outcome : Transmission) : Prop :=
  outcome.received.length < rxMax dataCapacity ∨ 0x00#8 ∈ receivedBytes dataCapacity outcome

/-- The buffer behind what an attempt writes has not been touched. -/
def ZeroBehind (dataCapacity : ℕ) (data : ℕ → Byte) : Prop :=
  ∀ i, rxMax dataCapacity ≤ i → i < dataCapacity → data i = 0x00#8

theorem rxMax_le : rxMax dataCapacity ≤ dataCapacity := by
  rw [rxMax]
  split <;> omega

theorem rxMax_pos (h : 0 < dataCapacity) : 0 < rxMax dataCapacity := by
  rw [rxMax]
  split <;> omega

/-! ### An attempt -/

/-- In front are the bytes that have been received, and zeros. -/
theorem transmit_of_lt {i : ℕ} (h : i < rxMax dataCapacity) :
    transmit dataCapacity data outcome i =
      (receivedBytes dataCapacity outcome)[i]?.getD 0x00#8 := by
  have hzero : (List.replicate (rxMax dataCapacity) 0x00#8)[i]? = some 0x00#8 := by simp [h]
  simp [transmit, writeAt, hzero, receivedBytes]

theorem transmit_of_le {i : ℕ} (h : rxMax dataCapacity ≤ i) :
    transmit dataCapacity data outcome i = data i := by
  simp [transmit, writeAt, h]

theorem transmit_zero (h : 0 < dataCapacity) :
    (transmit dataCapacity data outcome 0).toNat = lengthByte dataCapacity outcome := by
  rw [transmit_of_lt (rxMax_pos h), lengthByte]
  cases receivedBytes dataCapacity outcome <;> rfl

theorem ZeroBehind.transmit (h : ZeroBehind dataCapacity data) :
    ZeroBehind dataCapacity (transmit dataCapacity data outcome) := by
  intro i hle hlt
  rw [transmit_of_le hle]
  exact h i hle hlt

/-- What an attempt leaves in the buffer has a NUL. -/
theorem transmit_terminated_iff (hzero : ZeroBehind dataCapacity data) :
    Terminated (transmit dataCapacity data outcome) dataCapacity ↔
      rxMax dataCapacity < dataCapacity ∨ LeavesZero dataCapacity outcome := by
  have hmax := @rxMax_le dataCapacity
  constructor
  · rintro ⟨i, hi, hnul⟩
    by_cases hfront : i < rxMax dataCapacity
    · refine .inr ?_
      rw [transmit_of_lt hfront] at hnul
      rcases hget : (receivedBytes dataCapacity outcome)[i]? with _ | b
      · rw [List.getElem?_eq_none_iff, receivedBytes, List.length_take] at hget
        exact .inl (by omega)
      · rw [hget, Option.getD_some] at hnul
        exact .inr (hnul ▸ List.mem_of_getElem? hget)
    · exact .inl (by omega)
  · rintro (hlt | hlen | hmem)
    · exact ⟨_, hlt, hzero.transmit _ (Nat.le_refl _) hlt⟩
    · refine ⟨outcome.received.length, by omega, ?_⟩
      rw [transmit_of_lt hlen, receivedBytes, List.take_of_length_le (Nat.le_of_lt hlen)]
      simp
    · obtain ⟨i, hget⟩ := List.mem_iff_getElem?.mp hmem
      have hi : i < rxMax dataCapacity := by
        have hlt := (List.getElem?_eq_some_iff.mp hget).1
        rw [receivedBytes, List.length_take] at hlt
        omega
      exact ⟨i, by omega, by rw [transmit_of_lt hi, hget, Option.getD_some]⟩

/-- An accepted block is terminated. -/
theorem shiftPayload_terminated {len : ℕ} (h : len < dataCapacity) :
    Terminated (shiftPayload dataCapacity data len) dataCapacity := by
  refine ⟨len, h, ?_⟩
  rw [shiftPayload, if_pos h]
  exact Function.update_self _ _ _

/-- **One attempt**: the block is accepted, or there is another attempt. -/
theorem readAttempts_cons (h : 0 < dataCapacity) (outcomes : List Transmission) (r : BlockRead) :
    (Accepted dataCapacity outcome ∧
      Terminated (readAttempts dataCapacity (outcome :: outcomes) r).data dataCapacity) ∨
    (¬ Accepted dataCapacity outcome ∧ ∃ lastMsg,
      readAttempts dataCapacity (outcome :: outcomes) r =
        readAttempts dataCapacity outcomes
          { r with data := transmit dataCapacity r.data outcome, lastMsg }) := by
  have hlen := @transmit_zero dataCapacity r.data outcome h
  rw [readAttempts]
  dsimp only
  rw [hlen]
  split
  · next hmsg => exact .inr ⟨fun haccepted => hmsg haccepted.1, _, rfl⟩
  split
  · next hlong => exact .inr ⟨fun haccepted => by have := haccepted.2.1; omega, _, rfl⟩
  split
  · next hroom => exact .inr ⟨fun haccepted => by have := haccepted.2.2; omega, _, rfl⟩
  · next hmsg hlong hroom =>
    have hmax := @rxMax_le dataCapacity
    exact .inl ⟨⟨not_not.mp hmsg, by omega, by omega⟩, shiftPayload_terminated (by omega)⟩

/-- **All attempts.** The buffer has a NUL in the end if one is accepted, and else if the last one
leaves one. -/
theorem readAttempts_terminated_iff (h : 0 < dataCapacity) {outcomes : List Transmission}
    (hne : outcomes ≠ []) {r : BlockRead} (hzero : ZeroBehind dataCapacity r.data) :
    Terminated (readAttempts dataCapacity outcomes r).data dataCapacity ↔
      rxMax dataCapacity < dataCapacity ∨ (∃ o ∈ outcomes, Accepted dataCapacity o) ∨
        LeavesZero dataCapacity (outcomes.getLast hne) := by
  induction outcomes generalizing r with
  | nil => exact absurd rfl hne
  | cons outcome outcomes ih =>
    rcases readAttempts_cons h outcomes r with ⟨haccepted, hterminated⟩ | ⟨hrejected, msg, heq⟩
    · exact iff_of_true hterminated (.inr (.inl ⟨outcome, List.mem_cons_self, haccepted⟩))
    · rw [heq]
      cases outcomes with
      | nil =>
        rw [readAttempts, transmit_terminated_iff hzero]
        simp [hrejected]
      | cons outcome' outcomes =>
        rw [ih (List.cons_ne_nil _ _) hzero.transmit, List.getLast_cons (List.cons_ne_nil _ _)]
        simp [hrejected]

/-- There is a NUL in the text, and `rtrim` does not get behind its end. -/
structure TextSafe (data : ℕ → Byte) (capacity : ℕ) : Prop where
  terminated : Terminated data capacity
  rtrim : (rtrim data capacity).isSome

theorem textSafe_iff {capacity : ℕ} : TextSafe data capacity ↔ Terminated data capacity :=
  ⟨fun h => h.terminated, fun h => ⟨h, rtrim_isSome_iff.mpr h⟩⟩

/-- There is no transmission, or room behind what an attempt writes, or an attempt is accepted, or
the last one leaves a NUL. -/
def LeavesText (hasBus : Bool) (outcomes : ℕ → Transmission) (dataCapacity : ℕ) : Prop :=
  hasBus = false ∨ rxMax dataCapacity < dataCapacity ∨
    (∃ attempt < i2cRetries, Accepted dataCapacity (outcomes attempt)) ∨
      LeavesZero dataCapacity (outcomes (i2cRetries - 1))

/-- A buffer that has been zeroed has a NUL after `ReadBlock` exactly in these cases. -/
theorem readBlock_terminated_iff (hasBus : Bool) (outcomes : ℕ → Transmission)
    (hcapacity : 0 < dataCapacity) (hzero : ∀ i < dataCapacity, data i = 0x00#8) :
    Terminated (readBlock hasBus outcomes data dataCapacity).data dataCapacity ↔
      LeavesText hasBus outcomes dataCapacity := by
  rw [readBlock, LeavesText]
  split
  · next hearly =>
    have hbus : hasBus = false := hearly.resolve_right (by omega)
    exact iff_of_true ⟨0, hcapacity, hzero 0 hcapacity⟩ (.inl hbus)
  · next hattempts =>
    rw [not_or] at hattempts
    have hne : (List.range i2cRetries).map outcomes ≠ [] := by simp [i2cRetries]
    have hany : (∃ o ∈ (List.range i2cRetries).map outcomes, Accepted dataCapacity o) ↔
        ∃ attempt < i2cRetries, Accepted dataCapacity (outcomes attempt) := by simp
    have hlast : ((List.range i2cRetries).map outcomes).getLast hne = outcomes (i2cRetries - 1) :=
      rfl
    rw [readAttempts_terminated_iff hcapacity hne fun i _ hlt => hzero i hlt,
      or_iff_right hattempts.1, hany, hlast]

end SaboBms

open SaboBms

/-- **The texts of the BMS.** For all outcomes of the attempts and every capacity, a zeroed buffer
has a NUL after `ReadBlock` and `rtrim` stays in it, if and only if there is no bus, or the capacity
leaves room behind what an attempt writes, or an attempt is accepted, or the last one leaves a NUL.
-/
theorem block_text_safe_iff (hasBus : Bool) (outcomes : ℕ → Transmission) (data : ℕ → Byte)
    (dataCapacity : ℕ) (hcapacity : 0 < dataCapacity)
    (hzero : ∀ i < dataCapacity, data i = 0x00#8) :
    TextSafe (readBlock hasBus outcomes data dataCapacity).data dataCapacity ↔
      LeavesText hasBus outcomes dataCapacity := by
  rw [textSafe_iff, readBlock_terminated_iff hasBus outcomes hcapacity hzero]

/-- A block with a single letter that is received in the first attempt. -/
theorem block_text_safe_letter :
    TextSafe (readBlock true (fun _ => ⟨.ok, [0x01#8, 0x41#8]⟩) (fun _ => 0x00#8) 33).data 33 :=
  (block_text_safe_iff true (fun _ => ⟨.ok, [0x01#8, 0x41#8]⟩) (fun _ => 0x00#8) 33 (by decide)
    fun _ _ => rfl).mpr (.inr (.inr (.inl ⟨0, by decide, rfl, by decide, by decide⟩)))

/-- A bus on which every byte is `0xFF`: the three blocks are rejected, and the text of 33 bytes
has no NUL. -/
theorem block_text_not_safe :
    ¬ TextSafe (readBlock true (fun _ => ⟨.ok, List.replicate 33 0xFF#8⟩) (fun _ => 0x00#8) 33).data
      33 := by
  rw [textSafe_iff, readBlock_terminated_iff _ _ (by decide) fun _ _ => rfl]
  rintro (hbus | hroom | ⟨attempt, -, -, hlong, -⟩ | hlen | hnul)
  · cases hbus
  · exact absurd hroom (by decide)
  · have hlength : lengthByte 33 ⟨.ok, List.replicate 33 0xFF#8⟩ ≤ 32 := hlong
    exact absurd hlength (by decide)
  · exact absurd hlen (by decide)
  · exact absurd hnul (by decide)

end OpenMower
