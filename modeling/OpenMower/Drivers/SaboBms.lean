import OpenMower.Library.Buffer
import OpenMower.Portable.Integers

/-!
# The BMS driver: text blocks

From `drivers/bms/sabo_bms_driver`. `ReadBlock` reads a block of the SMBus, a length byte and up to
32 bytes behind it, into the buffer of the caller, and `rtrim` removes the blanks at the end of the
text. The outcome of a transmission on the bus is an input: the message, and the bytes that have
been received by then.

`rtrim` is checked: it is `none` if it gets behind the end of the text buffer. Delays and log
messages are left out.
-/

namespace OpenMower

open Buffer

/-- `msg_t`. -/
inductive Msg
  | ok
  | timeout
  | reset
  deriving DecidableEq, Repr

/-- What becomes of a transmission. -/
structure Transmission where
  msg : Msg
  /-- The bytes in the receive buffer, from its front on. -/
  received : List Byte
  deriving DecidableEq, Repr

namespace SaboBms

/-- `i2c_retries`. -/
def i2cRetries : ℕ := 3

/-- `etl::min((int)data_capacity, 33)`: a capacity that is negative as an `int` is the minimum, and
a `size_t` again. -/
def rxMax (dataCapacity : ℕ) : ℕ :=
  if dataCapacity < 2 ^ 31 then min dataCapacity 33 else dataCapacity

/-- What `ReadBlock` works on. -/
structure BlockRead where
  data : ℕ → Byte
  outLen : ℕ
  lastMsg : Msg

/-- `memset(data, 0, rx_max)`, and `I2cMasterTransmit` into `data`. -/
def transmit (dataCapacity : ℕ) (data : ℕ → Byte) (outcome : Transmission) : ℕ → Byte :=
  writeAt (writeAt data 0 (List.replicate (rxMax dataCapacity) 0x00#8)) 0
    (outcome.received.take (rxMax dataCapacity))

/-- The payload is moved to the front, and terminated if there is room. -/
def shiftPayload (dataCapacity : ℕ) (data : ℕ → Byte) (len : ℕ) : ℕ → Byte :=
  let data := if 0 < len then writeAt data 0 (slice data 1 len) else data
  if len < dataCapacity then Function.update data len 0x00#8 else data

/-- The attempts, for the outcomes of their transmissions. -/
def readAttempts (dataCapacity : ℕ) : List Transmission → BlockRead → BlockRead
  | [], r => r
  | outcome :: outcomes, r =>
    let data := transmit dataCapacity r.data outcome
    if outcome.msg ≠ .ok then
      readAttempts dataCapacity outcomes { r with data, lastMsg := outcome.msg }
    else
      let len := (data 0).toNat
      if 32 < len then readAttempts dataCapacity outcomes { r with data, lastMsg := .reset }
      else if rxMax dataCapacity < 1 + len then
        readAttempts dataCapacity outcomes { r with data, lastMsg := .reset }
      else { data := shiftPayload dataCapacity data len, outLen := len, lastMsg := outcome.msg }

/-- `ReadBlock`. There is no transmission without a bus; `data` is not null. -/
def readBlock (hasBus : Bool) (outcomes : ℕ → Transmission) (data : ℕ → Byte) (dataCapacity : ℕ) :
    BlockRead :=
  if hasBus = false ∨ dataCapacity = 0 then { data, outLen := 0, lastMsg := .reset }
  else
    readAttempts dataCapacity ((List.range i2cRetries).map outcomes)
      { data, outLen := 0, lastMsg := .reset }

/-- `isspace`. -/
def isSpace (c : Byte) : Bool :=
  decide (c ∈ [0x20#8, 0x09#8, 0x0A#8, 0x0B#8, 0x0C#8, 0x0D#8])

/-- `strlen` from an index on, with some bytes left in the buffer. -/
def strlen (data : ℕ → Byte) : ℕ → ℕ → Option ℕ
  | 0, _ => none
  | room + 1, i => if data i = 0x00#8 then some i else strlen data room (i + 1)

/-- The loop in `rtrim`, for the index of `end`. -/
def trimEnd (data : ℕ → Byte) : ℕ → ℕ
  | 0 => 0
  | last + 1 => if isSpace (data (last + 1)) then trimEnd data last else last + 1

/-- `rtrim`. -/
def rtrim (data : ℕ → Byte) (capacity : ℕ) : Option (ℕ → Byte) :=
  if capacity = 0 then none
  else if data 0 = 0x00#8 then some data
  else
    (strlen data capacity 0).bind fun length =>
      let last := trimEnd data (length - 1)
      if last + 1 < capacity then some (Function.update data (last + 1) 0x00#8) else none

/-! ### A text in a buffer -/

variable {data : ℕ → Byte} {capacity : ℕ}

/-- There is a NUL in the buffer. -/
def Terminated (data : ℕ → Byte) (capacity : ℕ) : Prop := ∃ i < capacity, data i = 0x00#8

theorem strlen_eq_some {room i n : ℕ} (h : strlen data room i = some n) :
    i ≤ n ∧ n < i + room ∧ data n = 0x00#8 := by
  induction room generalizing i with
  | zero => cases h
  | succ room ih =>
    rw [strlen] at h
    split at h
    · next hzero =>
      obtain rfl := Option.some.inj h
      exact ⟨Nat.le_refl _, by omega, hzero⟩
    · obtain ⟨hle, hlt, hzero⟩ := ih h
      exact ⟨by omega, by omega, hzero⟩

/-- A NUL is found if there is one. -/
theorem exists_strlen {room i : ℕ} (h : ∃ n, i ≤ n ∧ n < i + room ∧ data n = 0x00#8) :
    ∃ n, strlen data room i = some n := by
  induction room generalizing i with
  | zero =>
    obtain ⟨n, hle, hlt, -⟩ := h
    omega
  | succ room ih =>
    rw [strlen]
    split
    · exact ⟨i, rfl⟩
    · next hne =>
      obtain ⟨n, hle, hlt, hzero⟩ := h
      have hne' : i ≠ n := fun heq => hne (heq ▸ hzero)
      exact ih ⟨n, by omega, by omega, hzero⟩

theorem trimEnd_le (last : ℕ) : trimEnd data last ≤ last := by
  induction last with
  | zero => exact Nat.le_refl _
  | succ last ih =>
    rw [trimEnd]
    split <;> omega

/-- **`rtrim` stays in a text buffer** exactly if there is a NUL in it. -/
theorem rtrim_isSome_iff : (rtrim data capacity).isSome ↔ Terminated data capacity := by
  rw [rtrim]
  split
  · next hzero => simp [Terminated, hzero]
  split
  · next hcapacity hempty =>
    simp only [Option.isSome_some, true_iff]
    exact ⟨0, by omega, hempty⟩
  · next hcapacity hfirst =>
    constructor
    · intro h
      rcases hlength : strlen data capacity 0 with _ | n
      · rw [hlength] at h
        cases h
      · obtain ⟨-, hlt, hzero⟩ := strlen_eq_some hlength
        exact ⟨n, by omega, hzero⟩
    · rintro ⟨i, hi, hzero⟩
      obtain ⟨n, hn⟩ := @exists_strlen data capacity 0 ⟨i, by omega, by omega, hzero⟩
      obtain ⟨-, hlt, hnul⟩ := strlen_eq_some hn
      have hne : n ≠ 0 := by
        rintro rfl
        exact hfirst hnul
      have hle := @trimEnd_le data (n - 1)
      rw [hn, Option.bind_some]
      dsimp only
      rw [if_pos (by omega)]
      rfl

end SaboBms

end OpenMower
