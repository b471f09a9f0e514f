import OpenMower.Library.NorFlash
import OpenMower.Library.Buffer
import OpenMower.Portable.Integers

/-!
# The serial flash and its driver

From `boards/XCORE/hal_flash_device.c`. The memory itself, a W25Q128, is modelled by its commands:
a command that changes the memory needs the write enable latch, clears it, and keeps the memory
busy for a while, during which other commands are ignored. How long that takes is a parameter, in
status reads of the driver.

The driver programs data page by page, and polls the status register after each of them, at most a
hundred times.
-/

namespace OpenMower

open NorFlash

/-- `PAGE_SIZE`. -/
def pageSize : ℕ := 256

/-- `PAGE_MASK`. -/
def pageMask : BitVec 32 := 255#32

/-- `SECTOR_SIZE`, of the sub-sectors. -/
def sectorSize : BitVec 32 := 0x00001000#32

/-- `W25Q_FLAGS_BUSY`. -/
def flagsBusy : Byte := 0x01#8

/-- `W25Q_COMPARE_BUFFER_SIZE`. -/
def compareBufferSize : ℕ := 32

/-- The results of the driver's functions. -/
inductive FlashError
  | noError
  | busyErasing
  | program
  | verify
  deriving DecidableEq, Repr

/-- The memory. -/
structure FlashMemory where
  mem : ℕ → Byte
  /-- The write enable latch. -/
  writeEnabled : Bool
  /-- The status reads that still show that the memory is busy. -/
  busy : ℕ
  /-- The operations that have been started. -/
  started : ℕ
  /-- For how many status reads the memory is busy after it has started to program a page. -/
  programTime : ℕ → ℕ
  /-- For how many status reads the memory is busy after it has started to erase a sector. -/
  eraseTime : ℕ → ℕ
  /-- What is read while the memory is busy. -/
  noise : ℕ → Byte

namespace FlashMemory

variable (m : FlashMemory)

/-- The addresses have 24 bits. -/
def address (addr : BitVec 32) : ℕ := addr.toNat % 2 ^ 24

/-- The command that sets the write enable latch. -/
def writeEnable : FlashMemory := if m.busy = 0 then { m with writeEnabled := true } else m

/-- An operation that changes the memory. -/
def start (mem : ℕ → Byte) (time : ℕ → ℕ) : FlashMemory :=
  if m.busy = 0 ∧ m.writeEnabled = true then
    { m with mem, writeEnabled := false, busy := time m.started, started := m.started + 1 }
  else m

/-- The command that programs a page. -/
def pageProgram (addr : BitVec 32) (data : List Byte) : FlashMemory :=
  m.start (programPage pageSize m.mem (address addr) data) m.programTime

/-- The command that erases a sector. -/
def sectorErase (addr : BitVec 32) : FlashMemory :=
  m.start (erase sectorSize.toNat m.mem (address addr / sectorSize.toNat)) m.eraseTime

/-- The command that reads the status register. -/
def readStatus : Byte × FlashMemory :=
  if m.busy = 0 then (0#8, m) else (flagsBusy, { m with busy := m.busy - 1 })

/-- The command that reads the memory. -/
def fastRead (addr : BitVec 32) (n : ℕ) : List Byte :=
  if m.busy = 0 then (List.range n).map fun i => m.mem ((address addr + i) % 2 ^ 24)
  else (List.range n).map m.noise

end FlashMemory

/-- The loop of `w25q_poll_status`, with some reads left. -/
def pollStatus : ℕ → FlashMemory → FlashError × FlashMemory
  | 0, m => (.program, m)
  | timeout + 1, m =>
    if m.readStatus.1 &&& flagsBusy = 0#8 then (.noError, m.readStatus.2)
    else pollStatus timeout m.readStatus.2

/-- `w25q_poll_status`. -/
def w25qPollStatus (m : FlashMemory) : FlashError × FlashMemory := pollStatus 100 m

/-- `snor_device_read`. -/
def snorDeviceRead (m : FlashMemory) (offset : BitVec 32) (n : ℕ) : List Byte :=
  m.fastRead offset n

/-- The size of a chunk in `snor_device_program`, with `n` bytes left. -/
def programChunk (offset : BitVec 32) (n : ℕ) : ℕ :=
  let chunk := ((offset ||| pageMask) + 1#32 - offset).toNat
  if n < chunk then n else chunk

/-- The last address of a page. -/
theorem or_255 (x : ℕ) : x ||| 255 = 256 * (x / 256) + 255 := by
  have hlow : ∀ b < 256, b ||| 255 = 255 := by decide +kernel
  have hsplit : x = 256 * (x / 256) ||| x % 256 := by
    have h := @Nat.two_pow_add_eq_or_of_lt 8 (x % 256) (Nat.mod_lt _ (by decide)) (x / 256)
    rw [show 2 ^ 8 = 256 from rfl] at h
    rw [← h, Nat.div_add_mod]
  have hlast := @Nat.two_pow_add_eq_or_of_lt 8 255 (by decide) (x / 256)
  rw [show 2 ^ 8 = 256 from rfl] at hlast
  rw [hlast]
  nth_rewrite 1 [hsplit]
  rw [Nat.or_assoc, hlow _ (Nat.mod_lt _ (by decide))]

/-- What remains of the page, the last one included, behind which the addition wraps. -/
theorem toNat_rest_of_page (offset : BitVec 32) :
    ((offset ||| pageMask) + 1#32 - offset).toNat = pageSize - offset.toNat % pageSize := by
  have hlt := offset.isLt
  have hor : (offset ||| pageMask).toNat = 256 * (offset.toNat / 256) + 255 := by
    rw [BitVec.toNat_or]
    exact or_255 _
  rw [BitVec.toNat_sub, BitVec.toNat_add, hor, pageSize]
  simp only [BitVec.toNat_ofNat]
  omega

/-- A chunk is what remains of the page or of the data. -/
theorem programChunk_eq (offset : BitVec 32) (n : ℕ) :
    programChunk offset n = min n (pageSize - offset.toNat % pageSize) := by
  rw [programChunk, toNat_rest_of_page]
  split <;> omega

theorem programChunk_pos (offset : BitVec 32) {n : ℕ} (h : 0 < n) : 0 < programChunk offset n := by
  have hmod := Nat.mod_lt offset.toNat (show 0 < pageSize by decide)
  rw [programChunk_eq]
  omega

/-- `snor_device_program`. -/
def snorDeviceProgram (m : FlashMemory) (offset : BitVec 32) (pp : List Byte) :
    FlashError × FlashMemory :=
  if pp = [] then (.noError, m)
  else
    let chunk := programChunk offset pp.length
    match w25qPollStatus (m.writeEnable.pageProgram offset (pp.take chunk)) with
    | (.noError, m) => snorDeviceProgram m (offset + BitVec.ofNat 32 chunk) (pp.drop chunk)
    | (err, m) => (err, m)
termination_by pp.length
decreasing_by
  have hlen : 0 < pp.length := List.length_pos_of_ne_nil (by assumption)
  have hchunk := programChunk_pos offset hlen
  rw [List.length_drop]
  omega

/-- `snor_device_start_erase_sector`. -/
def snorDeviceStartEraseSector (m : FlashMemory) (sector : BitVec 32) : FlashError × FlashMemory :=
  (.noError, m.writeEnable.sectorErase (sector * sectorSize))

/-- `snor_device_query_erase`. -/
def snorDeviceQueryErase (m : FlashMemory) : FlashError × FlashMemory :=
  if m.readStatus.1 &&& flagsBusy ≠ 0#8 then (.busyErasing, m.readStatus.2)
  else (.noError, m.readStatus.2)

/-- The loop of `snor_device_verify_erase`, with some buffers left. -/
def verifyErase (m : FlashMemory) (offset : BitVec 32) : ℕ → FlashError
  | 0 => .noError
  | buffers + 1 =>
    if (snorDeviceRead m offset compareBufferSize).all (· == 0xFF#8) then
      verifyErase m (offset + BitVec.ofNat 32 compareBufferSize) buffers
    else .verify

/-- `snor_device_verify_erase`. -/
def snorDeviceVerifyErase (m : FlashMemory) (sector : BitVec 32) : FlashError :=
  verifyErase m (sector * sectorSize) (sectorSize.toNat / compareBufferSize)

end OpenMower
