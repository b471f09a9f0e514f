import OpenMower.Filesystem.FlashProgramming

/-!
# The flash under the file system

The callbacks of `filesystem/filesystem.cpp` that littlefs is configured with. As long as no page
takes a hundred status reads to be programmed, they are the plain operations of a NOR flash
(`flashCalls_eq`), so that littlefs reads back what it has programmed to an erased block, whatever
other calls there are (`flash_reads_back`). Erasing may take any time.
-/

namespace OpenMower

open NorFlash Buffer FlashMemory

/-- The errors of littlefs that the callbacks return. -/
inductive LfsError
  | ok
  | io
  deriving DecidableEq, Repr

/-- `block_size` and `block_count` of the configuration. -/
def blockSize : BitVec 32 := 4096#32

def blockCount : ℕ := 4096

/-- `read_flash`. -/
def readFlash (m : FlashMemory) (block off : BitVec 32) (size : ℕ) : LfsError × List Byte :=
  (.ok, snorDeviceRead m (block * blockSize + off) size)

/-- `write_flash`. -/
def writeFlash (m : FlashMemory) (block off : BitVec 32) (buffer : List Byte) :
    LfsError × FlashMemory :=
  match snorDeviceProgram m (block * blockSize + off) buffer with
  | (.noError, m) => (.ok, m)
  | (_, m) => (.io, m)

/-- The loop of `erase_flash`. -/
def waitErase (m : FlashMemory) : FlashMemory :=
  if (snorDeviceQueryErase m).1 = .noError then (snorDeviceQueryErase m).2
  else waitErase (snorDeviceQueryErase m).2
termination_by m.busy
decreasing_by
  rcases hbusy : m.busy with _ | b
  · rename_i hquery
    exact absurd (by rw [snorDeviceQueryErase_of_ready hbusy]) hquery
  · rw [snorDeviceQueryErase_of_busy hbusy]
    exact Nat.lt_succ_self b

/-- `erase_flash`. -/
def eraseFlash (m : FlashMemory) (block : BitVec 32) : LfsError × FlashMemory :=
  match snorDeviceStartEraseSector m block with
  | (.noError, m) => (.ok, waitErase m)
  | (_, m) => (.io, m)

/-- A call of littlefs. -/
inductive FlashCall
  | read (block off : BitVec 32) (size : ℕ)
  | prog (block off : BitVec 32) (buffer : List Byte)
  | erase (block : BitVec 32)

/-- What a call returns, and what it reads. -/
def flashCall (m : FlashMemory) : FlashCall → (LfsError × List Byte) × FlashMemory
  | .read block off size => (readFlash m block off size, m)
  | .prog block off buffer =>
    let (err, m) := writeFlash m block off buffer
    ((err, []), m)
  | .erase block =>
    let (err, m) := eraseFlash m block
    ((err, []), m)

/-- Calls one after the other, which the mutex of the file system makes of them. -/
def flashCalls (m : FlashMemory) : List FlashCall → List (LfsError × List Byte) × FlashMemory
  | [] => ([], m)
  | call :: calls =>
    let (result, m) := flashCall m call
    let (results, m) := flashCalls m calls
    (result :: results, m)

namespace FlashCall

/-- The call keeps to the blocks of the configuration. -/
def InDevice : FlashCall → Prop
  | read block off size => block.toNat < blockCount ∧ off.toNat + size ≤ blockSize.toNat
  | prog block off buffer => block.toNat < blockCount ∧ off.toNat + buffer.length ≤ blockSize.toNat
  | erase block => block.toNat < blockCount

/-- What a call is for: it reads or changes the contents of the flash. -/
def spec (mem : ℕ → Byte) : FlashCall → List Byte × (ℕ → Byte)
  | read block off size => (slice mem (block.toNat * blockSize.toNat + off.toNat) size, mem)
  | prog block off buffer =>
    ([], program mem (block.toNat * blockSize.toNat + off.toNat) buffer)
  | erase block => ([], NorFlash.erase blockSize.toNat mem block.toNat)

/-- What a call leaves in the flash. -/
def contents (mem : ℕ → Byte) (call : FlashCall) : ℕ → Byte := (call.spec mem).2

/-- The call programs some of the bytes. -/
def Programs (start len : ℕ) : FlashCall → Prop
  | prog block off buffer =>
    ¬ (block.toNat * blockSize.toNat + off.toNat + buffer.length ≤ start ∨
      start + len ≤ block.toNat * blockSize.toNat + off.toNat)
  | _ => False

end FlashCall

/-- The memory is ready, and programs its pages in time. -/
structure FlashMemory.InTime (m : FlashMemory) : Prop where
  ready : m.busy = 0
  fast : ∀ k, m.programTime k < 100

theorem toNat_flash_address {block off : BitVec 32} {size : ℕ} (hblock : block.toNat < blockCount)
    (hoff : off.toNat + size ≤ blockSize.toNat) :
    (block * blockSize + off).toNat = block.toNat * blockSize.toNat + off.toNat ∧
      block.toNat * blockSize.toNat + off.toNat + size ≤ 2 ^ 24 := by
  have hsize : blockSize.toNat = 4096 := rfl
  rw [blockCount] at hblock
  rw [hsize] at hoff ⊢
  rw [BitVec.toNat_add, BitVec.toNat_mul, hsize]
  omega

/-- Erasing waits as long as it takes. -/
theorem waitErase_eq (m : FlashMemory) : waitErase m = { m with busy := 0 } := by
  induction hbusy : m.busy generalizing m with
  | zero =>
    rw [waitErase, snorDeviceQueryErase_of_ready hbusy, if_pos rfl, ← hbusy]
  | succ b ih =>
    rw [waitErase, snorDeviceQueryErase_of_busy hbusy, if_neg (by simp)]
    exact ih _ rfl

theorem snorDeviceRead_eq {m : FlashMemory} (h : m.busy = 0) {addr : BitVec 32} {size : ℕ}
    (hend : addr.toNat + size ≤ 2 ^ 24) :
    snorDeviceRead m addr size = slice m.mem addr.toNat size := by
  rw [snorDeviceRead, fastRead, if_pos h, slice, List.range'_eq_map_range, List.map_map]
  refine List.map_congr_left fun i hi => ?_
  have hlt := List.mem_range.mp hi
  have haddr : address addr = addr.toNat := Nat.mod_eq_of_lt (by omega)
  rw [haddr, Nat.mod_eq_of_lt (by omega)]
  rfl

theorem eraseFlash_eq {m : FlashMemory} (h : m.busy = 0) {block : BitVec 32}
    (hblock : block.toNat < blockCount) :
    eraseFlash m block = (.ok, { m with
      mem := NorFlash.erase blockSize.toNat m.mem block.toNat
      writeEnabled := false
      busy := 0
      started := m.started + 1 }) := by
  have hsector : address (block * sectorSize) / sectorSize.toNat = block.toNat := by
    rw [blockCount] at hblock
    rw [address, BitVec.toNat_mul, show sectorSize.toNat = 4096 from rfl]
    omega
  rw [eraseFlash, snorDeviceStartEraseSector]
  simp only [waitErase_eq, sectorErase_of_ready h, hsector]
  rfl

/-- **Verifying** looks at every byte. -/
theorem verifyErase_eq_noError_iff {m : FlashMemory} (h : m.busy = 0) {offset : BitVec 32}
    {buffers : ℕ} (hend : offset.toNat + buffers * compareBufferSize ≤ 2 ^ 24) :
    verifyErase m offset buffers = .noError ↔
      ∀ i < buffers * compareBufferSize, m.mem (offset.toNat + i) = 0xFF#8 := by
  have hsize : compareBufferSize = 32 := rfl
  induction buffers generalizing offset with
  | zero => simp [verifyErase]
  | succ buffers ih =>
    rw [Nat.succ_mul] at hend ⊢
    have hnext : (offset + BitVec.ofNat 32 compareBufferSize).toNat =
        offset.toNat + compareBufferSize := by
      rw [BitVec.toNat_add, BitVec.toNat_ofNat]
      omega
    have hfirst : (snorDeviceRead m offset compareBufferSize).all (· == 0xFF#8) = true ↔
        ∀ i < compareBufferSize, m.mem (offset.toNat + i) = 0xFF#8 := by
      rw [snorDeviceRead_eq h (by omega), slice, List.range'_eq_map_range]
      simp
    rw [verifyErase]
    split
    · next hall =>
      have hrest := @ih (offset + BitVec.ofNat 32 compareBufferSize) (by omega)
      rw [hnext] at hrest
      rw [hfirst] at hall
      refine hrest.trans ⟨?_, ?_⟩
      · intro hrest i hi
        by_cases hlow : i < compareBufferSize
        · exact hall i hlow
        · have hbyte := hrest (i - compareBufferSize) (by omega)
          rwa [Nat.add_assoc, Nat.add_sub_cancel' (by omega)] at hbyte
      · intro hbytes i hi
        rw [Nat.add_assoc]
        exact hbytes _ (by omega)
    · next hnot =>
      refine iff_of_false (by simp) fun hbytes => hnot (hfirst.mpr fun i hi => ?_)
      exact hbytes i (by omega)

/-- A sector is verified if it is erased. -/
theorem snorDeviceVerifyErase_iff {m : FlashMemory} (h : m.busy = 0) {sector : BitVec 32}
    (hsector : sector.toNat < blockCount) :
    snorDeviceVerifyErase m sector = .noError ↔
      ∀ i < blockSize.toNat, m.mem (sector.toNat * blockSize.toNat + i) = 0xFF#8 := by
  have haddr : (sector * sectorSize).toNat = sector.toNat * blockSize.toNat := by
    rw [blockCount] at hsector
    rw [BitVec.toNat_mul, show sectorSize.toNat = 4096 from rfl,
      show blockSize.toNat = 4096 from rfl]
    omega
  rw [blockCount] at hsector
  rw [snorDeviceVerifyErase, verifyErase_eq_noError_iff h, haddr]
  · rfl
  · rw [haddr, show sectorSize.toNat = 4096 from rfl, show blockSize.toNat = 4096 from rfl,
      show compareBufferSize = 32 from rfl]
    omega

/-- **One call** is the operation that it is for. -/
theorem flashCall_eq {m : FlashMemory} (h : m.InTime) {call : FlashCall} (hin : call.InDevice) :
    ∃ m', flashCall m call = ((.ok, (call.spec m.mem).1), m') ∧ m'.mem = call.contents m.mem ∧
      m'.InTime := by
  cases call with
  | read block off size =>
    obtain ⟨hblock, hoff⟩ := hin
    obtain ⟨haddr, hend⟩ := toNat_flash_address hblock hoff
    refine ⟨m, ?_, rfl, h⟩
    rw [flashCall, readFlash, snorDeviceRead_eq h.ready (by rw [haddr]; exact hend), haddr]
    rfl
  | prog block off buffer =>
    obtain ⟨hblock, hoff⟩ := hin
    obtain ⟨haddr, hend⟩ := toNat_flash_address hblock hoff
    refine ⟨m.programmed (block * blockSize + off) buffer
      (pageCount (block * blockSize + off) buffer.length) 0, ?_, ?_, ⟨rfl, h.fast⟩⟩
    · rw [flashCall, writeFlash,
        snorDeviceProgram_ok h.ready (by rw [haddr]; exact hend) fun k _ => h.fast _]
      rfl
    · rw [FlashMemory.programmed, haddr]
      rfl
  | erase block =>
    refine ⟨{ m with
      mem := NorFlash.erase blockSize.toNat m.mem block.toNat
      writeEnabled := false
      busy := 0
      started := m.started + 1 }, ?_, rfl, ⟨rfl, h.fast⟩⟩
    rw [flashCall, eraseFlash_eq h.ready hin]
    rfl

theorem flashCalls_append (m : FlashMemory) (calls calls' : List FlashCall) :
    flashCalls m (calls ++ calls') =
      ((flashCalls m calls).1 ++ (flashCalls (flashCalls m calls).2 calls').1,
        (flashCalls (flashCalls m calls).2 calls').2) := by
  induction calls generalizing m with
  | nil => rfl
  | cons call calls ih => simp only [List.cons_append, flashCalls, ih]

/-- **Calls one after the other** are the operations that they are for. -/
theorem flashCalls_eq {m : FlashMemory} (h : m.InTime) {calls : List FlashCall}
    (hin : ∀ call ∈ calls, call.InDevice) :
    (flashCalls m calls).2.mem = calls.foldl (fun mem call => call.contents mem) m.mem ∧
      (flashCalls m calls).2.InTime := by
  induction calls generalizing m with
  | nil => exact ⟨rfl, h⟩
  | cons call calls ih =>
    obtain ⟨m', hcall, hmem, h'⟩ := flashCall_eq h (hin call List.mem_cons_self)
    simp only [flashCalls, hcall, List.foldl_cons, ← hmem]
    exact ih h' fun c hc => hin c (List.mem_cons_of_mem _ hc)

/-! ### Reading back -/

/-- Some bytes of a block. -/
structure FlashRange where
  block : BitVec 32
  off : BitVec 32
  len : ℕ
  fits : off.toNat + len ≤ blockSize.toNat

namespace FlashRange

variable (range : FlashRange)

/-- The address of the first byte. -/
def start : ℕ := range.block.toNat * blockSize.toNat + range.off.toNat

/-- The contents of the flash agree with `f` on the bytes. -/
def Holds (f : ℕ → Byte) (mem : ℕ → Byte) : Prop :=
  ∀ i < range.len, mem (range.start + i) = f i

variable {range} {f : ℕ → Byte} {mem : ℕ → Byte}

theorem div_blockSize {i : ℕ} (hi : i < range.len) :
    (range.start + i) / blockSize.toNat = range.block.toNat := by
  have hfits := range.fits
  have hsize : blockSize.toNat = 4096 := rfl
  rw [hsize] at hfits ⊢
  rw [start, hsize]
  omega

/-- Programming other bytes leaves these alone. -/
theorem Holds.program (h : range.Holds f mem) {block off : BitVec 32} {buffer : List Byte}
    (hother : ¬ (FlashCall.prog block off buffer).Programs range.start range.len) :
    range.Holds f ((FlashCall.prog block off buffer).contents mem) := by
  rw [FlashCall.Programs, not_not] at hother
  intro i hi
  rw [FlashCall.contents, FlashCall.spec]
  rcases hother with hbefore | hbehind
  · exact (program_of_ge (by omega)).trans (h i hi)
  · exact (program_of_lt (by omega)).trans (h i hi)

/-- Erasing a block. -/
theorem erase_apply {i : ℕ} (hi : i < range.len) (block : BitVec 32) :
    (FlashCall.erase block).contents mem (range.start + i) =
      if range.block = block then 0xFF#8 else mem (range.start + i) := by
  show (if (range.start + i) / blockSize.toNat = block.toNat then 0xFF#8
    else mem (range.start + i)) = _
  rw [div_blockSize hi]
  simp only [BitVec.toNat_inj]

/-- Calls that do not program the bytes leave them erased. -/
theorem Holds.erased (h : range.Holds (fun _ => 0xFF#8) mem) {call : FlashCall}
    (hother : ¬ call.Programs range.start range.len) :
    range.Holds (fun _ => 0xFF#8) (call.contents mem) := by
  cases call with
  | read block off size => exact h
  | prog block off buffer => exact h.program hother
  | erase block =>
    intro i hi
    rw [erase_apply hi]
    split
    · rfl
    · exact h i hi

/-- Calls that neither program nor erase the bytes leave them alone. -/
theorem Holds.kept (h : range.Holds f mem) {call : FlashCall}
    (hother : ¬ call.Programs range.start range.len) (herase : call ≠ .erase range.block) :
    range.Holds f (call.contents mem) := by
  cases call with
  | read block off size => exact h
  | prog block off buffer => exact h.program hother
  | erase block =>
    intro i hi
    rw [erase_apply hi, if_neg fun heq => herase (by rw [heq])]
    exact h i hi

theorem Holds.foldl {calls : List FlashCall} (h : range.Holds f mem)
    (hstep : ∀ call ∈ calls, ∀ mem, range.Holds f mem → range.Holds f (call.contents mem)) :
    range.Holds f (calls.foldl (fun mem call => call.contents mem) mem) := by
  induction calls generalizing mem with
  | nil => exact h
  | cons call calls ih =>
    exact ih (hstep call List.mem_cons_self mem h) fun c hc => hstep c (List.mem_cons_of_mem _ hc)

end FlashRange

/-- **Reading back**: what littlefs programs to bytes that it has erased before, and has not
programmed since, is what it reads until it programs or erases them again, if the memory is ready
at first and no page takes a hundred status reads. -/
theorem flash_reads_back {m : FlashMemory} (h : m.InTime) {block off : BitVec 32}
    {data : List Byte} {before between behind : List FlashCall}
    (hin : ∀ call ∈ before ++ .erase block :: (between ++ .prog block off data :: behind),
      call.InDevice)
    (hbetween : ∀ call ∈ between,
      ¬ call.Programs (block.toNat * blockSize.toNat + off.toNat) data.length)
    (hbehind : ∀ call ∈ behind,
      ¬ call.Programs (block.toNat * blockSize.toNat + off.toNat) data.length ∧
        call ≠ .erase block) :
    (flashCalls m (before ++ .erase block :: (between ++ .prog block off data :: behind) ++
      [.read block off data.length])).1.getLast? = some (.ok, data) := by
  have hprog : (FlashCall.prog block off data).InDevice := hin _ (by simp)
  let range : FlashRange := ⟨block, off, data.length, hprog.2⟩
  obtain ⟨hmem, htime⟩ := flashCalls_eq h hin
  have hread : (FlashCall.read block off data.length).InDevice := hprog
  obtain ⟨m', hcall, -, -⟩ := flashCall_eq htime hread
  have hheld : range.Holds (fun i => data.getD i 0xFF#8) (flashCalls m
      (before ++ .erase block :: (between ++ .prog block off data :: behind))).2.mem := by
    rw [hmem, List.foldl_append, List.foldl_cons, List.foldl_append, List.foldl_cons]
    refine FlashRange.Holds.foldl ?_ fun call hcall mem hheld =>
      hheld.kept (hbehind call hcall).1 (hbehind call hcall).2
    have herased : range.Holds (fun _ => 0xFF#8) (between.foldl (fun mem call => call.contents mem)
        ((FlashCall.erase block).contents
          (before.foldl (fun mem call => call.contents mem) m.mem))) := by
      refine FlashRange.Holds.foldl ?_ fun call hcall mem hheld =>
        hheld.erased (hbetween call hcall)
      intro i hi
      rw [FlashRange.erase_apply hi, if_pos rfl]
    intro i hi
    refine (program_of_erased (Nat.le_add_right range.start i) (herased i hi)).trans ?_
    rw [Nat.add_sub_cancel_left]
  have hdata : slice (flashCalls m
      (before ++ .erase block :: (between ++ .prog block off data :: behind))).2.mem
        range.start data.length = data := slice_eq_of_getD hheld
  rw [flashCalls_append, flashCalls, hcall, List.getLast?_append]
  exact congrArg (fun bytes => some (LfsError.ok, bytes)) hdata

/-- Two pages of a block, programmed and read back. -/
theorem flash_reads_back_two_pages :
    (flashCalls (erasedFlash (fun _ => 3) fun _ => 400)
      ([] ++ .erase 7#32 :: ([.prog 7#32 0#32 (List.replicate 256 0x12#8)] ++
        .prog 7#32 256#32 (List.replicate 256 0x34#8) :: [.erase 8#32]) ++
        [.read 7#32 256#32 (List.replicate 256 0x34#8).length])).1.getLast? =
      some (.ok, List.replicate 256 0x34#8) := by
  have hlen : ∀ b : Byte, (List.replicate 256 b).length = 256 := fun b => List.length_replicate ..
  refine flash_reads_back ⟨rfl, fun _ => show 3 < 100 by decide⟩ ?_ ?_ ?_
  · intro call hcall
    simp only [List.nil_append, List.cons_append, List.mem_cons, List.not_mem_nil,
      or_false] at hcall
    rcases hcall with rfl | rfl | rfl | rfl
    · exact show (7#32).toNat < blockCount by decide
    · exact ⟨by decide, by rw [hlen]; decide⟩
    · exact ⟨by decide, by rw [hlen]; decide⟩
    · exact show (8#32).toNat < blockCount by decide
  · intro call hcall
    obtain rfl := List.mem_singleton.mp hcall
    rw [FlashCall.Programs, hlen, hlen]
    decide
  · intro call hcall
    obtain rfl := List.mem_singleton.mp hcall
    exact ⟨id, by simp⟩

end OpenMower
