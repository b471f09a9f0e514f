import OpenMower.Drivers.FlashDevice

/-!
# Programming the flash

No chunk of `snor_device_program` crosses the end of a page, where the memory would wrap. The data
is programmed as a whole if the memory is done with every page within a hundred status reads; behind
the first page that takes longer nothing is programmed (`snor_device_program_exact`).
-/

namespace OpenMower

open NorFlash

namespace FlashMemory

variable {m : FlashMemory}

theorem readStatus_of_ready (h : m.busy = 0) : m.readStatus = (0#8, m) := if_pos h

theorem readStatus_of_busy {b : ℕ} (h : m.busy = b + 1) :
    m.readStatus = (flagsBusy, { m with busy := b }) := by
  rw [readStatus, if_neg (by omega), h]
  rfl

/-- A page is programmed as soon as the memory is ready. -/
theorem pageProgram_of_ready (h : m.busy = 0) (addr : BitVec 32) (data : List Byte) :
    m.writeEnable.pageProgram addr data =
      { m with
        mem := programPage pageSize m.mem (address addr) data
        writeEnabled := false
        busy := m.programTime m.started
        started := m.started + 1 } := by
  rw [writeEnable, if_pos h, pageProgram, start]
  exact if_pos ⟨h, rfl⟩

theorem sectorErase_of_ready (h : m.busy = 0) (addr : BitVec 32) :
    m.writeEnable.sectorErase addr =
      { m with
        mem := erase sectorSize.toNat m.mem (address addr / sectorSize.toNat)
        writeEnabled := false
        busy := m.eraseTime m.started
        started := m.started + 1 } := by
  rw [writeEnable, if_pos h, sectorErase, start]
  exact if_pos ⟨h, rfl⟩

end FlashMemory

open FlashMemory

theorem snorDeviceQueryErase_of_ready {m : FlashMemory} (h : m.busy = 0) :
    snorDeviceQueryErase m = (.noError, m) := by
  rw [snorDeviceQueryErase, readStatus_of_ready h]
  exact if_neg (show ¬ 0#8 &&& flagsBusy ≠ 0#8 by decide)

theorem snorDeviceQueryErase_of_busy {m : FlashMemory} {b : ℕ} (h : m.busy = b + 1) :
    snorDeviceQueryErase m = (.busyErasing, { m with busy := b }) := by
  rw [snorDeviceQueryErase, readStatus_of_busy h]
  exact if_pos (show flagsBusy &&& flagsBusy ≠ 0#8 by decide)

/-- **Polling** takes a status read more than the memory is busy. -/
theorem pollStatus_eq (timeout : ℕ) (m : FlashMemory) :
    pollStatus timeout m =
      if m.busy < timeout then (.noError, { m with busy := 0 })
      else (.program, { m with busy := m.busy - timeout }) := by
  induction timeout generalizing m with
  | zero => rfl
  | succ timeout ih =>
    rw [pollStatus]
    rcases hbusy : m.busy with _ | b
    · rw [readStatus_of_ready hbusy, if_pos (show 0#8 &&& flagsBusy = 0#8 by decide),
        if_pos (Nat.succ_pos _), ← hbusy]
    · rw [readStatus_of_busy hbusy, if_neg (show ¬ flagsBusy &&& flagsBusy = 0#8 by decide), ih]
      simp only [Nat.add_lt_add_iff_right, Nat.add_sub_add_right]

/-- The pages that some bytes from an offset on lie in. -/
def pageCount (offset : BitVec 32) (n : ℕ) : ℕ :=
  if n = 0 then 0 else (offset.toNat % pageSize + n + (pageSize - 1)) / pageSize

/-- What `snor_device_program` makes of the memory when it has programmed some of the data. -/
def FlashMemory.programmed (m : FlashMemory) (offset : BitVec 32) (data : List Byte)
    (pages busy : ℕ) : FlashMemory :=
  { m with
    mem := program m.mem offset.toNat data
    writeEnabled := if pages = 0 then m.writeEnabled else false
    busy
    started := m.started + pages }

theorem programmed_nil {m : FlashMemory} {offset : BitVec 32} (hready : m.busy = 0) :
    m.programmed offset [] 0 0 = m := by
  cases m
  simp_all [FlashMemory.programmed]

/-- What it does for one page. -/
theorem program_chunk {m : FlashMemory} {offset : BitVec 32} {pp : List Byte} (hready : m.busy = 0)
    (hfit : offset.toNat + pp.length ≤ 2 ^ 24) (hpp : pp ≠ []) :
    w25qPollStatus (m.writeEnable.pageProgram offset (pp.take (programChunk offset pp.length))) =
      if m.programTime m.started < 100 then
        (.noError, m.programmed offset (pp.take (programChunk offset pp.length)) 1 0)
      else (.program, m.programmed offset (pp.take (programChunk offset pp.length)) 1
        (m.programTime m.started - 100)) := by
  have hpos := List.length_pos_of_ne_nil hpp
  have hmod := Nat.mod_lt offset.toNat (show 0 < pageSize by decide)
  have haddr : address offset = offset.toNat := Nat.mod_eq_of_lt (by omega)
  have hpage : offset.toNat % pageSize + (pp.take (programChunk offset pp.length)).length ≤
      pageSize := by
    rw [List.length_take, programChunk_eq]
    omega
  rw [pageProgram_of_ready hready, w25qPollStatus, pollStatus_eq, haddr,
    programPage_eq_program hpage]
  rfl

theorem toNat_add_chunk {offset : BitVec 32} {n : ℕ} (hfit : offset.toNat + n ≤ 2 ^ 24) :
    (offset + BitVec.ofNat 32 (programChunk offset n)).toNat =
      offset.toNat + programChunk offset n := by
  have hle : programChunk offset n ≤ n := by
    rw [programChunk_eq]
    exact Nat.min_le_left ..
  rw [BitVec.toNat_add, BitVec.toNat_ofNat]
  omega

/-- Behind a chunk there is one page less. -/
theorem pageCount_eq_succ {offset : BitVec 32} {n : ℕ} (hn : 0 < n)
    (hfit : offset.toNat + n ≤ 2 ^ 24) :
    pageCount offset n = pageCount (offset + BitVec.ofNat 32 (programChunk offset n))
      (n - programChunk offset n) + 1 := by
  rw [pageCount, if_neg hn.ne', pageCount, toNat_add_chunk hfit, programChunk_eq, pageSize]
  split <;> omega

/-- One turn of the loop. -/
theorem snorDeviceProgram_of_ne {m : FlashMemory} {offset : BitVec 32} {pp : List Byte}
    (hready : m.busy = 0) (hfit : offset.toNat + pp.length ≤ 2 ^ 24) (hpp : pp ≠ []) :
    snorDeviceProgram m offset pp =
      if m.programTime m.started < 100 then
        snorDeviceProgram (m.programmed offset (pp.take (programChunk offset pp.length)) 1 0)
          (offset + BitVec.ofNat 32 (programChunk offset pp.length))
          (pp.drop (programChunk offset pp.length))
      else (.program, m.programmed offset (pp.take (programChunk offset pp.length)) 1
        (m.programTime m.started - 100)) := by
  rw [snorDeviceProgram, if_neg hpp]
  simp only [program_chunk hready hfit hpp]
  by_cases hfast : m.programTime m.started < 100
  · rw [if_pos hfast, if_pos hfast]
  · rw [if_neg hfast, if_neg hfast]

/-- One chunk behind the other. -/
theorem programmed_programmed (m : FlashMemory) {offset : BitVec 32} {pp : List Byte}
    (hfit : offset.toNat + pp.length ≤ 2 ^ 24) (taken pages busy : ℕ) :
    (m.programmed offset (pp.take (programChunk offset pp.length)) 1 0).programmed
        (offset + BitVec.ofNat 32 (programChunk offset pp.length))
        ((pp.drop (programChunk offset pp.length)).take taken) pages busy =
      m.programmed offset (pp.take (programChunk offset pp.length + taken)) (pages + 1) busy := by
  have hle : programChunk offset pp.length ≤ pp.length := by
    rw [programChunk_eq]
    exact Nat.min_le_left ..
  have hlen : (pp.take (programChunk offset pp.length)).length = programChunk offset pp.length := by
    rw [List.length_take, Nat.min_eq_left hle]
  have hmem : program (program m.mem offset.toNat (pp.take (programChunk offset pp.length)))
      (offset.toNat + programChunk offset pp.length)
      ((pp.drop (programChunk offset pp.length)).take taken) =
      program m.mem offset.toNat (pp.take (programChunk offset pp.length + taken)) := by
    rw [List.take_add]
    nth_rewrite 2 [← hlen]
    exact program_program _ _
  simp only [FlashMemory.programmed, toNat_add_chunk hfit, hmem, Nat.add_assoc,
    Nat.add_comm 1 pages, Nat.succ_ne_zero, if_false, ite_self]

theorem length_drop_chunk_lt {offset : BitVec 32} {pp : List Byte} (hpp : pp ≠ []) :
    (pp.drop (programChunk offset pp.length)).length < pp.length := by
  have hpos := List.length_pos_of_ne_nil hpp
  have hchunk := programChunk_pos offset hpos
  rw [List.length_drop]
  omega

theorem fits_drop_chunk {offset : BitVec 32} {pp : List Byte}
    (hfit : offset.toNat + pp.length ≤ 2 ^ 24) :
    (offset + BitVec.ofNat 32 (programChunk offset pp.length)).toNat +
      (pp.drop (programChunk offset pp.length)).length ≤ 2 ^ 24 := by
  have hle : programChunk offset pp.length ≤ pp.length := by
    rw [programChunk_eq]
    exact Nat.min_le_left ..
  rw [toNat_add_chunk hfit, List.length_drop]
  omega

/-- **The data is programmed as a whole** if no page takes too long. -/
theorem snorDeviceProgram_ok {m : FlashMemory} {offset : BitVec 32} {pp : List Byte}
    (hready : m.busy = 0) (hfit : offset.toNat + pp.length ≤ 2 ^ 24)
    (hfast : ∀ k < pageCount offset pp.length, m.programTime (m.started + k) < 100) :
    snorDeviceProgram m offset pp =
      (.noError, m.programmed offset pp (pageCount offset pp.length) 0) := by
  induction hn : pp.length using Nat.strongRecOn generalizing m offset pp with
  | ind n ih =>
    subst hn
    by_cases hpp : pp = []
    · subst hpp
      rw [snorDeviceProgram, if_pos rfl, show pageCount offset [].length = 0 from if_pos rfl,
        programmed_nil hready]
    · have hcount := pageCount_eq_succ (List.length_pos_of_ne_nil hpp) hfit
      rw [snorDeviceProgram_of_ne hready hfit hpp,
        if_pos (show m.programTime m.started < 100 from hfast 0 (by rw [hcount]; omega)),
        ih _ (length_drop_chunk_lt hpp) rfl (fits_drop_chunk hfit) ?_ rfl]
      · have hall := programmed_programmed m hfit pp.length
          (pageCount (offset + BitVec.ofNat 32 (programChunk offset pp.length))
            (pp.drop (programChunk offset pp.length)).length) 0
        rw [List.take_of_length_le (length_drop_chunk_lt hpp).le,
          List.take_of_length_le (Nat.le_add_left _ _)] at hall
        rw [hall, hcount, List.length_drop]
      · intro k hk
        rw [List.length_drop] at hk
        have hnext := hfast (k + 1) (by rw [hcount]; omega)
        rwa [Nat.add_comm k 1, ← Nat.add_assoc] at hnext

theorem ne_nil_of_lt_pageCount {offset : BitVec 32} {pp : List Byte} {k : ℕ}
    (hk : k < pageCount offset pp.length) : pp ≠ [] := by
  rintro rfl
  exact Nat.not_lt_zero k hk

/-- **Behind the first page that takes too long** nothing is programmed. -/
theorem snorDeviceProgram_error {m : FlashMemory} {offset : BitVec 32} {pp : List Byte} {k : ℕ}
    (hready : m.busy = 0) (hfit : offset.toNat + pp.length ≤ 2 ^ 24)
    (hk : k < pageCount offset pp.length)
    (hfast : ∀ j < k, m.programTime (m.started + j) < 100)
    (hslow : 100 ≤ m.programTime (m.started + k)) :
    snorDeviceProgram m offset pp =
      (.program, m.programmed offset (pp.take ((k + 1) * pageSize - offset.toNat % pageSize))
        (k + 1) (m.programTime (m.started + k) - 100)) := by
  induction k generalizing m offset pp with
  | zero =>
    have htake : pp.take (programChunk offset pp.length) =
        pp.take ((0 + 1) * pageSize - offset.toNat % pageSize) := by
      rw [List.take_eq_take_iff, programChunk_eq]
      omega
    rw [snorDeviceProgram_of_ne hready hfit (ne_nil_of_lt_pageCount hk),
      if_neg (show ¬ m.programTime m.started < 100 from Nat.not_lt.mpr hslow), htake]
    rfl
  | succ k ih =>
    have hpp := ne_nil_of_lt_pageCount hk
    have hcount := pageCount_eq_succ (List.length_pos_of_ne_nil hpp) hfit
    rw [← List.length_drop] at hcount
    have hnext : k < pageCount (offset + BitVec.ofNat 32 (programChunk offset pp.length))
        (pp.drop (programChunk offset pp.length)).length := by omega
    -- there is data left, so that the chunk ends with its page
    have hend : programChunk offset pp.length = pageSize - offset.toNat % pageSize := by
      have hpos := List.length_pos_of_ne_nil (ne_nil_of_lt_pageCount hnext)
      rw [List.length_drop, programChunk_eq] at hpos
      rw [programChunk_eq]
      omega
    have haligned : (offset + BitVec.ofNat 32 (programChunk offset pp.length)).toNat % pageSize =
        0 := by
      rw [toNat_add_chunk hfit, hend, pageSize]
      omega
    have hindex : ∀ j, m.started + 1 + j = m.started + (j + 1) := by
      intro j
      omega
    have htaken : programChunk offset pp.length + ((k + 1) * pageSize - 0) =
        (k + 1 + 1) * pageSize - offset.toNat % pageSize := by
      rw [hend, pageSize]
      omega
    rw [snorDeviceProgram_of_ne hready hfit hpp,
      if_pos (show m.programTime m.started < 100 from hfast 0 (Nat.succ_pos k)),
      ih rfl (fits_drop_chunk hfit) hnext ?_ ?_, haligned, programmed_programmed m hfit, htaken]
    · simp only [FlashMemory.programmed, hindex]
    · intro j hj
      simpa only [FlashMemory.programmed, hindex] using hfast (j + 1) (by omega)
    · simpa only [FlashMemory.programmed, hindex] using hslow

/-- **What `snor_device_program` does** with a memory that is ready: either the memory is done with
each page within a hundred status reads, and exactly the data is programmed; or the data up to the
end of the first page that takes longer, and an error is returned. -/
theorem snor_device_program_exact {m : FlashMemory} {offset : BitVec 32} {pp : List Byte}
    (hready : m.busy = 0) (hfit : offset.toNat + pp.length ≤ 2 ^ 24) :
    (∀ k < pageCount offset pp.length, m.programTime (m.started + k) < 100) ∧
        snorDeviceProgram m offset pp =
          (.noError, m.programmed offset pp (pageCount offset pp.length) 0) ∨
      ∃ k < pageCount offset pp.length,
        (∀ j < k, m.programTime (m.started + j) < 100) ∧ 100 ≤ m.programTime (m.started + k) ∧
        snorDeviceProgram m offset pp =
          (.program, m.programmed offset (pp.take ((k + 1) * pageSize - offset.toNat % pageSize))
            (k + 1) (m.programTime (m.started + k) - 100)) := by
  by_cases hfast : ∀ k < pageCount offset pp.length, m.programTime (m.started + k) < 100
  · exact .inl ⟨hfast, snorDeviceProgram_ok hready hfit hfast⟩
  · simp only [not_forall, not_lt] at hfast
    obtain ⟨hk, hslow⟩ := Nat.find_spec hfast
    have hfirst : ∀ j < Nat.find hfast, m.programTime (m.started + j) < 100 := by
      intro j hj
      by_contra hlong
      exact Nat.find_min hfast hj ⟨hj.trans hk, Nat.not_lt.mp hlong⟩
    exact .inr ⟨_, hk, hfirst, hslow, snorDeviceProgram_error hready hfit hk hfirst hslow⟩

/-- A memory that is erased and ready. -/
def erasedFlash (programTime eraseTime : ℕ → ℕ) : FlashMemory where
  mem _ := 0xFF#8
  writeEnabled := false
  busy := 0
  started := 0
  programTime
  eraseTime
  noise _ := 0#8

/-- Three hundred bytes in two pages, the second of which takes too long. -/
theorem snor_device_program_exact_slow :
    snorDeviceProgram (erasedFlash (fun k => if k = 1 then 120 else 3) fun _ => 0) 0x1080#32
        (List.replicate 300 0x55#8) =
      (.program, (erasedFlash (fun k => if k = 1 then 120 else 3) fun _ => 0).programmed 0x1080#32
        (List.replicate 300 0x55#8) 2 20) := by
  have hlen : (List.replicate 300 0x55#8).length = 300 := List.length_replicate ..
  have hpages : pageCount 0x1080#32 (List.replicate 300 0x55#8).length = 2 := by
    rw [hlen]
    rfl
  rcases @snor_device_program_exact (erasedFlash (fun k => if k = 1 then 120 else 3) fun _ => 0)
    0x1080#32 (List.replicate 300 0x55#8) rfl (by rw [hlen]; decide) with
    ⟨hfast, -⟩ | ⟨k, hk, -, hslow, h⟩
  · exact absurd (hfast 1 (by rw [hpages]; decide)) (by decide)
  · obtain rfl : k = 1 := by
      by_contra hne
      simp [erasedFlash, hne] at hslow
    rw [List.take_of_length_le (by rw [hlen]; decide)] at h
    exact h

end OpenMower
