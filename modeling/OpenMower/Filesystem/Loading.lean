import OpenMower.Filesystem.Saving

/-!
# Loading settings

One path serves files of equal, older and newer versions, and truncated and overlong ones. A load
writes nothing but the payload behind the version field, whatever littlefs returns
(`load_frame`). From a file it takes as much of the payload as the struct has room for, and it
refuses newer files (`load_file`). What has been saved comes back with the version that the code
has, so that a value with another version field does not (`load_migration`).

A failed read of the payload leaves behind what it has written of it (`load_atomic_iff`).
-/

namespace OpenMower

open Buffer File

namespace VersionedType

variable {T : VersionedType} {fs : LoadOutcome} {dest : ℕ → Byte}

/-- The payload is read. -/
structure ReadsPayload (T : VersionedType) (fs : LoadOutcome) : Prop where
  openFile : fs.openFile = lfsErrOk
  readVersion : fs.readVersion.result = 2#32
  version_le : fileVersion fs.readVersion.data ≤ T.version
  remaining_pos : 0 < (fs.size - 2#32).toInt

/-- The read of the payload. -/
def payload (T : VersionedType) (fs : LoadOutcome) :
    ReadOutcome (T.bytesToRead (fs.size - 2#32)) :=
  fs.readPayload (T.bytesToRead (fs.size - 2#32))

theorem bytesToRead_le (remainingBytes : BitVec 32) :
    T.bytesToRead remainingBytes ≤ T.size - 2 := by
  rw [bytesToRead]
  split <;> omega

/-- **The ways through a load.** The payload is read, or the struct is left alone. -/
theorem load_cases (T : VersionedType) (fs : LoadOutcome) (dest : ℕ → Byte) :
    (T.ReadsPayload fs ∧ (T.load fs dest).2 = writeAt dest 2 (T.payload fs).data ∧
        (T.load fs dest).1 = decide ((T.payload fs).result =
          BitVec.ofNat 32 (T.bytesToRead (fs.size - 2#32)))) ∨
      (¬ T.ReadsPayload fs ∧ (T.load fs dest).2 = dest ∧
        ((T.load fs dest).1 = true ↔ fs.openFile = lfsErrOk ∧ fs.readVersion.result = 2#32 ∧
          fileVersion fs.readVersion.data ≤ T.version)) := by
  rw [load]
  split
  · next hopen => exact .inr ⟨fun h => hopen h.openFile, rfl, by simp [hopen]⟩
  · next hopen =>
    split
    · next hread => exact .inr ⟨fun h => hread h.readVersion, rfl, by simp [hread]⟩
    · next hread =>
      split
      · next hnewer =>
        have hnot : ¬ fileVersion fs.readVersion.data ≤ T.version := BitVec.not_le.mpr hnewer
        exact .inr ⟨fun h => hnot h.version_le, rfl, by simp [hnot]⟩
      · next hversion =>
        rw [not_not] at hopen hread
        rw [BitVec.not_lt] at hversion
        dsimp only
        split
        · next hpos =>
          refine .inl ⟨⟨hopen, hread, hversion, hpos⟩, ?_⟩
          split
          · next hresult => exact ⟨rfl, (decide_eq_false hresult).symm⟩
          · next hresult => exact ⟨rfl, (decide_eq_true (not_not.mp hresult)).symm⟩
        · next hpos =>
          exact .inr ⟨fun h => hpos h.remaining_pos, rfl, by simp [hopen, hread, hversion]⟩

/-- **Frame.** Whatever littlefs returns, a load writes neither to the version field nor behind the
struct. -/
theorem load_frame (T : VersionedType) (fs : LoadOutcome) (dest : ℕ → Byte) (i : ℕ)
    (h : i < 2 ∨ T.size ≤ i) : (T.load fs dest).2 i = dest i := by
  rcases load_cases T fs dest with ⟨-, hdest, -⟩ | ⟨-, hdest, -⟩
  · rw [hdest]
    rcases h with h | h
    · exact writeAt_of_lt h
    · have hle := (T.payload fs).length_le.trans (T.bytesToRead_le _)
      have hsize := T.two_le_size
      have hnone : (T.payload fs).data[i - 2]? = none := List.getElem?_eq_none (by omega)
      rw [writeAt, if_pos (by omega), hnone]
      rfl
  · rw [hdest]

/-- **A failed read** of the payload. A load that fails leaves the struct as it was if and only if a
read of the payload that fails has written nothing else than what was there. -/
theorem load_atomic_iff (T : VersionedType) (fs : LoadOutcome) (dest : ℕ → Byte) :
    ((T.load fs dest).1 = false → ∀ i < T.size, (T.load fs dest).2 i = dest i) ↔
      (T.ReadsPayload fs →
        (T.payload fs).result ≠ BitVec.ofNat 32 (T.bytesToRead (fs.size - 2#32)) →
          ∀ (i : ℕ) (b : Byte), (T.payload fs).data[i]? = some b → dest (2 + i) = b) := by
  have hsize := T.two_le_size
  have hle := (T.payload fs).length_le.trans (T.bytesToRead_le _)
  rcases load_cases T fs dest with ⟨hreads, hdest, hresult⟩ | ⟨hreads, hdest, -⟩
  · rw [hdest, hresult, decide_eq_false_iff_not]
    constructor
    · intro h _ hfail i b hdata
      obtain ⟨hlt, -⟩ := List.getElem?_eq_some_iff.mp hdata
      have hkept := h hfail (2 + i) (by omega)
      rw [writeAt, if_pos (by omega), Nat.add_sub_cancel_left, hdata] at hkept
      exact hkept.symm
    · intro h hfail i _
      rw [writeAt]
      split
      · next hi =>
        have hindex : 2 + (i - 2) = i := by omega
        cases hdata : (T.payload fs).data[i - 2]? with
        | none => rfl
        | some b => exact (hindex ▸ h hreads hfail (i - 2) b hdata).symm
      · rfl
  · rw [hdest]
    exact ⟨fun _ h => absurd h hreads, fun _ _ _ _ => rfl⟩

end VersionedType

/-! ### Files -/

/-- The two bytes of a version field say what it is. -/
theorem versionField_inj {low high low' high' : Byte}
    (h : versionField low high = versionField low' high') : low = low' ∧ high = high' := by
  have hbit : ∀ (l h : Byte) (i : ℕ), i < 8 → (versionField l h).getLsbD i = l.getLsbD i ∧
      (versionField l h).getLsbD (8 + i) = h.getLsbD i := by
    intro l h i hi
    have hlow : i < 16 := by omega
    have hhigh : 8 + i < 16 := by omega
    simp only [versionField, BitVec.getLsbD_or, BitVec.getLsbD_shiftLeft, BitVec.getLsbD_setWidth]
    simp [hi, hlow, hhigh]
  constructor
  · refine BitVec.eq_of_getLsbD_eq fun i hi => ?_
    rw [← (hbit low high i hi).1, h, (hbit low' high' i hi).1]
  · refine BitVec.eq_of_getLsbD_eq fun i hi => ?_
    rw [← (hbit low high i hi).2, h, (hbit low' high' i hi).2]

namespace LfsFile

variable (file : LfsFile)

/-- The version field of the file. -/
def version : BitVec 16 := VersionedType.fileVersion file.bytes

/-- What follows it. -/
def payload : List Byte := file.bytes.drop 2

theorem loaded_readVersion : file.loaded.readVersion.result = 2#32 ↔ 2 ≤ file.bytes.length := by
  have hlt := file.length_lt
  have hlength : ((file.bytes.drop 0).take 2).length = min 2 file.bytes.length := by simp
  have hresult : file.loaded.readVersion.result = BitVec.ofNat 32 (min 2 file.bytes.length) := by
    rw [← hlength]
    rfl
  rw [hresult, ← BitVec.toNat_inj, BitVec.toNat_ofNat, BitVec.toNat_ofNat]
  omega

theorem fileVersion_loaded :
    VersionedType.fileVersion file.loaded.readVersion.data = file.version := by
  have hget : ∀ i < 2, (file.bytes.take 2).getD i 0#8 = file.bytes.getD i 0#8 := fun i hi => by
    rw [List.getD_eq_getElem?_getD, List.getD_eq_getElem?_getD, List.getElem?_take_of_lt hi]
  have hdata : file.loaded.readVersion.data = file.bytes.take 2 := rfl
  rw [hdata, version, VersionedType.fileVersion, VersionedType.fileVersion, hget 0 (by omega),
    hget 1 (by omega)]

theorem toInt_remaining (h : 2 ≤ file.bytes.length) :
    (file.loaded.size - 2#32).toNat = file.payload.length ∧
      (file.loaded.size - 2#32).toInt = file.payload.length := by
  have hlt := file.length_lt
  have hsize : file.loaded.size = BitVec.ofNat 32 file.bytes.length := rfl
  have hnat : (file.loaded.size - 2#32).toNat = file.bytes.length - 2 := by
    rw [hsize, BitVec.toNat_sub, BitVec.toNat_ofNat, BitVec.toNat_ofNat]
    omega
  rw [payload, List.length_drop]
  refine ⟨hnat, ?_⟩
  rw [BitVec.toInt_eq_toNat_of_lt (by omega), hnat]

end LfsFile

namespace VersionedType

variable {T : VersionedType} {file : LfsFile} {dest : ℕ → Byte}

/-- **Newer and truncated files.** -/
theorem load_of_refused (h : file.bytes.length < 2 ∨ T.version < file.version) :
    T.load file.loaded dest = (false, dest) := by
  have hopen : ¬ file.loaded.openFile ≠ lfsErrOk := not_not.mpr rfl
  rw [load, if_neg hopen]
  by_cases hlength : 2 ≤ file.bytes.length
  · rw [if_neg (not_not.mpr (file.loaded_readVersion.mpr hlength)),
      file.fileVersion_loaded, if_pos (h.resolve_left (by omega))]
  · rw [if_pos (mt file.loaded_readVersion.mp hlength)]

/-- **Other files.** As much of the payload as the struct has room for is taken over. -/
theorem load_file (hlength : 2 ≤ file.bytes.length) (hversion : file.version ≤ T.version) :
    T.load file.loaded dest = (true, writeAt dest 2 (file.payload.take (T.size - 2))) := by
  obtain ⟨hnat, hint⟩ := file.toInt_remaining hlength
  have hopen : ¬ file.loaded.openFile ≠ lfsErrOk := not_not.mpr rfl
  have hnewer : ¬ T.version < file.version := BitVec.not_lt.mpr hversion
  rw [load, if_neg hopen, if_neg (not_not.mpr (file.loaded_readVersion.mpr hlength)),
    file.fileVersion_loaded, if_neg hnewer]
  dsimp only
  split
  · next hpos =>
    -- the read gets what it asks for
    have hread : (file.loaded.readPayload (T.bytesToRead (file.loaded.size - 2#32))).data =
        file.payload.take (T.bytesToRead (file.loaded.size - 2#32)) := rfl
    have hlen : (file.payload.take (T.bytesToRead (file.loaded.size - 2#32))).length =
        T.bytesToRead (file.loaded.size - 2#32) := by
      rw [List.length_take, bytesToRead, hnat]
      split <;> omega
    have hresult : (file.loaded.readPayload (T.bytesToRead (file.loaded.size - 2#32))).result =
        BitVec.ofNat 32 (file.payload.take (T.bytesToRead (file.loaded.size - 2#32))).length := rfl
    rw [hlen] at hresult
    have htake : file.payload.take (T.bytesToRead (file.loaded.size - 2#32)) =
        file.payload.take (T.size - 2) := by
      rw [bytesToRead, hnat]
      split
      · rw [List.take_of_length_le (Nat.le_refl _), List.take_of_length_le (by omega)]
      · rfl
    rw [if_neg (not_not.mpr hresult), hread, htake]
  · next hpos =>
    have hnil : file.payload = [] := by
      rw [← List.length_eq_zero_iff]
      omega
    rw [hnil, List.take_nil]
    refine congrArg (true, ·) (funext fun i => ?_)
    rw [writeAt]
    split <;> rfl

/-! ### A save and a load -/

/-- The version field of a struct. -/
def versionOf (src : ℕ → Byte) : BitVec 16 := versionField (src 0) (src 1)

/-- Every call of a save succeeds. -/
structure SaveSucceeds (T : VersionedType) (fs : SaveOutcome) : Prop where
  succeed : DirsAndOpenSucceed T fs
  write_eq : fs.write = BitVec.ofNat 32 T.size

/-- The file that holds a struct. -/
def fileOf (T : VersionedType) (src : ℕ → Byte) : LfsFile where
  bytes := slice src 0 T.size
  length_lt := by
    rw [length_slice]
    exact T.size_lt

/-- **What a save leaves** in the file. -/
theorem fileAfter_save {fs : SaveOutcome} (h : T.SaveSucceeds fs) (old : Option (List Byte))
    (src : ℕ → Byte) :
    (T.save fs src).1 = true ∧ fileAfter old (T.save fs src).2 = some (T.fileOf src).bytes := by
  obtain ⟨hresult, last, hcalls, hlast⟩ := @save_of_succeed T fs src h.succeed
  have hsize := T.size_lt
  have htake : (slice src 0 T.size).take fs.write.toNat = slice src 0 T.size := by
    refine List.take_of_length_le ?_
    rw [length_slice, h.write_eq, BitVec.toNat_ofNat, Nat.mod_eq_of_lt (by omega)]
  have hwritten : fileAfter old ((mkdirpDirs T.path).map (fun dir => .mkdir dir (fs.mkdir dir)) ++
      [.openFile lfsErrOk, .write (slice src 0 T.size) fs.write]) = some (slice src 0 T.size) := by
    rw [fileAfter, List.foldl_append]
    change some ([] ++ (slice src 0 T.size).take fs.write.toNat) = _
    rw [List.nil_append, htake]
  have hwrite := h.write_eq
  refine ⟨by rw [hresult, decide_eq_true hwrite], ?_⟩
  rw [hcalls, fileAfter, List.foldl_append]
  rw [fileAfter] at hwritten
  rw [hwritten]
  rcases hlast with rfl | rfl <;> rfl

theorem version_fileOf (src : ℕ → Byte) : (T.fileOf src).version = versionOf src := by
  have hsize := T.two_le_size
  have hget : ∀ i < 2, (slice src 0 T.size).getD i 0#8 = src i := fun i hi => by
    have hlt : i < (slice src 0 T.size).length := by
      rw [length_slice]
      omega
    rw [List.getD_eq_getElem _ _ hlt]
    simp [slice]
  have hbytes : (T.fileOf src).bytes = slice src 0 T.size := rfl
  rw [LfsFile.version, fileVersion, hbytes, hget 0 (by omega), hget 1 (by omega), versionOf]

/-- **Round trip.** A struct with the version of the code comes back. -/
theorem load_fileOf {src : ℕ → Byte} (hsrc : versionOf src = T.version)
    (hdest : versionOf dest = T.version) :
    (T.load (T.fileOf src).loaded dest).1 = true ∧
      slice (T.load (T.fileOf src).loaded dest).2 0 T.size = slice src 0 T.size := by
  have hsize := T.two_le_size
  have hlength : (T.fileOf src).bytes.length = T.size := length_slice
  have hversion : (T.fileOf src).version ≤ T.version := by
    rw [version_fileOf, hsrc]
    exact BitVec.le_refl _
  rw [load_file (by omega) hversion]
  refine ⟨rfl, List.map_congr_left fun i hi => ?_⟩
  rw [List.mem_range'_1] at hi
  dsimp only
  rw [writeAt]
  split
  · next hpayload =>
    have hindex : 2 + (i - 2) = i := by omega
    have hread : ((T.fileOf src).payload.take (T.size - 2))[i - 2]? = some (src i) := by
      rw [List.getElem?_take_of_lt (by omega), LfsFile.payload, List.getElem?_drop, hindex]
      have hbytes : (T.fileOf src).bytes = slice src 0 T.size := rfl
      rw [hbytes, slice, List.getElem?_map, List.getElem?_range' (by omega)]
      simp
    rw [hread]
    rfl
  · obtain ⟨hlow, hhigh⟩ := versionField_inj (hdest.trans hsrc.symm)
    obtain rfl | rfl : i = 0 ∨ i = 1 := by omega
    · exact hlow
    · exact hhigh

/-- **Migration.** What has been saved with the version of the code is loaded again. From a file
that is not newer the load takes the payload as far as both reach, and leaves the rest of the
struct and its version field alone; it refuses other files. It never writes behind the struct. -/
theorem load_migration (T : VersionedType) :
    (∀ (fs : SaveOutcome) (old : Option (List Byte)) (src dest : ℕ → Byte), T.SaveSucceeds fs →
        versionOf src = T.version → versionOf dest = T.version →
          ∃ file : LfsFile, (T.save fs src).1 = true ∧
            fileAfter old (T.save fs src).2 = some file.bytes ∧
            (T.load file.loaded dest).1 = true ∧
            slice (T.load file.loaded dest).2 0 T.size = slice src 0 T.size) ∧
      (∀ (file : LfsFile) (dest : ℕ → Byte), 2 ≤ file.bytes.length → file.version ≤ T.version →
        (T.load file.loaded dest).1 = true ∧
          (∀ i < min file.payload.length (T.size - 2),
            file.payload[i]? = some ((T.load file.loaded dest).2 (2 + i))) ∧
          ∀ i, i < 2 ∨ 2 + min file.payload.length (T.size - 2) ≤ i →
            (T.load file.loaded dest).2 i = dest i) ∧
      (∀ (file : LfsFile) (dest : ℕ → Byte), file.bytes.length < 2 ∨ T.version < file.version →
        T.load file.loaded dest = (false, dest)) ∧
      ∀ (fs : LoadOutcome) (dest : ℕ → Byte) (i : ℕ), T.size ≤ i →
        (T.load fs dest).2 i = dest i := by
  refine ⟨fun fs old src dest hfs hsrc hdest => ?_, fun file dest hlength hversion => ?_,
    fun file dest => load_of_refused, fun fs dest i hi => load_frame T fs dest i (.inr hi)⟩
  · obtain ⟨htrue, hfile⟩ := fileAfter_save hfs old src
    exact ⟨T.fileOf src, htrue, hfile, load_fileOf hsrc hdest⟩
  · rw [load_file hlength hversion]
    refine ⟨rfl, fun i hi => ?_, fun i hi => ?_⟩
    · have hbound : i < file.payload.length := by omega
      dsimp only
      rw [writeAt, if_pos (by omega), Nat.add_sub_cancel_left,
        List.getElem?_take_of_lt (by omega), List.getElem?_eq_getElem hbound]
      rfl
    · dsimp only
      rw [writeAt]
      split
      · have hnone : (file.payload.take (T.size - 2))[i - 2]? = none := by
          rw [List.getElem?_eq_none_iff, List.length_take]
          omega
        rw [hnone]
        rfl
      · rfl

end VersionedType

open VersionedType

/-- GPS settings are saved and loaded over the defaults. -/
theorem load_migration_gpsSettings :
    ∃ file : LfsFile,
      (gpsSettings.save ⟨fun _ => lfsErrOk, lfsErrOk, 8#32⟩
          (GpsConfig.settings ⟨0#8, 2#8, 115200#32⟩)).1 = true ∧
        fileAfter none (gpsSettings.save ⟨fun _ => lfsErrOk, lfsErrOk, 8#32⟩
          (GpsConfig.settings ⟨0#8, 2#8, 115200#32⟩)).2 = some file.bytes ∧
        (gpsSettings.load file.loaded (GpsConfig.settings ⟨1#8, 0#8, 921600#32⟩)).1 = true ∧
        slice (gpsSettings.load file.loaded (GpsConfig.settings ⟨1#8, 0#8, 921600#32⟩)).2 0
          gpsSettings.size = slice (GpsConfig.settings ⟨0#8, 2#8, 115200#32⟩) 0 gpsSettings.size :=
  (load_migration gpsSettings).1 _ none _ _ ⟨⟨fun _ _ => .inl rfl, rfl⟩, rfl⟩ (by decide)
    (by decide)

/-- GPS settings with another version field than the one that the code has. -/
def newerGpsSettings : ℕ → Byte := writeAt (fun _ => 0#8) 0 [2#8, 0#8, 1#8]

/-- They are saved, and cannot be loaded. -/
theorem load_newerGpsSettings :
    (gpsSettings.save ⟨fun _ => lfsErrOk, lfsErrOk, 8#32⟩ newerGpsSettings).1 = true ∧
      fileAfter none (gpsSettings.save ⟨fun _ => lfsErrOk, lfsErrOk, 8#32⟩ newerGpsSettings).2 =
        some (gpsSettings.fileOf newerGpsSettings).bytes ∧
      (gpsSettings.load (gpsSettings.fileOf newerGpsSettings).loaded
        (GpsConfig.settings ⟨1#8, 0#8, 921600#32⟩)).1 = false := by
  decide

/-- The read of the payload fails after one byte. -/
def corruptPayload : LoadOutcome where
  openFile := lfsErrOk
  readVersion := ⟨2#32, [1#8, 0#8], by decide, fun _ => rfl⟩
  size := 8#32
  readPayload n :=
    { result := -84#32
      data := List.replicate (if n = 4294967212 then n else min n 1) 0xFF#8
      length_le := by
        rw [List.length_replicate]
        split <;> omega
      length_eq := fun h => by
        have hn : n = 4294967212 := h.symm
        rw [List.length_replicate, if_pos hn] }

/-- The load fails, and the protocol in the settings is not the default any more. -/
theorem load_corruptPayload :
    (gpsSettings.load corruptPayload (GpsConfig.settings ⟨1#8, 0#8, 921600#32⟩)).1 = false ∧
      (gpsSettings.load corruptPayload (GpsConfig.settings ⟨1#8, 0#8, 921600#32⟩)).2 2 = 0xFF#8 ∧
      GpsConfig.settings ⟨1#8, 0#8, 921600#32⟩ 2 = 1#8 := by
  decide

end OpenMower
