import OpenMower.Filesystem.VersionedStruct

/-!
# What a successful save says

`Save` returns the error codes of `mkdirp` and `open` as a `bool`, and so reports success when one
of the two fails. If they succeed, its result says whether the struct has been written
(`save_stored_iff`), and then `GpsService::OnStart` resets the board only with the new settings on
the flash.
-/

namespace OpenMower

open Buffer File

/-! ### Directories -/

namespace File

variable {path : CString} {mkdir : CString → LfsResult}

/-- `mkdir` says that the directory is there. -/
def Exists (result : LfsResult) : Prop := result = lfsErrOk ∨ result = lfsErrExist

/-- The directories above a file. -/
def parentDirs (path : CString) : List CString := prefixes path

theorem lastSlash_of_some {i l : ℕ} (h : l ≤ i) (path : CString) :
    ∃ k, lastSlash i (some l) path = some k ∧ l ≤ k := by
  induction path generalizing i l with
  | nil => exact ⟨l, rfl, Nat.le_refl l⟩
  | cons c path ih =>
    rw [lastSlash]
    split
    · obtain ⟨k, hk, hle⟩ := ih (Nat.le_succ i)
      exact ⟨k, hk, h.trans hle⟩
    · exact ih (Nat.le_succ_of_le h)

/-- The last slash is not before any other. -/
theorem le_lastSlash {i j : ℕ} {last : Option ℕ} (h : path[j]? = some '/') :
    ∃ k, lastSlash i last path = some k ∧ i + j ≤ k := by
  induction path generalizing i j last with
  | nil => cases h
  | cons c path ih =>
    rw [lastSlash]
    cases j with
    | zero =>
      obtain rfl : c = '/' := by simpa using h
      rw [if_pos rfl]
      exact lastSlash_of_some (Nat.le_succ i) path
    | succ j =>
      rw [List.getElem?_cons_succ] at h
      obtain ⟨k, hk, hle⟩ := @ih (i + 1) j (if c = '/' then some i else last) h
      exact ⟨k, hk, by omega⟩

/-- `mkdirp` creates the directories above a file, if its path fits the buffer. -/
theorem mem_mkdirpDirs (hpath : path.length < 256) {dir : CString} (h : dir ∈ parentDirs path) :
    dir ∈ mkdirpDirs path := by
  obtain ⟨i, hi, rfl⟩ := List.mem_map.mp h
  rw [List.mem_filter, decide_eq_true_eq] at hi
  obtain ⟨-, hpos, hslash⟩ := hi
  have htake : path.take 255 = path := List.take_of_length_le (by omega)
  obtain ⟨k, hlast, hle⟩ := @le_lastSlash path 0 i none hslash
  have htemp : tempPath path = path.take k := by
    rw [tempPath, htake]
    rw [hlast]
    dsimp only
    rw [if_pos (by omega)]
  rw [mkdirpDirs, htemp]
  rw [Nat.zero_add] at hle
  rcases Nat.lt_or_eq_of_le hle with hlt | rfl
  · -- the slash is left when the filename has been cut off
    refine List.mem_append_left _ (List.mem_map.mpr ⟨i, ?_, ?_⟩)
    · have hbound : i < path.length := by
        obtain ⟨hbound, -⟩ := List.getElem?_eq_some_iff.mp hslash
        exact hbound
      have hkept : (path.take k)[i]? = some '/' := by rw [List.getElem?_take_of_lt hlt, hslash]
      rw [List.mem_filter, List.mem_range, List.length_take, decide_eq_true_eq]
      exact ⟨by omega, hpos, hkept⟩
    · rw [List.take_take, Nat.min_eq_left (Nat.le_of_lt hlt)]
  · exact List.mem_append_right _ (List.mem_singleton.mpr rfl)

/-- A call of `mkdir` with its result. -/
def mkdirCall (mkdir : CString → LfsResult) (dir : CString) : LfsCall := .mkdir dir (mkdir dir)

/-- The loop goes on behind directories that exist. -/
theorem mkdirLoop_append_of_exists {dirs : List CString} (h : ∀ dir ∈ dirs, Exists (mkdir dir))
    (rest : List CString) : mkdirLoop mkdir (dirs ++ rest) =
      ((mkdirLoop mkdir rest).1, dirs.map (mkdirCall mkdir) ++ (mkdirLoop mkdir rest).2) := by
  induction dirs with
  | nil => rfl
  | cons dir dirs ih =>
    have hgoes : ¬ (mkdir dir ≠ lfsErrOk ∧ mkdir dir ≠ lfsErrExist) := by
      rw [← not_or, not_not]
      exact h dir List.mem_cons_self
    have hrest := ih fun dir' hdir' => h dir' (List.mem_cons_of_mem _ hdir')
    rw [List.cons_append, mkdirLoop, if_neg hgoes, hrest]
    rfl

/-- The loop ends with the first directory that cannot be created. -/
theorem mkdirLoop_failure {before : List CString} {dir : CString}
    (hbefore : ∀ dir ∈ before, Exists (mkdir dir)) (hfails : ¬ Exists (mkdir dir))
    (after : List CString) : mkdirLoop mkdir (before ++ dir :: after) =
      (mkdir dir, (before ++ [dir]).map (mkdirCall mkdir)) := by
  have hends : mkdirLoop mkdir (dir :: after) = (mkdir dir, [mkdirCall mkdir dir]) := by
    rw [mkdirLoop]
    exact if_pos (not_or.mp hfails)
  rw [mkdirLoop_append_of_exists hbefore, hends, List.map_append]
  rfl

/-- All directories exist. -/
theorem mkdirLoop_success {dirs : List CString} (h : ∀ dir ∈ dirs, Exists (mkdir dir)) :
    mkdirLoop mkdir dirs = (lfsErrOk, dirs.map (mkdirCall mkdir)) := by
  have hwhole := mkdirLoop_append_of_exists h []
  rwa [List.append_nil, mkdirLoop, List.append_nil] at hwhole

/-- Either all directories exist, or there is a first one that cannot be created. -/
theorem exists_first_failure (mkdir : CString → LfsResult) (dirs : List CString) :
    (∀ dir ∈ dirs, Exists (mkdir dir)) ∨ ∃ before dir after, dirs = before ++ dir :: after ∧
      (∀ dir ∈ before, Exists (mkdir dir)) ∧ ¬ Exists (mkdir dir) := by
  induction dirs with
  | nil => exact .inl fun dir hdir => absurd hdir List.not_mem_nil
  | cons dir dirs ih =>
    by_cases hdir : Exists (mkdir dir)
    · rcases ih with hall | ⟨before, dir', after, rfl, hbefore, hfails⟩
      · exact .inl (List.forall_mem_cons.mpr ⟨hdir, hall⟩)
      · exact .inr ⟨dir :: before, dir', after, rfl,
          List.forall_mem_cons.mpr ⟨hdir, hbefore⟩, hfails⟩
    · exact .inr ⟨[], dir, dirs, rfl, fun dir hdir => absurd hdir List.not_mem_nil, hdir⟩

/-- `mkdirp` is the loop over its directories, with the last one among them. -/
theorem mkdirp_eq_mkdirLoop {path : CString} (hpath : path.head? = some '/') :
    mkdirp mkdir path = mkdirLoop mkdir (mkdirpDirs path) := by
  rw [mkdirp, if_neg (not_not.mpr hpath), mkdirpDirs]
  dsimp only
  rcases exists_first_failure mkdir (prefixes (tempPath path)) with
    hall | ⟨before, dir, after, heq, hbefore, hfails⟩
  · have hlast : mkdirLoop mkdir [tempPath path] =
        (if mkdir (tempPath path) = lfsErrExist then lfsErrOk else mkdir (tempPath path),
          [mkdirCall mkdir (tempPath path)]) := by
      by_cases hexists : Exists (mkdir (tempPath path))
      · rw [mkdirLoop_success (by simpa using hexists)]
        rcases hexists with hok | hexist
        · simp [hok]
        · simp [hexist]
      · have hfails := @mkdirLoop_failure mkdir [] _ (by simp) hexists []
        rw [List.nil_append] at hfails
        rw [hfails, if_neg (not_or.mp hexists).2]
        rfl
    rw [mkdirLoop_append_of_exists hall, mkdirLoop_success hall, hlast, if_neg (by simp)]
    rfl
  · rw [heq, mkdirLoop_failure hbefore hfails, if_pos (not_or.mp hfails).1, List.append_assoc,
      List.cons_append, mkdirLoop_failure hbefore hfails]

/-- **`mkdirp`** succeeds if each `mkdir` says that the directory is there, and has then called it
for all of them. -/
theorem mkdirp_eq_ok_iff (hpath : path.head? = some '/') :
    (mkdirp mkdir path).1 = lfsErrOk ↔ ∀ dir ∈ mkdirpDirs path, Exists (mkdir dir) := by
  rw [mkdirp_eq_mkdirLoop hpath]
  rcases exists_first_failure mkdir (mkdirpDirs path) with
    hall | ⟨before, dir, after, heq, hbefore, hfails⟩
  · rw [mkdirLoop_success hall]
    exact iff_of_true rfl hall
  · rw [heq, mkdirLoop_failure hbefore hfails]
    exact iff_of_false (not_or.mp hfails).1 fun h => hfails (h dir (by simp))

theorem mkdirp_calls (hpath : path.head? = some '/') (h : (mkdirp mkdir path).1 = lfsErrOk) :
    (mkdirp mkdir path).2 = (mkdirpDirs path).map fun dir => .mkdir dir (mkdir dir) := by
  rw [mkdirp_eq_mkdirLoop hpath, mkdirLoop_success ((mkdirp_eq_ok_iff hpath).mp h)]
  rfl

/-- `mkdirp` neither opens nor writes a file. -/
theorem not_openFile_mem_mkdirp (mkdir : CString → LfsResult) (path : CString) (r : LfsResult) :
    .openFile r ∉ (mkdirp mkdir path).2 := by
  have hloop : ∀ dirs, .openFile r ∉ (mkdirLoop mkdir dirs).2 := by
    intro dirs
    induction dirs with
    | nil => exact List.not_mem_nil
    | cons dir dirs ih =>
      rw [mkdirLoop]
      split <;> simp [ih]
  rw [mkdirp]
  split
  · exact List.not_mem_nil
  · dsimp only
    split
    · exact hloop _
    · simp [hloop]

end File

/-! ### The result of a save -/

/-- What success is to mean: the directories above the file are there, it has been opened, and
exactly `sizeof(T)` bytes of the struct have been written. -/
def Stored (T : VersionedType) (src : ℕ → Byte) (calls : List LfsCall) : Prop :=
  (∀ dir ∈ parentDirs T.path, ∃ r, .mkdir dir r ∈ calls ∧ File.Exists r) ∧
    .openFile lfsErrOk ∈ calls ∧
      ∃ r : LfsResult, .write (slice src 0 T.size) r ∈ calls ∧ r.toNat = T.size

/-- Every `mkdir` says that the directory is there, and the file is opened. -/
def DirsAndOpenSucceed (T : VersionedType) (fs : SaveOutcome) : Prop :=
  (∀ dir ∈ mkdirpDirs T.path, File.Exists (fs.mkdir dir)) ∧ fs.openFile = lfsErrOk

namespace VersionedType

variable {T : VersionedType} {fs : SaveOutcome} {src : ℕ → Byte}

/-- If `mkdirp` or `open` fails, the save reports success and has not opened the file. -/
theorem save_of_not_succeed (h : ¬ DirsAndOpenSucceed T fs) :
    (T.save fs src).1 = true ∧ .openFile lfsErrOk ∉ (T.save fs src).2 := by
  rw [save]
  dsimp only
  split
  · next hmkdirp =>
    exact ⟨decide_eq_true hmkdirp, not_openFile_mem_mkdirp _ _ _⟩
  · next hmkdirp =>
    rw [not_not, mkdirp_eq_ok_iff T.path_absolute] at hmkdirp
    have hopen : fs.openFile ≠ lfsErrOk := fun hopen => h ⟨hmkdirp, hopen⟩
    rw [if_pos hopen]
    refine ⟨decide_eq_true hopen, fun hmem => ?_⟩
    rcases List.mem_append.mp hmem with hmem | hmem
    · exact not_openFile_mem_mkdirp _ _ _ hmem
    · exact hopen (LfsCall.openFile.inj (List.mem_singleton.mp hmem)).symm

/-- The calls of a save that gets as far as the write. -/
theorem save_of_succeed (h : DirsAndOpenSucceed T fs) :
    (T.save fs src).1 = decide (fs.write = BitVec.ofNat 32 T.size) ∧
      ∃ last, (T.save fs src).2 = (mkdirpDirs T.path).map (fun dir => .mkdir dir (fs.mkdir dir)) ++
        [.openFile lfsErrOk, .write (slice src 0 T.size) fs.write] ++ last ∧
          (last = [] ∨ last = [.sync]) := by
  have hmkdirp := (mkdirp_eq_ok_iff T.path_absolute).mpr h.1
  rw [save]
  dsimp only
  rw [if_neg (not_not.mpr hmkdirp), if_neg (not_not.mpr h.2), mkdirp_calls T.path_absolute hmkdirp,
    h.2]
  split
  · next hwrite =>
    exact ⟨(decide_eq_false hwrite).symm, [], (List.append_nil _).symm, .inl rfl⟩
  · next hwrite => exact ⟨(decide_eq_true (not_not.mp hwrite)).symm, [.sync], rfl, .inr rfl⟩

/-- The struct has been written if the write returns its size. -/
theorem stored_iff_of_succeed (h : DirsAndOpenSucceed T fs) :
    Stored T src (T.save fs src).2 ↔ fs.write = BitVec.ofNat 32 T.size := by
  obtain ⟨-, last, hcalls, hlast⟩ := @save_of_succeed T fs src h
  have hsize := T.size_lt
  have hnat : (BitVec.ofNat 32 T.size).toNat = T.size := by
    rw [BitVec.toNat_ofNat, Nat.mod_eq_of_lt (by omega)]
  rw [Stored, hcalls]
  constructor
  · rintro ⟨-, -, r, hwrite, hr⟩
    have hr' : r = fs.write := by
      rcases hlast with rfl | rfl <;> simpa using hwrite
    rw [← hr', ← hr, BitVec.ofNat_toNat, BitVec.setWidth_eq]
  · intro hwrite
    refine ⟨fun dir hdir => ⟨fs.mkdir dir, ?_, h.1 dir (mem_mkdirpDirs T.path_lt hdir)⟩, ?_, ?_⟩
    · refine List.mem_append_left _ (List.mem_append_left _ (List.mem_map.mpr ⟨dir, ?_, rfl⟩))
      exact mem_mkdirpDirs T.path_lt hdir
    · simp
    · exact ⟨fs.write, by simp, by rw [hwrite, hnat]⟩

/-- **A save.** Its result says whether the struct has been stored, if and only if the directories
are there and the file is opened. -/
theorem save_eq_true_iff_stored : ((T.save fs src).1 = true ↔ Stored T src (T.save fs src).2) ↔
    DirsAndOpenSucceed T fs := by
  constructor
  · intro hiff
    by_contra hnot
    obtain ⟨htrue, hopen⟩ := @save_of_not_succeed T fs src hnot
    exact hopen (hiff.mp htrue).2.1
  · intro h
    rw [stored_iff_of_succeed h, (save_of_succeed h).1, decide_eq_true_eq]

end VersionedType

/-! ### The reset of the board -/

/-- A driver runs with other settings than these. -/
def SettingsChange (gpsDriver : Option GpsConfig) (config : GpsConfig) : Prop :=
  ∃ running, gpsDriver = some running ∧ running ≠ config

/-- A board that resets has saved the settings, which are other than those that the driver runs
with. -/
theorem gpsServiceOnStart_reset_iff {fs : SaveOutcome} {load : GpsConfig → Bool}
    {gpsDriver : Option GpsConfig} {config : GpsConfig} :
    (gpsServiceOnStart fs load gpsDriver config).1 = .reset ↔
      SettingsChange gpsDriver config ∧ (saveGpsSettings fs config).1 = true := by
  cases gpsDriver with
  | none => simp [gpsServiceOnStart, SettingsChange]
  | some running =>
    have hdiffer : (running.protocol ≠ config.protocol ∨ running.uart ≠ config.uart ∨
        running.baudrate ≠ config.baudrate) ↔ running ≠ config := by
      rw [ne_eq running, GpsConfig.ext_iff, not_and_or, not_and_or]
    have hchange : SettingsChange (some running) config ↔ running ≠ config := by
      simp [SettingsChange]
    rw [gpsServiceOnStart, hchange]
    dsimp only
    by_cases hne : running ≠ config
    · rw [if_pos (hdiffer.mpr hne)]
      cases hsaved : (saveGpsSettings fs config).1 <;> simp [hne]
    · rw [if_neg (mt hdiffer.mp hne)]
      simp [hne]

/-- The calls of an `OnStart` that resets the board are those of the save. -/
theorem gpsServiceOnStart_calls {fs : SaveOutcome} {load : GpsConfig → Bool}
    {gpsDriver : Option GpsConfig} {config : GpsConfig}
    (h : (gpsServiceOnStart fs load gpsDriver config).1 = .reset) :
    (gpsServiceOnStart fs load gpsDriver config).2 = (saveGpsSettings fs config).2 := by
  cases gpsDriver with
  | none => cases h
  | some running =>
    rw [gpsServiceOnStart] at h ⊢
    dsimp only at h ⊢
    split at h
    · next hdiffer =>
      rw [if_pos hdiffer]
      split <;> rfl
    · cases h

/-- **Saves and resets.** Whatever littlefs returns, the result of `Save` says whether the struct
has been stored if and only if the directories are there and the file is opened; and if the settings
change, the board resets only after they have been stored under the same condition. -/
theorem save_stored_iff (T : VersionedType) (fs : SaveOutcome) (src : ℕ → Byte)
    (load : GpsConfig → Bool) (gpsDriver : Option GpsConfig) (config : GpsConfig) :
    (((T.save fs src).1 = true ↔ Stored T src (T.save fs src).2) ↔ DirsAndOpenSucceed T fs) ∧
      (((gpsServiceOnStart fs load gpsDriver config).1 = .reset →
          Stored gpsSettings config.settings (gpsServiceOnStart fs load gpsDriver config).2) ↔
        (SettingsChange gpsDriver config → DirsAndOpenSucceed gpsSettings fs)) := by
  refine ⟨VersionedType.save_eq_true_iff_stored, fun hreset hchange => ?_, fun h hends => ?_⟩
  · by_contra hnot
    obtain ⟨htrue, hopen⟩ := @VersionedType.save_of_not_succeed gpsSettings fs config.settings hnot
    have hends := (@gpsServiceOnStart_reset_iff fs load gpsDriver config).mpr ⟨hchange, htrue⟩
    have hstored := hreset hends
    rw [gpsServiceOnStart_calls hends] at hstored
    exact hopen hstored.2.1
  · obtain ⟨hchange, htrue⟩ := gpsServiceOnStart_reset_iff.mp hends
    rw [gpsServiceOnStart_calls hends]
    exact (VersionedType.save_eq_true_iff_stored.mpr (h hchange)).mp htrue

/-- There is no room on the flash for the directory. -/
def noSpace : SaveOutcome where
  mkdir _ := -28#32
  openFile := lfsErrOk
  write := 8#32

/-- The board resets, and nothing has been written. -/
theorem save_noSpace :
    (gpsSettings.save noSpace (GpsConfig.settings ⟨0#8, 1#8, 115200#32⟩)).1 = true ∧
      ¬ Stored gpsSettings (GpsConfig.settings ⟨0#8, 1#8, 115200#32⟩)
          (gpsSettings.save noSpace (GpsConfig.settings ⟨0#8, 1#8, 115200#32⟩)).2 ∧
      (gpsServiceOnStart noSpace (fun _ => true) (some ⟨1#8, 1#8, 921600#32⟩)
          ⟨0#8, 1#8, 115200#32⟩).1 = .reset := by
  have hcalls : (gpsSettings.save noSpace (GpsConfig.settings ⟨0#8, 1#8, 115200#32⟩)).2 =
      [.mkdir "/cfg".toList (-28#32)] := by decide
  refine ⟨by decide, fun hstored => ?_, by decide⟩
  rw [hcalls] at hstored
  obtain ⟨-, hopen, -⟩ := hstored
  simp at hopen

end OpenMower
