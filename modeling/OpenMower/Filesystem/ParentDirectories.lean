import OpenMower.Filesystem.FilePaths
import OpenMower.Filesystem.Saving

/-!
# The parents of a file

`mkdirp` is the loop over the directories of its copy (`mkdirp_eq_mkdirLoop`). With one component
nothing is cut off, as the slash at the front is not searched for, and a directory is made where the
file has to go. If the parent directory does not fit the copy, the directories behind the end of the
copy are left out, or the first one is created with a name that is cut off
(`mkdirp_creates_parents_iff`).
-/

namespace OpenMower

/-- An absolute path. -/
structure AbsolutePath where
  components : List CString
  components_ne : components ≠ []
  component_ne : ∀ c ∈ components, c ≠ []
  slash_notMem : ∀ c ∈ components, '/' ∉ c

namespace File

variable {components : List CString} {mkdir : CString → LfsResult}

/-- The loop begins with the first directory. -/
theorem mkdirLoop_head? (mkdir : CString → LfsResult) (dirs : List CString) :
    (mkdirLoop mkdir dirs).2.head? = dirs.head?.map (mkdirCall mkdir) := by
  cases dirs with
  | nil => rfl
  | cons dir dirs =>
    rw [mkdirLoop]
    split <;> rfl

/-- A part of a list of directories does as well if it is all of them, or has one of them that
cannot be created. -/
theorem mkdirLoop_eq_append_iff (dirs rest : List CString) :
    mkdirLoop mkdir dirs = mkdirLoop mkdir (dirs ++ rest) ↔
      rest = [] ∨ ∃ dir ∈ dirs, ¬ Exists (mkdir dir) := by
  rcases exists_first_failure mkdir dirs with hall | ⟨before, dir, after, rfl, hbefore, hfails⟩
  · have hnone : ¬ ∃ dir ∈ dirs, ¬ Exists (mkdir dir) := by
      rintro ⟨dir, hdir, hfails⟩
      exact hfails (hall dir hdir)
    rw [or_iff_left hnone, mkdirLoop_append_of_exists hall, mkdirLoop_success hall]
    constructor
    · intro heq
      have hcalls := congrArg (List.length ∘ Prod.snd) heq
      simp only [Function.comp_apply, List.length_append, List.length_map] at hcalls
      cases rest with
      | nil => rfl
      | cons dir rest =>
        rw [mkdirLoop] at hcalls
        split at hcalls <;> simp at hcalls
    · rintro rfl
      simp [mkdirLoop]
  · refine iff_of_true ?_ (.inr ⟨dir, by simp, hfails⟩)
    rw [mkdirLoop_failure hbefore hfails, List.append_assoc, List.cons_append,
      mkdirLoop_failure hbefore hfails]

/-! ### The result -/

/-- A directory that is down to the component with this number is reached in the copy: its slash is
in it, or the first component just fills it. -/
def Reached (components : List CString) (j : ℕ) : Prop :=
  (joinPath (components.take j)).length ≤ 254 ∨
    (j = 1 ∧ (joinPath (components.take j)).length = 255)

theorem joinPath_take_length_le {i j : ℕ} (h : i ≤ j) :
    (joinPath (components.take i)).length ≤ (joinPath (components.take j)).length := by
  obtain ⟨rest, hrest⟩ := List.take_prefix_take_left (l := components) h
  rw [← hrest, joinPath_append, List.length_append]
  exact Nat.le_add_right _ _

theorem mem_dirsDownTo {m : ℕ} {dir : CString} :
    dir ∈ dirsDownTo components m ↔
      ∃ j, 1 ≤ j ∧ j ≤ m ∧ joinPath (components.take j) = dir := by
  rw [dirsDownTo, List.mem_map]
  constructor
  · rintro ⟨j, hj, heq⟩
    exact ⟨j + 1, Nat.le_add_left _ _, List.mem_range.mp hj, heq⟩
  · rintro ⟨j, hpos, hle, heq⟩
    refine ⟨j - 1, List.mem_range.mpr (by omega), ?_⟩
    rwa [Nat.sub_add_cancel hpos]

/-- The directories down to a component go on with those behind it. -/
theorem exists_dirsDownTo_append {k m : ℕ} (h : k ≤ m) : ∃ rest,
    dirsDownTo components m = dirsDownTo components k ++ rest ∧ (rest = [] ↔ m = k) := by
  have hlength : ∀ m, (dirsDownTo components m).length = m := fun m => by simp [dirsDownTo]
  have htake : (dirsDownTo components m).take k = dirsDownTo components k := by
    rw [dirsDownTo, ← List.map_take, List.take_range, Nat.min_eq_left h]
    rfl
  refine ⟨(dirsDownTo components m).drop k, ?_, ?_⟩
  · rw [← htake, List.take_append_drop]
  · rw [List.drop_eq_nil_iff, hlength]
    omega

end File

open File

namespace AbsolutePath

variable (path : AbsolutePath)

/-- The path as it is passed on. -/
def text : CString := joinPath path.components

/-- The directories above the file, from the root on. -/
def ancestors : List CString := dirsDownTo path.components (path.components.length - 1)

end AbsolutePath

/-- `mkdir` is called for the directories above the file and for nothing else, and if one of them
cannot be created, the error is returned and there are no more calls. -/
structure CreatesParents (mkdir : CString → LfsResult) (path : AbsolutePath) : Prop where
  success : (∀ dir ∈ path.ancestors, Exists (mkdir dir)) →
    mkdirp mkdir path.text = (lfsErrOk, path.ancestors.map (mkdirCall mkdir))
  failure : ∀ before dir after, path.ancestors = before ++ dir :: after →
    (∀ dir ∈ before, Exists (mkdir dir)) → ¬ Exists (mkdir dir) →
      mkdirp mkdir path.text = (mkdir dir, (before ++ [dir]).map (mkdirCall mkdir))

/-- There are directories above the file, and all of them are reached, or one that is reached cannot
be created. -/
def ParentsReached (mkdir : CString → LfsResult) (path : AbsolutePath) : Prop :=
  2 ≤ path.components.length ∧
    ((∀ j, 1 ≤ j → j < path.components.length → Reached path.components j) ∨
      ∃ j, 1 ≤ j ∧ j < path.components.length ∧ Reached path.components j ∧
        ¬ Exists (mkdir (joinPath (path.components.take j))))

namespace AbsolutePath

variable {path : AbsolutePath} {mkdir : CString → LfsResult}

/-- What is asked of `mkdirp` is to be the loop over the directories above the file. -/
theorem createsParents_iff : CreatesParents mkdir path ↔
    mkdirLoop mkdir (mkdirpDirs path.text) = mkdirLoop mkdir path.ancestors := by
  have hpath : path.text.head? = some '/' := by
    obtain ⟨c, components, heq⟩ := List.exists_cons_of_ne_nil path.components_ne
    rw [text, heq]
    rfl
  rw [← mkdirp_eq_mkdirLoop hpath]
  constructor
  · intro h
    rcases exists_first_failure mkdir path.ancestors with
      hall | ⟨before, dir, after, heq, hbefore, hfails⟩
    · rw [h.success hall, mkdirLoop_success hall]
    · rw [h.failure before dir after heq hbefore hfails, heq, mkdirLoop_failure hbefore hfails]
  · intro h
    refine ⟨fun hall => ?_, fun before dir after heq hbefore hfails => ?_⟩
    · rw [h, mkdirLoop_success hall]
    · rw [h, heq, mkdirLoop_failure hbefore hfails]

/-- The directories that are reached are those down to one of the components. -/
theorem createsParents_of_reached {k : ℕ} (hk : 1 ≤ k) (hlt : k < path.components.length)
    (hdirs : mkdirpDirs path.text = dirsDownTo path.components k)
    (hreached : ∀ j, 1 ≤ j → j < path.components.length →
      (Reached path.components j ↔ j ≤ k)) :
    CreatesParents mkdir path ↔ ParentsReached mkdir path := by
  obtain ⟨rest, hrest, hnil⟩ := @exists_dirsDownTo_append path.components k
    (path.components.length - 1) (by omega)
  rw [createsParents_iff, hdirs, ancestors, hrest, mkdirLoop_eq_append_iff, hnil, ParentsReached]
  constructor
  · rintro (hall | ⟨dir, hdir, hfails⟩)
    · exact ⟨by omega, .inl fun j hpos hj => (hreached j hpos hj).mpr (by omega)⟩
    · obtain ⟨j, hpos, hle, rfl⟩ := mem_dirsDownTo.mp hdir
      have hj : j < path.components.length := by omega
      exact ⟨by omega, .inr ⟨j, hpos, hj, (hreached j hpos hj).mpr hle, hfails⟩⟩
  · rintro ⟨htwo, hall | ⟨j, hpos, hj, hreach, hfails⟩⟩
    · have hlast := (hreached (path.components.length - 1) (by omega) (by omega)).mp
        (hall _ (by omega) (by omega))
      exact .inl (by omega)
    · exact .inr ⟨_, mem_dirsDownTo.mpr ⟨j, hpos, (hreached j hpos hj).mp hreach, rfl⟩, hfails⟩

/-- Without a slash behind the first component in the copy, that component is created as far as it
is there. -/
theorem createsParents_of_first {c : CString} {after : List CString}
    (heq : path.components = c :: after) (hafter : after ≠ [] → 255 ≤ c.length + 1)
    (hdirs : mkdirpDirs path.text = ['/' :: c.take 254]) :
    CreatesParents mkdir path ↔ ParentsReached mkdir path := by
  have hlength : path.components.length = after.length + 1 := by rw [heq, List.length_cons]
  have hfirst : joinPath (path.components.take 1) = '/' :: c := by
    rw [heq]
    exact congrArg ('/' :: ·) (List.append_nil c)
  by_cases hnil : after = []
  · -- there is no directory above the file
    subst hnil
    rw [List.length_nil] at hlength
    refine iff_of_false (fun h => ?_) fun h => ?_
    · have hcalls := mkdirLoop_head? mkdir path.ancestors
      rw [← createsParents_iff.mp h, mkdirLoop_head?, hdirs, ancestors, hlength] at hcalls
      cases hcalls
    · have htwo := h.1
      omega
  have hpos := List.length_pos_iff.mpr hnil
  have hlong := hafter hnil
  have hle : ∀ j, 1 ≤ j → c.length + 1 ≤ (joinPath (path.components.take j)).length := by
    intro j hj
    have hmono := @joinPath_take_length_le path.components _ _ hj
    rwa [hfirst, List.length_cons] at hmono
  by_cases hfull : c.length = 254
  · -- the first component just fills the copy
    refine createsParents_of_reached (Nat.le_refl 1) (by omega) ?_ fun j hj _ => ?_
    · rw [hdirs, List.take_of_length_le (Nat.le_of_eq hfull), ← hfirst]
      rfl
    · have hj' := hle j hj
      constructor
      · rintro (hshort | ⟨rfl, -⟩)
        · omega
        · exact Nat.le_refl 1
      · intro hone
        obtain rfl : j = 1 := by omega
        exact .inr ⟨rfl, by rw [hfirst, List.length_cons, hfull]⟩
  · -- the name is cut off
    have hnone : ∀ j, 1 ≤ j → ¬ Reached path.components j := by
      rintro j hj (hshort | ⟨rfl, hexact⟩)
      · have hj' := hle j hj
        omega
      · rw [hfirst, List.length_cons] at hexact
        omega
    refine iff_of_false (fun h => ?_) fun h => ?_
    · have hcalls := mkdirLoop_head? mkdir path.ancestors
      have hhead : path.ancestors.head? = some ('/' :: c) := by
        obtain ⟨m, hm⟩ : ∃ m, after.length = m + 1 := Nat.exists_eq_succ_of_ne_zero hpos.ne'
        rw [ancestors, hlength, Nat.add_sub_cancel, hm, ← hfirst, dirsDownTo,
          List.range_succ_eq_map]
        rfl
      rw [← createsParents_iff.mp h, mkdirLoop_head?, hdirs, hhead] at hcalls
      simp only [List.head?_cons, Option.map_some, mkdirCall, Option.some.injEq,
        LfsCall.mkdir.injEq, List.cons.injEq, true_and] at hcalls
      have hcut := congrArg List.length hcalls.1
      rw [List.length_take] at hcut
      omega
    · rcases h.2 with hall | ⟨j, hj, -, hreach, -⟩
      · exact hnone 1 (Nat.le_refl 1) (hall 1 (Nat.le_refl 1) (by omega))
      · exact hnone j hj hreach

end AbsolutePath

/-- **`mkdirp` creates the parents** of a file if and only if there are any, and the path of each is
in the copy, or that of one that cannot be created. -/
theorem mkdirp_creates_parents_iff (mkdir : CString → LfsResult) (path : AbsolutePath) :
    CreatesParents mkdir path ↔ ParentsReached mkdir path := by
  obtain ⟨before, c, after, heq, hlen, hafter, hdirs⟩ :=
    mkdirpDirs_joinPath path.slash_notMem path.components_ne
  by_cases hnil : before = []
  · subst hnil
    rw [if_pos rfl] at hdirs
    refine AbsolutePath.createsParents_of_first heq (fun hne => ?_) hdirs
    have hle := hafter hne
    rwa [List.nil_append, joinPath_cons, List.length_cons, List.length_append] at hle
  · rw [if_neg hnil] at hdirs
    have hpos := List.length_pos_iff.mpr hnil
    have hbefore : path.components.take before.length = before := by rw [heq, List.take_left]
    have hnext : path.components.take (before.length + 1) = before ++ [c] := by
      rw [heq, List.append_cons, List.take_left' (by simp)]
    have hlength : path.components.length = before.length + (after.length + 1) := by
      rw [heq, List.length_append, List.length_cons]
    refine AbsolutePath.createsParents_of_reached hpos (by omega) hdirs fun j hj hlt => ?_
    constructor
    · intro hreach
      by_contra hbehind
      have hmono := @joinPath_take_length_le path.components (before.length + 1) j (by omega)
      have hle := hafter (List.length_pos_iff.mp (by omega))
      rw [hnext] at hmono
      rcases hreach with hshort | ⟨rfl, -⟩ <;> omega
    · intro hle
      have hmono := @joinPath_take_length_le path.components j before.length hle
      rw [hbefore] at hmono
      exact .inl (by omega)

/-- The file with the settings of the display. -/
def lcdPath : AbsolutePath where
  components := ["cfg".toList, "sabo".toList, "lcd.bin".toList]
  components_ne := by decide
  component_ne := by decide
  slash_notMem := by decide

/-- A file in the root directory. -/
def rootPath : AbsolutePath where
  components := ["lcd.bin".toList]
  components_ne := by decide
  component_ne := by decide
  slash_notMem := by decide

example : lcdPath.text = lcdSettings.path := rfl

/-- The directories of the settings are there already. -/
theorem mkdirp_creates_parents_lcd : CreatesParents (fun _ => lfsErrExist) lcdPath := by
  refine (mkdirp_creates_parents_iff _ lcdPath).mpr ⟨by decide, .inl fun j _ hj => .inl ?_⟩
  have hmono := @joinPath_take_length_le lcdPath.components j 3 (Nat.le_of_lt hj)
  have hwhole : (joinPath (lcdPath.components.take 3)).length = 17 := by decide
  omega

/-- A file in the root directory: a directory is made where it has to go. -/
theorem mkdirp_not_creates_parents :
    mkdirp (fun _ => lfsErrOk) rootPath.text =
        (lfsErrOk, [.mkdir "/lcd.bin".toList lfsErrOk]) ∧
      ¬ CreatesParents (fun _ => lfsErrOk) rootPath := by
  have hcalls : mkdirp (fun _ => lfsErrOk) rootPath.text =
      (lfsErrOk, [.mkdir "/lcd.bin".toList lfsErrOk]) := by decide
  refine ⟨hcalls, fun h => ?_⟩
  have hnone := h.success fun dir hdir =>
    absurd hdir (by simp [AbsolutePath.ancestors, rootPath, dirsDownTo])
  rw [hcalls] at hnone
  revert hnone
  decide

end OpenMower
