import OpenMower.Filesystem.VersionedStruct

/-!
# Paths and their copies

A path is made of its components, each with a slash in front. `mkdirp` works on a copy of it with
up to 255 characters, which ends in some component (`take_joinPath`), and cuts that component off
unless it is the first one (`mkdirpDirs_joinPath`).
-/

namespace OpenMower

namespace File

/-- The text of these components. -/
def joinPath (components : List CString) : CString := components.flatMap ('/' :: ·)

variable {components : List CString}

/-- The directories down to one of the components. -/
def dirsDownTo (components : List CString) (m : ℕ) : List CString :=
  (List.range m).map fun j => joinPath (components.take (j + 1))

@[simp]
theorem joinPath_cons (c : CString) (components : List CString) :
    joinPath (c :: components) = '/' :: (c ++ joinPath components) := rfl

theorem joinPath_append (before after : List CString) :
    joinPath (before ++ after) = joinPath before ++ joinPath after :=
  List.flatMap_append

theorem joinPath_concat (before : List CString) (c : CString) :
    joinPath (before ++ [c]) = joinPath before ++ '/' :: c := by
  rw [joinPath_append, joinPath_cons]
  exact congrArg (fun rest => joinPath before ++ '/' :: rest) (List.append_nil c)

theorem dirsDownTo_succ (m : ℕ) : dirsDownTo components (m + 1) =
    dirsDownTo components m ++ [joinPath (components.take (m + 1))] := by
  rw [dirsDownTo, List.range_succ, List.map_append]
  rfl

/-- What is behind the last of the components does not matter. -/
theorem dirsDownTo_append {m : ℕ} (h : m ≤ components.length) (after : List CString) :
    dirsDownTo (components ++ after) m = dirsDownTo components m := by
  refine List.map_congr_left fun j hj => ?_
  rw [List.mem_range] at hj
  rw [List.take_append_of_le_length (by omega)]

theorem joinPath_eq_nil_iff : joinPath components = [] ↔ components = [] := by
  cases components <;> simp [joinPath]

/-! ### The slashes of a path -/

/-- The last slash is in front of the last component. -/
theorem lastSlash_append (i : ℕ) (last : Option ℕ) (before : CString) {c : CString}
    (hc : '/' ∉ c) : lastSlash i last (before ++ '/' :: c) = some (i + before.length) := by
  induction before generalizing i last with
  | nil =>
    have hrest : ∀ (j : ℕ) (c : CString), '/' ∉ c → lastSlash j (some i) c = some i := by
      intro j c hc
      induction c generalizing j with
      | nil => rfl
      | cons b c ih =>
        rw [List.mem_cons, not_or] at hc
        rw [lastSlash, if_neg (Ne.symm hc.1)]
        exact ih (j + 1) hc.2
    rw [List.nil_append, lastSlash, if_pos rfl, hrest (i + 1) c hc]
    rfl
  | cons b before ih =>
    rw [List.cons_append, lastSlash, ih, List.length_cons]
    congr 1
    omega

/-- The prefixes of a path are those of its parent, and its parent. -/
theorem prefixes_append (before : CString) {c : CString} (hc : '/' ∉ c) :
    prefixes (before ++ '/' :: c) = prefixes before ++ if before = [] then [] else [before] := by
  have hlength : (before ++ '/' :: c).length = before.length + (c.length + 1) := by
    rw [List.length_append, List.length_cons]
  have hfront : ((List.range before.length).filter fun i =>
      decide (1 ≤ i ∧ (before ++ '/' :: c)[i]? = some '/')).map (before ++ '/' :: c).take =
        prefixes before := by
    have hfilter : ((List.range before.length).filter fun i =>
        decide (1 ≤ i ∧ (before ++ '/' :: c)[i]? = some '/')) =
          (List.range before.length).filter fun i => decide (1 ≤ i ∧ before[i]? = some '/') := by
      refine List.filter_congr fun i hi => ?_
      rw [List.getElem?_append_left (List.mem_range.mp hi)]
    rw [hfilter, prefixes]
    refine List.map_congr_left fun i hi => ?_
    have hlt := List.mem_range.mp (List.mem_of_mem_filter hi)
    rw [List.take_append_of_le_length (Nat.le_of_lt hlt)]
  -- behind the slash there is no other
  have hback : ((List.range' (before.length + 1) c.length).filter fun i =>
      decide (1 ≤ i ∧ (before ++ '/' :: c)[i]? = some '/')) = [] := by
    refine List.filter_eq_nil_iff.mpr fun i hi => ?_
    rw [List.mem_range'_1] at hi
    rw [decide_eq_true_eq, not_and]
    intro _ hslash
    obtain ⟨j, rfl⟩ : ∃ j, i = before.length + (j + 1) := ⟨i - before.length - 1, by omega⟩
    rw [List.getElem?_append_right (by omega), Nat.add_sub_cancel_left,
      List.getElem?_cons_succ] at hslash
    exact hc (List.mem_of_getElem? hslash)
  have hsplit : List.range (before.length + (c.length + 1)) = List.range before.length ++
      before.length :: List.range' (before.length + 1) c.length := by
    rw [List.range_eq_range', List.range_eq_range', ← List.range'_append_1, Nat.zero_add,
      List.range'_succ]
  rw [prefixes, hlength, hsplit, List.filter_append, List.map_append, hfront, List.filter_cons,
    hback]
  congr 1
  by_cases hnil : before = []
  · simp [hnil]
  · have hpos := List.length_pos_iff.mpr hnil
    have hkept : decide (1 ≤ before.length ∧
        (before ++ '/' :: c)[before.length]? = some '/') = true := decide_eq_true ⟨hpos, by simp⟩
    rw [if_neg hnil, if_pos hkept, List.map_singleton, List.take_left]

/-- **The prefixes of a path** are the directories above its last component. -/
theorem prefixes_joinPath (hslash : ∀ c ∈ components, '/' ∉ c) :
    prefixes (joinPath components) = dirsDownTo components (components.length - 1) := by
  induction components using List.reverseRecOn with
  | nil => rfl
  | append_singleton before c ih =>
    have hc : '/' ∉ c := hslash c (by simp)
    rw [joinPath_concat, prefixes_append _ hc, ih fun c hc => hslash c (List.mem_append_left _ hc),
      List.length_append, List.length_singleton, Nat.add_sub_cancel,
      dirsDownTo_append (Nat.le_refl _)]
    by_cases hnil : before = []
    · simp [hnil, dirsDownTo, joinPath]
    · have hpos := List.length_pos_iff.mpr hnil
      have hlength : before.length = before.length - 1 + 1 := by omega
      have hlast := @dirsDownTo_succ before (before.length - 1)
      rw [← hlength, List.take_length] at hlast
      rw [if_neg (fun h => hnil (joinPath_eq_nil_iff.mp h)), hlast]

/-! ### The copy of the path -/

/-- **Where the copy ends**: in one of the components, or behind the last one. -/
theorem take_joinPath {components : List CString} (hne : components ≠ []) (size : ℕ)
    (hsize : 0 < size) : ∃ before c after, components = before ++ c :: after ∧
      (joinPath before).length < size ∧
      (after ≠ [] → size ≤ (joinPath (before ++ [c])).length) ∧
      (joinPath components).take size =
        joinPath before ++ '/' :: c.take (size - (joinPath before).length - 1) := by
  induction components generalizing size with
  | nil => exact absurd rfl hne
  | cons c components ih =>
    have hsplit : joinPath (c :: components) = ('/' :: c) ++ joinPath components := rfl
    by_cases hhere : components = [] ∨ size ≤ c.length + 1
    · refine ⟨[], c, components, rfl, hsize, fun hafter => ?_, ?_⟩
      · rw [List.nil_append, joinPath_cons, joinPath, List.flatMap_nil, List.append_nil]
        exact hhere.resolve_left hafter
      · have htake : (joinPath (c :: components)).take size = ('/' :: c).take size := by
          rw [hsplit]
          rcases hhere with rfl | hle
          · rw [joinPath, List.flatMap_nil, List.append_nil]
          · exact List.take_append_of_le_length hle
        obtain ⟨n, rfl⟩ : ∃ n, size = n + 1 := ⟨size - 1, by omega⟩
        rw [htake]
        rfl
    · rw [not_or] at hhere
      obtain ⟨before, c', after, heq, hlt, hafter, htake⟩ :=
        ih hhere.1 (size - (c.length + 1)) (by omega)
      have hbefore : (joinPath (c :: before)).length = c.length + 1 + (joinPath before).length := by
        rw [joinPath_cons, List.length_cons, List.length_append]
        omega
      refine ⟨c :: before, c', after, by rw [heq, List.cons_append], by omega, fun hne => ?_, ?_⟩
      · have hle := hafter hne
        rw [List.cons_append, joinPath_cons, List.length_cons, List.length_append]
        omega
      · have hrest : size - (c.length + 1) - (joinPath before).length - 1 =
            size - (joinPath (c :: before)).length - 1 := by omega
        rw [hsplit, List.take_append, List.take_of_length_le (by rw [List.length_cons]; omega),
          List.length_cons, htake, hrest, joinPath_cons, List.cons_append, List.cons_append,
          List.append_assoc]

/-- **What `mkdirp` creates**, by where the copy ends: the directories above that component, or the
beginning of the first one. -/
theorem mkdirpDirs_joinPath (hslash : ∀ c ∈ components, '/' ∉ c) (hne : components ≠ []) :
    ∃ before c after, components = before ++ c :: after ∧ (joinPath before).length ≤ 254 ∧
      (after ≠ [] → 255 ≤ (joinPath (before ++ [c])).length) ∧
      mkdirpDirs (joinPath components) =
        if before = [] then ['/' :: c.take 254] else dirsDownTo components before.length := by
  obtain ⟨before, c, after, heq, hlt, hafter, htake⟩ := take_joinPath hne 255 (by decide)
  refine ⟨before, c, after, heq, by omega, hafter, ?_⟩
  have hpart : '/' ∉ c.take (255 - (joinPath before).length - 1) := by
    intro hmem
    exact hslash c (by simp [heq]) (List.mem_of_mem_take hmem)
  have hbefore : ∀ c ∈ before, '/' ∉ c := fun c hc => hslash c (by simp [heq, hc])
  have htemp : tempPath (joinPath components) =
      if before = [] then '/' :: c.take 254 else joinPath before := by
    rw [tempPath, htake, lastSlash_append 0 none _ hpart, Nat.zero_add]
    dsimp only
    by_cases hnil : before = []
    · subst hnil
      rfl
    · have hpos := List.length_pos_iff.mpr (joinPath_eq_nil_iff.not.mpr hnil)
      rw [if_pos hpos, if_neg hnil, List.take_left]
  rw [mkdirpDirs, htemp]
  by_cases hnil : before = []
  · rw [if_pos hnil, if_pos hnil]
    have hfirst : '/' ∉ c.take 254 := fun hmem =>
      hslash c (by simp [heq]) (List.mem_of_mem_take hmem)
    have hnone := prefixes_append [] hfirst
    rw [List.nil_append] at hnone
    rw [hnone]
    rfl
  · obtain ⟨m, hm⟩ : ∃ m, before.length = m + 1 :=
      Nat.exists_eq_succ_of_ne_zero (List.length_pos_iff.mpr hnil).ne'
    have hall : (before ++ c :: after).take (m + 1) = before := by rw [← hm, List.take_left]
    rw [if_neg hnil, if_neg hnil, prefixes_joinPath hbefore, heq, hm, Nat.add_sub_cancel,
      dirsDownTo_succ, hall, dirsDownTo_append (by omega)]

end File

end OpenMower
