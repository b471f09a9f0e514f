import OpenMower.Inputs.KeyConflicts

/-!
# Keys in conflict matter

If two keys of an input are in conflict and all others are valid, one of the two orders of these
keys gives another configuration than the other one, or is rejected where the other one is accepted.
So the order of the keys matters in exactly these cases (`keyOrder_iff`).
-/

namespace OpenMower

open PartialSteps WordMask Parts

section

variable {env : InputConfigEnv} {drv : DriverEnv} {d : ConfigDriver} {s : InputConfig}
  {settings : YfCoverUi.Settings} {es es' l l' : List InputEntry} {x y e : InputEntry}

/-- Two keys can be put in front, in both orders. -/
theorem exists_perm_cons_cons (hkeys : (es.map InputEntry.key).Nodup) (hx : x ∈ es) (hy : y ∈ es)
    (hne : x.key ≠ y.key) :
    ∃ rest, es.Perm (x :: y :: rest) ∧ es.Perm (y :: x :: rest) ∧
      ∀ e ∈ rest, e ∈ es ∧ e.key ≠ x.key ∧ e.key ≠ y.key := by
  classical
  have hy' : y ∈ es.erase x := (List.mem_erase_of_ne fun h => hne (congrArg _ h.symm)).mpr hy
  have hperm : es.Perm (x :: y :: (es.erase x).erase y) :=
    (List.perm_cons_erase hx).trans ((List.perm_cons_erase hy').cons x)
  refine ⟨_, hperm, hperm.trans (.swap y x _), fun e he => ?_⟩
  have hnodup := (hperm.map InputEntry.key).nodup_iff.mp hkeys
  simp only [List.map_cons, List.nodup_cons, List.mem_cons, not_or] at hnodup
  have hmem := List.mem_map_of_mem (f := InputEntry.key) he
  refine ⟨hperm.mem_iff.mpr (List.mem_cons_of_mem _ (List.mem_cons_of_mem _ he)), fun h => ?_,
    fun h => ?_⟩
  · rw [h] at hmem
    exact hnodup.1.2 hmem
  · rw [h] at hmem
    exact hnodup.2.1 hmem

/-- Each key is valid, or is one that concerns only the inversion or the driver. -/
def OthersValid (env : InputConfigEnv) (drv : DriverEnv) (d : ConfigDriver) (s : InputConfig)
    (es : List InputEntry) : Prop :=
  ∀ e ∈ es, ValidEntry env drv d s e ∨
    e.key ≠ "redundancy_group".toList ∧ e.key ≠ "emergency".toList

/-- Then the input is accepted if its inversion and its data are. -/
theorem foldlM_step_some (hkeys : (es.map InputEntry.key).Nodup)
    (hvalid : OthersValid env drv d s es) (hperm : es.Perm l) {invert : Bool}
    {data : BitVec 64 × YfCoverUi.Settings}
    (hinvert : l.foldlM (invertStep drv d) false = some invert)
    (hdata : l.foldlM (dataStep drv d) (0#64, settings) = some data) :
    ∃ p, l.foldlM (Parts.step env drv d) (initialParts s settings) = some p ∧
      p.1 = invert ∧ p.2.2.2 = data := by
  have hkeys' := (hperm.map InputEntry.key).nodup_iff.mp hkeys
  have hgroup : (l.foldlM groupStep (initialParts s settings).2.1).isSome := by
    refine foldlM_isSome_of_single hkeys' (fun e _ h g => groupStep_of_ne h g) fun e he => ?_
    rcases hvalid e (hperm.mem_iff.mpr he) with h | h
    · exact ((validEntry_iff settings e).mp h).2.1
    · rw [groupStep_of_ne h.1]
      rfl
  have hemergency : (l.foldlM (emergencyStep env) (0#16, 0#16)).isSome := by
    refine foldlM_isSome_of_single hkeys' (fun e _ h x => emergencyStep_of_ne h x) fun e he => ?_
    rcases hvalid e (hperm.mem_iff.mpr he) with h | h
    · exact ((validEntry_iff settings e).mp h).2.2.1
    · rw [emergencyStep_of_ne h.2]
      rfl
  obtain ⟨g, hg⟩ := Option.isSome_iff_exists.mp hgroup
  obtain ⟨x, hx⟩ := Option.isSome_iff_exists.mp hemergency
  refine ⟨(invert, g, x, data), ?_, rfl, rfl⟩
  rw [foldlM_step_initial, hinvert, hg, hx, hdata]
  rfl

/-- An input whose data are rejected. -/
theorem foldlM_step_none (hdata : es.foldlM (dataStep drv d) (0#64, settings) = none) :
    es.foldlM (Parts.step env drv d) (initialParts s settings) = none := by
  rw [foldlM_step_initial, hdata, zipOption_none_right, zipOption_none_right, zipOption_none_right]

/-- If two orders are accepted, they give the same inversion and the same data. -/
theorem eq_of_sameParts (hkeys : (es.map InputEntry.key).Nodup)
    (hvalid : OthersValid env drv d s es) (hl : es.Perm l) (hl' : es.Perm l') {a a' : Bool}
    {b b' : BitVec 64 × YfCoverUi.Settings}
    (ha : l.foldlM (invertStep drv d) false = some a)
    (ha' : l'.foldlM (invertStep drv d) false = some a')
    (hb : l.foldlM (dataStep drv d) (0#64, settings) = some b)
    (hb' : l'.foldlM (dataStep drv d) (0#64, settings) = some b')
    (hsame : SameParts (l.foldlM (Parts.step env drv d) (initialParts s settings))
      (l'.foldlM (Parts.step env drv d) (initialParts s settings))) :
    a = a' ∧ b = b' := by
  obtain ⟨p, hp, rfl, rfl⟩ := foldlM_step_some hkeys hvalid hl ha hb
  obtain ⟨p', hp', rfl, rfl⟩ := foldlM_step_some hkeys hvalid hl' ha' hb'
  obtain ⟨hinvert, -, -, hrest⟩ := hsame.2 p p' hp hp'
  exact ⟨hinvert, congrArg Prod.snd hrest⟩

/-- An order that is accepted differs from one whose data are rejected. -/
theorem not_sameParts_of_rejected (hkeys : (es.map InputEntry.key).Nodup)
    (hvalid : OthersValid env drv d s es) (hl : es.Perm l)
    (ha : (l.foldlM (invertStep drv d) false).isSome)
    (hb : (l.foldlM (dataStep drv d) (0#64, settings)).isSome)
    (hb' : l'.foldlM (dataStep drv d) (0#64, settings) = none) :
    ¬ SameParts (l.foldlM (Parts.step env drv d) (initialParts s settings))
      (l'.foldlM (Parts.step env drv d) (initialParts s settings)) := by
  obtain ⟨a, ha⟩ := Option.isSome_iff_exists.mp ha
  obtain ⟨b, hb⟩ := Option.isSome_iff_exists.mp hb
  obtain ⟨p, hp, -, -⟩ := foldlM_step_some hkeys hvalid hl ha hb
  intro hsame
  have hsome := hsame.1
  rw [hp, foldlM_step_none hb'] at hsome
  cases hsome

/-! ### Two keys in front -/

/-- A key that concerns only the driver, or the inversion where the driver has a key for it, too. -/
def IsDriverKey (d : ConfigDriver) (key : CString) : Prop :=
  key ≠ "redundancy_group".toList ∧ key ≠ "emergency".toList ∧
    (d ≠ .gpio → key ≠ "invert".toList)

instance (d : ConfigDriver) (key : CString) : Decidable (IsDriverKey d key) :=
  inferInstanceAs (Decidable (_ ∧ _))

/-- Two keys of the driver are put in front of the others, in both orders. -/
structure InFront (env : InputConfigEnv) (drv : DriverEnv) (d : ConfigDriver) (s : InputConfig)
    (es : List InputEntry) (x y : InputEntry) (rest : List InputEntry) : Prop where
  perm : es.Perm (x :: y :: rest)
  swapped : es.Perm (y :: x :: rest)
  rest : ∀ e ∈ rest, ValidEntry env drv d s e ∧ e.key ≠ x.key ∧ e.key ≠ y.key
  others : OthersValid env drv d s es
  /-- Without the GPIO driver, a valid key `invert` is all that acts on the inversion. -/
  invert : d ≠ .gpio → ∀ l, es.Perm l → (l.foldlM (invertStep drv d) false).isSome

theorem exists_inFront {kx ky : CString} (hkeys : (es.map InputEntry.key).Nodup) (hx : x ∈ es)
    (hy : y ∈ es) (hxkey : x.key = kx) (hykey : y.key = ky) (hne : kx ≠ ky)
    (hkx : IsDriverKey d kx) (hky : IsDriverKey d ky)
    (hvalid : ∀ e ∈ es, e.key ≠ x.key → e.key ≠ y.key → ValidEntry env drv d s e) :
    ∃ rest, InFront env drv d s es x y rest := by
  subst hxkey hykey
  obtain ⟨rest, hl, hl', hrest⟩ := exists_perm_cons_cons hkeys hx hy hne
  refine ⟨rest, hl, hl', fun e he => ?_, fun e he => ?_, fun hd l hperm => ?_⟩
  · obtain ⟨hmem, hex, hey⟩ := hrest e he
    exact ⟨hvalid e hmem hex hey, hex, hey⟩
  · by_cases hex : e.key = x.key
    · exact .inr (hex ▸ ⟨hkx.1, hkx.2.1⟩)
    by_cases hey : e.key = y.key
    · exact .inr (hey ▸ ⟨hky.1, hky.2.1⟩)
    · exact .inl (hvalid e he hex hey)
  · refine foldlM_isSome_of_single (k := "invert".toList) ((hperm.map _).nodup_iff.mp hkeys)
      (fun e _ h b => invertStep_idle h (fun h => absurd h hd) b) fun e he => ?_
    rw [invertStep_isSome]
    intro hkey
    refine (hvalid e (hperm.mem_iff.mpr he) (fun h => ?_) fun h => ?_).1 hkey
    · exact hkx.2.2 hd (h.symm.trans hkey)
    · exact hky.2.2 hd (h.symm.trans hkey)

/-- `invert` and `active` with different levels: the last one counts. -/
theorem not_sameParts_gpio (hkeys : (es.map InputEntry.key).Nodup) (hx : x ∈ es) (hy : y ∈ es)
    (hconflict : Conflicting drv .gpio x y)
    (hvalid : ∀ e ∈ es, e.key ≠ x.key → e.key ≠ y.key → ValidEntry env drv .gpio s e) :
    ∃ l l', es.Perm l ∧ es.Perm l' ∧
      ¬ SameParts (l.foldlM (Parts.step env drv .gpio) (initialParts s settings))
        (l'.foldlM (Parts.step env drv .gpio) (initialParts s settings)) := by
  obtain ⟨hxkey, hykey, invert, level, hbool, hlevel, hne⟩ := hconflict
  obtain ⟨rest, hl, hl', hrest, hothers, -⟩ :=
    exists_inFront hkeys hx hy hxkey hykey (by decide) (by decide) (by decide) hvalid
  have hxinvert : ∀ b, invertStep drv .gpio b x = some invert := by
    intro b
    rw [invertStep, if_pos hxkey, hbool]
  have hyinvert : ∀ b, invertStep drv .gpio b y = some level := by
    intro b
    rw [invertStep_active hykey, hlevel]
    rfl
  have hrestinvert : ∀ b, rest.foldlM (invertStep drv .gpio) b = some b := by
    refine fun b => foldlM_of_idle fun e he => invertStep_idle ?_ (fun _ => ?_) b
    · rw [← hxkey]
      exact (hrest e he).2.1
    · rw [← hykey]
      exact (hrest e he).2.2
  have hxdata : ∀ p, dataStep drv .gpio p x = some p := dataStep_of_common (.inl hxkey)
  have hydata : ∀ p, dataStep drv .gpio p y = some p := by
    intro p
    rw [dataStep_gpioActive hykey, hlevel]
    rfl
  have hrestdata : (rest.foldlM (dataStep drv .gpio) (0#64, settings)).isSome := by
    have hkeysl := (hl.map InputEntry.key).nodup_iff.mp hkeys
    simp only [List.map_cons, List.nodup_cons] at hkeysl
    have haccept : ∀ e ∈ rest, (dataStep drv .gpio (0#64, settings) e).isSome := by
      intro e he
      exact ((validEntry_iff settings e).mp (hrest e he).1).2.2.2
    exact foldlM_isSome_of_single (k := "line".toList) hkeysl.2.2 (fun e he hline p =>
      (inert_gpio hline (I := fun _ => True)).idle trivial (haccept e he) trivial) haccept
  obtain ⟨data, hdata⟩ := Option.isSome_iff_exists.mp hrestdata
  have ha : (x :: y :: rest).foldlM (invertStep drv .gpio) false = some level := by
    rw [foldlM_cons_some (hxinvert false), foldlM_cons_some (hyinvert invert), hrestinvert]
  have ha' : (y :: x :: rest).foldlM (invertStep drv .gpio) false = some invert := by
    rw [foldlM_cons_some (hyinvert false), foldlM_cons_some (hxinvert level), hrestinvert]
  have hb : (x :: y :: rest).foldlM (dataStep drv .gpio) (0#64, settings) = some data := by
    rw [foldlM_cons_some (hxdata _), foldlM_cons_some (hydata _), hdata]
  have hb' : (y :: x :: rest).foldlM (dataStep drv .gpio) (0#64, settings) = some data := by
    rw [foldlM_cons_some (hydata _), foldlM_cons_some (hxdata _), hdata]
  refine ⟨_, _, hl, hl', fun hsame => hne ?_⟩
  exact (eq_of_sameParts hkeys hothers hl hl' ha ha' hb hb' hsame).1.symm

/-- No name is one of a sensor and one of a button. -/
theorem findButton_of_findSensor {name : CString} (h : (SaboInput.findSensor name).isSome) :
    SaboInput.findButton name = none := by
  obtain ⟨id, hid⟩ := Option.isSome_iff_exists.mp h
  have htake : name.take 6 = (name.take 9).take 6 := by rw [List.take_take]; rfl
  have hmem : (name.take 9, id) ∈ SaboInput.sensorIds := TruncatedKeys.mem_of_lookup hid
  have hall : ∀ p ∈ SaboInput.sensorIds, SaboInput.buttonIds.lookup (p.1.take 6) = none := by
    decide
  rw [SaboInput.findButton, htake]
  exact hall _ hmem

/-- The type of a button and an id: one of the two orders is rejected. -/
theorem not_sameParts_sabo (hkeys : (es.map InputEntry.key).Nodup) (hx : x ∈ es) (hy : y ∈ es)
    (hconflict : Conflicting drv .sabo x y)
    (hvalid : ∀ e ∈ es, e.key ≠ x.key → e.key ≠ y.key → ValidEntry env drv .sabo s e) :
    ∃ l l', es.Perm l ∧ es.Perm l' ∧
      ¬ SameParts (l.foldlM (Parts.step env drv .sabo) (initialParts s settings))
        (l'.foldlM (Parts.step env drv .sabo) (initialParts s settings)) := by
  obtain ⟨hxkey, hykey, hbutton, name, hname, hid⟩ := hconflict
  obtain ⟨rest, hl, hl', hrest, hothers, hinvert⟩ :=
    exists_inFront hkeys hx hy hxkey hykey (by decide) (by decide) (by decide) hvalid
  replace hinvert := hinvert (by decide)
  have hxdata : ∀ p, dataStep drv .sabo p x = some (setField p.1 0 SaboInput.button, p.2) := by
    intro p
    rw [dataStep_saboType hxkey, hbutton]
    rfl
  have hydata : ∀ p, dataStep drv .sabo p y =
      (SaboInput.findId (p.1.extractLsb' 0 8) name).map fun id => (setField p.1 8 id, p.2) := by
    intro p
    rw [dataStep_saboId hykey, hname]
    rfl
  have hrestdata : ∀ p, rest.foldlM (dataStep drv .sabo) p = some p := by
    refine fun p => foldlM_of_idle fun e he => ?_
    obtain ⟨hvalid, hex, hey⟩ := hrest e he
    have haccept := ((validEntry_iff settings e).mp hvalid).2.2.2
    rw [hxkey] at hex
    rw [hykey] at hey
    exact (inert_sabo hex hey (I := fun _ => True)).idle trivial haccept trivial
  have htypeFirst : (x :: y :: rest).foldlM (dataStep drv .sabo) (0#64, settings) =
      (SaboInput.findButton name).map fun id =>
        (setField (setField 0#64 0 SaboInput.button) 8 id, settings) := by
    rw [foldlM_cons_some (hxdata _)]
    have hdata := hydata (setField 0#64 0 SaboInput.button, settings)
    rw [extractLsb'_setField_self (by decide)] at hdata
    change _ = (SaboInput.findButton name).map _ at hdata
    cases hfind : SaboInput.findButton name with
    | none =>
      rw [hfind] at hdata
      exact foldlM_cons_none hdata
    | some id =>
      rw [hfind] at hdata
      rw [foldlM_cons_some hdata, hrestdata]
      rfl
  have hidFirst : (y :: x :: rest).foldlM (dataStep drv .sabo) (0#64, settings) =
      (SaboInput.findSensor name).map fun id =>
        (setField (setField 0#64 8 id) 0 SaboInput.button, settings) := by
    have hdata := hydata (0#64, settings)
    rw [BitVec.extractLsb'_zero] at hdata
    change _ = (SaboInput.findSensor name).map _ at hdata
    cases hfind : SaboInput.findSensor name with
    | none =>
      rw [hfind] at hdata
      exact foldlM_cons_none hdata
    | some id =>
      rw [hfind] at hdata
      rw [foldlM_cons_some hdata, foldlM_cons_some (hxdata _), hrestdata]
      rfl
  by_cases hsensor : (SaboInput.findSensor name).isSome
  · refine ⟨_, _, hl', hl, not_sameParts_of_rejected hkeys hothers hl' (hinvert _ hl')
      ?_ ?_⟩
    · rw [hidFirst, Option.isSome_map]
      exact hsensor
    · rw [htypeFirst, findButton_of_findSensor hsensor]
      rfl
  · refine ⟨_, _, hl, hl', not_sameParts_of_rejected hkeys hothers hl (hinvert _ hl) ?_ ?_⟩
    · rw [htypeFirst, Option.isSome_map]
      exact hid.resolve_left hsensor
    · rw [hidFirst, Option.not_isSome_iff_eq_none.mp hsensor]
      rfl

/-- A valid key of the cover UI is accepted with any data. -/
theorem dataStep_yf_of_valid (hvalid : ValidEntry env drv .yfCoverUi s e)
    (p : BitVec 64 × YfCoverUi.Settings) : (dataStep drv .yfCoverUi p e).isSome := by
  have haccept := ((validEntry_iff {} e).mp hvalid).2.2.2
  by_cases hvalue : e.key = "value".toList
  · rw [dataStep_yfValue_of_not (x := (0#64, {})) hvalue
      fun value _ => not_acceptsValue_zero BitVec.extractLsb'_zero value] at haccept
    cases haccept
  · by_contra hrejected
    rw [dataStep_yf_rejected hvalue (Option.not_isSome_iff_eq_none.mp hrejected)] at haccept
    cases haccept

/-- An id and a value for it: the value is rejected if it comes first. -/
theorem not_sameParts_yfValue (hkeys : (es.map InputEntry.key).Nodup) (hx : x ∈ es) (hy : y ∈ es)
    (hxkey : x.key = "id".toList) (hykey : y.key = "value".toList) {flag : BitVec 8}
    {value : CString} (hflag : x.value.string?.bind findFlag = some flag)
    (hstring : y.value.string? = some value) (haccepts : YfCoverUi.acceptsValue flag value)
    (hvalid : ∀ e ∈ es, e.key ≠ x.key → e.key ≠ y.key → ValidEntry env drv .yfCoverUi s e) :
    ∃ l l', es.Perm l ∧ es.Perm l' ∧
      ¬ SameParts (l.foldlM (Parts.step env drv .yfCoverUi) (initialParts s settings))
        (l'.foldlM (Parts.step env drv .yfCoverUi) (initialParts s settings)) := by
  obtain ⟨rest, hl, hl', hrest, hothers, hinvert⟩ :=
    exists_inFront hkeys hx hy hxkey hykey (by decide) (by decide) (by decide) hvalid
  replace hinvert := hinvert (by decide)
  have hxdata : dataStep drv .yfCoverUi (0#64, settings) x =
      some (setField 0#64 8 flag, settings) := by
    rw [dataStep_yfId hxkey, hflag, Option.map_some, BitVec.extractLsb'_zero, BitVec.zero_or]
  have hydata : (dataStep drv .yfCoverUi (setField 0#64 8 flag, settings) y).isSome := by
    rw [dataStep_yfValue hykey, hstring, Option.bind_some, extractLsb'_setField_self (by decide),
      if_pos haccepts]
    rfl
  have hfirst : dataStep drv .yfCoverUi (0#64, settings) y = none :=
    dataStep_yfValue_of_not hykey fun value _ =>
      not_acceptsValue_zero BitVec.extractLsb'_zero value
  refine ⟨_, _, hl, hl', not_sameParts_of_rejected hkeys hothers hl (hinvert _ hl) ?_
    (foldlM_cons_none hfirst)⟩
  obtain ⟨p, hp⟩ := Option.isSome_iff_exists.mp hydata
  rw [foldlM_cons_some hxdata, foldlM_cons_some hp]
  exact foldlM_isSome (fun e he p => dataStep_yf_of_valid (hrest e he).1 p) p

/-- The other keys leave the channel alone. -/
theorem channel_dataStep (hchannel : e.key ≠ "channel".toList)
    (hbutton : e.key ≠ "button_id".toList) {p p' : BitVec 64 × YfCoverUi.Settings}
    (h : dataStep drv .yfCoverUi p e = some p') :
    p'.1.extractLsb' 0 8 = p.1.extractLsb' 0 8 := by
  by_cases hcommon : e.isCommon
  · obtain rfl := Option.some.inj ((dataStep_of_common hcommon p).symm.trans h)
    rfl
  by_cases hid : e.key = "id".toList
  · rw [dataStep_yfId hid] at h
    obtain ⟨flag, -, rfl⟩ := Option.map_eq_some_iff.mp h
    exact extractLsb'_setField_of_disjoint (by decide) (by decide)
  by_cases hvalue : e.key = "value".toList
  · rw [dataStep_yfValue hvalue] at h
    obtain ⟨value, -, h⟩ := Option.bind_eq_some_iff.mp h
    split at h
    · obtain rfl := Option.some.inj h
      rfl
    · cases h
  · rw [dataStep_yfOther hcommon hchannel hbutton hid hvalue] at h
    cases h

/-- An emergency channel and the id of a button: the last one counts. -/
theorem not_sameParts_yfChannel (hkeys : (es.map InputEntry.key).Nodup) (hx : x ∈ es) (hy : y ∈ es)
    (hxkey : x.key = "channel".toList) (hykey : y.key = "button_id".toList)
    (hchannel : (x.value.string?.bind (YfCoverUi.emergencyChannels.lookup ·)).isSome)
    (hnumber : (y.value.number? drv).isSome)
    (hvalid : ∀ e ∈ es, e.key ≠ x.key → e.key ≠ y.key → ValidEntry env drv .yfCoverUi s e) :
    ∃ l l', es.Perm l ∧ es.Perm l' ∧
      ¬ SameParts (l.foldlM (Parts.step env drv .yfCoverUi) (initialParts s settings))
        (l'.foldlM (Parts.step env drv .yfCoverUi) (initialParts s settings)) := by
  obtain ⟨channel, hchannel⟩ := Option.isSome_iff_exists.mp hchannel
  obtain ⟨name, hname, hlookup⟩ := Option.bind_eq_some_iff.mp hchannel
  obtain ⟨buttonId, hnumber⟩ := Option.isSome_iff_exists.mp hnumber
  obtain ⟨rest, hl, hl', hrest, hothers, hinvert⟩ :=
    exists_inFront hkeys hx hy hxkey hykey (by decide) (by decide) (by decide) hvalid
  replace hinvert := hinvert (by decide)
  have hxdata : ∀ p, dataStep drv .yfCoverUi p x = some (setField p.1 0 channel, p.2) := by
    intro p
    rw [dataStep_yfChannel hxkey, hname, Option.bind_some, findChannel, hlookup]
    rfl
  have hydata : ∀ p, dataStep drv .yfCoverUi p y =
      some (setField p.1 0 (YfCoverUi.buttonFlag ||| (buttonId &&& 0x7F#8)), p.2) := by
    intro p
    rw [dataStep_yfButtonId hykey, hnumber]
    rfl
  have hrestdata : ∀ p, ∃ p', rest.foldlM (dataStep drv .yfCoverUi) p = some p' ∧
      p'.1.extractLsb' 0 8 = p.1.extractLsb' 0 8 := by
    intro p
    have hsome : (rest.foldlM (dataStep drv .yfCoverUi) p).isSome :=
      foldlM_isSome (fun e he p => dataStep_yf_of_valid (hrest e he).1 p) p
    obtain ⟨p', hp'⟩ := Option.isSome_iff_exists.mp hsome
    refine ⟨p', hp', ?_⟩
    refine KeepsAll.foldlM (I := fun p' => p'.1.extractLsb' 0 8 = p.1.extractLsb' 0 8)
      (fun e he p₁ p₂ hp₁ h => ?_) rfl hp'
    obtain ⟨-, hex, hey⟩ := hrest e he
    rw [hxkey] at hex
    rw [hykey] at hey
    exact (channel_dataStep hex hey h).trans hp₁
  obtain ⟨a, ha⟩ := Option.isSome_iff_exists.mp (hinvert _ hl)
  obtain ⟨a', ha'⟩ := Option.isSome_iff_exists.mp (hinvert _ hl')
  obtain ⟨b, hb, hbutton⟩ := hrestdata
    (setField (setField 0#64 0 channel) 0 (YfCoverUi.buttonFlag ||| (buttonId &&& 0x7F#8)),
      settings)
  obtain ⟨b', hb', hother⟩ := hrestdata
    (setField (setField 0#64 0 (YfCoverUi.buttonFlag ||| (buttonId &&& 0x7F#8))) 0 channel,
      settings)
  rw [extractLsb'_setField_self (by decide)] at hbutton hother
  have hbl : (x :: y :: rest).foldlM (dataStep drv .yfCoverUi) (0#64, settings) = some b := by
    rw [foldlM_cons_some (hxdata _), foldlM_cons_some (hydata _)]
    exact hb
  have hbl' : (y :: x :: rest).foldlM (dataStep drv .yfCoverUi) (0#64, settings) = some b' := by
    rw [foldlM_cons_some (hydata _), foldlM_cons_some (hxdata _)]
    exact hb'
  refine ⟨_, _, hl, hl', fun hsame => ?_⟩
  obtain ⟨-, rfl⟩ := eq_of_sameParts hkeys hothers hl hl' ha ha' hbl hbl' hsame
  -- a button has the highest bit set, and no emergency channel has
  have hbit : ∀ p ∈ YfCoverUi.emergencyChannels, p.2.getLsbD 7 = false := by decide
  have hflag : (YfCoverUi.buttonFlag ||| (buttonId &&& 0x7F#8)).getLsbD 7 = true := by
    rw [BitVec.getLsbD_or]
    rfl
  rw [← hbutton, hother, hbit _ (TruncatedKeys.mem_of_lookup hlookup)] at hflag
  cases hflag

/-- Two keys in conflict are parsed differently in their two orders. -/
theorem not_sameParts_of_conflicting (hkeys : (es.map InputEntry.key).Nodup) (hx : x ∈ es)
    (hy : y ∈ es) (hconflict : Conflicting drv d x y)
    (hvalid : ∀ e ∈ es, e.key ≠ x.key → e.key ≠ y.key → ValidEntry env drv d s e) :
    ∃ l l', es.Perm l ∧ es.Perm l' ∧
      ¬ SameParts (l.foldlM (Parts.step env drv d) (initialParts s settings))
        (l'.foldlM (Parts.step env drv d) (initialParts s settings)) := by
  cases d with
  | sabo => exact not_sameParts_sabo hkeys hx hy hconflict hvalid
  | worx => exact hconflict.elim
  | gpio => exact not_sameParts_gpio hkeys hx hy hconflict hvalid
  | yfCoverUi =>
    rcases hconflict with ⟨hxkey, hykey, hchannel, hnumber⟩ | hconflict
    · exact not_sameParts_yfChannel hkeys hx hy hxkey hykey hchannel hnumber hvalid
    · obtain ⟨hxkey, hykey, flag, value, hflag, hstring, haccepts⟩ := hconflict
      exact not_sameParts_yfValue hkeys hx hy hxkey hykey hflag hstring haccepts hvalid

/-- The configuration of an input does not depend on the order of its keys, unless two of them are
in conflict and all the others are valid. -/
theorem keyOrder_iff (env : InputConfigEnv) (drv : DriverEnv) (d : ConfigDriver) (s : InputConfig)
    (settings : YfCoverUi.Settings) (es : List InputEntry) (hkeys : (es.map InputEntry.key).Nodup)
    (hinner : ∀ e ∈ es, (e.inner.map Prod.fst).Nodup) :
    KeyOrderIndependent env drv d s settings es ↔
      ¬ ∃ x ∈ es, ∃ y ∈ es, Conflicting drv d x y ∧
        ∀ e ∈ es, e.key ≠ x.key → e.key ≠ y.key → ValidEntry env drv d s e := by
  rw [keyOrderIndependent_iff hinner]
  constructor
  · rintro h ⟨x, hx, y, hy, hconflict, hvalid⟩
    obtain ⟨l, l', hl, hl', hdiffers⟩ :=
      not_sameParts_of_conflicting hkeys hx hy hconflict hvalid
    exact hdiffers ((h l hl).symm.trans (h l' hl'))
  · intro hno es' hperm
    cases d with
    | sabo => exact sameParts_sabo hkeys hperm hno
    | worx => exact sameParts_worx hkeys hperm
    | gpio => exact sameParts_gpio hkeys hperm hno
    | yfCoverUi => exact sameParts_yf hkeys hperm hno

end

/-! ### Example objects -/

/-- An environment with the GPIO driver, whose only line is `A`, and the Sabo driver. -/
def twoDriverEnv : DriverEnv where
  getIoLineByName name := if name = "A".toList then 1#64 else 0#64
  noLine := 0#64
  toArithmetic _ := none

/-- The configuration with these drivers. -/
def twoDriverConfigEnv : InputConfigEnv where
  reason := .standard
  drivers := [("gpio".toList, ConfigDriver.gpio.inputDriver twoDriverEnv),
    ("sabo".toList, ConfigDriver.sabo.inputDriver twoDriverEnv)]
  liftMultipleDelay := 10#16
  collisionMultipleDelay := 10#16
  toArithmetic _ := none

/-- A GPIO input that is active at the low level. -/
def lowLine : List InputEntry :=
  [{ key := "line".toList, value := { type := .string, buff := "A".toList } },
    { key := "active".toList, value := { type := .string, buff := "low".toList } }]

/-- Its two keys are in any order. -/
theorem keyOrder_lowLine :
    KeyOrderIndependent twoDriverConfigEnv twoDriverEnv .gpio (InputConfig.start twoDriverConfigEnv)
      {} lowLine := by
  refine (keyOrder_iff _ _ _ _ _ _ (by decide) (by decide)).mpr ?_
  rintro ⟨x, hx, y, -, ⟨hkey, -⟩, -⟩
  have hne : ∀ e ∈ lowLine, e.key ≠ "invert".toList := by decide
  exact hne x hx hkey

/-- The play button of the Sabo mower. -/
def playButton : List InputEntry :=
  [{ key := "type".toList, value := { type := .string, buff := "button".toList } },
    { key := "id".toList, value := { type := .string, buff := "play".toList } }]

/-- With its id first, the play button is looked up among the sensors, and is rejected. -/
theorem not_keyOrderIndependent_playButton :
    (playButton.map InputEntry.key).Nodup ∧ (∀ e ∈ playButton, (e.inner.map Prod.fst).Nodup) ∧
      ¬ KeyOrderIndependent twoDriverConfigEnv twoDriverEnv .sabo
        (InputConfig.start twoDriverConfigEnv) {} playButton := by
  refine ⟨by decide, by decide, fun h => ?_⟩
  have hsame := (h playButton.reverse ⟨playButton, List.forall₂_same.mpr fun _ _ =>
    ⟨rfl, rfl, .refl _⟩, (List.reverse_perm playButton).symm⟩).1
  have haccepted : (runEntries twoDriverConfigEnv .sabo (startInput twoDriverEnv .sabo
      (InputConfig.start twoDriverConfigEnv), {}) playButton).isSome = true := by
    decide +kernel
  have hrejected : (runEntries twoDriverConfigEnv .sabo (startInput twoDriverEnv .sabo
      (InputConfig.start twoDriverConfigEnv), {}) playButton.reverse).isSome = false := by
    decide +kernel
  rw [haccepted, hrejected] at hsame
  cases hsame

end OpenMower
