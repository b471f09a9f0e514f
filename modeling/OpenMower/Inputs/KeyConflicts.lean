import OpenMower.Inputs.ValidKeys
import OpenMower.Library.TruncatedKeys

/-!
# Keys in conflict

The keys of a driver commute if none of them are in conflict. If two of them are, but another one is
invalid, the input is rejected in every order. So the order of the keys does not matter in these
cases (`sameParts_worx`, `sameParts_gpio`, `sameParts_sabo`, `sameParts_yf`).
-/

namespace OpenMower

open PartialSteps WordMask Parts

section

variable {env : InputConfigEnv} {drv : DriverEnv} {d : ConfigDriver} {s : InputConfig}
  {settings : YfCoverUi.Settings} {es es' : List InputEntry} {x y e : InputEntry}
  {I : BitVec 64 × YfCoverUi.Settings → Prop}

/-! ### Keys that act on nothing -/

theorem inert_common (h : e.isCommon) :
    Inert (dataStep drv d) I e :=
  .inl fun x _ => dataStep_of_common h x

theorem inert_worx (hid : e.key ≠ "id".toList) :
    Inert (dataStep drv .worx) I e := by
  by_cases hcommon : e.isCommon
  · exact inert_common hcommon
  · exact .inr fun _ _ => dataStep_worxOther hcommon hid

theorem inert_gpio (hline : e.key ≠ "line".toList) :
    Inert (dataStep drv .gpio) I e := by
  by_cases hcommon : e.isCommon
  · exact inert_common hcommon
  by_cases hactive : e.key = "active".toList
  · cases hlevel : activeLevel e.value with
    | some level =>
      refine .inl fun x _ => ?_
      rw [dataStep_gpioActive hactive, hlevel]
      rfl
    | none =>
      refine .inr fun x _ => ?_
      rw [dataStep_gpioActive hactive, hlevel]
      rfl
  · exact .inr fun _ _ => dataStep_gpioOther hcommon hline hactive

theorem inert_sabo (htype : e.key ≠ "type".toList)
    (hid : e.key ≠ "id".toList) : Inert (dataStep drv .sabo) I e := by
  by_cases hcommon : e.isCommon
  · exact inert_common hcommon
  · exact .inr fun _ _ => dataStep_saboOther hcommon htype hid

/-- A key of the cover UI that acts on no field of the data, and is not an accepted value. -/
theorem inert_yf (hchannel : e.key ≠ "channel".toList)
    (hbutton : e.key ≠ "button_id".toList) (hid : e.key ≠ "id".toList)
    (hvalue : e.key = "value".toList → ∀ x, I x → dataStep drv .yfCoverUi x e = none) :
    Inert (dataStep drv .yfCoverUi) I e := by
  by_cases hcommon : e.isCommon
  · exact inert_common hcommon
  by_cases hkey : e.key = "value".toList
  · exact .inr (hvalue hkey)
  · exact .inr fun _ _ => dataStep_yfOther hcommon hchannel hbutton hid hkey

theorem inert_invert {J : Bool → Prop} (hinvert : e.key ≠ "invert".toList)
    (hactive : d = .gpio → e.key ≠ "active".toList) : Inert (invertStep drv d) J e :=
  .inl fun b _ => invertStep_idle hinvert hactive b

/-- Only the GPIO driver has a key for the inversion. -/
theorem invertStep_commute (hd : d ≠ .gpio) (hne : x.key ≠ y.key) :
    Commute (invertStep drv d) (fun _ => True) x y :=
  commute_of_inert (k := "invert".toList) hne (fun _ _ _ _ => trivial) (fun _ _ _ _ => trivial)
    (fun h => inert_invert h fun h => absurd h hd) fun h => inert_invert h fun h => absurd h hd

/-! ### Orders that do not matter -/

theorem sameParts_of_commute (hkeys : (es.map InputEntry.key).Nodup) (hperm : es.Perm es')
    (hI : KeepsAll (dataStep drv d) I es)
    (hinit : I (0#64, settings))
    (hdata : ∀ x ∈ es, ∀ y ∈ es, x.key ≠ y.key → Commute (dataStep drv d) I x y)
    (hinvert : ∀ x ∈ es, ∀ y ∈ es, x.key ≠ y.key →
      Commute (invertStep drv d) (fun _ => True) x y) :
    SameParts (es.foldlM (Parts.step env drv d) (initialParts s settings))
      (es'.foldlM (Parts.step env drv d) (initialParts s settings)) := by
  refine sameParts_of_eq hkeys hperm ?_ ?_
  · exact foldlM_perm hperm (fun _ _ _ _ _ _ => trivial)
      (fun x hx y hy hne => hinvert x hx y hy (key_ne_of_ne hkeys hx hy hne)) trivial
  · exact foldlM_perm hperm hI
      (fun x hx y hy hne => hdata x hx y hy (key_ne_of_ne hkeys hx hy hne)) hinit

/-- An invalid key is rejected in every order, if the driver rejects it wherever it stands. -/
theorem sameParts_of_invalid (hkeys : (es.map InputEntry.key).Nodup) (hperm : es.Perm es')
    (hI : KeepsAll (dataStep drv d) I es)
    (hinit : I (0#64, settings)) (he : e ∈ es) (hinvalid : ¬ ValidEntry env drv d s e)
    (hdata : dataStep drv d (0#64, settings) e = none → ∀ x, I x → dataStep drv d x e = none) :
    SameParts (es.foldlM (Parts.step env drv d) (initialParts s settings))
      (es'.foldlM (Parts.step env drv d) (initialParts s settings)) := by
  have hkeys' : (es'.map InputEntry.key).Nodup := (hperm.map _).nodup_iff.mp hkeys
  rw [foldlM_step_of_invalid hkeys he hinvalid
      fun h => foldlM_eq_none he hI (hdata h) hinit,
    foldlM_step_of_invalid hkeys' (hperm.mem_iff.mp he) hinvalid
      fun h => foldlM_eq_none (hperm.mem_iff.mp he) (hI.perm hperm) (hdata h) hinit]
  exact sameParts_none

/-- Among the keys with a conflict of which the order does not matter, there is an invalid one. -/
theorem exists_invalid (hno : ¬ ∃ x ∈ es, ∃ y ∈ es, Conflicting drv d x y ∧
      ∀ e ∈ es, e.key ≠ x.key → e.key ≠ y.key → ValidEntry env drv d s e)
    (hx : x ∈ es) (hy : y ∈ es) (hconflict : Conflicting drv d x y) :
    ∃ e ∈ es, e.key ≠ x.key ∧ e.key ≠ y.key ∧ ¬ ValidEntry env drv d s e := by
  by_contra hall
  push Not at hall
  exact hno ⟨x, hx, y, hy, hconflict, hall⟩

/-- Keys of the Worx driver. -/
theorem sameParts_worx (hkeys : (es.map InputEntry.key).Nodup) (hperm : es.Perm es') :
    SameParts (es.foldlM (Parts.step env drv .worx) (initialParts s settings))
      (es'.foldlM (Parts.step env drv .worx) (initialParts s settings)) := by
  refine sameParts_of_commute hkeys hperm (I := fun _ => True) (fun _ _ _ _ _ _ => trivial) trivial
    (fun x _ y _ hne => ?_) fun x _ y _ hne => invertStep_commute nofun hne
  exact commute_of_inert hne (fun _ _ _ _ => trivial) (fun _ _ _ _ => trivial) inert_worx inert_worx

/-- The keys `invert` and `active` commute if they do not ask for different levels. -/
theorem invertStep_commute_active (hx : x.key = "invert".toList) (hy : y.key = "active".toList)
    (hno : ¬ Conflicting drv .gpio x y) :
    Commute (invertStep drv .gpio) (fun _ => True) x y := by
  intro b _
  have hinvert : ∀ b, invertStep drv .gpio b x = jsonGetBool x.value.type := by
    intro b
    rw [invertStep, if_pos hx]
  simp only [hinvert, invertStep_active hy, Option.bind_some]
  cases hbool : jsonGetBool x.value.type with
  | none => rfl
  | some invert =>
    cases hlevel : activeLevel y.value with
    | none => rfl
    | some level =>
      have heq : invert = level := by
        by_contra hne
        exact hno ⟨hx, hy, invert, level, hbool, hlevel, hne⟩
      rw [heq]
      rfl

theorem invertStep_commute_gpio (hne : x.key ≠ y.key) (hxy : ¬ Conflicting drv .gpio x y)
    (hyx : ¬ Conflicting drv .gpio y x) :
    Commute (invertStep drv .gpio) (fun _ => True) x y := by
  by_cases hx : x.key = "invert".toList
  · have hy : y.key ≠ "invert".toList := fun h => hne (hx.trans h.symm)
    by_cases hactive : y.key = "active".toList
    · exact invertStep_commute_active hx hactive hxy
    · exact ((inert_invert hy fun _ => hactive).commute fun _ _ _ _ => trivial).symm
  by_cases hactive : x.key = "active".toList
  · have hactive' : y.key ≠ "active".toList := fun h => hne (hactive.trans h.symm)
    by_cases hy : y.key = "invert".toList
    · exact (invertStep_commute_active hy hactive hyx).symm
    · exact ((inert_invert hy fun _ => hactive').commute fun _ _ _ _ => trivial).symm
  · exact (inert_invert hx fun _ => hactive).commute fun _ _ _ _ => trivial

/-- A key of the GPIO driver is accepted or rejected with any data. -/
theorem dataStep_gpio_rejected {p p' : BitVec 64 × YfCoverUi.Settings}
    (h : dataStep drv .gpio p e = none) : dataStep drv .gpio p' e = none := by
  by_cases hline : e.key = "line".toList
  · rw [dataStep_gpioLine hline, Option.map_eq_none_iff] at h ⊢
    exact h
  · exact (inert_gpio hline (I := fun _ => True)).rejected trivial h trivial

theorem sameParts_gpio (hkeys : (es.map InputEntry.key).Nodup) (hperm : es.Perm es')
    (hno : ¬ ∃ x ∈ es, ∃ y ∈ es, Conflicting drv .gpio x y ∧
      ∀ e ∈ es, e.key ≠ x.key → e.key ≠ y.key → ValidEntry env drv .gpio s e) :
    SameParts (es.foldlM (Parts.step env drv .gpio) (initialParts s settings))
      (es'.foldlM (Parts.step env drv .gpio) (initialParts s settings)) := by
  by_cases hpair : ∃ x ∈ es, ∃ y ∈ es, Conflicting drv .gpio x y
  · obtain ⟨x, hx, y, hy, hconflict⟩ := hpair
    obtain ⟨e, he, -, -, hinvalid⟩ := exists_invalid hno hx hy hconflict
    exact sameParts_of_invalid hkeys hperm (I := fun _ => True) (fun _ _ _ _ _ _ => trivial) trivial
      he hinvalid fun h p _ => dataStep_gpio_rejected h
  · push Not at hpair
    refine sameParts_of_commute hkeys hperm (I := fun _ => True) (fun _ _ _ _ _ _ => trivial)
      trivial (fun x _ y _ hne => ?_) fun x hx y hy hne =>
        invertStep_commute_gpio hne (hpair x hx y hy) (hpair y hy x hx)
    exact commute_of_inert hne (fun _ _ _ _ => trivial) (fun _ _ _ _ => trivial) inert_gpio
      inert_gpio

/-! ### The type and the id of a Sabo input -/

theorem findType_eq {name : CString} {type : BitVec 8} (h : SaboInput.findType name = some type) :
    type = SaboInput.sensor ∨ type = SaboInput.button := by
  have hmem : type ∈ SaboInput.inputTypes.map Prod.snd :=
    List.mem_map_of_mem (f := Prod.snd) (TruncatedKeys.mem_of_lookup h)
  simpa [SaboInput.inputTypes] using hmem

/-- An id that names neither a sensor nor a button is rejected for any type. -/
theorem dataStep_saboId_rejected (hid : e.key = "id".toList)
    (hnot : ∀ name, e.value.string? = some name →
      ¬ ((SaboInput.findSensor name).isSome ∨ (SaboInput.findButton name).isSome))
    (p : BitVec 64 × YfCoverUi.Settings) : dataStep drv .sabo p e = none := by
  rw [dataStep_saboId hid, Option.map_eq_none_iff]
  refine Option.bind_eq_none_iff.mpr fun name hname => ?_
  obtain ⟨hsensor, hbutton⟩ := not_or.mp (hnot name hname)
  rw [SaboInput.findId]
  split_ifs
  · exact Option.not_isSome_iff_eq_none.mp hsensor
  · exact Option.not_isSome_iff_eq_none.mp hbutton
  · rfl

/-- The input is a sensor. -/
def IsSensor (p : BitVec 64 × YfCoverUi.Settings) : Prop :=
  p.1.extractLsb' 0 8 = SaboInput.sensor

theorem isSensor_dataStep {p p' : BitVec 64 × YfCoverUi.Settings}
    (htype : e.key = "type".toList →
      e.value.string?.bind SaboInput.findType ≠ some SaboInput.button)
    (hp : IsSensor p) (h : dataStep drv .sabo p e = some p') : IsSensor p' := by
  by_cases hkey : e.key = "type".toList
  · rw [dataStep_saboType hkey] at h
    obtain ⟨type, hfind, rfl⟩ := Option.map_eq_some_iff.mp h
    obtain ⟨name, -, hname⟩ := Option.bind_eq_some_iff.mp hfind
    rcases findType_eq hname with rfl | rfl
    · exact extractLsb'_setField_self (by decide)
    · exact absurd hfind (htype hkey)
  by_cases hid : e.key = "id".toList
  · rw [dataStep_saboId hid] at h
    obtain ⟨id, -, rfl⟩ := Option.map_eq_some_iff.mp h
    exact (extractLsb'_setField_of_disjoint (by decide) (by decide)).trans hp
  · have hinert : Inert (dataStep drv .sabo) (fun _ => True) e := inert_sabo hkey hid
    rcases hinert with hidle | hrejected
    · obtain rfl := Option.some.inj ((hidle p trivial).symm.trans h)
      exact hp
    · rw [hrejected p trivial] at h
      cases h

/-- For a sensor the type and the id commute. -/
theorem dataStep_commute_sensor (hx : x.key = "type".toList) (hy : y.key = "id".toList)
    (htype : x.value.string?.bind SaboInput.findType ≠ some SaboInput.button) :
    Commute (dataStep drv .sabo) IsSensor x y := by
  intro p hp
  have hid : ∀ p, IsSensor p → dataStep drv .sabo p y =
      (y.value.string?.bind (SaboInput.findId SaboInput.sensor)).map fun id =>
        (setField p.1 8 id, p.2) := by
    intro p hp
    rw [dataStep_saboId hy, hp]
  rw [hid p hp]
  cases hfind : dataStep drv .sabo p x with
  | none =>
    rw [dataStep_saboType hx, Option.map_eq_none_iff] at hfind
    cases y.value.string?.bind (SaboInput.findId SaboInput.sensor) with
    | none => rfl
    | some id =>
      rw [Option.map_some, Option.bind_some, dataStep_saboType hx, hfind]
      rfl
  | some p' =>
    have hp' : IsSensor p' := isSensor_dataStep (fun _ => htype) hp hfind
    rw [dataStep_saboType hx] at hfind
    obtain ⟨type, htype, rfl⟩ := Option.map_eq_some_iff.mp hfind
    rw [Option.bind_some, hid _ hp']
    cases y.value.string?.bind (SaboInput.findId SaboInput.sensor) with
    | none => rfl
    | some id =>
      rw [Option.map_some, Option.map_some, Option.bind_some, dataStep_saboType hx, htype,
        Option.map_some, setField_comm (by decide)]

/-- Keys of the Sabo driver in any order, if the type and the id of the input commute. -/
theorem dataStep_commute_sabo (hI : KeepsAll (dataStep drv .sabo) I es)
    (hcomm : ∀ x ∈ es, ∀ y ∈ es, x.key = "type".toList → y.key = "id".toList →
      Commute (dataStep drv .sabo) I x y) (hx : x ∈ es) (hy : y ∈ es) (hne : x.key ≠ y.key) :
    Commute (dataStep drv .sabo) I x y := by
  by_cases htype : x.key = "type".toList
  · have hytype : y.key ≠ "type".toList := fun h => hne (htype.trans h.symm)
    by_cases hyid : y.key = "id".toList
    · exact hcomm x hx y hy htype hyid
    · exact ((inert_sabo hytype hyid).commute (hI x hx)).symm
  by_cases hid : x.key = "id".toList
  · have hyid : y.key ≠ "id".toList := fun h => hne (hid.trans h.symm)
    by_cases hytype : y.key = "type".toList
    · exact (hcomm y hy x hx hytype hid).symm
    · exact ((inert_sabo hytype hyid).commute (hI x hx)).symm
  · exact (inert_sabo htype hid).commute (hI y hy)

theorem sameParts_sabo (hkeys : (es.map InputEntry.key).Nodup) (hperm : es.Perm es')
    (hno : ¬ ∃ x ∈ es, ∃ y ∈ es, Conflicting drv .sabo x y ∧
      ∀ e ∈ es, e.key ≠ x.key → e.key ≠ y.key → ValidEntry env drv .sabo s e) :
    SameParts (es.foldlM (Parts.step env drv .sabo) (initialParts s settings))
      (es'.foldlM (Parts.step env drv .sabo) (initialParts s settings)) := by
  have htrue : KeepsAll (dataStep drv .sabo) (fun _ => True) es := fun _ _ _ _ _ _ => trivial
  have hinvert : ∀ x ∈ es, ∀ y ∈ es, x.key ≠ y.key →
      Commute (invertStep drv .sabo) (fun _ => True) x y :=
    fun x _ y _ hne => invertStep_commute nofun hne
  by_cases hpair : ∃ x ∈ es, ∃ y ∈ es, Conflicting drv .sabo x y
  · obtain ⟨x, hx, y, hy, hconflict⟩ := hpair
    obtain ⟨e, he, htype, hid, hinvalid⟩ := exists_invalid hno hx hy hconflict
    rw [hconflict.1] at htype
    rw [hconflict.2.1] at hid
    exact sameParts_of_invalid hkeys hperm htrue trivial he hinvalid
      fun h p _ => (inert_sabo htype hid (I := fun _ => True)).rejected trivial h trivial
  by_cases hbutton : ∃ t ∈ es, t.key = "type".toList ∧
      t.value.string?.bind SaboInput.findType = some SaboInput.button
  · obtain ⟨t, ht, hkey, htype⟩ := hbutton
    refine sameParts_of_commute hkeys hperm htrue trivial (fun x hx y hy hne =>
      dataStep_commute_sabo htrue (fun x _ y hy _ hid => ?_) hx hy hne) hinvert
    -- no id is valid, or it would be in conflict with the type
    refine (Commute.of_rejected (fun _ _ _ _ => trivial) fun p _ => ?_).symm
    exact dataStep_saboId_rejected hid (fun name hname hsome =>
      hpair ⟨t, ht, y, hy, hkey, hid, htype, name, hname, hsome⟩) p
  · push Not at hbutton
    have hsensor : KeepsAll (dataStep drv .sabo) IsSensor es :=
      fun e he _ _ => isSensor_dataStep (hbutton e he)
    have hinit : IsSensor (0#64, settings) := BitVec.extractLsb'_zero
    exact sameParts_of_commute hkeys hperm hsensor hinit (fun x hx y hy hne =>
      dataStep_commute_sabo hsensor (fun x hx y _ htype hid =>
        dataStep_commute_sensor htype hid (hbutton x hx htype)) hx hy hne) hinvert

/-! ### The channel and the flags of the cover UI -/

/-- The flags of an input, of which the id has been parsed or not. -/
def FlagsFrom (es : List InputEntry) (p : BitVec 64 × YfCoverUi.Settings) : Prop :=
  p.1.extractLsb' 8 8 = 0#8 ∨ ∃ e ∈ es, e.key = "id".toList ∧
    e.value.string?.bind findFlag = some (p.1.extractLsb' 8 8)

theorem flagsFrom_dataStep (hkeys : (es.map InputEntry.key).Nodup) (he : e ∈ es)
    {p p' : BitVec 64 × YfCoverUi.Settings} (hp : FlagsFrom es p)
    (h : dataStep drv .yfCoverUi p e = some p') : FlagsFrom es p' := by
  by_cases hcommon : e.isCommon
  · obtain rfl := Option.some.inj ((dataStep_of_common hcommon p).symm.trans h)
    exact hp
  by_cases hchannel : e.key = "channel".toList
  · rw [dataStep_yfChannel hchannel] at h
    obtain ⟨channel, -, rfl⟩ := Option.map_eq_some_iff.mp h
    rw [FlagsFrom, extractLsb'_setField_of_disjoint (by decide) (by decide)]
    exact hp
  by_cases hbutton : e.key = "button_id".toList
  · rw [dataStep_yfButtonId hbutton] at h
    obtain ⟨buttonId, -, rfl⟩ := Option.map_eq_some_iff.mp h
    rw [FlagsFrom, extractLsb'_setField_of_disjoint (by decide) (by decide)]
    exact hp
  by_cases hid : e.key = "id".toList
  · rw [dataStep_yfId hid] at h
    obtain ⟨flag, hflag, rfl⟩ := Option.map_eq_some_iff.mp h
    refine .inr ⟨e, he, hid, ?_⟩
    rw [hflag, extractLsb'_setField_self (by decide)]
    rcases hp with hzero | ⟨e', he', hid', hflag'⟩
    · rw [hzero, BitVec.zero_or]
    · obtain rfl := List.inj_on_of_nodup_map hkeys he' he (hid'.trans hid.symm)
      rw [Option.some.inj (hflag'.symm.trans hflag), BitVec.or_self]
  by_cases hvalue : e.key = "value".toList
  · rw [dataStep_yfValue hvalue] at h
    obtain ⟨value, -, h⟩ := Option.bind_eq_some_iff.mp h
    split at h
    · obtain rfl := Option.some.inj h
      exact hp
    · cases h
  · rw [dataStep_yfOther hcommon hchannel hbutton hid hvalue] at h
    cases h

/-- A value without a conflict is rejected. -/
theorem dataStep_yfValue_rejected (hvalue : e.key = "value".toList)
    (hno : ∀ x ∈ es, ¬ Conflicting drv .yfCoverUi x e) {p : BitVec 64 × YfCoverUi.Settings}
    (hp : FlagsFrom es p) : dataStep drv .yfCoverUi p e = none := by
  refine dataStep_yfValue_of_not hvalue fun value hstring haccepts => ?_
  rcases hp with hzero | ⟨x, hx, hid, hflag⟩
  · exact not_acceptsValue_zero hzero value haccepts
  · exact hno x hx (.inr ⟨hid, hvalue, _, value, hflag, hstring, haccepts⟩)

theorem buttonFlag_or_or (old : BitVec 8) :
    YfCoverUi.buttonFlag ||| ((YfCoverUi.buttonFlag ||| (old &&& 0x7F#8)) &&& 0x7F#8) =
      YfCoverUi.buttonFlag ||| (old &&& 0x7F#8) := by
  revert old
  decide

/-- The keys `channel` and `button_id` commute, unless the channel is not one of a button. -/
theorem dataStep_commute_button (hx : x.key = "channel".toList) (hy : y.key = "button_id".toList)
    (hno : ¬ Conflicting drv .yfCoverUi x y) : Commute (dataStep drv .yfCoverUi) I x y := by
  intro p _
  cases hnumber : y.value.number? drv with
  | none =>
    have hrejected : ∀ p, dataStep drv .yfCoverUi p y = none := by
      intro p
      rw [dataStep_yfButtonId hy, hnumber]
      rfl
    rw [hrejected p]
    exact Option.bind_eq_none_iff.mpr fun p' _ => hrejected p'
  | some buttonId =>
    have hbutton : ∀ p, dataStep drv .yfCoverUi p y =
        some (setField p.1 0 (YfCoverUi.buttonFlag ||| (buttonId &&& 0x7F#8)), p.2) := by
      intro p
      rw [dataStep_yfButtonId hy, hnumber]
      rfl
    rw [hbutton p, Option.bind_some, dataStep_yfChannel hx, dataStep_yfChannel hx,
      extractLsb'_setField_self (by decide)]
    cases hstring : x.value.string? with
    | none => rfl
    | some name =>
      have hlookup : YfCoverUi.emergencyChannels.lookup name = none := by
        by_contra hsome
        refine hno (.inl ⟨hx, hy, ?_, ?_⟩)
        · rw [hstring]
          exact Option.isSome_iff_ne_none.mpr hsome
        · rw [hnumber]
          rfl
      simp only [Option.bind_some, findChannel, hlookup]
      by_cases hname : name = "button".toList
      · simp only [if_pos hname, Option.map_some, Option.bind_some, hbutton, setField_setField,
          buttonFlag_or_or]
      · simp only [if_neg hname]
        rfl

/-- The keys `channel` and `id` act on different fields. -/
theorem dataStep_commute_channel_id (hx : x.key = "channel".toList) (hy : y.key = "id".toList) :
    Commute (dataStep drv .yfCoverUi) I x y := by
  intro p _
  simp only [dataStep_yfChannel hx, dataStep_yfId hy]
  cases hchannel : x.value.string?.bind (findChannel (p.1.extractLsb' 0 8)) with
  | none =>
    cases hflag : y.value.string?.bind findFlag with
    | none => rfl
    | some flag =>
      rw [Option.map_some, Option.bind_some,
        extractLsb'_setField_of_disjoint (by decide) (by decide), hchannel]
      rfl
  | some channel =>
    cases hflag : y.value.string?.bind findFlag with
    | none => rfl
    | some flag =>
      rw [Option.map_some, Option.map_some, Option.bind_some, Option.bind_some,
        extractLsb'_setField_of_disjoint (by decide) (by decide),
        extractLsb'_setField_of_disjoint (by decide) (by decide), hchannel, Option.map_some,
        Option.map_some, setField_comm (by decide)]

/-- So do the keys `button_id` and `id`. -/
theorem dataStep_commute_button_id (hx : x.key = "button_id".toList) (hy : y.key = "id".toList) :
    Commute (dataStep drv .yfCoverUi) I x y := by
  intro p _
  simp only [dataStep_yfButtonId hx, dataStep_yfId hy]
  cases x.value.number? drv with
  | none => cases y.value.string?.bind findFlag <;> rfl
  | some buttonId =>
    cases y.value.string?.bind findFlag with
    | none => rfl
    | some flag =>
      rw [Option.map_some, Option.map_some, Option.bind_some, Option.bind_some, Option.map_some,
        Option.map_some, extractLsb'_setField_of_disjoint (by decide) (by decide),
        setField_comm (by decide)]

/-- Keys of the cover UI in any order, if no value is accepted. -/
theorem dataStep_commute_yf (hI : KeepsAll (dataStep drv .yfCoverUi) I es)
    (hvalue : ∀ e ∈ es, e.key = "value".toList → ∀ p, I p → dataStep drv .yfCoverUi p e = none)
    (hno : ∀ x ∈ es, ∀ y ∈ es, ¬ Conflicting drv .yfCoverUi x y) (hx : x ∈ es) (hy : y ∈ es)
    (hne : x.key ≠ y.key) : Commute (dataStep drv .yfCoverUi) I x y := by
  by_cases hxc : x.key = "channel".toList
  · have hyc : y.key ≠ "channel".toList := fun h => hne (hxc.trans h.symm)
    by_cases hyb : y.key = "button_id".toList
    · exact dataStep_commute_button hxc hyb (hno x hx y hy)
    by_cases hyi : y.key = "id".toList
    · exact dataStep_commute_channel_id hxc hyi
    · exact ((inert_yf hyc hyb hyi (hvalue y hy)).commute (hI x hx)).symm
  by_cases hxb : x.key = "button_id".toList
  · have hyb : y.key ≠ "button_id".toList := fun h => hne (hxb.trans h.symm)
    by_cases hyc : y.key = "channel".toList
    · exact (dataStep_commute_button hyc hxb (hno y hy x hx)).symm
    by_cases hyi : y.key = "id".toList
    · exact dataStep_commute_button_id hxb hyi
    · exact ((inert_yf hyc hyb hyi (hvalue y hy)).commute (hI x hx)).symm
  by_cases hxi : x.key = "id".toList
  · have hyi : y.key ≠ "id".toList := fun h => hne (hxi.trans h.symm)
    by_cases hyc : y.key = "channel".toList
    · exact (dataStep_commute_channel_id hyc hxi).symm
    by_cases hyb : y.key = "button_id".toList
    · exact (dataStep_commute_button_id hyb hxi).symm
    · exact ((inert_yf hyc hyb hyi (hvalue y hy)).commute (hI x hx)).symm
  · exact (inert_yf hxc hxb hxi (hvalue x hx)).commute (hI y hy)

/-- A key other than a value is accepted or rejected with any data. -/
theorem dataStep_yf_rejected (hvalue : e.key ≠ "value".toList)
    {p p' : BitVec 64 × YfCoverUi.Settings} (h : dataStep drv .yfCoverUi p e = none) :
    dataStep drv .yfCoverUi p' e = none := by
  by_cases hchannel : e.key = "channel".toList
  · rw [dataStep_yfChannel hchannel, ← Option.not_isSome_iff_eq_none, Option.isSome_map,
      isSome_bind_iff] at h ⊢
    simp only [findChannel_isSome] at h ⊢
    exact h
  by_cases hbutton : e.key = "button_id".toList
  · rw [dataStep_yfButtonId hbutton, Option.map_eq_none_iff] at h ⊢
    exact h
  by_cases hid : e.key = "id".toList
  · rw [dataStep_yfId hid, Option.map_eq_none_iff] at h ⊢
    exact h
  · exact (inert_yf hchannel hbutton hid (I := fun _ => True) fun h => absurd h hvalue).rejected
      trivial h trivial

theorem sameParts_yf (hkeys : (es.map InputEntry.key).Nodup) (hperm : es.Perm es')
    (hno : ¬ ∃ x ∈ es, ∃ y ∈ es, Conflicting drv .yfCoverUi x y ∧
      ∀ e ∈ es, e.key ≠ x.key → e.key ≠ y.key → ValidEntry env drv .yfCoverUi s e) :
    SameParts (es.foldlM (Parts.step env drv .yfCoverUi) (initialParts s settings))
      (es'.foldlM (Parts.step env drv .yfCoverUi) (initialParts s settings)) := by
  have hflags : KeepsAll (dataStep drv .yfCoverUi) (FlagsFrom es) es :=
    fun e he _ _ => flagsFrom_dataStep hkeys he
  have hinit : FlagsFrom es (0#64, settings) := .inl BitVec.extractLsb'_zero
  by_cases hpair : ∃ x ∈ es, ∃ y ∈ es, Conflicting drv .yfCoverUi x y
  · obtain ⟨x, hx, y, hy, hconflict⟩ := hpair
    by_cases hvalue : ∃ v ∈ es, v.key = "value".toList ∧ ∃ i ∈ es, Conflicting drv .yfCoverUi i v
    · obtain ⟨v, hv, hkey, i, hi, hconflict⟩ := hvalue
      obtain ⟨e, he, -, hne, hinvalid⟩ := exists_invalid hno hi hv hconflict
      rw [hkey] at hne
      exact sameParts_of_invalid hkeys hperm (I := fun _ => True) (fun _ _ _ _ _ _ => trivial)
        trivial he hinvalid fun h p _ => dataStep_yf_rejected hne h
    · push Not at hvalue
      obtain ⟨e, he, -, -, hinvalid⟩ := exists_invalid hno hx hy hconflict
      refine sameParts_of_invalid hkeys hperm hflags hinit he hinvalid fun h p hp => ?_
      by_cases hkey : e.key = "value".toList
      · exact dataStep_yfValue_rejected hkey (hvalue e he hkey) hp
      · exact dataStep_yf_rejected hkey h
  · push Not at hpair
    exact sameParts_of_commute hkeys hperm hflags hinit (fun x hx y hy hne =>
      dataStep_commute_yf hflags (fun e he hkey p hp =>
        dataStep_yfValue_rejected hkey (fun x hx => hpair x hx e he) hp) hpair hx hy hne)
      fun x _ y _ hne => invertStep_commute nofun hne

end

end OpenMower
