import OpenMower.Inputs.DriverKeys

/-!
# The order of the keys of an input

The configuration of an input should not depend on the order of its keys. Two keys of the GPIO
driver, of the Sabo driver and of the cover UI can be in conflict, in that one of them overwrites
what the other one has set, or decides how the other one is read (`Conflicting`). This module
settles the parts of an input that no conflict can reach (`keyOrderIndependent_iff`,
`sameParts_of_eq`).
-/

namespace OpenMower

open PartialSteps WordMask Parts

/-- The keys in another order, also those inside their objects. -/
def Reordered (es es' : List InputEntry) : Prop :=
  ∃ es₁, List.Forall₂ (fun e e₁ => e₁.key = e.key ∧ e₁.value = e.value ∧ e.inner.Perm e₁.inner)
    es es₁ ∧ es₁.Perm es'

/-- Both are rejected, or both are accepted with the same configuration of the input, the same
redundancy groups, and the same settings of the driver. -/
def SameConfiguration (i : ℕ) (r r' : Option DriverConfig) : Prop :=
  r.isSome = r'.isSome ∧ ∀ s s', r = some s → r' = some s' →
    (∃ input input', s.1.service.allInputs[i]? = some input ∧
      s'.1.service.allInputs[i]? = some input' ∧ input.SameConfig input' ∧
      input.driverData = input'.driverData) ∧
    s.1.redundancyGroupMap = s'.1.redundancyGroupMap ∧ s.2 = s'.2

/-- Any other order of the keys gives the same configuration of the new input. -/
def KeyOrderIndependent (env : InputConfigEnv) (drv : DriverEnv) (d : ConfigDriver)
    (s : InputConfig) (settings : YfCoverUi.Settings) (es : List InputEntry) : Prop :=
  ∀ es', Reordered es es' →
    SameConfiguration s.service.allInputs.length
      (runEntries env d (startInput drv d s, settings) es)
      (runEntries env d (startInput drv d s, settings) es')

/-- Two keys of which the order matters:
* GPIO: `invert` and `active` with different levels;
* Sabo: the type of a button, and the id of a button or a sensor;
* cover UI: an emergency channel and the id of a button, or an id and a value for it. -/
def Conflicting (drv : DriverEnv) (d : ConfigDriver) (x y : InputEntry) : Prop :=
  match d with
  | .gpio =>
    x.key = "invert".toList ∧ y.key = "active".toList ∧
      ∃ invert level, jsonGetBool x.value.type = some invert ∧
        activeLevel y.value = some level ∧ invert ≠ level
  | .worx => False
  | .sabo =>
    x.key = "type".toList ∧ y.key = "id".toList ∧
      x.value.string?.bind SaboInput.findType = some SaboInput.button ∧
      ∃ name, y.value.string? = some name ∧
        ((SaboInput.findSensor name).isSome ∨ (SaboInput.findButton name).isSome)
  | .yfCoverUi =>
    (x.key = "channel".toList ∧ y.key = "button_id".toList ∧
      (x.value.string?.bind (YfCoverUi.emergencyChannels.lookup ·)).isSome ∧
      (y.value.number? drv).isSome) ∨
    (x.key = "id".toList ∧ y.key = "value".toList ∧
      ∃ flag value, x.value.string?.bind findFlag = some flag ∧ y.value.string? = some value ∧
        YfCoverUi.acceptsValue flag value)

/-- A key inside `emergency` with a valid value. -/
def ValidInner (env : InputConfigEnv) (k : CString × JsonValue) : Prop :=
  (k.1 = "reason".toList ∧ (k.2.string?.bind findReason).isSome) ∨
  (k.1 = "delay".toList ∧ k.2.type = .number ∧ (env.toArithmetic k.2.buff).isSome) ∨
  (k.1 = "latch".toList ∧ (jsonGetBool k.2.type).isSome)

/-- A key of a driver with a value that is valid for a new input. -/
def ValidKey (drv : DriverEnv) (d : ConfigDriver) (e : InputEntry) : Prop :=
  match d with
  | .gpio =>
    (e.key = "line".toList ∧
      ∃ name, e.value.string? = some name ∧ drv.getIoLineByName name ≠ drv.noLine) ∨
    (e.key = "active".toList ∧ (activeLevel e.value).isSome)
  | .worx =>
    e.key = "id".toList ∧
      (e.value.string?.bind fun name => WorxInput.inputBits.lookup (name.take 13)).isSome
  | .sabo =>
    (e.key = "type".toList ∧ (e.value.string?.bind SaboInput.findType).isSome) ∨
    (e.key = "id".toList ∧ (e.value.string?.bind SaboInput.findSensor).isSome)
  | .yfCoverUi =>
    (e.key = "channel".toList ∧ ∃ name, e.value.string? = some name ∧
      ((YfCoverUi.emergencyChannels.lookup name).isSome ∨ name = "button".toList)) ∨
    (e.key = "button_id".toList ∧ (e.value.number? drv).isSome) ∨
    (e.key = "id".toList ∧ (e.value.string?.bind findFlag).isSome)

/-- A key with a value that is valid for a new input. -/
def ValidEntry (env : InputConfigEnv) (drv : DriverEnv) (d : ConfigDriver) (s : InputConfig)
    (e : InputEntry) : Prop :=
  (e.key = "invert".toList → (jsonGetBool e.value.type).isSome) ∧
  (e.key = "redundancy_group".toList → e.value.type = .string ∧ e.value.buffPos ≤ 10 ∧
    ((s.redundancyGroupMap.lookup (e.value.buff.take 10)).isSome ∨
      s.nextRedundancyGroupId ≤ InputConfig.maxRedundancyGroups)) ∧
  (e.key = "emergency".toList → e.value.type = .object ∧ ∀ k ∈ e.inner, ValidInner env k) ∧
  (¬ e.isCommon → ValidKey drv d e)

/-! ### The parts of a new input -/

/-- The parts of a new input. -/
def initialParts (s : InputConfig) (settings : YfCoverUi.Settings) : Parts :=
  (false,
    { group := 0#8
      groupName := s.groupName s.service.allInputs.length
      redundancyGroupMap := s.redundancyGroupMap
      nextRedundancyGroupId := s.nextRedundancyGroupId },
    (0#16, 0#16), (0#64, settings))

theorem startInput_eq_put (drv : DriverEnv) (d : ConfigDriver) (s : InputConfig)
    (settings : YfCoverUi.Settings) :
    (startInput drv d s, settings) =
      put (startInput drv d s) s.service.allInputs.length { idx := s.nextIdx }
        (initialParts s settings) := by
  have hinputs : (startInput drv d s).service.allInputs.set s.service.allInputs.length
      { idx := s.nextIdx } = (startInput drv d s).service.allInputs := by
    refine List.ext_getElem? fun j => ?_
    simp only [startInput, InputConfig.addInput, List.getElem?_set]
    split
    · next hj =>
      subst hj
      simp
    · rfl
  have hname : Function.update (startInput drv d s).groupName s.service.allInputs.length
      (s.groupName s.service.allInputs.length) = (startInput drv d s).groupName :=
    Function.update_eq_self _ _
  simp only [put, initialParts, hname]
  rw [show (startInput drv d s).service.allInputs.set s.service.allInputs.length
    { idx := s.nextIdx } = _ from hinputs]
  rfl

section

variable {env : InputConfigEnv} {drv : DriverEnv} {d : ConfigDriver} {s : InputConfig}
  {settings : YfCoverUi.Settings} {es es' : List InputEntry}

/-- The keys of a new input, part by part. -/
theorem runEntries_startInput (es : List InputEntry) :
    runEntries env d (startInput drv d s, settings) es =
      (es.foldlM (Parts.step env drv d) (initialParts s settings)).map
        (put (startInput drv d s) s.service.allInputs.length { idx := s.nextIdx }) := by
  rw [startInput_eq_put]
  refine runEntries_put rfl ?_ rfl es _
  simp [startInput, InputConfig.addInput]

/-- The parts are the same, up to the history of the groups. -/
def SameParts (r r' : Option Parts) : Prop :=
  r.isSome = r'.isSome ∧ ∀ p p', r = some p → r' = some p' →
    p.1 = p'.1 ∧ p.2.1.group = p'.2.1.group ∧
      p.2.1.redundancyGroupMap = p'.2.1.redundancyGroupMap ∧ p.2.2 = p'.2.2

theorem SameParts.symm {r r' : Option Parts} (h : SameParts r r') : SameParts r' r := by
  refine ⟨h.1.symm, fun p p' hp hp' => ?_⟩
  obtain ⟨h1, h2, h3, h4⟩ := h.2 p' p hp' hp
  exact ⟨h1.symm, h2.symm, h3.symm, h4.symm⟩

theorem SameParts.trans {r r' r'' : Option Parts} (h : SameParts r r') (h' : SameParts r' r'') :
    SameParts r r'' := by
  refine ⟨h.1.trans h'.1, fun p p'' hp hp'' => ?_⟩
  have hsome : r'.isSome := by rw [← h.1, hp]; rfl
  obtain ⟨p', hp'⟩ := Option.isSome_iff_exists.mp hsome
  obtain ⟨h1, h2, h3, h4⟩ := h.2 p p' hp hp'
  obtain ⟨k1, k2, k3, k4⟩ := h'.2 p' p'' hp' hp''
  exact ⟨h1.trans k1, h2.trans k2, h3.trans k3, h4.trans k4⟩

theorem sameConfiguration_put_iff {t : InputConfig} {i : ℕ} {input : Input}
    (hi : i < t.service.allInputs.length) (r r' : Option Parts) :
    SameConfiguration i (r.map (put t i input)) (r'.map (put t i input)) ↔ SameParts r r' := by
  rw [SameConfiguration, SameParts, Option.isSome_map, Option.isSome_map]
  refine and_congr_right fun _ => ?_
  constructor
  · intro h p p' hp hp'
    obtain ⟨⟨a, b, ha, hb, hsame, hdata⟩, hmap, hsettings⟩ :=
      h (put t i input p) (put t i input p') (by rw [hp]; rfl) (by rw [hp']; rfl)
    rw [getElem?_put hi] at ha hb
    obtain rfl := Option.some.inj ha
    obtain rfl := Option.some.inj hb
    obtain ⟨-, hinvert, hgroup, hreason, hdelay⟩ := hsame
    exact ⟨hinvert, hgroup, hmap, Prod.ext (Prod.ext hreason hdelay) (Prod.ext hdata hsettings)⟩
  · intro h s s' hs hs'
    obtain ⟨p, hp, rfl⟩ := Option.map_eq_some_iff.mp hs
    obtain ⟨p', hp', rfl⟩ := Option.map_eq_some_iff.mp hs'
    obtain ⟨hinvert, hgroup, hmap, hrest⟩ := h p p' hp hp'
    have hemergency := congrArg Prod.fst hrest
    have hdata := congrArg Prod.snd hrest
    have hsettings : p.2.2.2.2 = p'.2.2.2.2 := congrArg Prod.snd hdata
    exact ⟨⟨_, _, getElem?_put hi p, getElem?_put hi p',
      ⟨rfl, hinvert, hgroup, congrArg Prod.fst hemergency, congrArg Prod.snd hemergency⟩,
      congrArg Prod.fst hdata⟩, hmap, hsettings⟩

/-- The keys of an input, part by part. -/
theorem foldlM_step (es : List InputEntry) (p : Parts) :
    es.foldlM (Parts.step env drv d) p =
      zipOption (es.foldlM (invertStep drv d) p.1)
        (zipOption (es.foldlM groupStep p.2.1)
          (zipOption (es.foldlM (emergencyStep env) p.2.2.1)
            (es.foldlM (dataStep drv d) p.2.2.2))) := by
  rw [Parts.step, foldlM_both, foldlM_both, foldlM_both]

/-- The keys of a new input, part by part. -/
theorem foldlM_step_initial (es : List InputEntry) :
    es.foldlM (Parts.step env drv d) (initialParts s settings) =
      zipOption (es.foldlM (invertStep drv d) false)
        (zipOption (es.foldlM groupStep (initialParts s settings).2.1)
          (zipOption (es.foldlM (emergencyStep env) (0#16, 0#16))
            (es.foldlM (dataStep drv d) (0#64, settings)))) :=
  foldlM_step es _

/-! ### The keys inside `emergency` -/

theorem findReason_ne_latch {name : CString} {r : Reason} (h : findReason name = some r) :
    r ≠ .latch := by
  rw [findReason] at h
  split_ifs at h
  · obtain rfl := Option.some.inj h
    decide
  · obtain rfl := Option.some.inj h
    decide
  · obtain rfl := Option.some.inj h
    decide

/-- A reason is added before or after the latch is cleared. -/
theorem or_and_not_latch (E : EmergencyReason) {r : Reason} (hr : r ≠ .latch) (x : Reasons) :
    (x ||| E.mask r) &&& ~~~E.mask .latch = (x &&& ~~~E.mask .latch) ||| E.mask r := by
  refine BitVec.eq_of_getLsbD_eq fun i hi => ?_
  have hne : (E.bit r : ℕ) ≠ E.bit .latch := fun h => hr (E.injective (Fin.ext h))
  simp only [BitVec.getLsbD_and, BitVec.getLsbD_or, BitVec.getLsbD_not,
    EmergencyReason.getLsbD_mask, hi, decide_true, Bool.true_and]
  by_cases hbit : (E.bit r : ℕ) = i
  · have hlatch : ¬ (E.bit .latch : ℕ) = i := fun h => hne (hbit.trans h.symm)
    simp [hbit, hlatch]
  · simp [hbit]

theorem innerStep_reason {k : CString × JsonValue} (hkey : k.1 = "reason".toList)
    (x : Reasons × BitVec 16) :
    innerStep env x k =
      (k.2.string?.bind findReason).map fun r => (x.1 ||| env.reason.mask r, x.2) := by
  rw [innerStep, if_pos hkey, JsonValue.string?]
  by_cases hs : k.2.type = .string
  · rw [if_neg (not_not_intro hs), if_pos hs]
    rfl
  · rw [if_pos hs, if_neg hs]
    rfl

theorem innerStep_delay {k : CString × JsonValue} (hkey : k.1 = "delay".toList)
    (x : Reasons × BitVec 16) :
    innerStep env x k =
      (if k.2.type = .number then env.toArithmetic k.2.buff else none).map fun delay =>
        (x.1, delay) := by
  have hreason : k.1 ≠ "reason".toList := by rw [hkey]; decide
  rw [innerStep, if_neg hreason, if_pos hkey]
  split <;> rfl

theorem innerStep_latch {k : CString × JsonValue} (hkey : k.1 = "latch".toList)
    (x : Reasons × BitVec 16) :
    innerStep env x k = (jsonGetBool k.2.type).map fun latch =>
      (if latch then x.1 else x.1 &&& ~~~env.reason.mask .latch, x.2) := by
  have hreason : k.1 ≠ "reason".toList := by rw [hkey]; decide
  have hdelay : k.1 ≠ "delay".toList := by rw [hkey]; decide
  rw [innerStep, if_neg hreason, if_neg hdelay, if_pos hkey]
  cases k.2.type <;> rfl

theorem innerStep_other {k : CString × JsonValue} (hreason : k.1 ≠ "reason".toList)
    (hdelay : k.1 ≠ "delay".toList) (hlatch : k.1 ≠ "latch".toList) (x : Reasons × BitVec 16) :
    innerStep env x k = none := by
  rw [innerStep, if_neg hreason, if_neg hdelay, if_neg hlatch]

/-- An unknown key inside `emergency` is rejected wherever it stands. -/
theorem innerStep_commute_other {k k' : CString × JsonValue} (hreason : k.1 ≠ "reason".toList)
    (hdelay : k.1 ≠ "delay".toList) (hlatch : k.1 ≠ "latch".toList) :
    Commute (innerStep env) (fun _ => True) k k' :=
  .of_rejected (fun _ _ _ _ => trivial) fun x _ => innerStep_other hreason hdelay hlatch x

theorem innerStep_commute_reason_delay {k k' : CString × JsonValue}
    (hreason : k.1 = "reason".toList) (hdelay : k'.1 = "delay".toList) :
    Commute (innerStep env) (fun _ => True) k k' := by
  intro x _
  simp only [innerStep_reason hreason, innerStep_delay hdelay]
  cases k.2.string?.bind findReason <;>
    cases (if k'.2.type = .number then env.toArithmetic k'.2.buff else none) <;> rfl

theorem innerStep_commute_reason_latch {k k' : CString × JsonValue}
    (hreason : k.1 = "reason".toList) (hlatch : k'.1 = "latch".toList) :
    Commute (innerStep env) (fun _ => True) k k' := by
  intro x _
  simp only [innerStep_reason hreason, innerStep_latch hlatch]
  cases hr : k.2.string?.bind findReason with
  | none => cases jsonGetBool k'.2.type <;> rfl
  | some r =>
    cases jsonGetBool k'.2.type with
    | none => rfl
    | some latch =>
      obtain ⟨name, -, hname⟩ := Option.bind_eq_some_iff.mp hr
      cases latch with
      | true => rfl
      | false =>
        simp only [Option.map_some, Option.bind_some, Bool.false_eq_true, if_false,
          or_and_not_latch env.reason (findReason_ne_latch hname)]

theorem innerStep_commute_delay_latch {k k' : CString × JsonValue}
    (hdelay : k.1 = "delay".toList) (hlatch : k'.1 = "latch".toList) :
    Commute (innerStep env) (fun _ => True) k k' := by
  intro x _
  simp only [innerStep_delay hdelay, innerStep_latch hlatch]
  cases (if k.2.type = .number then env.toArithmetic k.2.buff else none) <;>
    cases jsonGetBool k'.2.type <;> rfl

/-- The keys inside `emergency` commute. -/
theorem innerStep_commute {k k' : CString × JsonValue} (hne : k.1 ≠ k'.1) :
    Commute (innerStep env) (fun _ => True) k k' := by
  by_cases hreason : k.1 = "reason".toList
  · have hreason' : k'.1 ≠ "reason".toList := fun h => hne (hreason.trans h.symm)
    by_cases hdelay' : k'.1 = "delay".toList
    · exact innerStep_commute_reason_delay hreason hdelay'
    by_cases hlatch' : k'.1 = "latch".toList
    · exact innerStep_commute_reason_latch hreason hlatch'
    · exact (innerStep_commute_other hreason' hdelay' hlatch').symm
  by_cases hdelay : k.1 = "delay".toList
  · have hdelay' : k'.1 ≠ "delay".toList := fun h => hne (hdelay.trans h.symm)
    by_cases hreason' : k'.1 = "reason".toList
    · exact (innerStep_commute_reason_delay hreason' hdelay).symm
    by_cases hlatch' : k'.1 = "latch".toList
    · exact innerStep_commute_delay_latch hdelay hlatch'
    · exact (innerStep_commute_other hreason' hdelay' hlatch').symm
  by_cases hlatch : k.1 = "latch".toList
  · have hlatch' : k'.1 ≠ "latch".toList := fun h => hne (hlatch.trans h.symm)
    by_cases hreason' : k'.1 = "reason".toList
    · exact (innerStep_commute_reason_latch hreason' hlatch).symm
    by_cases hdelay' : k'.1 = "delay".toList
    · exact (innerStep_commute_delay_latch hdelay' hlatch).symm
    · exact (innerStep_commute_other hreason' hdelay' hlatch').symm
  · exact innerStep_commute_other hreason hdelay hlatch

/-- The order of the keys inside `emergency` does not matter. -/
theorem step_inner {e e₁ : InputEntry} (hkey : e₁.key = e.key) (hvalue : e₁.value = e.value)
    (hinner : e.inner.Perm e₁.inner) (hnodup : (e.inner.map Prod.fst).Nodup) (p : Parts) :
    Parts.step env drv d p e = Parts.step env drv d p e₁ := by
  obtain ⟨key, value, inner⟩ := e
  obtain ⟨key₁, value₁, inner₁⟩ := e₁
  obtain rfl : key₁ = key := hkey
  obtain rfl : value₁ = value := hvalue
  have hemergency : emergencyStep env p.2.2.1 ⟨key₁, value₁, inner⟩ =
      emergencyStep env p.2.2.1 ⟨key₁, value₁, inner₁⟩ := by
    rw [emergencyStep, emergencyStep]
    have hfold : inner.foldlM (innerStep env) (env.reason.mask .latch, p.2.2.1.2) =
        inner₁.foldlM (innerStep env) (env.reason.mask .latch, p.2.2.1.2) := by
      refine foldlM_perm hinner (fun _ _ _ _ _ _ => trivial) (fun x hx y hy hxy => ?_) trivial
      exact innerStep_commute fun hfst => hxy (List.inj_on_of_nodup_map hnodup hx hy hfst)
    simp only [hfold]
  simp only [Parts.step, both, hemergency]
  rfl

theorem foldlM_step_inner (h : List.Forall₂ (fun e e₁ : InputEntry =>
      e₁.key = e.key ∧ e₁.value = e.value ∧ e.inner.Perm e₁.inner) es es')
    (hnodup : ∀ e ∈ es, (e.inner.map Prod.fst).Nodup) (p : Parts) :
    es.foldlM (Parts.step env drv d) p = es'.foldlM (Parts.step env drv d) p := by
  induction h generalizing p with
  | nil => rfl
  | cons hentry _ ih =>
    obtain ⟨hkey, hvalue, hinner⟩ := hentry
    rw [List.foldlM_cons, List.foldlM_cons,
      step_inner hkey hvalue hinner (hnodup _ List.mem_cons_self)]
    exact Option.bind_congr fun p' _ => ih (fun e he => hnodup e (List.mem_cons_of_mem _ he)) p'

/-- Only the order of the keys of the input itself is left. -/
theorem keyOrderIndependent_iff (hinner : ∀ e ∈ es, (e.inner.map Prod.fst).Nodup) :
    KeyOrderIndependent env drv d s settings es ↔ ∀ es', es.Perm es' →
      SameParts (es.foldlM (Parts.step env drv d) (initialParts s settings))
        (es'.foldlM (Parts.step env drv d) (initialParts s settings)) := by
  have hi : s.service.allInputs.length < (startInput drv d s).service.allInputs.length := by
    simp [startInput, InputConfig.addInput]
  have hsame : ∀ es', SameConfiguration s.service.allInputs.length
      (runEntries env d (startInput drv d s, settings) es)
      (runEntries env d (startInput drv d s, settings) es') ↔
        SameParts (es.foldlM (Parts.step env drv d) (initialParts s settings))
          (es'.foldlM (Parts.step env drv d) (initialParts s settings)) := by
    intro es'
    rw [runEntries_startInput, runEntries_startInput]
    exact sameConfiguration_put_iff hi _ _
  constructor
  · intro h es' hperm
    exact (hsame es').mp (h es' ⟨es, List.forall₂_same.mpr fun _ _ => ⟨rfl, rfl, .refl _⟩, hperm⟩)
  · rintro h es' ⟨es₁, hes₁, hperm⟩
    -- the keys are put in order first, and then those inside their objects
    have hcomp := List.forall₂_comp_perm_eq_perm_comp_forall₂ (r := fun e e₁ : InputEntry =>
      e₁.key = e.key ∧ e₁.value = e.value ∧ e.inner.Perm e₁.inner)
    obtain ⟨es₂, hperm₂, hes₂⟩ := (congrFun₂ hcomp es es').mp ⟨es₁, hes₁, hperm⟩
    refine (hsame es').mpr ?_
    rw [← foldlM_step_inner hes₂ fun e he => hinner e (hperm₂.mem_iff.mpr he)]
    exact h es₂ hperm₂

/-! ### The parts in any order -/

theorem groupStep_commute {x y : InputEntry} (hne : x.key ≠ y.key) :
    Commute groupStep (fun _ => True) x y :=
  commute_of_inert hne (fun _ _ _ _ => trivial) (fun _ _ _ _ => trivial)
    (fun h => .inl fun g _ => groupStep_of_ne h g) fun h => .inl fun g _ => groupStep_of_ne h g

theorem emergencyStep_commute {x y : InputEntry} (hne : x.key ≠ y.key) :
    Commute (emergencyStep env) (fun _ => True) x y :=
  commute_of_inert hne (fun _ _ _ _ => trivial) (fun _ _ _ _ => trivial)
    (fun h => .inl fun x _ => emergencyStep_of_ne h x)
    fun h => .inl fun x _ => emergencyStep_of_ne h x

/-- Keys that are distinct as entries are distinct as keys. -/
theorem key_ne_of_ne (hkeys : (es.map InputEntry.key).Nodup) {x y : InputEntry} (hx : x ∈ es)
    (hy : y ∈ es) (hne : x ≠ y) : x.key ≠ y.key :=
  fun h => hne (List.inj_on_of_nodup_map hkeys hx hy h)

/-- If the order does not matter for the inversion and the data, it does not matter. -/
theorem sameParts_of_eq (hkeys : (es.map InputEntry.key).Nodup) (hperm : es.Perm es') {p : Parts}
    (hinvert : es.foldlM (invertStep drv d) p.1 = es'.foldlM (invertStep drv d) p.1)
    (hdata : es.foldlM (dataStep drv d) p.2.2.2 = es'.foldlM (dataStep drv d) p.2.2.2) :
    SameParts (es.foldlM (Parts.step env drv d) p) (es'.foldlM (Parts.step env drv d) p) := by
  have hgroup : es.foldlM groupStep p.2.1 = es'.foldlM groupStep p.2.1 :=
    foldlM_perm hperm (fun _ _ _ _ _ _ => trivial)
      (fun x hx y hy hne => groupStep_commute (key_ne_of_ne hkeys hx hy hne)) trivial
  have hemergency : es.foldlM (emergencyStep env) p.2.2.1 =
      es'.foldlM (emergencyStep env) p.2.2.1 :=
    foldlM_perm hperm (fun _ _ _ _ _ _ => trivial)
      (fun x hx y hy hne => emergencyStep_commute (key_ne_of_ne hkeys hx hy hne)) trivial
  rw [foldlM_step, foldlM_step, hinvert, hgroup, hemergency, hdata]
  exact ⟨rfl, fun p p' hp hp' => by
    obtain rfl := Option.some.inj (hp.symm.trans hp')
    exact ⟨rfl, rfl, rfl, rfl⟩⟩

/-- What is rejected in every order is the same in every order. -/
theorem sameParts_none : SameParts none none := ⟨rfl, nofun⟩

end

end OpenMower
