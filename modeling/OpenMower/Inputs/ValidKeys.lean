import OpenMower.Inputs.KeyOrder

/-!
# Valid keys of an input

A key of a new input is accepted if it is the only one, exactly if it is valid (`validEntry_iff`). A
key that is invalid is rejected among the others too, as far as the callback itself is concerned; of
the driver this must be shown (`foldlM_step_of_invalid`).
-/

namespace OpenMower

open PartialSteps WordMask Parts

section

variable {env : InputConfigEnv} {drv : DriverEnv} {d : ConfigDriver} {s : InputConfig}
  {settings : YfCoverUi.Settings} {es es' : List InputEntry}

theorem invertStep_isSome (e : InputEntry) (invert : Bool) :
    (invertStep drv d invert e).isSome ↔
      (e.key = "invert".toList → (jsonGetBool e.value.type).isSome) := by
  rw [invertStep]
  split_ifs with hkey hcommon
  · exact ⟨fun h _ => h, fun h => h hkey⟩
  · exact iff_of_true rfl fun h => absurd h hkey
  · exact iff_of_true rfl fun h => absurd h hkey

theorem groupStep_isSome (e : InputEntry) (g : GroupPart) :
    (groupStep g e).isSome ↔
      (e.key = "redundancy_group".toList → e.value.type = .string ∧ e.value.buffPos ≤ 10 ∧
        ((g.redundancyGroupMap.lookup (e.value.buff.take 10)).isSome ∨
          g.nextRedundancyGroupId ≤ InputConfig.maxRedundancyGroups)) := by
  by_cases hkey : e.key = "redundancy_group".toList
  · rw [groupStep, if_pos hkey, forall_prop_of_true hkey]
    by_cases hs : e.value.type = .string
    · rw [if_neg (not_not_intro hs)]
      by_cases hlen : 10 < e.value.buffPos
      · rw [if_pos hlen]
        exact iff_of_false Bool.false_ne_true fun h => absurd h.2.1 (not_le.mpr hlen)
      · rw [if_neg hlen]
        cases g.redundancyGroupMap.lookup (e.value.buff.take 10) with
        | some id => exact iff_of_true rfl ⟨hs, not_lt.mp hlen, .inl rfl⟩
        | none =>
          by_cases hfull : InputConfig.maxRedundancyGroups < g.nextRedundancyGroupId
          · simp only [if_pos hfull]
            refine iff_of_false Bool.false_ne_true fun h => ?_
            rcases h.2.2 with h | h
            · exact absurd h Bool.false_ne_true
            · exact absurd hfull (BitVec.not_lt.mpr h)
          · simp only [if_neg hfull]
            exact iff_of_true rfl ⟨hs, not_lt.mp hlen, .inr (BitVec.not_lt.mp hfull)⟩
    · rw [if_pos hs]
      exact iff_of_false Bool.false_ne_true fun h => absurd h.1 hs
  · rw [groupStep_of_ne hkey]
    exact iff_of_true rfl fun h => absurd h hkey

theorem innerStep_isSome (k : CString × JsonValue) (x : Reasons × BitVec 16) :
    (innerStep env x k).isSome ↔ ValidInner env k := by
  rw [ValidInner]
  by_cases hreason : k.1 = "reason".toList
  · have hdelay : k.1 ≠ "delay".toList := by rw [hreason]; decide
    have hlatch : k.1 ≠ "latch".toList := by rw [hreason]; decide
    rw [innerStep_reason hreason, Option.isSome_map]
    exact ⟨fun h => .inl ⟨hreason, h⟩, fun h => h.elim And.right fun h =>
      (h.elim (fun h => absurd h.1 hdelay) fun h => absurd h.1 hlatch)⟩
  by_cases hdelay : k.1 = "delay".toList
  · have hlatch : k.1 ≠ "latch".toList := by rw [hdelay]; decide
    rw [innerStep_delay hdelay, Option.isSome_map]
    by_cases hnumber : k.2.type = .number
    · rw [if_pos hnumber]
      exact ⟨fun h => .inr (.inl ⟨hdelay, hnumber, h⟩), fun h => h.elim
        (fun h => absurd h.1 hreason) fun h => (h.elim (·.2.2) fun h => absurd h.1 hlatch)⟩
    · rw [if_neg hnumber]
      refine iff_of_false Bool.false_ne_true fun h => ?_
      rcases h with h | h | h
      · exact hreason h.1
      · exact hnumber h.2.1
      · exact hlatch h.1
  by_cases hlatch : k.1 = "latch".toList
  · rw [innerStep_latch hlatch, Option.isSome_map]
    exact ⟨fun h => .inr (.inr ⟨hlatch, h⟩), fun h => h.elim
      (fun h => absurd h.1 hreason) fun h => (h.elim (fun h => absurd h.1 hdelay) And.right)⟩
  · rw [innerStep_other hreason hdelay hlatch]
    refine iff_of_false Bool.false_ne_true fun h => ?_
    rcases h with h | h | h
    · exact hreason h.1
    · exact hdelay h.1
    · exact hlatch h.1

theorem emergencyStep_isSome (e : InputEntry) (x : Reasons × BitVec 16) :
    (emergencyStep env x e).isSome ↔
      (e.key = "emergency".toList → e.value.type = .object ∧ ∀ k ∈ e.inner, ValidInner env k) := by
  by_cases hkey : e.key = "emergency".toList
  · rw [emergencyStep, if_pos hkey, forall_prop_of_true hkey]
    by_cases hobject : e.value.type = .object
    · rw [if_pos hobject]
      constructor
      · intro h
        refine ⟨hobject, fun k hk => ?_⟩
        by_contra hinvalid
        have hnone : ∀ x, innerStep env x k = none := fun x => by
          rw [← Option.not_isSome_iff_eq_none, innerStep_isSome]
          exact hinvalid
        rw [foldlM_eq_none hk (I := fun _ => True) (fun _ _ _ _ _ _ => trivial)
          (fun x _ => hnone x) trivial] at h
        cases h
      · intro h
        exact foldlM_isSome (fun k hk x => (innerStep_isSome k x).mpr (h.2 k hk)) _
    · rw [if_neg hobject]
      exact iff_of_false Bool.false_ne_true fun h => hobject h.1
  · rw [emergencyStep_of_ne hkey]
    exact iff_of_true rfl fun h => absurd h hkey

theorem isSome_bind_iff {α β : Type*} {x : Option α} {f : α → Option β} :
    (x.bind f).isSome ↔ ∃ a, x = some a ∧ (f a).isSome := by
  cases x <;> simp

theorem dataStep_sabo_isSome {e : InputEntry} (hcommon : ¬ e.isCommon) :
    (dataStep drv .sabo (0#64, settings) e).isSome ↔ ValidKey drv .sabo e := by
  rw [ValidKey]
  by_cases htype : e.key = "type".toList
  · have hid : e.key ≠ "id".toList := by rw [htype]; decide
    rw [dataStep_saboType htype, Option.isSome_map, or_iff_left fun h => hid h.1,
      and_iff_right htype]
  by_cases hid : e.key = "id".toList
  · rw [dataStep_saboId hid, Option.isSome_map, or_iff_right fun h => htype h.1, and_iff_right hid]
    rfl
  · rw [dataStep_saboOther hcommon htype hid]
    exact iff_of_false Bool.false_ne_true fun h => h.elim (fun h => htype h.1) fun h => hid h.1

theorem dataStep_gpio_isSome {e : InputEntry} (hcommon : ¬ e.isCommon) :
    (dataStep drv .gpio (0#64, settings) e).isSome ↔ ValidKey drv .gpio e := by
  rw [ValidKey]
  by_cases hline : e.key = "line".toList
  · have hactive : e.key ≠ "active".toList := by rw [hline]; decide
    rw [dataStep_gpioLine hline, Option.isSome_map, or_iff_left fun h => hactive h.1,
      and_iff_right hline, isSome_bind_iff]
    refine exists_congr fun name => and_congr_right fun _ => ?_
    by_cases hname : drv.getIoLineByName name ≠ drv.noLine
    · rw [if_pos hname]
      exact iff_of_true rfl hname
    · rw [if_neg hname]
      exact iff_of_false Bool.false_ne_true hname
  by_cases hactive : e.key = "active".toList
  · rw [dataStep_gpioActive hactive, Option.isSome_map, or_iff_right fun h => hline h.1,
      and_iff_right hactive]
  · rw [dataStep_gpioOther hcommon hline hactive]
    exact iff_of_false Bool.false_ne_true fun h => h.elim (fun h => hline h.1) fun h => hactive h.1

theorem dataStep_yf_isSome {e : InputEntry} (hcommon : ¬ e.isCommon) :
    (dataStep drv .yfCoverUi (0#64, settings) e).isSome ↔ ValidKey drv .yfCoverUi e := by
  rw [ValidKey]
  by_cases hchannel : e.key = "channel".toList
  · have hbutton : e.key ≠ "button_id".toList := by rw [hchannel]; decide
    have hid : e.key ≠ "id".toList := by rw [hchannel]; decide
    rw [dataStep_yfChannel hchannel, Option.isSome_map,
      or_iff_left fun h => h.elim (fun h => hbutton h.1) fun h => hid h.1, and_iff_right hchannel,
      isSome_bind_iff]
    exact exists_congr fun name => and_congr_right fun _ => findChannel_isSome _ name
  rw [or_iff_right fun h => hchannel h.1]
  by_cases hbutton : e.key = "button_id".toList
  · have hid : e.key ≠ "id".toList := by rw [hbutton]; decide
    rw [dataStep_yfButtonId hbutton, Option.isSome_map, or_iff_left fun h => hid h.1,
      and_iff_right hbutton]
  rw [or_iff_right fun h => hbutton h.1]
  by_cases hid : e.key = "id".toList
  · rw [dataStep_yfId hid, Option.isSome_map, and_iff_right hid]
  refine iff_of_false ?_ fun h => hid h.1
  by_cases hvalue : e.key = "value".toList
  · rw [dataStep_yfValue_of_not (x := (0#64, settings)) hvalue
      fun value _ => not_acceptsValue_zero BitVec.extractLsb'_zero value]
    exact Bool.false_ne_true
  · rw [dataStep_yfOther hcommon hchannel hbutton hid hvalue]
    exact Bool.false_ne_true

/-- A key of the driver is accepted for a new input if it is valid. -/
theorem dataStep_isSome (e : InputEntry) :
    (dataStep drv d (0#64, settings) e).isSome ↔ (¬ e.isCommon → ValidKey drv d e) := by
  by_cases hcommon : e.isCommon
  · rw [dataStep_of_common hcommon]
    exact iff_of_true rfl fun h => absurd hcommon h
  rw [forall_prop_of_true hcommon]
  cases d with
  | sabo => exact dataStep_sabo_isSome hcommon
  | worx =>
    rw [ValidKey]
    by_cases hid : e.key = "id".toList
    · rw [dataStep_worxId hid, Option.isSome_map, and_iff_right hid]
    · rw [dataStep_worxOther hcommon hid]
      exact iff_of_false Bool.false_ne_true fun h => hid h.1
  | gpio => exact dataStep_gpio_isSome hcommon
  | yfCoverUi => exact dataStep_yf_isSome hcommon

/-- A key is valid if the steps of all parts accept it. -/
theorem validEntry_iff (settings : YfCoverUi.Settings) (e : InputEntry) :
    ValidEntry env drv d s e ↔
      (invertStep drv d false e).isSome ∧
        (groupStep (initialParts s settings).2.1 e).isSome ∧
        (emergencyStep env (0#16, 0#16) e).isSome ∧
        (dataStep drv d (0#64, settings) e).isSome := by
  rw [invertStep_isSome, groupStep_isSome, emergencyStep_isSome, dataStep_isSome]
  rfl

/-- A key whose inversion is rejected is rejected with every inversion. -/
theorem invertStep_eq_none {invert : Bool} {e : InputEntry}
    (h : invertStep drv d invert e = none) (invert' : Bool) :
    invertStep drv d invert' e = none := by
  rw [invertStep] at h ⊢
  split_ifs at h ⊢
  exact h

/-- An invalid key is rejected among the others, if it is so as far as the data of the driver are
concerned. -/
theorem foldlM_step_of_invalid (hkeys : (es.map InputEntry.key).Nodup) {e : InputEntry}
    (he : e ∈ es) (hinvalid : ¬ ValidEntry env drv d s e)
    (hdata : dataStep drv d (0#64, settings) e = none →
      es.foldlM (dataStep drv d) (0#64, settings) = none) :
    es.foldlM (Parts.step env drv d) (initialParts s settings) = none := by
  rw [validEntry_iff settings] at hinvalid
  rw [foldlM_step_initial]
  by_cases hinvert : (invertStep drv d false e).isSome
  · by_cases hgroup : (groupStep (initialParts s settings).2.1 e).isSome
    · by_cases hemergency : (emergencyStep env (0#16, 0#16) e).isSome
      · have hnone : dataStep drv d (0#64, settings) e = none := by
          rw [← Option.not_isSome_iff_eq_none]
          exact fun h => hinvalid ⟨hinvert, hgroup, hemergency, h⟩
        have hfold := hdata hnone
        rw [hfold, zipOption_none_right, zipOption_none_right, zipOption_none_right]
      · have hfold : es.foldlM (emergencyStep env) (0#16, 0#16) = none :=
          foldlM_eq_none_of_start (fun _ _ _ _ _ _ => trivial)
            (fun x hx y hy hne => emergencyStep_commute (key_ne_of_ne hkeys hx hy hne)) trivial he
            (Option.not_isSome_iff_eq_none.mp hemergency)
        rw [hfold, zipOption_none_left, zipOption_none_right, zipOption_none_right]
    · have hfold : es.foldlM groupStep (initialParts s settings).2.1 = none :=
        foldlM_eq_none_of_start (fun _ _ _ _ _ _ => trivial)
          (fun x hx y hy hne => groupStep_commute (key_ne_of_ne hkeys hx hy hne)) trivial he
          (Option.not_isSome_iff_eq_none.mp hgroup)
      rw [hfold, zipOption_none_left, zipOption_none_right]
  · have hfold : es.foldlM (invertStep drv d) false = none :=
      foldlM_eq_none he (I := fun _ => True) (fun _ _ _ _ _ _ => trivial)
        (fun b _ => invertStep_eq_none (Option.not_isSome_iff_eq_none.mp hinvert) b) trivial
    rw [hfold, zipOption_none_left]

end

end OpenMower
