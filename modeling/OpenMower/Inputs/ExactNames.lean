import OpenMower.Drivers.InputTables
import OpenMower.Inputs.LiftCounting
import OpenMower.Library.TruncatedKeys

/-!
# Names in the configuration of Sabo and Worx inputs

The names of types and ids are cut to the capacity of the keys before they are looked up. In each
of the four tables some key has the full capacity, so that a longer name that begins with it is
taken for this key; all other names are matched exactly (`names_exact_iff`).
-/

namespace OpenMower

open TruncatedKeys

/-- A value is accepted exactly if it is a key of the table, and then the value of the key is
stored. -/
structure MatchedExactly (table : List (CString × BitVec 8)) (store : BitVec 8 → Input)
    (name : CString) (result : Bool × Input) : Prop where
  accepted_iff : result.1 = true ↔ name ∈ table.map Prod.fst
  stores : ∀ value, (name, value) ∈ table → result.2 = store value

/-- The name goes on behind one of these. -/
def GoesOnBehind (keys : List String) (name : CString) : Prop :=
  ∃ key ∈ keys, key.toList <+: name ∧ key.toList ≠ name

instance (keys : List String) (name : CString) : Decidable (GoesOnBehind keys name) :=
  inferInstanceAs (Decidable (∃ key ∈ keys, _ ∧ _))

/-- What all four lookups do with a name. -/
def findValue (capacity : ℕ) (table : List (CString × BitVec 8)) (store : BitVec 8 → Input)
    (input : Input) (name : CString) : Bool × Input :=
  match find capacity table name with
  | some value => (true, store value)
  | none => (false, input)

section

variable {capacity : ℕ} {table : List (CString × BitVec 8)} {store : BitVec 8 → Input}
  {input : Input} {name : CString}

/-- A lookup is exact for the names that extend no key of the full capacity. -/
theorem findValue_exact_iff (h : Fits capacity table) :
    MatchedExactly table store name (findValue capacity table store input name) ↔
      ¬ Extends capacity table name := by
  rw [← find_exact_iff h, findValue]
  constructor
  · rintro ⟨haccepted, -⟩ value
    constructor
    · intro hfound
      rw [hfound] at haccepted
      obtain ⟨⟨key, value'⟩, hmem, rfl⟩ := List.mem_map.mp (haccepted.mp rfl)
      have hkey := h.length_le _ hmem
      rw [find_of_le hkey, h.lookup_eq_some_iff] at hfound
      exact hfound
    · intro hmem
      rw [find_of_le (h.length_le _ hmem), h.lookup_eq_some_iff]
      exact hmem
  · intro hexact
    refine ⟨?_, fun value hmem => by rw [(hexact value).mpr hmem]⟩
    cases hfound : find capacity table name with
    | some value =>
      exact iff_of_true rfl (List.mem_map_of_mem (f := Prod.fst) ((hexact value).mp hfound))
    | none =>
      refine iff_of_false (by simp) fun hmem => ?_
      obtain ⟨⟨key, value⟩, hentry, rfl⟩ := List.mem_map.mp hmem
      rw [(hexact value).mpr hentry] at hfound
      simp at hfound

/-- The keys of the full capacity, as a list. -/
theorem extends_iff_goesOnBehind (keys : List String)
    (hkeys : (table.filter fun entry => decide (entry.1.length = capacity)).map Prod.fst =
      keys.map String.toList) :
    Extends capacity table name ↔ GoesOnBehind keys name := by
  have hmem : ∀ key, (∃ entry ∈ table, entry.1.length = capacity ∧ entry.1 = key) ↔
      key ∈ keys.map String.toList := by
    intro key
    simp only [← hkeys, List.mem_map, List.mem_filter, decide_eq_true_eq, and_assoc]
  constructor
  · rintro ⟨entry, hentry, hcap, hfront, hne⟩
    obtain ⟨key, hkey, heq⟩ := List.mem_map.mp ((hmem entry.1).mp ⟨entry, hentry, hcap, rfl⟩)
    exact ⟨key, hkey, heq ▸ hfront, heq ▸ hne⟩
  · rintro ⟨key, hkey, hfront, hne⟩
    obtain ⟨entry, hentry, hcap, heq⟩ := (hmem key.toList).mpr (List.mem_map_of_mem hkey)
    exact ⟨entry, hentry, hcap, heq ▸ hfront, heq ▸ hne⟩

end

/-! ### The four tables -/

section

variable {event : JsonEvent} {input : Input}

theorem fits_inputTypes : Fits 6 SaboInput.inputTypes := ⟨by decide, by decide⟩

theorem fits_sensorIds : Fits 9 SaboInput.sensorIds := ⟨by decide, by decide⟩

theorem fits_buttonIds : Fits 6 SaboInput.buttonIds := ⟨by decide, by decide⟩

theorem fits_inputBits : Fits 13 WorxInput.inputBits := ⟨by decide, by decide⟩

/-- The type of a Sabo input. -/
theorem saboType_exact_iff (hkey : event.key = "type".toList) (hstring : event.type = .string) :
    MatchedExactly SaboInput.inputTypes input.setSaboType event.buff
      (SaboInput.inputConfigValue event input) ↔
        ¬ GoesOnBehind ["sensor", "button"] event.buff := by
  have hvalue : SaboInput.inputConfigValue event input =
      findValue 6 SaboInput.inputTypes input.setSaboType input event.buff := by
    rw [SaboInput.inputConfigValue, if_pos hkey, if_neg (not_not_intro hstring)]
    rfl
  rw [hvalue, findValue_exact_iff fits_inputTypes,
    extends_iff_goesOnBehind ["sensor", "button"] (by decide)]

/-- The id of a sensor. -/
theorem sensorId_exact_iff (hkey : event.key = "id".toList) (hstring : event.type = .string)
    (htype : input.saboType = SaboInput.sensor) :
    MatchedExactly SaboInput.sensorIds input.setSaboId event.buff
      (SaboInput.inputConfigValue event input) ↔ ¬ GoesOnBehind ["stop_rear"] event.buff := by
  have hne : event.key ≠ "type".toList := by rw [hkey]; decide
  have hvalue : SaboInput.inputConfigValue event input =
      findValue 9 SaboInput.sensorIds input.setSaboId input event.buff := by
    rw [SaboInput.inputConfigValue, if_neg hne, if_pos hkey, if_neg (not_not_intro hstring),
      SaboInput.findId, if_pos htype]
    rfl
  rw [hvalue, findValue_exact_iff fits_sensorIds,
    extends_iff_goesOnBehind ["stop_rear"] (by decide)]

/-- The id of a button. -/
theorem buttonId_exact_iff (hkey : event.key = "id".toList) (hstring : event.type = .string)
    (htype : input.saboType = SaboInput.button) :
    MatchedExactly SaboInput.buttonIds input.setSaboId event.buff
      (SaboInput.inputConfigValue event input) ↔ ¬ GoesOnBehind ["select"] event.buff := by
  have hne : event.key ≠ "type".toList := by rw [hkey]; decide
  have hnot : ¬ input.saboType = SaboInput.sensor := by rw [htype]; decide
  have hvalue : SaboInput.inputConfigValue event input =
      findValue 6 SaboInput.buttonIds input.setSaboId input event.buff := by
    rw [SaboInput.inputConfigValue, if_neg hne, if_pos hkey, if_neg (not_not_intro hstring),
      SaboInput.findId, if_neg hnot, if_pos htype]
    rfl
  rw [hvalue, findValue_exact_iff fits_buttonIds,
    extends_iff_goesOnBehind ["select"] (by decide)]

/-- The id of a Worx input. -/
theorem worxId_exact_iff (hkey : event.key = "id".toList) (hstring : event.type = .string) :
    MatchedExactly WorxInput.inputBits input.setWorxBit event.buff
      (WorxInput.inputConfigValue event input) ↔
        ¬ GoesOnBehind ["battery_cover"] event.buff := by
  have hvalue : WorxInput.inputConfigValue event input =
      findValue 13 WorxInput.inputBits input.setWorxBit input event.buff := by
    rw [WorxInput.inputConfigValue, if_pos hkey, if_neg (not_not_intro hstring)]
    rfl
  rw [hvalue, findValue_exact_iff fits_inputBits,
    extends_iff_goesOnBehind ["battery_cover"] (by decide)]

end

/-- **When names are matched exactly.** For every string value, of any length, each of the four
lookups accepts the keys of its table and nothing else, and stores the value of the key, exactly
if the string does not go on behind a key of the full capacity. -/
theorem names_exact_iff (event : JsonEvent) (hstring : event.type = .string) (input : Input) :
    (event.key = "type".toList →
      (MatchedExactly SaboInput.inputTypes input.setSaboType event.buff
        (SaboInput.inputConfigValue event input) ↔
          ¬ GoesOnBehind ["sensor", "button"] event.buff)) ∧
    (event.key = "id".toList → input.saboType = SaboInput.sensor →
      (MatchedExactly SaboInput.sensorIds input.setSaboId event.buff
        (SaboInput.inputConfigValue event input) ↔ ¬ GoesOnBehind ["stop_rear"] event.buff)) ∧
    (event.key = "id".toList → input.saboType = SaboInput.button →
      (MatchedExactly SaboInput.buttonIds input.setSaboId event.buff
        (SaboInput.inputConfigValue event input) ↔ ¬ GoesOnBehind ["select"] event.buff)) ∧
    (event.key = "id".toList →
      (MatchedExactly WorxInput.inputBits input.setWorxBit event.buff
        (WorxInput.inputConfigValue event input) ↔
          ¬ GoesOnBehind ["battery_cover"] event.buff)) :=
  ⟨fun hkey => saboType_exact_iff hkey hstring,
    fun hkey htype => sensorId_exact_iff hkey hstring htype,
    fun hkey htype => buttonId_exact_iff hkey hstring htype,
    fun hkey => worxId_exact_iff hkey hstring⟩

/-- Longer names are accepted, in each of the four tables. -/
theorem longer_names_accepted :
    SaboInput.inputConfigValue (jsonEvent 5 .string "sensors" "type" "") { idx := 0#8 } =
        (true, { idx := 0#8 : Input }.setSaboType SaboInput.sensor) ∧
      SaboInput.inputConfigValue (jsonEvent 5 .string "stop_rear_left" "id" "") { idx := 0#8 } =
        (true, { idx := 0#8 : Input }.setSaboId 3#8) ∧
      SaboInput.inputConfigValue (jsonEvent 5 .string "selected" "id" "")
          ({ idx := 0#8 : Input }.setSaboType SaboInput.button) =
        (true, ({ idx := 0#8 : Input }.setSaboType SaboInput.button).setSaboId 6#8) ∧
      WorxInput.inputConfigValue (jsonEvent 5 .string "battery_cover2" "id" "") { idx := 0#8 } =
        (true, { idx := 0#8 : Input }.setWorxBit 9#8) ∧
      ¬ MatchedExactly SaboInput.inputTypes { idx := 0#8 : Input }.setSaboType "sensors".toList
        (SaboInput.inputConfigValue (jsonEvent 5 .string "sensors" "type" "") { idx := 0#8 }) := by
  refine ⟨by decide, by decide, by decide, by decide, fun hexact => ?_⟩
  have hmem := hexact.accepted_iff.mp (by decide)
  exact absurd hmem (by decide)

/-- `stop_top` is shorter than the capacity, and matched exactly. -/
theorem names_exact_iff_stopTop :
    MatchedExactly SaboInput.sensorIds { idx := 0#8 : Input }.setSaboId "stop_top".toList
        (SaboInput.inputConfigValue (jsonEvent 5 .string "stop_top" "id" "") { idx := 0#8 }) ↔
      ¬ GoesOnBehind ["stop_rear"] "stop_top".toList :=
  (names_exact_iff (jsonEvent 5 .string "stop_top" "id" "") rfl { idx := 0#8 }).2.1 rfl
    (by decide)

end OpenMower
