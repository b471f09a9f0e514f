import OpenMower.CoverUi.Debouncing
import OpenMower.CoverUi.LedModes

/-!
# The buttons of a Series-II panel

`LatchLoad` reads the columns of the row that the exchange before has selected, and selects the
other row. `ProcessButtonCol` therefore advances the row before it stores the columns. After two
exchanges the mask is that of the panel, and the debouncing takes it over when it has been the same
six times in a row.

So a button that is reported as pressed was pressed whenever its row was read in some six exchanges
in a row, and since then no seven exchanges have met the same buttons; and after seven of these,
with another exchange before them, exactly the buttons that are pressed are reported
(`keypad_reports_keys`). That the mask begins as if all buttons were pressed is never seen; the
first columns may be those of any rows, which is why the first exchange is not one of the seven.
-/

namespace OpenMower

open Runs CaboDriver

namespace PanelKeys

/-- The columns that are read in the exchange of this number, when only one row is selected. -/
def columns (keys : PanelKeys) (i : ℕ) : BitVec 8 :=
  keys (decide (i % 2 = 1)) (decide (i % 2 = 0))

/-- The exchange reads the row of the bit: the low byte or the high byte. -/
def Reads (i b : ℕ) : Prop := b / 8 = i % 2

instance (i b : ℕ) : Decidable (Reads i b) := inferInstanceAs (Decidable (_ = _))

/-- A bit of the mask: only six columns have buttons. -/
def bit (keys : PanelKeys) (b : ℕ) : Bool :=
  decide (6 ≤ b % 8) || (keys.columns (b / 8)).getLsbD (b % 8)

/-- The button is pressed, which pulls its column down. -/
def Pressed (keys : PanelKeys) (btn : ButtonId) : Prop := keys.bit btn.value = false

instance (keys : PanelKeys) (btn : ButtonId) : Decidable (keys.Pressed btn) :=
  inferInstanceAs (Decidable (_ = _))

end PanelKeys

open PanelKeys

namespace Series2Ui

variable {s : Series2Ui}

/-- The invariant of the scanning: an exchange reads one row and keeps the other. -/
structure Scanned (s : Series2Ui) : Prop where
  row : s.currentButtonRow = BitVec.ofNat 8 (s.scans.length % 2)
  lines : s.scans ≠ [] → s.latched.getLsbD 5 = decide (s.scans.length % 2 = 1) ∧
    s.latched.getLsbD 6 = decide (s.scans.length % 2 = 0)
  cabo : s.cabo = (CaboDriver.start (some .series2)).debounce s.raws
  length : s.raws.length = s.scans.length
  last : s.raws.getLastD 0#16 = s.curBtnMask
  read : ∀ i keys raw, 0 < i → s.scans[i]? = some keys → s.raws[i]? = some raw → ∀ b < 16,
    Reads i b → raw.getLsbD b = keys.bit b
  kept : ∀ i raw raw', s.raws[i]? = some raw → s.raws[i + 1]? = some raw' → ∀ b < 16,
    ¬ Reads (i + 1) b → raw'.getLsbD b = raw.getLsbD b

/-- **`ProcessButtonCol`**: the columns are those of the row after the present one. -/
theorem getLsbD_processButtonCol {n : ℕ} (hrow : s.currentButtonRow = BitVec.ofNat 8 (n % 2))
    (columns : BitVec 8) {b : ℕ} (hb : b < 16) :
    (s.processButtonCol columns).curBtnMask.getLsbD b =
      if Reads n b then decide (6 ≤ b % 8) || columns.getLsbD (b % 8)
      else s.curBtnMask.getLsbD b := by
  have hhigh : ∀ b < 16, (0xFF00#16).getLsbD b = decide (8 ≤ b) := by decide
  have hlow : ∀ b < 16, (0x00FF#16).getLsbD b = decide (b < 8) := by decide
  have hused : ∀ b < 16, (0b00111111#8).getLsbD b = decide (b < 6) := by decide
  have hunused : ∀ b < 8, (0b11000000#8).getLsbD b = decide (6 ≤ b) := by decide
  have hmasked : ∀ c < 8, (columns &&& 0b00111111#8 ||| 0b11000000#8).getLsbD c =
      (decide (6 ≤ c) || columns.getLsbD c) := by
    intro c hc
    rw [BitVec.getLsbD_or, BitVec.getLsbD_and, hused c (by omega), hunused c hc]
    cases columns.getLsbD c <;> simp; omega
  rcases Nat.mod_two_eq_zero_or_one n with hn | hn
  · have hnext : s.currentButtonRow ^^^ 1#8 ≠ 0#8 := by
      rw [hrow, hn]
      decide
    have hreads : Reads n b ↔ b < 8 := by
      rw [Reads, hn]
      omega
    rw [processButtonCol]
    dsimp only
    rw [if_pos hnext, if_pos hnext, BitVec.getLsbD_or, BitVec.getLsbD_and, hhigh b hb,
      BitVec.getLsbD_setWidth]
    simp only [hreads]
    split
    · next hlt =>
      rw [hmasked b hlt, Nat.mod_eq_of_lt hlt]
      simp [hb, hlt]
    · next hge => simp [hb, not_lt.mp hge]
  · have hnext : ¬ s.currentButtonRow ^^^ 1#8 ≠ 0#8 := by
      rw [hrow, hn]
      decide
    have hreads : Reads n b ↔ ¬ b < 8 := by
      rw [Reads, hn]
      omega
    rw [processButtonCol]
    dsimp only
    rw [if_neg hnext, if_neg hnext, BitVec.getLsbD_or, BitVec.getLsbD_and, hlow b hb,
      BitVec.getLsbD_shiftLeft, BitVec.getLsbD_setWidth]
    simp only [hreads]
    split
    · next hge =>
      rw [hmasked (b - 8) (by omega), show b % 8 = b - 8 by omega]
      simp [hb, hge]
      omega
    · next hlt => simp [hb, not_not.mp hlt]

/-- The row that is selected. -/
theorem getButtonRowMask_eq {n : ℕ} (hrow : s.currentButtonRow = BitVec.ofNat 8 (n % 2)) :
    s.getButtonRowMask = if n % 2 = 0 then 0b00100000#8 else 0b01000000#8 := by
  rcases Nat.mod_two_eq_zero_or_one n with hn | hn
  · rw [getButtonRowMask, hrow, hn]
    decide
  · rw [getButtonRowMask, hrow, hn]
    decide

theorem length_latchLoad (keys : PanelKeys) :
    (s.latchLoad keys).scans.length = s.scans.length + 1 := by
  rw [Series2Ui.latchLoad, List.length_append, List.length_singleton]

/-- The mask that an exchange debounces. -/
def nextMask (s : Series2Ui) (keys : PanelKeys) : BitVec 16 :=
  (s.processButtonCol (keys (s.latched.getLsbD 5) (s.latched.getLsbD 6))).curBtnMask

/-- **What an exchange reads.** -/
theorem Scanned.getLsbD_nextMask (h : s.Scanned) (keys : PanelKeys) {b : ℕ} (hb : b < 16) :
    (s.nextMask keys).getLsbD b =
      if Reads s.scans.length b then
        decide (6 ≤ b % 8) ||
          (keys (s.latched.getLsbD 5) (s.latched.getLsbD 6)).getLsbD (b % 8)
      else s.curBtnMask.getLsbD b :=
  getLsbD_processButtonCol h.row _ hb

/-- **An exchange.** -/
theorem Scanned.latchLoad (h : s.Scanned) (hdark : ∀ b, 5 ≤ b → s.currentLedMask.getLsbD b = false)
    (keys : PanelKeys) : (s.latchLoad keys).Scanned := by
  have hraws : (s.latchLoad keys).raws = s.raws ++ [s.nextMask keys] := rfl
  have hscans : (s.latchLoad keys).scans = s.scans ++ [keys] := rfl
  have hlength : (s.latchLoad keys).raws.length = (s.latchLoad keys).scans.length := by
    rw [hraws, hscans, List.length_append, List.length_append, h.length]
    rfl
  refine ⟨?_, fun _ => ?_, ?_, hlength, ?_, ?_, ?_⟩
  · show s.currentButtonRow ^^^ 1#8 = _
    rw [h.row, length_latchLoad]
    rcases Nat.mod_two_eq_zero_or_one s.scans.length with hn | hn
    · rw [hn, show (s.scans.length + 1) % 2 = 1 by omega]
      rfl
    · rw [hn, show (s.scans.length + 1) % 2 = 0 by omega]
      rfl
  · rw [length_latchLoad, getLsbD_latchLoad keys (by decide), getLsbD_latchLoad keys (by decide),
      hdark 5 (by decide), hdark 6 (by decide), getButtonRowMask_eq h.row]
    rcases Nat.mod_two_eq_zero_or_one s.scans.length with hn | hn
    · rw [hn, show (s.scans.length + 1) % 2 = 1 by omega]
      decide
    · rw [hn, show (s.scans.length + 1) % 2 = 0 by omega]
      decide
  · rw [hraws, CaboDriver.debounce, List.foldl_concat, ← CaboDriver.debounce, ← h.cabo]
    rfl
  · rw [hraws, List.getLastD_concat]
    rfl
  · intro i keys' raw hi hkeys hraw b hb hreads
    rw [hscans] at hkeys
    rw [hraws] at hraw
    rcases lt_or_ge i s.scans.length with hlt | hge
    · rw [List.getElem?_append_left hlt] at hkeys
      rw [List.getElem?_append_left (h.length ▸ hlt)] at hraw
      exact h.read i keys' raw hi hkeys hraw b hb hreads
    · obtain rfl : i = s.scans.length := by
        have hbound := (List.getElem?_eq_some_iff.mp hkeys).1
        rw [List.length_append, List.length_singleton] at hbound
        omega
      rw [List.getElem?_concat_length] at hkeys
      rw [← h.length, List.getElem?_concat_length] at hraw
      obtain ⟨h5, h6⟩ := h.lines (List.length_pos_iff.mp hi)
      rw [← Option.some.inj hkeys, ← Option.some.inj hraw, h.getLsbD_nextMask keys hb,
        if_pos hreads, h5, h6, PanelKeys.bit, columns]
      rw [Reads] at hreads
      rw [hreads, Nat.mod_mod]
  · intro i raw raw' hraw hraw' b hb hkeeps
    rw [hraws] at hraw hraw'
    rcases lt_or_ge (i + 1) s.raws.length with hlt | hge
    · rw [List.getElem?_append_left (by omega)] at hraw
      rw [List.getElem?_append_left hlt] at hraw'
      exact h.kept i raw raw' hraw hraw' b hb hkeeps
    · obtain hend : i + 1 = s.raws.length := by
        have hbound := (List.getElem?_eq_some_iff.mp hraw').1
        rw [List.length_append, List.length_singleton] at hbound
        omega
      rw [hend, List.getElem?_concat_length] at hraw'
      rw [List.getElem?_append_left (by omega)] at hraw
      have hlast : s.curBtnMask = raw := by
        rw [← h.last, List.getLastD_eq_getLast?, List.getLast?_eq_getElem?, ← hend,
          Nat.add_sub_cancel, hraw, Option.getD_some]
      rw [← Option.some.inj hraw', h.getLsbD_nextMask keys hb, ← h.length, ← hend, if_neg hkeeps,
        hlast]

theorem Scanned.start {latched : BitVec 8} {time : ℤ} :
    Scanned { latched := latched, time := time } where
  row := rfl
  lines := fun hne => absurd rfl hne
  cabo := rfl
  length := rfl
  last := rfl
  read _ _ _ _ hkeys := nomatch hkeys
  kept _ _ _ hraw := nomatch hraw

/-! ### What is reported -/

/-- The driver keeps to the panel that it has been given. -/
theorem Scanned.series_eq (h : s.Scanned) : s.cabo.series = some .series2 := by
  rw [h.cabo, CaboDriver.debounce_series]
  rfl

/-- A button is reported if its bit of the stable mask is not set. -/
theorem Scanned.isButtonPressed_iff (h : s.Scanned) (btn : ButtonId) :
    s.cabo.isButtonPressed btn = true ↔ s.cabo.btnStableRawMask.getLsbD btn.value = false := by
  have hmask : CoverUiSeries.series2.mapButtonIdToMask btn = 1#16 <<< btn.value := rfl
  have hone : CoverUiSeries.series2.OneBitEach := CoverUiSeries.oneBitEach (by simp)
  rw [isButtonPressed_eq_true_iff, h.series_eq]
  simp only [Option.some.injEq, exists_eq_left', hone.pressed_iff]
  simp only [hmask, getLsbD_one_shiftLeft_value, exists_eq_left']

/-- **Steady buttons.** The masks of six exchanges behind the same buttons are the same. -/
theorem Scanned.steady (h : s.Scanned) {front : List PanelKeys} {keys : PanelKeys}
    (hfront : front ≠ []) {rest : List PanelKeys}
    (hscans : s.scans = front ++ List.replicate 7 keys ++ rest) :
    ∃ front' mask rest', s.raws = front' ++ List.replicate 6 mask ++ rest' ∧
      rest'.length = rest.length ∧ ∀ b < 16, mask.getLsbD b = keys.bit b := by
  have hpos : 0 < front.length := List.length_pos_iff.mpr hfront
  have hlen : s.raws.length = front.length + 7 + rest.length := by
    rw [h.length, hscans, List.length_append, List.length_append, List.length_replicate]
  have hkeys : ∀ j, front.length ≤ j → j < front.length + 7 → s.scans[j]? = some keys := by
    intro j hle hlt
    rw [hscans, List.append_assoc, List.getElem?_append_right hle,
      List.getElem?_append_left (by rw [List.length_replicate]; omega),
      List.getElem?_replicate_of_lt (by omega)]
  have hbits : ∀ j raw, front.length < j → j < front.length + 7 → s.raws[j]? = some raw →
      ∀ b < 16, raw.getLsbD b = keys.bit b := by
    intro j raw hlt hlt' hraw b hb
    by_cases hreads : Reads j b
    · exact h.read j keys raw (by omega) (hkeys j hlt.le hlt') hraw b hb hreads
    · -- the bit has been read in the exchange before
      obtain ⟨k, rfl⟩ := Nat.exists_eq_succ_of_ne_zero (show j ≠ 0 by omega)
      have hbefore : s.raws[k]? = some s.raws[k] := List.getElem?_eq_getElem (by omega)
      have hreads' : Reads k b := by
        rw [Reads] at hreads ⊢
        omega
      rw [h.kept k _ raw hbefore hraw b hb hreads]
      exact h.read k keys _ (by omega) (hkeys k (by omega) (by omega)) hbefore b hb hreads'
  have hfirst : s.raws[front.length + 1]? = some s.raws[front.length + 1] :=
    List.getElem?_eq_getElem (by omega)
  have hmid : (s.raws.drop (front.length + 1)).take 6 =
      List.replicate 6 s.raws[front.length + 1] := by
    refine List.eq_replicate_iff.mpr ⟨?_, fun raw hraw => ?_⟩
    · rw [List.length_take, List.length_drop, hlen]
      omega
    · obtain ⟨i, hi⟩ := List.mem_iff_getElem?.mp hraw
      have hlt := (List.getElem?_eq_some_iff.mp hi).1
      rw [List.length_take] at hlt
      rw [List.getElem?_take_of_lt (by omega), List.getElem?_drop] at hi
      refine BitVec.eq_of_getLsbD_eq fun b hb => ?_
      rw [hbits _ raw (by omega) (by omega) hi b hb,
        hbits _ _ (by omega) (by omega) hfirst b hb]
  refine ⟨s.raws.take (front.length + 1), _, (s.raws.drop (front.length + 1)).drop 6, ?_, ?_,
    hbits _ _ (by omega) (by omega) hfirst⟩
  · rw [← hmid, List.append_assoc, List.take_append_drop, List.take_append_drop]
  · rw [List.length_drop, List.length_drop, hlen]
    omega

end Series2Ui

/-- What the driver reports after these exchanges. -/
structure ReportsKeys (scans : List PanelKeys) (cabo : CaboDriver) : Prop where
  /-- A button is reported over six exchanges in which it was pressed whenever its row was read.
  No seven exchanges with the same buttons that do not begin the run have ended since then. -/
  sound : ∀ btn, cabo.isButtonPressed btn = true → ∃ front window back,
    scans = front ++ window ++ back ∧ window.length = 6 ∧
      (∀ i keys, front.length ≤ i → 0 < i → (front ++ window)[i]? = some keys →
        Reads i btn.value → keys.Pressed btn) ∧
      ∀ front' keys rest, front' ≠ [] → scans = front' ++ List.replicate 7 keys ++ rest →
        back.length ≤ rest.length
  /-- After seven exchanges with the same buttons that do not begin the run, exactly these are
  reported. -/
  steady : ∀ front keys, front ≠ [] → scans = front ++ List.replicate 7 keys → ∀ btn,
    cabo.isButtonPressed btn = true ↔ keys.Pressed btn
  /-- `GetButtonsMask` has the bits of the reported buttons. -/
  mask : ∀ b, cabo.getButtonsMask.getLsbD b = true ↔
    ∃ btn, cabo.isButtonPressed btn = true ∧ btn.value = b
  /-- `IsAnyButtonPressed` is about the same buttons. -/
  any : cabo.isAnyButtonPressed = true ↔ ∃ btn, cabo.isButtonPressed btn = true

namespace Series2Ui

variable {s : Series2Ui}

theorem value_lt (btn : ButtonId) : btn.value < 16 := by
  cases btn <;> decide

/-- The debounced mask of a scanned panel. -/
theorem Scanned.debounced (h : s.Scanned) :
    Debounced 6 0xFFFF#16 (history s.raws) s.cabo.btnStableRawMask := by
  rw [h.cabo]
  exact (debounce_start_debouncing _ s.raws).stable

theorem Scanned.reportsKeys (h : s.Scanned) : ReportsKeys s.scans s.cabo where
  sound btn hpressed := by
    rw [h.isButtonPressed_iff] at hpressed
    have hset : (0xFFFF#16).getLsbD btn.value = true := by cases btn <;> rfl
    rcases h.debounced with ⟨front, back, hhist, hlatest⟩ | ⟨-, hinitial⟩
    · -- the run does not begin with the initial sample
      obtain ⟨front', rfl⟩ : ∃ front', front = 0xFFFF#16 :: front' := by
        cases front with
        | nil =>
          have hhead : 0xFFFF#16 = s.cabo.btnStableRawMask := (List.cons.inj hhist).1
          rw [← hhead, hset] at hpressed
          exact absurd hpressed nofun
        | cons first front' => exact ⟨front', by rw [(List.cons.inj hhist).1]⟩
      have hraws : s.raws = front' ++ List.replicate 6 s.cabo.btnStableRawMask ++ back :=
        (List.cons.inj hhist).2
      have hlen : s.scans.length = front'.length + 6 + back.length := by
        rw [← h.length, hraws, List.length_append, List.length_append, List.length_replicate]
      have hsplit : s.scans = s.scans.take front'.length ++
          (s.scans.drop front'.length).take 6 ++ (s.scans.drop front'.length).drop 6 := by
        rw [List.append_assoc, List.take_append_drop, List.take_append_drop]
      have hfront : (s.scans.take front'.length).length = front'.length := by
        rw [List.length_take]
        omega
      have hwindow : ((s.scans.drop front'.length).take 6).length = 6 := by
        rw [List.length_take, List.length_drop]
        omega
      refine ⟨_, _, _, hsplit, hwindow, fun i keys hle hi hkeys hreads => ?_, ?_⟩
      · have hbound := (List.getElem?_eq_some_iff.mp hkeys).1
        rw [List.length_append, hfront, hwindow] at hbound
        rw [hfront] at hle
        have hscan : s.scans[i]? = some keys := by
          rw [hsplit, List.getElem?_append_left (by rw [List.length_append]; omega), hkeys]
        have hraw : s.raws[i]? = some s.cabo.btnStableRawMask := by
          rw [hraws, List.append_assoc, List.getElem?_append_right hle,
            List.getElem?_append_left (by rw [List.length_replicate]; omega),
            List.getElem?_replicate_of_lt (by omega)]
        rw [Pressed, ← h.read i keys _ hi hscan hraw _ (value_lt btn) hreads]
        exact hpressed
      · intro front₂ keys rest hne hscans
        obtain ⟨before, mask, rest', hraws', hrest, -⟩ := h.steady hne hscans
        have hlate := hlatest (0xFFFF#16 :: before) mask rest' (by rw [history, hraws']; rfl)
        rw [List.length_drop, List.length_drop]
        omega
    · rw [hinitial, hset] at hpressed
      exact absurd hpressed nofun
  steady front keys hne hscans btn := by
    obtain ⟨before, mask, rest, hraws, hrest, hbits⟩ := @Scanned.steady s h front keys hne []
      (by rw [hscans, List.append_nil])
    obtain rfl := List.length_eq_zero_iff.mp hrest
    have hrun : List.replicate 6 mask <:+ history s.raws := by
      rw [history, hraws, List.append_nil]
      exact (List.suffix_append before _).trans (List.suffix_cons ..)
    have hstable : s.cabo.btnStableRawMask = mask := by
      rcases h.debounced with hlatest | ⟨hnone, -⟩
      · exact hlatest.unique (by decide) (LatestRun.of_suffix hrun)
      · exact absurd hrun.isInfix (hnone mask)
    rw [h.isButtonPressed_iff, hstable, hbits _ (value_lt btn)]
    rfl
  mask := getLsbD_getButtonsMask
  any := isAnyButtonPressed_eq_true_iff (CoverUiSeries.oneBitEach (by simp)) h.series_eq

end Series2Ui

/-- **The buttons of the panel.** In every run of the driver, whatever the LEDs do and whatever the
register shows at first, a reported button was pressed whenever its row was read in six exchanges
with no steady seven after them; and after seven exchanges with the same buttons exactly those that
are pressed are reported, if another exchange comes before the seven. -/
theorem keypad_reports_keys {s₀ s : Series2Ui} {es : List Series2Event}
    (hinit : series2Ui.Init s₀) (hr : series2Ui.run s₀ es = some s) :
    ReportsKeys s.scans s.cabo := by
  have hreachable := (StateMachine.Reachable.init hinit).run hr
  have hinv : s.Scanned ∧ s.leds.HasModes s.modes := by
    refine @StateMachine.Reachable.invariant _ _ series2Ui s
      (fun s => s.Scanned ∧ s.leds.HasModes s.modes) hreachable ?_ fun s e s' hI hs => ?_
    · rintro s ⟨-, latched, time, rfl⟩
      exact ⟨.start, fun b => by simp, fun b => by simp, fun b => by simp⟩
    · cases e with
      | setLed id mode =>
        obtain rfl := Option.some.inj hs
        exact ⟨{ hI.1 with }, hI.2.setLed id mode⟩
      | refresh time keys =>
        obtain ⟨-, rfl⟩ := Option.ite_none_right_eq_some.mp hs |>.imp_right Option.some.inj
        have hmodes := hI.2.process time
        have hscanned : (s.processLedStates time).Scanned := { hI.1 with }
        exact ⟨hscanned.latchLoad (fun b => hmodes.currentMask_dark) keys, hmodes⟩
  exact hinv.1.reportsKeys

/-- Only the button for up is pressed. -/
def upKeys : PanelKeys
  | false, true => 0xFE#8
  | _, _ => 0xFF#8

/-- The first exchange finds all buttons pressed, the next seven only the one for up. -/
def pressingRun : List Series2Event :=
  .refresh 0 (fun _ _ => 0x00#8) :: List.replicate 7 (.refresh 0 upKeys)

theorem keypad_reports_keys_up : ∃ s, series2Ui.run { latched := 0xFF#8 } pressingRun = some s ∧
    s.cabo.isButtonPressed .up = true ∧ s.cabo.isButtonPressed .menu = false := by
  refine ⟨_, rfl, ?_⟩
  have hreports := @keypad_reports_keys { latched := 0xFF#8 } _ pressingRun
    ⟨by decide, _, _, rfl⟩ rfl
  have hsteady := hreports.steady [fun _ _ => 0x00#8] upKeys nofun rfl
  exact ⟨(hsteady .up).mpr (by decide),
    Bool.eq_false_iff.mpr (mt (hsteady .menu).mp (by decide))⟩

end OpenMower
