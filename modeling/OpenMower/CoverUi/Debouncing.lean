import OpenMower.Drivers.CaboDriver
import OpenMower.Library.Runs
import OpenMower.Library.WordMask

/-!
# Debounced buttons

`DebounceRawButtons` takes over a mask that has been sampled six times in a row, and it compares a
sample only with the one before. The counter says how often the last sample has been there in a row
(`Debouncing`), so that the stable mask is the value of the latest run of six samples, the initial
mask being the first of the samples (`debounced_latest_run`).
-/

namespace OpenMower

open Runs

/-! ### Buttons and their bits -/

theorem mem_allButtons (btn : ButtonId) : btn ∈ allButtons := by
  cases btn <;> decide

theorem getLsbD_one_shiftLeft_value (btn : ButtonId) (b : ℕ) :
    (1#16 <<< btn.value).getLsbD b = true ↔ btn.value = b := by
  have hbits : ∀ b < 16, (1#16 <<< btn.value).getLsbD b = decide (btn.value = b) := by
    cases btn <;> decide
  have hvalue : btn.value < 16 := by cases btn <;> decide
  by_cases hb : b < 16
  · rw [hbits b hb, decide_eq_true_iff]
  · rw [BitVec.getLsbD_of_ge _ _ (by omega)]
    exact iff_of_false Bool.false_ne_true (by omega)

namespace CoverUiSeries

/-- With one bit for each button, it is pressed if its bit is not set. -/
theorem OneBitEach.pressed_iff {series : CoverUiSeries} (h : series.OneBitEach)
    (btn : ButtonId) (stable : BitVec 16) :
    series.mapButtonIdToMask btn ≠ 0#16 ∧ stable &&& series.mapButtonIdToMask btn = 0#16 ↔
      ∃ i, (series.mapButtonIdToMask btn).getLsbD i = true ∧ stable.getLsbD i = false := by
  rcases h.one btn with hnone | ⟨k, hk, hbit⟩
  · rw [hnone]
    simp
  · have hne : BitVec.twoPow 16 k ≠ 0#16 := by
      intro hzero
      have hset := congrArg (·.getLsbD k) hzero
      simp [hk] at hset
    rw [hbit, BitVec.and_twoPow]
    simp only [BitVec.getLsbD_twoPow, hk, decide_true, Bool.true_and, decide_eq_true_iff,
      exists_eq_left']
    cases stable.getLsbD k <;> simp [hne]

/-- The panels of all series have one bit for each button. -/
theorem oneBitEach {series : CoverUiSeries}
    (h : series ∈ [series1V02, .series1Gpio, .series2]) : series.OneBitEach := by
  have hone : ∀ series ∈ [series1V02, .series1Gpio, .series2], ∀ btn ∈ allButtons,
      series.mapButtonIdToMask btn = 0#16 ∨
        ∃ k < 16, series.mapButtonIdToMask btn = BitVec.twoPow 16 k := by
    decide
  have hall : ∀ series ∈ [series1V02, .series1Gpio, .series2], ∀ i < 16,
      (series.allButtonsMask.getLsbD i = true ↔
        ∃ btn ∈ allButtons, (series.mapButtonIdToMask btn).getLsbD i = true) := by
    decide
  refine ⟨fun btn => hone series h btn (mem_allButtons btn), fun i => ?_⟩
  by_cases hi : i < 16
  · simpa [mem_allButtons] using hall series h i hi
  · have hout : ∀ word : BitVec 16, word.getLsbD i = false := fun word =>
      BitVec.getLsbD_of_ge word i (by omega)
    simp [hout]

end CoverUiSeries

namespace CaboDriver

variable {driver : CaboDriver} {hist : List (BitVec 16)}

/-- The initial state, with a panel of some series. -/
def start (series : Option CoverUiSeries) : CaboDriver := { series }

/-- The samples so far, and the initial one in front of them. -/
def history (samples : List (BitVec 16)) : List (BitVec 16) := 0xFFFF#16 :: samples

/-- The counter counts the samples, and the stable mask is the value of their latest run. -/
structure Debouncing (hist : List (BitVec 16)) (driver : CaboDriver) : Prop where
  counts : Counts debounceTicks hist driver.btnLastRawMask driver.btnDebounceCounter
  stable : Debounced (debounceTicks + 1) 0xFFFF#16 hist driver.btnStableRawMask

theorem start_debouncing (series : Option CoverUiSeries) :
    Debouncing (history []) (start series) where
  counts :=
    { le_limit := Nat.zero_le _
      run := List.suffix_rfl
      longest := fun _ hlonger => absurd hlonger.length_le (by simp [history, start]) }
  stable := .inr ⟨fun _ hrun => absurd hrun.length_le (by simp [history, debounceTicks]), rfl⟩

/-- The counter after a sample. -/
theorem Debouncing.counts_step (h : Debouncing hist driver) (raw : BitVec 16) :
    Counts debounceTicks (hist ++ [raw]) (driver.debounceRawButtons raw).btnLastRawMask
      (driver.debounceRawButtons raw).btnDebounceCounter := by
  by_cases hsame : raw = driver.btnLastRawMask
  · subst hsame
    simp only [debounceRawButtons, BitVec.xor_self, if_true]
    exact h.counts.same
  · have hchanged : driver.btnLastRawMask ^^^ raw ≠ 0#16 := by
      rw [Ne, BitVec.xor_eq_zero_iff]
      exact Ne.symm hsame
    simp only [debounceRawButtons, if_neg hchanged]
    exact h.counts.changed hsame

/-- **One sample**: the stable mask becomes the sample if it completes a run. -/
theorem Debouncing.step (h : Debouncing hist driver) (raw : BitVec 16) :
    Debouncing (hist ++ [raw]) (driver.debounceRawButtons raw) where
  counts := h.counts_step raw
  stable := by
    have hfull := (h.counts_step raw).limit_le_iff
    have hstable : (driver.debounceRawButtons raw).btnStableRawMask =
        if debounceTicks ≤ (driver.debounceRawButtons raw).btnDebounceCounter then raw
        else driver.btnStableRawMask := rfl
    rw [hstable]
    split
    · next hticks => exact Debounced.of_run (hfull.mp hticks)
    · next hticks =>
      exact h.stable.of_not_run (Nat.succ_pos _) fun hrun => hticks (hfull.mpr hrun)

/-- **All samples.** -/
theorem Debouncing.debounce (h : Debouncing hist driver) (samples : List (BitVec 16)) :
    Debouncing (hist ++ samples) (driver.debounce samples) := by
  induction samples generalizing hist driver with
  | nil => rwa [List.append_nil]
  | cons raw samples ih =>
    have hnext := ih (h.step raw)
    rwa [List.append_assoc] at hnext

theorem debounce_start_debouncing (series : Option CoverUiSeries) (samples : List (BitVec 16)) :
    Debouncing (history samples) ((start series).debounce samples) :=
  (start_debouncing series).debounce samples

/-! ### Reading the buttons -/

theorem isButtonPressed_eq_true_iff {btn : ButtonId} : driver.isButtonPressed btn = true ↔
    ∃ series, driver.series = some series ∧ series.mapButtonIdToMask btn ≠ 0#16 ∧
      driver.btnStableRawMask &&& series.mapButtonIdToMask btn = 0#16 := by
  rw [isButtonPressed]
  cases driver.series with
  | none => simp
  | some series => simp

/-- The buttons of a list that are pressed are set in the mask. -/
theorem getLsbD_foldl_buttons (pressed : ButtonId → Prop) [DecidablePred pressed]
    (buttons : List ButtonId) (mask : BitVec 16) (b : ℕ) :
    (buttons.foldl (fun mask btn => if pressed btn then mask ||| 1#16 <<< btn.value else mask)
        mask).getLsbD b = true ↔
      mask.getLsbD b = true ∨ ∃ btn ∈ buttons, pressed btn ∧ btn.value = b := by
  induction buttons generalizing mask with
  | nil => simp
  | cons btn buttons ih =>
    rw [List.foldl_cons, ih]
    by_cases hpressed : pressed btn
    · simp only [hpressed, if_true, BitVec.getLsbD_or, Bool.or_eq_true,
        getLsbD_one_shiftLeft_value, List.exists_mem_cons_iff, true_and, or_assoc]
    · simp only [hpressed, if_false, List.exists_mem_cons_iff, false_and, false_or]

/-- `GetButtonsMask` has the bits of the buttons that are pressed. -/
theorem getLsbD_getButtonsMask (b : ℕ) : driver.getButtonsMask.getLsbD b = true ↔
    ∃ btn, driver.isButtonPressed btn = true ∧ btn.value = b := by
  simp only [isButtonPressed_eq_true_iff]
  rw [getButtonsMask]
  cases driver.series with
  | none => simp
  | some series =>
    simp [getLsbD_foldl_buttons, mem_allButtons]

/-- `IsAnyButtonPressed` is about the same buttons. -/
theorem isAnyButtonPressed_eq_true_iff {series : CoverUiSeries} (h : series.OneBitEach)
    (hseries : driver.series = some series) : driver.isAnyButtonPressed = true ↔
      ∃ btn, driver.isButtonPressed btn = true := by
  simp only [isButtonPressed_eq_true_iff, hseries, Option.some.injEq, exists_eq_left',
    h.pressed_iff]
  rw [isAnyButtonPressed, hseries]
  simp only [decide_eq_true_iff]
  rw [Ne, ← WordMask.covers_iff_and_eq, WordMask.Covers]
  simp only [not_forall, h.all, Bool.not_eq_true, exists_prop]
  constructor
  · rintro ⟨i, ⟨btn, hbtn⟩, hstable⟩
    exact ⟨btn, i, hbtn, hstable⟩
  · rintro ⟨btn, i, hbtn, hstable⟩
    exact ⟨i, ⟨btn, hbtn⟩, hstable⟩

/-! ### Bounces -/

/-- A bit whose bounces are short does not change. -/
theorem getLsbD_stable_of_shortBounce (series : Option CoverUiSeries)
    {samples bounce : List (BitVec 16)} {i : ℕ}
    (h : ShortBounce (debounceTicks + 1) (·.getLsbD i)
      ((start series).debounce samples).btnStableRawMask (history samples) bounce) :
    ((start series).debounce (samples ++ bounce)).btnStableRawMask.getLsbD i =
      ((start series).debounce samples).btnStableRawMask.getLsbD i :=
  Debounced.bounce (Nat.succ_pos _) (debounce_start_debouncing series samples).stable
    (debounce_start_debouncing series (samples ++ bounce)).stable h

/-- A button is read from the bits of its mask. -/
theorem isButtonPressed_congr {driver driver' : CaboDriver} (btn : ButtonId)
    (hseries : driver'.series = driver.series)
    (h : ∀ series ∈ driver.series, ∀ i, (series.mapButtonIdToMask btn).getLsbD i = true →
      driver'.btnStableRawMask.getLsbD i = driver.btnStableRawMask.getLsbD i) :
    driver'.isButtonPressed btn = driver.isButtonPressed btn := by
  rw [isButtonPressed, isButtonPressed, hseries]
  cases hdriver : driver.series with
  | none => rfl
  | some series =>
    have hand : driver'.btnStableRawMask &&& series.mapButtonIdToMask btn =
        driver.btnStableRawMask &&& series.mapButtonIdToMask btn := by
      refine BitVec.eq_of_getLsbD_eq fun i _ => ?_
      rw [BitVec.getLsbD_and, BitVec.getLsbD_and]
      cases hbit : (series.mapButtonIdToMask btn).getLsbD i with
      | false => rw [Bool.and_false, Bool.and_false]
      | true => rw [h series hdriver i hbit]
    simp only [hand]

end CaboDriver

open CaboDriver

/-- What the debouncing is for, after some samples: the stable mask is the value of the latest run,
and a bounce behind them changes neither a bit that has no run in it nor a button that is read from
such bits. -/
structure DebouncesButtons (series : Option CoverUiSeries) (samples : List (BitVec 16)) : Prop where
  stable : Debounced (debounceTicks + 1) 0xFFFF#16 (history samples)
    ((start series).debounce samples).btnStableRawMask
  bit : ∀ bounce i, ShortBounce (debounceTicks + 1) (·.getLsbD i)
      ((start series).debounce samples).btnStableRawMask (history samples) bounce →
    ((start series).debounce (samples ++ bounce)).btnStableRawMask.getLsbD i =
      ((start series).debounce samples).btnStableRawMask.getLsbD i
  button : ∀ bounce btn, (∀ s ∈ series, ∀ i, (s.mapButtonIdToMask btn).getLsbD i = true →
      ShortBounce (debounceTicks + 1) (·.getLsbD i)
        ((start series).debounce samples).btnStableRawMask (history samples) bounce) →
    ((start series).debounce (samples ++ bounce)).isButtonPressed btn =
      ((start series).debounce samples).isButtonPressed btn

/-- **Debounced buttons.** After each of the samples, the stable mask is the value of the latest run
of six equal ones, or the initial one, and no shorter bounce changes a button. -/
theorem debounced_latest_run (series : Option CoverUiSeries) (samples : List (BitVec 16)) :
    DebouncesButtons series samples where
  stable := (debounce_start_debouncing series samples).stable
  bit _ _ h := getLsbD_stable_of_shortBounce series h
  button bounce btn h := by
    refine isButtonPressed_congr btn ?_ fun s hs i hbit => ?_
    · rw [debounce_series, debounce_series]
    · rw [debounce_series] at hs
      exact getLsbD_stable_of_shortBounce series (h s hs i hbit)

/-- Five samples of a pressed button are a bounce, six are not. -/
example : ∀ n ≤ 7, ((start (some .series2)).debounce
    (List.replicate n 0xFFFE#16)).isButtonPressed .up = decide (6 ≤ n) := by
  decide

end OpenMower
