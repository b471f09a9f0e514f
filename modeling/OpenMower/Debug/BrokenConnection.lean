import Mathlib.Data.List.TakeWhile
import OpenMower.Debug.TcpInterface

/-!
# Broken debug connections

The loop ends with the first result of `read` that is 0 after the conversion to `size_t`
(`serve_eq`). An error becomes the largest size instead, so that the interface passes it on as data
and stays in raw mode. It gives the motors back exactly if no `read` fails before the end of the
stream (`serve_givesBack_iff`).
-/

namespace OpenMower

open DebugConnection

/-- The results up to the one that ends the loop. -/
def ReadResult.untilEnd (results : List ReadResult) : List ReadResult :=
  results.takeWhile fun r => decide (r.value ≠ 0)

/-- A result ends the loop. -/
def ReadResult.ends (results : List ReadResult) : Bool :=
  results.any fun r => decide (r.value = 0)

/-- No `read` fails before the end of the stream. -/
def NoErrorBeforeEnd (results : List ReadResult) : Prop :=
  ∀ r ∈ ReadResult.untilEnd results, r.value ≠ -1

/-- The call of `RawDataInput` for a result. -/
def ReadResult.call (r : ReadResult) : DriverCall := .rawDataInput r.inputBuffer r.bytesReceived

namespace DebugConnection

variable {σ F D : Type*} {M : DebuggableMotor σ F D} {driver : σ}

theorem foldl_read_of_ended {s : DebugConnection σ F} (h : s.reading = false)
    (results : List ReadResult) : results.foldl (read M) s = s := by
  induction results with
  | nil => rfl
  | cons r results ih =>
    have hread : read M s r = s := if_pos h
    rw [List.foldl_cons, hread, ih]

/-- A result that goes on. -/
theorem read_of_ne_zero {s : DebugConnection σ F} (h : s.reading = true) {r : ReadResult}
    (hne : r.value ≠ 0) :
    read M s r =
      { s with
        calls := s.calls ++ [r.call]
        transmitted :=
          s.transmitted ++ (M.rawDataInput r.inputBuffer r.bytesReceived s.driver).toList } := by
  have hreading : ¬ s.reading = false := by simp [h]
  have hne' := mt r.bytesReceived_eq_zero_iff.mp hne
  have hpos : 0#32 < r.bytesReceived := by bv_omega
  rw [read, if_neg hreading, if_pos hpos]
  rfl

/-- The end of the stream. -/
theorem read_of_eq_zero {s : DebugConnection σ F} (h : s.reading = true) {r : ReadResult}
    (hzero : r.value = 0) :
    read M s r =
      { s with
        driver := M.setRawAccessMode false s.driver
        reading := false
        calls := s.calls ++ [.setRawAccessMode false] } := by
  have hreading : ¬ s.reading = false := by simp [h]
  have hpos : ¬ 0#32 < r.bytesReceived := by
    rw [r.bytesReceived_eq_zero_iff.mpr hzero]
    exact BitVec.lt_irrefl _
  rw [read, if_neg hreading, if_neg hpos]

/-- **The loop.** What it calls, whether it goes on, and in which mode it leaves the driver. -/
theorem foldl_read {s : DebugConnection σ F} (h : s.reading = true) (results : List ReadResult) :
    (results.foldl (read M) s).calls =
        s.calls ++ (ReadResult.untilEnd results).map ReadResult.call ++
        (if ReadResult.ends results then [.setRawAccessMode false] else []) ∧
      (results.foldl (read M) s).reading = !ReadResult.ends results ∧
      (results.foldl (read M) s).driver =
        if ReadResult.ends results then M.setRawAccessMode false s.driver else s.driver := by
  induction results generalizing s with
  | nil => exact ⟨by simp [ReadResult.untilEnd, ReadResult.ends], h, rfl⟩
  | cons r results ih =>
    rw [List.foldl_cons, ReadResult.untilEnd, List.takeWhile_cons, ReadResult.ends, List.any_cons]
    by_cases hzero : r.value = 0
    · rw [read_of_eq_zero h hzero, foldl_read_of_ended rfl]
      simp [hzero]
    · rw [read_of_ne_zero h hzero]
      obtain ⟨hcalls, hreading, hdriver⟩ := ih (s := { s with
        calls := s.calls ++ [r.call]
        transmitted :=
          s.transmitted ++ (M.rawDataInput r.inputBuffer r.bytesReceived s.driver).toList }) h
      rw [hcalls, hreading, hdriver]
      simp [hzero, ReadResult.untilEnd, ReadResult.ends]

theorem serve_calls (driver : σ) (results : List ReadResult) :
    (serve M driver results).calls =
      .setRawAccessMode true :: (ReadResult.untilEnd results).map ReadResult.call ++
        if ReadResult.ends results then [.setRawAccessMode false] else [] :=
  (foldl_read rfl results).1

/-- What the interface is to do with these results: it passes on what has been read, each time with
the size that `read` has returned, until a result says that nothing more comes; then the driver
transmits duties again. -/
structure GivesBack (M : DebuggableMotor σ F D) (results : List ReadResult)
    (s : DebugConnection σ F) : Prop where
  sizes : ∀ data size, .rawDataInput data size ∈ s.calls →
    ∃ r ∈ results, r.inputBuffer = data ∧ (size.toNat : ℤ) = r.value ∧
      1 ≤ size.toNat ∧ size.toNat ≤ debugInputBufferSize
  calls_eq : s.calls = .setRawAccessMode true ::
    (results.takeWhile fun r => decide (0 < r.value)).map ReadResult.call ++
      if results.all fun r => decide (0 < r.value) then [] else [.setRawAccessMode false]
  ended : (∃ r ∈ results, r.value ≤ 0) → s.reading = false ∧
    ∀ duty, M.isStarted s.driver → (M.setDuty duty s.driver).isSome

/-- The size of every call is in bounds only if no error has been passed on. -/
theorem noErrorBeforeEnd_of_sizes {results : List ReadResult}
    (h : GivesBack M results (serve M driver results)) : NoErrorBeforeEnd results := by
  intro r hr herror
  have hcall : r.call ∈ (serve M driver results).calls := by
    rw [serve_calls]
    exact List.mem_append_left _ (List.mem_cons_of_mem _ (List.mem_map_of_mem hr))
  obtain ⟨-, -, -, -, -, hle⟩ := h.sizes _ _ hcall
  rw [r.toNat_bytesReceived_of_error herror] at hle
  exact absurd hle (by decide)

end DebugConnection

/-- Without an error, the results up to the end are the positive ones. -/
theorem NoErrorBeforeEnd.takeWhile_pos {results : List ReadResult} (h : NoErrorBeforeEnd results) :
    results.takeWhile (fun r => decide (0 < r.value)) = ReadResult.untilEnd results ∧
      results.all (fun r => decide (0 < r.value)) = !ReadResult.ends results := by
  induction results with
  | nil => exact ⟨rfl, rfl⟩
  | cons r results ih =>
    rw [NoErrorBeforeEnd, ReadResult.untilEnd, List.takeWhile_cons] at h
    rw [ReadResult.untilEnd, ReadResult.ends, List.takeWhile_cons, List.takeWhile_cons,
      List.all_cons, List.any_cons]
    by_cases hzero : r.value = 0
    · simp [hzero]
    · rw [if_pos (by simpa using hzero)] at h
      have hpos : 0 < r.value := by
        have hle := r.neg_one_le
        have hne := h r List.mem_cons_self
        omega
      obtain ⟨htake, hall⟩ := ih fun r hr => h r (List.mem_cons_of_mem _ hr)
      simp only [hpos, hzero, decide_true, decide_false, Bool.true_and, Bool.false_or, ite_true,
        ne_eq, not_false_eq_true]
      exact ⟨congrArg _ htake, hall⟩

/-- A result up to the end is passed on with its size. -/
theorem NoErrorBeforeEnd.size {results : List ReadResult} (h : NoErrorBeforeEnd results)
    {r : ReadResult} (hr : r ∈ ReadResult.untilEnd results) :
    (r.bytesReceived.toNat : ℤ) = r.value ∧ 1 ≤ r.bytesReceived.toNat ∧
      r.bytesReceived.toNat ≤ debugInputBufferSize := by
  have hne : r.value ≠ 0 := by simpa using List.mem_takeWhile_imp hr
  have herror := h r hr
  have hge := r.neg_one_le
  have hle := r.le_size
  have heq := r.toNat_bytesReceived_of_nonneg (by omega)
  exact ⟨heq, by omega, by omega⟩

/-- **A broken connection.** For every motor driver and every sequence of results, the interface
gives the motors back if and only if no `read` fails before the end of the stream. -/
theorem serve_givesBack_iff {σ F D : Type*} (M : DebuggableMotor σ F D) (driver : σ)
    (results : List ReadResult) :
    GivesBack M results (serve M driver results) ↔ NoErrorBeforeEnd results := by
  refine ⟨noErrorBeforeEnd_of_sizes, fun h => ?_⟩
  obtain ⟨htake, hall⟩ := h.takeWhile_pos
  obtain ⟨-, hreading, hdriver⟩ := foldl_read (M := M) (s := accept M driver) rfl results
  refine ⟨fun data size hcall => ?_, ?_, fun ⟨r, hr, hle⟩ => ?_⟩
  · rw [serve_calls, List.cons_append] at hcall
    have hmap : DriverCall.rawDataInput data size ∈
        (ReadResult.untilEnd results).map ReadResult.call := by
      rcases List.mem_cons.mp hcall with heq | hmem
      · cases heq
      · refine (List.mem_append.mp hmem).resolve_right fun hlast => ?_
        split at hlast
        · cases List.mem_singleton.mp hlast
        · cases hlast
    obtain ⟨r, hr, hcalled⟩ := List.mem_map.mp hmap
    obtain ⟨rfl, rfl⟩ := DriverCall.rawDataInput.inj hcalled
    exact ⟨r, List.takeWhile_subset _ hr, rfl, h.size hr⟩
  · rw [serve_calls, htake, hall]
    cases ReadResult.ends results <;> rfl
  · -- the result that is not positive ends the loop
    have hends : ReadResult.ends results = true := by
      have hnot : results.all (fun r => decide (0 < r.value)) = false :=
        List.all_eq_false.mpr ⟨r, hr, by simpa using hle⟩
      rw [hnot] at hall
      simpa using hall.symm
    rw [hends] at hreading hdriver
    refine ⟨hreading, fun duty hstarted => ?_⟩
    rw [serve, hdriver] at hstarted ⊢
    rw [if_pos rfl] at hstarted ⊢
    rw [M.isStarted_setRawAccessMode] at hstarted
    exact M.setDuty_isSome duty _ hstarted

/-- The client's connection breaks after three bytes. -/
def brokenConnection : List ReadResult :=
  [{ value := 3, inputBuffer := fun _ => 0#8, neg_one_le := by decide, le_size := by decide },
    .error fun _ => 0#8]

/-- The error is passed on as data, and the driver stays in raw mode. -/
theorem serve_brokenConnection :
    ¬ GivesBack (VescMotor.debuggable ℤ) brokenConnection
        (serve (VescMotor.debuggable ℤ) { started := true, rawMode := false }
          brokenConnection) := by
  intro h
  obtain ⟨hreading, -⟩ := h.ended ⟨.error fun _ => 0#8, by simp [brokenConnection], by decide⟩
  exact absurd hreading (by decide)

end OpenMower
