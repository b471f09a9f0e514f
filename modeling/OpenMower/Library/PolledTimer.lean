import OpenMower.Library.ModularClock

/-!
# Polled timers

A thread that does something every so often keeps the reading of a wrapping clock at which it did it
last, and does it again when a poll finds that the interval has passed. With true times, it is never
done twice within the interval; and while the timer is polled often enough, it is done at the first
poll that is an interval behind both the time before and the begin of the polling
(`PolledTimer.poll_spec`).

The timer may rest in between for any time, so that the difference of the readings is not the age.
It is then due too early or too late, but no later than an interval after the polling goes on.
-/

/-- A timer with its history. -/
structure PolledTimer (w : ℕ) where
  /-- What the clock read when it fired last. -/
  last : BitVec w := 0#w
  /-- History: the true time of this reading. -/
  fired : ℤ := 0
  /-- History: the first poll since which it has been polled all the time. -/
  since : Option ℤ := none
  deriving DecidableEq

namespace PolledTimer

open ModularClock

variable {w : ℕ} (interval : BitVec w)

/-- The interval has passed. -/
def Due (t : PolledTimer w) (now : ℤ) : Prop := interval ≤ reading w now - t.last

instance (t : PolledTimer w) (now : ℤ) : Decidable (t.Due interval now) :=
  inferInstanceAs (Decidable (_ ≤ _))

/-- A poll. -/
def poll (now : ℤ) (t : PolledTimer w) : PolledTimer w :=
  let since := some (t.since.getD now)
  if t.Due interval now then { last := reading w now, fired := now, since := since }
  else { t with since := since }

/-- It is not polled. -/
def rest (t : PolledTimer w) : PolledTimer w := { t with since := none }

/-- The invariant: while it is polled, it has fired within the interval, or the polling has begun
then. -/
structure Inv (time : ℤ) (t : PolledTimer w) : Prop where
  last : t.last = reading w t.fired
  fired_le : t.fired ≤ time
  since_le : ∀ since, t.since = some since → since ≤ time
  recent : ∀ since, t.since = some since → time - max t.fired since < interval.toNat
  /-- Where it has not fired since the polling began, it was not due then. -/
  undue : ∀ since, t.since = some since → t.fired < since → ¬ t.Due interval since

variable {interval} {t : PolledTimer w} {time now gap : ℤ}

/-- It is only due when the interval has passed. -/
theorem Due.le (h : t.Due interval now) (hlast : t.last = reading w t.fired)
    (hle : t.fired ≤ now) : (interval.toNat : ℤ) ≤ now - t.fired := by
  rw [Due, hlast, BitVec.le_def] at h
  exact (Int.ofNat_le.mpr h).trans (toNat_reading_sub_le hle)

theorem Inv.rest (h : t.Inv interval time) (hle : time ≤ now) : t.rest.Inv interval now where
  last := h.last
  fired_le := h.fired_le.trans hle
  since_le := nofun
  recent := nofun
  undue := nofun

/-- **When it is due.** An interval behind the last time and the begin of the polling it is. -/
theorem Inv.due (h : t.Inv interval time) (hgap : now - time ≤ gap)
    (hwrap : 2 * interval.toNat + gap ≤ 2 ^ w) {since : ℤ} (hsince : t.since = some since)
    (hlate : (interval.toNat : ℤ) ≤ now - max t.fired since) : t.Due interval now := by
  have hrecent := h.recent since hsince
  rw [Due, h.last, le_reading_sub_iff]
  rcases lt_or_ge t.fired since with hlt | hge
  · -- it was not due when the polling began, and no reading has wrapped since then
    have hundue := h.undue since hsince hlt
    rw [Due, h.last, le_reading_sub_iff] at hundue
    rw [max_eq_right hlt.le] at hrecent hlate
    have hnonneg : 0 ≤ (since - t.fired) % 2 ^ w := Int.emod_nonneg _ (by positivity)
    have hsum : now - t.fired = (since - t.fired) + (now - since) := by omega
    rw [hsum, ← Int.emod_add_emod, Int.emod_eq_of_lt (by omega) (by omega)]
    omega
  · rw [max_eq_left hge] at hrecent hlate
    rwa [Int.emod_eq_of_lt (by omega) (by omega)]

/-- **A poll.** It keeps the invariant; the timer fires no sooner than an interval behind the last
time, and no later than the first poll that is an interval behind it and the begin of the
polling. -/
theorem poll_spec (h : t.Inv interval time) (hpos : 0 < interval.toNat) (hle : time ≤ now)
    (hgap : now - time ≤ gap) (hwrap : 2 * interval.toNat + gap ≤ 2 ^ w) :
    (t.poll interval now).Inv interval now ∧
      (t.Due interval now → (interval.toNat : ℤ) ≤ now - t.fired) ∧
      ∀ since, t.since = some since → (interval.toNat : ℤ) ≤ now - max t.fired since →
        t.Due interval now := by
  have hfired := h.fired_le.trans hle
  refine ⟨?_, fun hdue => hdue.le h.last hfired, fun since hsince => h.due hgap hwrap hsince⟩
  have hbegin : t.since.getD now ≤ now := by
    cases hsince : t.since with
    | none => exact le_refl now
    | some since => exact (h.since_le since hsince).trans hle
  rw [poll]
  split
  · refine ⟨rfl, le_refl now, fun since hsince => ?_, fun since hsince => ?_,
      fun since hsince => ?_⟩
    · exact Option.some.inj hsince ▸ hbegin
    · obtain rfl := Option.some.inj hsince
      dsimp only
      rw [max_eq_left hbegin]
      omega
    · obtain rfl := Option.some.inj hsince
      exact fun hlt => absurd hbegin (not_le_of_gt hlt)
  · next hundue =>
    refine ⟨h.last, hfired, fun since hsince => ?_, fun since hsince => ?_, fun since hsince => ?_⟩
    · exact Option.some.inj hsince ▸ hbegin
    · obtain rfl := Option.some.inj hsince
      dsimp only
      cases hsince : t.since with
      | none =>
        rw [Option.getD_none, max_eq_right hfired]
        omega
      | some since =>
        by_contra hlate
        exact hundue (h.due hgap hwrap hsince (not_lt.mp hlate))
    · obtain rfl := Option.some.inj hsince
      cases hsince : t.since with
      | none => exact fun _ => hundue
      | some since => exact h.undue since hsince

end PolledTimer
