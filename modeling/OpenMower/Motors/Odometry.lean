import OpenMower.Library.StateMachine
import OpenMower.Services.DiffDriveEscs
import Mathlib.Algebra.CharZero.Defs
import Mathlib.Algebra.Field.Rat
import Mathlib.Tactic.FieldSimp
import Mathlib.Tactic.Ring

/-!
# Odometry

The diff drive service sends a twist for each pair of states of its ESCs: what the wheels have
turned since the pair before, over the time since then. A receiver that integrates the twists gets
the way of the wheels from the first pair to the last one, without an error (`odometry_exact`),
whichever ESC delivers more often and however its states come between those of the other, as long
as the differences between two pairs fit their words.

The wheels are mounted the other way round: the way is the difference of the two counts, the angle
their sum.
-/

namespace OpenMower

open ModularClock

/-- The ESC fields with what they are about. The positions are true counts of ticks, the times are
true times. -/
structure Odometry (F : Type*) where
  escs : DiffDriveEscs F
  /-- The position in the last state of each ESC. -/
  position : EscSide → ℤ
  /-- The positions in the first pair since the service was started, `none` before it. -/
  first : Option (EscSide → ℤ)
  /-- The positions in the last pair, and its time. -/
  paired : EscSide → ℤ
  time : ℤ
  /-- The integrals of the twists since the first pair. -/
  way : F
  angle : F

/-- What happens to them: states of the ESCs, and `OnStop`. -/
inductive OdometryEvent (F : Type*)
  | state (side : EscSide) (state : EscState F) (position time : ℤ)
  | onStop

namespace Odometry

variable {F : Type*} [Field F]

/-- The integral of the twists among the messages, over this time in µs. -/
def integrate (duration : ℤ) (messages : List (DriveMessage F)) : F × F :=
  messages.foldl (fun sum message =>
    match message with
    | .actualTwist vx vr =>
      (sum.1 + vx * (duration / (1000000 : ℕ)), sum.2 + vr * (duration / (1000000 : ℕ)))
    | _ => sum) 0

variable (wheelTicksPerMeter : F) (s : Odometry F)

/-- The state after an event. -/
def next : OdometryEvent F → Odometry F
  | .state side state position time =>
    let r := s.escs.escCallback wheelTicksPerMeter side state (micros time)
    let s' := { s with
      escs := r.1
      position := Function.update s.position side position
      way := s.way + (integrate (time - s.time) r.2).1
      angle := s.angle + (integrate (time - s.time) r.2).2 }
    if s.escs.valid side.other then
      { s' with first := some (s.first.getD s'.position), paired := s'.position, time := time }
    else s'
  | .onStop => { s with escs := s.escs.onStop, first := none, way := 0, angle := 0 }

/-- A state has the count of its position; of a state that completes a pair, the positions and the
time have not gone too far since the pair before. -/
def Follows (e : OdometryEvent F) : Prop :=
  match e with
  | .state side state position time =>
    state.tacho = reading 32 position ∧
      (s.escs.valid side.other = true → s.escs.lastTicksValid = true →
        let ahead := fun side' => Function.update s.position side position side' - s.paired side'
        (0 < time - s.time ∧ time - s.time < 2 ^ 32) ∧
          (-2 ^ 31 ≤ ahead .left - ahead .right ∧ ahead .left - ahead .right < 2 ^ 31) ∧
          -2 ^ 31 ≤ ahead .left + ahead .right ∧ ahead .left + ahead .right < 2 ^ 31)
  | .onStop => True

end Odometry

/-- The ESCs of the diff drive, with a service that has been started, or stopped and started again:
of each ESC a state may wait. -/
def odometry {F : Type*} [Field F] (wheelTicksPerMeter : F) :
    StateMachine (Odometry F) (OdometryEvent F) where
  Init s := s.escs.lastTicksValid = false ∧ s.first = none ∧ s.way = 0 ∧ s.angle = 0 ∧
    ∀ side, (s.escs.state side).tacho = reading 32 (s.position side)
  step s e := some (s.next wheelTicksPerMeter e)

namespace Odometry

variable {F : Type*} [Field F] {wheelTicksPerMeter : F} {s : Odometry F}

/-- The invariant: the integrals are those of the wheels. -/
structure Inv (wheelTicksPerMeter : F) (s : Odometry F) : Prop where
  tacho : ∀ side, (s.escs.state side).tacho = reading 32 (s.position side)
  first : s.first.isSome = s.escs.lastTicksValid
  lastTicks : s.escs.lastTicksValid = true →
    (∀ side, s.escs.lastTicks side = reading 32 (s.paired side)) ∧
      s.escs.lastTicksMicros = micros s.time
  none_way : s.first = none → s.way = 0 ∧ s.angle = 0
  way : ∀ first, s.first = some first →
    s.way * (2 * wheelTicksPerMeter) =
        (((s.paired .left - first .left) - (s.paired .right - first .right) : ℤ) : F) ∧
      s.angle * (2 * wheelTicksPerMeter) =
        -(((s.paired .left - first .left) + (s.paired .right - first .right) : ℤ) : F)
  paired : ∀ first, s.first = some first → ∀ side, s.escs.valid side = false →
    s.paired side = s.position side

theorem toInt_reading {x : ℤ} (hlow : -2 ^ 31 ≤ x) (hhigh : x < 2 ^ 31) :
    (reading 32 x).toInt = x :=
  BitVec.toInt_ofInt_eq_self (by decide) hlow hhigh

theorem reading_add (x y : ℤ) : reading 32 x + reading 32 y = reading 32 (x + y) :=
  (BitVec.ofInt_add x y).symm

/-- **A twist.** Over the time since the pair before it is the way of the wheels. -/
theorem integrate_sendTwist [CharZero F] {escs : DiffDriveEscs F} {position paired : EscSide → ℤ}
    {time last : ℤ} (hticks : wheelTicksPerMeter ≠ 0) (hvalid : escs.lastTicksValid = true)
    (htacho : ∀ side, (escs.state side).tacho = reading 32 (position side))
    (hlast : ∀ side, escs.lastTicks side = reading 32 (paired side))
    (hmicros : escs.lastTicksMicros = micros last)
    (htime : 0 < time - last ∧ time - last < 2 ^ 32)
    (hway : -2 ^ 31 ≤ (position .left - paired .left) - (position .right - paired .right) ∧
      (position .left - paired .left) - (position .right - paired .right) < 2 ^ 31)
    (hangle : -2 ^ 31 ≤ (position .left - paired .left) + (position .right - paired .right) ∧
      (position .left - paired .left) + (position .right - paired .right) < 2 ^ 31) :
    (integrate (time - last) (escs.sendTwist wheelTicksPerMeter (micros time))).1 *
        (2 * wheelTicksPerMeter) =
      (((position .left - paired .left) - (position .right - paired .right) : ℤ) : F) ∧
    (integrate (time - last) (escs.sendTwist wheelTicksPerMeter (micros time))).2 *
        (2 * wheelTicksPerMeter) =
      -(((position .left - paired .left) + (position .right - paired .right) : ℤ) : F) := by
  have hduration : ((micros time - micros last).toNat : F) = ((time - last : ℤ) : F) := by
    rw [← toNat_reading_sub_of_lt (w := 32) (by omega) htime.2, Int.cast_natCast]
  have hne : ((time - last : ℤ) : F) ≠ 0 := Int.cast_ne_zero.mpr htime.1.ne'
  rw [DiffDriveEscs.sendTwist, if_pos hvalid, htacho, htacho, hlast, hlast, hmicros, hduration,
    reading_sub, reading_sub]
  dsimp only
  rw [reading_sub, reading_add, toInt_reading hway.1 hway.2, toInt_reading hangle.1 hangle.2]
  generalize (position .left - paired .left) - (position .right - paired .right) = x at *
  generalize (position .left - paired .left) + (position .right - paired .right) = y at *
  generalize time - last = d at *
  constructor
  · simp only [integrate, List.foldl_cons, List.foldl_nil, Prod.fst_zero, zero_add]
    field_simp
    rw [Nat.cast_ofNat]
  · simp only [integrate, List.foldl_cons, List.foldl_nil, Prod.snd_zero, zero_add]
    field_simp
    rw [Nat.cast_ofNat]

/-- The ESC fields with a state that has been delivered. -/
def deliver (escs : DiffDriveEscs F) (side : EscSide) (state : EscState F) : DiffDriveEscs F :=
  { escs with
    state := Function.update escs.state side state
    valid := Function.update escs.valid side true
    escsConnected := escs.escsConnected ||| side.mask }

/-- What a state does: it waits, or it completes a pair. -/
theorem escCallback_eq (escs : DiffDriveEscs F) (side : EscSide) (state : EscState F)
    (now : Micros) :
    escs.escCallback wheelTicksPerMeter side state now =
      if escs.valid side.other then
        (deliver escs side state).processStatusUpdate wheelTicksPerMeter now
      else (deliver escs side state, []) := by
  have hother : (deliver escs side state).valid side.other = escs.valid side.other :=
    Function.update_of_ne side.other_ne ..
  rw [← hother]
  rfl

omit [Field F] in
theorem update_tacho {side : EscSide} {state : EscState F} {position : ℤ}
    (h : ∀ side', (s.escs.state side').tacho = reading 32 (s.position side'))
    (htacho : state.tacho = reading 32 position) (side' : EscSide) :
    (Function.update s.escs.state side state side').tacho =
      reading 32 (Function.update s.position side position side') := by
  by_cases heq : side' = side
  · subst heq
    rw [Function.update_self, Function.update_self, htacho]
  · rw [Function.update_of_ne heq, Function.update_of_ne heq, h]

/-- **The first state of a pair.** It waits. -/
theorem Inv.wait {side : EscSide} {state : EscState F} {position time : ℤ}
    (h : s.Inv wheelTicksPerMeter) (htacho : state.tacho = reading 32 position)
    (hwaits : s.escs.valid side.other = false) :
    (s.next wheelTicksPerMeter (.state side state position time)).Inv wheelTicksPerMeter := by
  have hnext : s.next wheelTicksPerMeter (.state side state position time) =
      { s with
        escs := deliver s.escs side state
        position := Function.update s.position side position } := by
    rw [next, escCallback_eq, hwaits, if_neg nofun, if_neg nofun]
    simp only [integrate, List.foldl_nil, Prod.fst_zero, Prod.snd_zero, add_zero]
  rw [hnext]
  refine { h with tacho := update_tacho h.tacho htacho, paired := fun first hfirst side' => ?_ }
  intro hvalid
  have hne : side' ≠ side := by
    rintro rfl
    exact absurd ((Function.update_self ..).symm.trans hvalid) nofun
  refine (h.paired first hfirst side' ?_).trans (Function.update_of_ne hne ..).symm
  exact (Function.update_of_ne hne ..).symm.trans hvalid

/-- **The second state of a pair.** -/
theorem Inv.pair [CharZero F] {side : EscSide} {state : EscState F} {position time : ℤ}
    (hticks : wheelTicksPerMeter ≠ 0) (h : s.Inv wheelTicksPerMeter)
    (hfollows : s.Follows (.state side state position time))
    (hwaits : s.escs.valid side.other = true) :
    (s.next wheelTicksPerMeter (.state side state position time)).Inv wheelTicksPerMeter := by
  obtain ⟨htacho, hnear⟩ := hfollows
  have hnext : s.next wheelTicksPerMeter (.state side state position time) =
      { escs := ((deliver s.escs side state).processStatusUpdate wheelTicksPerMeter
          (micros time)).1
        position := Function.update s.position side position
        first := some (s.first.getD (Function.update s.position side position))
        paired := Function.update s.position side position
        time := time
        way := s.way + (integrate (time - s.time) ((deliver s.escs side state).sendTwist
          wheelTicksPerMeter (micros time))).1
        angle := s.angle + (integrate (time - s.time) ((deliver s.escs side state).sendTwist
          wheelTicksPerMeter (micros time))).2 } := by
    rw [next, escCallback_eq, hwaits, if_pos rfl, if_pos rfl]
    rfl
  have hdelivered := @update_tacho F s side state position h.tacho htacho
  rw [hnext]
  refine ⟨hdelivered, rfl, fun _ => ⟨hdelivered, rfl⟩, nofun, ?_, fun _ _ _ _ => rfl⟩
  intro first hfirst
  generalize Function.update s.position side position = position' at *
  cases hlast : s.first with
  | none =>
    have hvalid : ¬ (deliver s.escs side state).lastTicksValid = true := by
      intro hvalid
      have hsome := h.first.trans hvalid
      rw [hlast] at hsome
      exact nomatch hsome
    obtain rfl : position' = first := by simpa [hlast] using hfirst
    obtain ⟨hway, hangle⟩ := h.none_way hlast
    simp [hway, hangle, DiffDriveEscs.sendTwist, if_neg hvalid, integrate]
  | some first' =>
    obtain rfl : first' = first := by simpa [hlast] using hfirst
    have hvalid : s.escs.lastTicksValid = true := by rw [← h.first, hlast]; rfl
    obtain ⟨hticks', hmicros⟩ := h.lastTicks hvalid
    obtain ⟨htime, hnearWay, hnearAngle⟩ := hnear hwaits hvalid
    obtain ⟨hway, hangle⟩ := h.way first' hlast
    obtain ⟨htwistWay, htwistAngle⟩ := @integrate_sendTwist F _ _ _ (deliver s.escs side state)
      _ _ _ _ hticks hvalid hdelivered hticks' hmicros htime hnearWay hnearAngle
    constructor
    · dsimp only
      rw [add_mul, hway, htwistWay, ← Int.cast_add]
      congr 1
      ring
    · dsimp only
      rw [add_mul, hangle, htwistAngle, ← neg_add, ← Int.cast_add]
      congr 2
      ring

/-- **One event.** -/
theorem Inv.next [CharZero F] (hticks : wheelTicksPerMeter ≠ 0) (h : s.Inv wheelTicksPerMeter)
    {e : OdometryEvent F} (hfollows : s.Follows e) :
    (s.next wheelTicksPerMeter e).Inv wheelTicksPerMeter := by
  cases e with
  | state side state position time =>
    cases hwaits : s.escs.valid side.other with
    | true => exact h.pair hticks hfollows hwaits
    | false => exact h.wait hfollows.1 hwaits
  | onStop => exact ⟨h.tacho, rfl, nofun, fun _ => ⟨rfl, rfl⟩, nofun, nofun⟩

end Odometry

open Odometry

/-- A service that has not had a state yet. -/
def odometryStart : Odometry ℚ where
  escs := .initial fun _ => ⟨0, 0, 0#32, .ok⟩
  position := fun _ => 0
  first := none
  paired := fun _ => 0
  time := 0
  way := 0
  angle := 0

/-- A state of an ESC at this position. -/
def positionState (side : EscSide) (position time : ℤ) : OdometryEvent ℚ :=
  .state side ⟨0, 0, reading 32 position, .running⟩ position time

/-- Two pairs, where the left ESC delivers a state more. -/
def twoPairs : List (OdometryEvent ℚ) :=
  [positionState .left 10 1, positionState .right (-10) 2, positionState .left 20 3,
    positionState .left 30 4, positionState .right (-40) 5]

theorem twoPairs_follows :
    (odometry (100 : ℚ)).EveryStep (fun s e _ => s.Follows e) odometryStart twoPairs := by
  intro s hs
  obtain rfl := Option.some.inj hs
  refine ⟨⟨rfl, nofun⟩, fun s hs => ?_⟩
  obtain rfl := Option.some.inj hs
  refine ⟨⟨rfl, fun _ => nofun⟩, fun s hs => ?_⟩
  obtain rfl := Option.some.inj hs
  refine ⟨⟨rfl, nofun⟩, fun s hs => ?_⟩
  obtain rfl := Option.some.inj hs
  refine ⟨⟨rfl, nofun⟩, fun s hs => ?_⟩
  obtain rfl := Option.some.inj hs
  exact ⟨⟨rfl, fun _ _ => by decide +kernel⟩, trivial⟩

end OpenMower
