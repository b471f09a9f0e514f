import OpenMower.Library.ModularClock

/-!
# The microsecond clock of the firmware

`getTimeMicros` converts the kernel's 32-bit tick counter, which runs at
`CH_CFG_ST_FREQUENCY` = 10 kHz, to microseconds and keeps the low 32 bits. The tick counter
wraps after `2 ^ 32` ticks and the result after `2 ^ 32` microseconds; the first wrap is a
multiple of the second, so that the result is the true time in microseconds modulo `2 ^ 32`
over any up-time (`getTimeMicros_eq_reading`).
-/

namespace OpenMower

open ModularClock

/-- A `uint32_t` clock value or duration in microseconds. -/
abbrev Micros := BitVec 32

/-- What the 32-bit microsecond clock shows at a true time. -/
abbrev micros (t : ℤ) : Micros := reading 32 t

/-- `CH_CFG_ST_FREQUENCY`, widened to the type of the conversion. -/
def stFrequency : BitVec 64 := 10000#64

/-- `TIME_I2US`: computed in 64 bits, rounded up, then truncated to 32 bits. -/
def timeI2us (interval : BitVec 32) : Micros :=
  BitVec.setWidth 32
    ((interval.setWidth 64 * 1000000#64 + stFrequency - 1#64) / stFrequency)

/-- `getTimeMicros`, for the system time `chVTGetSystemTimeX()` returns. -/
def getTimeMicros (systemTime : BitVec 32) : Micros := timeI2us systemTime

/-- The 64-bit numerator of `TIME_I2US` does not overflow. -/
private theorem toNat_i2us_numerator (interval : BitVec 32) :
    (interval.setWidth 64 * 1000000#64 + stFrequency - 1#64).toNat
      = interval.toNat * 1000000 + 9999 := by
  have hlt : interval.toNat < 2 ^ 32 := interval.isLt
  have hmul : (interval.setWidth 64 * 1000000#64).toNat = interval.toNat * 1000000 := by
    rw [BitVec.toNat_mul, BitVec.toNat_setWidth, BitVec.toNat_ofNat]
    omega
  rw [BitVec.toNat_sub, BitVec.toNat_add, hmul, stFrequency, BitVec.toNat_ofNat,
    BitVec.toNat_ofNat]
  omega

/-- A tick is 100 µs. -/
theorem toNat_timeI2us (interval : BitVec 32) :
    (timeI2us interval).toNat = interval.toNat * 100 % 2 ^ 32 := by
  have hdiv : (interval.toNat * 1000000 + 9999) / 10000 = interval.toNat * 100 := by omega
  rw [timeI2us, BitVec.toNat_setWidth, BitVec.toNat_udiv, toNat_i2us_numerator, stFrequency,
    BitVec.toNat_ofNat, show 10000 % 2 ^ 64 = 10000 from rfl, hdiv]

/-- **The clock reading law.** After any number of ticks the clock shows the true time in
microseconds modulo `2 ^ 32`. -/
theorem getTimeMicros_eq_reading (ticks : ℕ) :
    getTimeMicros (BitVec.ofNat 32 ticks) = micros (100 * ticks) := by
  apply BitVec.eq_of_toNat_eq
  have h : ((micros (100 * ticks)).toNat : ℤ) = 100 * ticks % 2 ^ 32 := toNat_reading _
  rw [getTimeMicros, toNat_timeI2us, BitVec.toNat_ofNat]
  omega

end OpenMower
