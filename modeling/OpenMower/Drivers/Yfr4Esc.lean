import Mathlib.Algebra.Notation.Defs
import Mathlib.Data.BitVec

/-!
# The YFR4 motor driver

From `drivers/motor/yfr4esc` and `debug/debuggable_driver`, what the driver transmits: a control
frame when it is given a duty, the same again with every heartbeat, and what a debug connection
sends in raw mode. `none` stands for a call that transmits nothing.

A control frame is represented by the duty in it. How a `ControlPacket` is checked, encoded and
written to the UART depends on nothing else. The driver is started before it is used, and
frames of settings, which it sends when an ESC asks for them, are left out.
-/

namespace OpenMower

/-- A frame on the wire: a `ControlPacket`, or raw data of a debug connection. -/
inductive Yfr4Frame (D : Type*)
  | control (dutyCycle : D)
  | raw (data : List (BitVec 8))

/-- The driver: `started_`, `is_raw_mode_` and `last_duty_`. -/
structure Yfr4EscDriver (D : Type*) where
  started : Bool
  rawMode : Bool
  lastDuty : D

namespace Yfr4EscDriver

variable {D : Type*} (s : Yfr4EscDriver D)

/-- `TX_BUFFER_SIZE`: an encoded `SettingsPacket` of 15 bytes with its delimiter. -/
def txBufferSize : ℕ := 17

/-- A started driver. -/
def init [Zero D] : Yfr4EscDriver D where
  started := true
  rawMode := false
  lastDuty := 0

/-- `SendControl`. -/
def sendControl (duty : D) : Yfr4Frame D := .control duty

/-- `SetDuty`. -/
def setDuty (duty : D) : Yfr4EscDriver D × Option (Yfr4Frame D) :=
  if s.started = false ∨ s.rawMode then (s, none)
  else ({ s with lastDuty := duty }, some (sendControl duty))

/-- `SetRawAccessMode`. -/
def setRawAccessMode (enabled : Bool) : Yfr4EscDriver D := { s with rawMode := enabled }

/-- `RawDataInput`. -/
def rawDataInput (data : List (BitVec 8)) : Option (Yfr4Frame D) :=
  if s.rawMode = false ∨ s.started = false then none else some (.raw (data.take txBufferSize))

/-- The heartbeat in `threadFunc`, which does not ask for the raw mode. -/
def heartbeat : Option (Yfr4Frame D) :=
  if s.started then some (sendControl s.lastDuty) else none

end Yfr4EscDriver

end OpenMower
