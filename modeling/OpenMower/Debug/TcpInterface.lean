import OpenMower.Drivers.Yfr4Esc
import OpenMower.Library.Buffer
import OpenMower.Portable.Integers

/-!
# The debug connection

From `debug/debug_tcp_interface`, `debug/debuggable_driver` and what `drivers/motor/vesc` transmits.
While a client is connected to `DebugTCPInterface`, its driver is in raw mode: `SetDuty` is ignored,
and what the client sends goes to the motor controller instead.

The result of `read` is signed, and -1 stands for an error, but the loop keeps it in a `size_t`.
The setup of the sockets and the way back to the client are left out. The input buffer is the memory
from its first byte on, so that a size beyond `sizeof(input_buffer_)` stays visible.
-/

namespace OpenMower

open Buffer

/-- What a motor driver does in and out of raw mode: `SetDuty` is ignored in raw mode, and a
started driver transmits it otherwise. -/
structure DebuggableMotor (σ F D : Type*) where
  isStarted : σ → Bool
  setRawAccessMode : Bool → σ → σ
  /-- What `RawDataInput` transmits. -/
  rawDataInput : (data : ℕ → Byte) → (size : BitVec 32) → σ → Option F
  /-- What `SetDuty` transmits. -/
  setDuty : D → σ → Option F
  isStarted_setRawAccessMode : ∀ enabled s, isStarted (setRawAccessMode enabled s) = isStarted s
  setDuty_raw : ∀ duty s, setDuty duty (setRawAccessMode true s) = none
  setDuty_isSome : ∀ duty s, isStarted s → (setDuty duty (setRawAccessMode false s)).isSome

/-- A packet of the VESC driver, or raw data of a debug connection. -/
inductive VescFrame (D : Type*)
  | setDuty (duty : D)
  | raw (data : List Byte)

/-- The VESC driver, from what it transmits. -/
structure VescMotor where
  started : Bool
  rawMode : Bool

namespace VescMotor

variable {D : Type*} (s : VescMotor)

/-- `SetRawAccessMode`. -/
def setRawAccessMode (enabled : Bool) : VescMotor := { s with rawMode := enabled }

/-- `SetDuty`. -/
def setDuty (duty : D) : Option (VescFrame D) := if s.rawMode then none else some (.setDuty duty)

/-- `RawDataInput`. -/
def rawDataInput (data : ℕ → Byte) (size : BitVec 32) : Option (VescFrame D) :=
  if s.rawMode = false then none
  else if s.started = false then none
  else some (.raw (slice data 0 size.toNat))

/-- `VescDriver` as a `DebuggableDriver`. -/
def debuggable (D : Type*) : DebuggableMotor VescMotor (VescFrame D) D where
  isStarted s := s.started
  setRawAccessMode enabled s := s.setRawAccessMode enabled
  rawDataInput data size s := s.rawDataInput data size
  setDuty duty s := s.setDuty duty
  isStarted_setRawAccessMode _ _ := rfl
  setDuty_raw _ _ := rfl
  setDuty_isSome _ _ _ := rfl

end VescMotor

/-- `YFR4escDriver` as a `DebuggableDriver`. -/
def Yfr4EscDriver.debuggable (D : Type*) :
    DebuggableMotor (Yfr4EscDriver D) (Yfr4Frame D) D where
  isStarted s := s.started
  setRawAccessMode enabled s := s.setRawAccessMode enabled
  rawDataInput data size s := s.rawDataInput (slice data 0 size.toNat)
  setDuty duty s := (s.setDuty duty).2
  isStarted_setRawAccessMode _ _ := rfl
  setDuty_raw duty s := by
    have hraw : (s.setRawAccessMode true).rawMode = true := rfl
    rw [Yfr4EscDriver.setDuty, if_pos (.inr hraw)]
  setDuty_isSome duty s hstarted := by
    have hnot : ¬ ((s.setRawAccessMode false).started = false ∨
        (s.setRawAccessMode false).rawMode = true) := by
      simpa [Yfr4EscDriver.setRawAccessMode] using hstarted
    rw [Yfr4EscDriver.setDuty, if_neg hnot]
    rfl

/-- `sizeof(input_buffer_)`. -/
def debugInputBufferSize : ℕ := 1024

/-- What `read` returns, with the buffer it has filled: the number of bytes, 0 at the end of the
stream, and -1 for an error. -/
structure ReadResult where
  value : ℤ
  inputBuffer : ℕ → Byte
  neg_one_le : -1 ≤ value
  le_size : value ≤ debugInputBufferSize

namespace ReadResult

variable (r : ReadResult)

/-- The result in `size_t bytes_received`. -/
def bytesReceived : BitVec 32 := .ofInt 32 r.value

/-- An error. -/
def error (inputBuffer : ℕ → Byte) : ReadResult where
  value := -1
  inputBuffer := inputBuffer
  neg_one_le := Int.le_refl _
  le_size := by decide

theorem toNat_bytesReceived_of_nonneg (h : 0 ≤ r.value) :
    (r.bytesReceived.toNat : ℤ) = r.value := by
  have hle : r.value ≤ 1024 := r.le_size
  rw [bytesReceived, BitVec.toNat_ofInt]
  omega

theorem toNat_bytesReceived_of_error (h : r.value = -1) : r.bytesReceived.toNat = 2 ^ 32 - 1 := by
  rw [bytesReceived, h]
  rfl

theorem bytesReceived_eq_zero_iff : r.bytesReceived = 0#32 ↔ r.value = 0 := by
  constructor
  · intro hzero
    by_cases hneg : r.value = -1
    · have hmax := r.toNat_bytesReceived_of_error hneg
      rw [hzero] at hmax
      cases hmax
    · have hle := r.neg_one_le
      have heq := r.toNat_bytesReceived_of_nonneg (by omega)
      rw [hzero] at heq
      exact heq.symm
  · intro hzero
    rw [bytesReceived, hzero]
    rfl

end ReadResult

/-- What the interface calls of its driver. -/
inductive DriverCall
  | setRawAccessMode (enabled : Bool)
  | rawDataInput (data : ℕ → Byte) (size : BitVec 32)

/-- One connection of `DebugTCPInterface::ThreadFunc`. -/
structure DebugConnection (σ F : Type*) where
  driver : σ
  /-- In the loop that reads from the socket. -/
  reading : Bool
  /-- History: the calls of the driver. -/
  calls : List DriverCall
  /-- History: what the driver has transmitted of it. -/
  transmitted : List F

namespace DebugConnection

variable {σ F D : Type*} (M : DebuggableMotor σ F D)

/-- A client has been accepted. -/
def accept (driver : σ) : DebugConnection σ F where
  driver := M.setRawAccessMode true driver
  reading := true
  calls := [.setRawAccessMode true]
  transmitted := []

/-- A result of `read`: the body of the loop, or what comes after it. -/
def read (s : DebugConnection σ F) (r : ReadResult) : DebugConnection σ F :=
  if s.reading = false then s
  else if 0#32 < r.bytesReceived then
    { s with
      calls := s.calls ++ [.rawDataInput r.inputBuffer r.bytesReceived]
      transmitted :=
        s.transmitted ++ (M.rawDataInput r.inputBuffer r.bytesReceived s.driver).toList }
  else
    { s with
      driver := M.setRawAccessMode false s.driver
      reading := false
      calls := s.calls ++ [.setRawAccessMode false] }

/-- The connection after these results. -/
def serve (driver : σ) (results : List ReadResult) : DebugConnection σ F :=
  results.foldl (read M) (accept M driver)

end DebugConnection

end OpenMower
