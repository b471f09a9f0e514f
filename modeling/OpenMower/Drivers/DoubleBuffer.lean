import OpenMower.Library.StateMachine

/-!
# Receiving into two buffers

From `drivers/gps/gps_driver` and `drivers/motor/vesc/VescDriver`. The DMA writes into one of two
buffers while the thread processes the other one. `rxend_cb` hands over a full buffer, and the
thread takes a partial one when nothing has come for some time. `DoubleBuffer` has the three fields
that both sides write, the target of the DMA, the pending events and the locals of `threadFunc`;
the two drivers run the same code up to the order of their last writes.

A step is a call of the interrupt handler, a section under `chSysLock`, or one read or write of a
shared field outside of it. The arguments of a call are read one by one, in any order. The values
that the hardware and `IsRawMode` return are part of the event. The thread exists before the first
reception starts, so that the handler always signals it.
-/

namespace OpenMower

/-- The drivers that receive into two buffers. -/
inductive ReceivingDriver
  | gps
  | vesc
  deriving DecidableEq, Repr

/-- `RECV_BUFFER_SIZE`. -/
def ReceivingDriver.recvBufferSize : ReceivingDriver → ℕ
  | .gps => 512
  | .vesc => 260

/-- The two buffers. -/
inductive RecvBuffer
  | recvBuffer1
  | recvBuffer2
  deriving DecidableEq, Repr

/-- The other buffer. -/
def RecvBuffer.other : RecvBuffer → RecvBuffer
  | .recvBuffer1 => .recvBuffer2
  | .recvBuffer2 => .recvBuffer1

/-- What a buffer is passed to. -/
inductive BufferConsumer
  | processBytes
  | rawDataOutput
  deriving DecidableEq, Repr

/-- What happens to a buffer. -/
inductive Transfer
  /-- `processing_done_ = false`. -/
  | handover (buffer : RecvBuffer) (len : ℕ)
  | call (taker : BufferConsumer) (buffer : RecvBuffer) (len : ℕ)
  deriving DecidableEq, Repr

/-- Where the thread is. -/
inductive ReceiveStage
  /-- In `chEvtWaitAnyTimeout` or `chEvtWaitOneTimeout`. -/
  | waiting
  /-- Behind a timeout. -/
  | timedOut
  /-- Before `chSysLock`. -/
  | locking
  /-- Before `if (processing_buffer_len_ > 0)`. -/
  | checkLen
  /-- Reading the arguments of a call. -/
  | arguments (taker : BufferConsumer) (buffer : Option RecvBuffer) (len : Option ℕ)
  /-- In the call. -/
  | processing (taker : BufferConsumer) (buffer : RecvBuffer) (len : ℕ)
  /-- Before `processing_buffer_len_ = 0`. -/
  | clearLen
  /-- Before `processing_done_ = true`. -/
  | setDone
  deriving DecidableEq, Repr

/-- The driver, its thread and the DMA. -/
structure DoubleBuffer where
  processingDone : Bool
  processingBuffer : RecvBuffer
  processingBufferLen : ℕ
  /-- Where the DMA writes. -/
  dmaTarget : RecvBuffer
  /-- The pending events of the thread. -/
  receivedPending : Bool
  expectPacketPending : Bool
  lastNdtr : ℕ
  expectsPacket : Bool
  stage : ReceiveStage
  /-- History: the handovers and the calls. -/
  transfers : List Transfer
  deriving DecidableEq, Repr

/-- The steps. -/
inductive ReceiveEvent
  /-- The DMA has filled a buffer. -/
  | rxend
  /-- `chEvtSignal` with `EVT_ID_EXPECT_PACKET`. -/
  | expectPacket
  /-- The wait returns with an event. -/
  | wake
  /-- The wait returns without an event. -/
  | timeout
  | readNdtr (first second : ℕ)
  /-- The section under `chSysLock`; `none` is `UART_ERR_NOT_ACTIVE`. -/
  | lock (notReceived : Option ℕ)
  | checkLen (rawMode : Bool)
  | loadBuffer
  | loadLen
  | call
  /-- The call returns. -/
  | finish (rawMode expectsMore : Bool)
  | clearLen
  | setDone
  deriving DecidableEq, Repr

/-- The steps of the thread. -/
def ReceiveEvent.IsThread : ReceiveEvent → Prop
  | .rxend => False
  | .expectPacket => False
  | _ => True

namespace DoubleBuffer

/-- Reception has been started. -/
def start : DoubleBuffer where
  processingDone := true
  processingBuffer := .recvBuffer2
  processingBufferLen := 0
  dmaTarget := .recvBuffer1
  receivedPending := false
  expectPacketPending := false
  lastNdtr := 0
  expectsPacket := false
  stage := .waiting
  transfers := []

variable (d : ReceivingDriver) (statusRequests : Bool) (s : DoubleBuffer)

/-- The buffer that has been received is handed over, and the other one is received into. -/
def handOver (len : ℕ) : DoubleBuffer :=
  { s with
    dmaTarget := s.processingBuffer
    processingBuffer := s.processingBuffer.other
    processingBufferLen := len
    processingDone := false
    transfers := s.transfers ++ [.handover s.processingBuffer.other len] }

/-- `rxend_cb`. -/
def rxend : DoubleBuffer :=
  -- the buffer that has been filled is dropped while the other one is processed
  if s.processingDone = false then { s with dmaTarget := s.processingBuffer.other }
  else { s.handOver d.recvBufferSize with receivedPending := true }

/-- The wait returns with the pending event that comes first. The GPS thread has only the one. -/
def wake : Option DoubleBuffer :=
  if s.receivedPending then some { s with receivedPending := false, stage := .checkLen }
  else if s.expectPacketPending then
    some { s with expectPacketPending := false, expectsPacket := true, lastNdtr := 0 }
  else none

/-- Whether the wait is limited. The VESC thread waits without a timeout if it does not expect a
packet and does not request the status either. -/
def HasTimeout : Prop := d = .gps ∨ s.expectsPacket = true ∨ statusRequests = true

instance : Decidable (s.HasTimeout d statusRequests) := inferInstanceAs (Decidable (_ ∨ _ ∨ _))

/-- `if (last_ndtr != NDTR)`. -/
def readNdtr (first second : ℕ) : DoubleBuffer :=
  if s.lastNdtr ≠ first then { s with lastNdtr := second, stage := .waiting }
  else { s with stage := .locking }

/-- How much of the buffer has been received when the reception is stopped. -/
def stoppedLen : Option ℕ → ℕ
  | some notReceived => d.recvBufferSize - notReceived
  | none => 0

/-- The section under `chSysLock`. -/
def lock (notReceived : Option ℕ) : DoubleBuffer :=
  if s.processingDone then { s.handOver (stoppedLen d notReceived) with stage := .checkLen }
  else { s with stage := .checkLen }

/-- `if (processing_buffer_len_ > 0)`, and the choice of the call. -/
def checkLen (rawMode : Bool) : DoubleBuffer :=
  if 0 < s.processingBufferLen then
    { s with
      stage :=
        .arguments (if d = .vesc ∧ rawMode then .rawDataOutput else .processBytes) none none }
  else { s with stage := if d = .gps then .clearLen else .setDone }

/-- Behind a call. The GPS thread has a second one in raw mode. -/
def finish (taker : BufferConsumer) (rawMode expectsMore : Bool) : DoubleBuffer :=
  match d, taker with
  | .gps, .processBytes =>
    { s with stage := if rawMode then .arguments .rawDataOutput none none else .clearLen }
  | .vesc, .processBytes =>
    { s with
      expectsPacket := if expectsMore ∨ rawMode then s.expectsPacket else false
      stage := .clearLen }
  | _, .rawDataOutput => { s with stage := .clearLen }

/-- `processing_buffer_len_ = 0`, and in the GPS thread also `last_ndtr = 0`. -/
def clearLen : DoubleBuffer :=
  { s with
    lastNdtr := if d = .gps then 0 else s.lastNdtr
    processingBufferLen := 0
    stage := .setDone }

/-- One step. -/
def step : ReceiveEvent → Option DoubleBuffer
  | .rxend => some (s.rxend d)
  | .expectPacket => if d = .vesc then some { s with expectPacketPending := true } else none
  | .wake => if s.stage = .waiting then s.wake else none
  | .timeout =>
    if s.stage = .waiting ∧ s.receivedPending = false ∧ s.expectPacketPending = false ∧
        s.HasTimeout d statusRequests then
      some { s with stage := .timedOut }
    else none
  | .readNdtr first second =>
    if s.stage = .timedOut then some (s.readNdtr first second) else none
  | .lock notReceived =>
    -- what has not been received is at most the whole buffer
    if s.stage = .locking ∧ ∀ n ∈ notReceived, n ≤ d.recvBufferSize then
      some (s.lock d notReceived)
    else none
  | .checkLen rawMode => if s.stage = .checkLen then some (s.checkLen d rawMode) else none
  | .loadBuffer =>
    match s.stage with
    -- the other argument may have been read or not
    | .arguments taker none len =>
      some { s with stage := .arguments taker (some s.processingBuffer) len }
    | _ => none
  | .loadLen =>
    match s.stage with
    | .arguments taker buffer none =>
      some { s with stage := .arguments taker buffer (some s.processingBufferLen) }
    | _ => none
  | .call =>
    match s.stage with
    | .arguments taker (some buffer) (some len) =>
      some { s with
        stage := .processing taker buffer len
        transfers := s.transfers ++ [.call taker buffer len] }
    | _ => none
  | .finish rawMode expectsMore =>
    match s.stage with
    | .processing taker _ _ => some (s.finish d taker rawMode expectsMore)
    | _ => none
  | .clearLen => if s.stage = .clearLen then some (s.clearLen d) else none
  | .setDone =>
    if s.stage = .setDone then some { s with processingDone := true, stage := .waiting } else none

variable {d : ReceivingDriver} {statusRequests : Bool} {s s' : DoubleBuffer} {e : ReceiveEvent}

/-! ### What the thread can do at each stage -/

/-- A step of the thread at its stage. -/
def ThreadStep (d : ReceivingDriver) (s s' : DoubleBuffer) : Prop :=
  match s.stage with
  | .waiting => s.wake = some s' ∨ s.receivedPending = false ∧ s' = { s with stage := .timedOut }
  | .timedOut => ∃ first second, s' = s.readNdtr first second
  | .locking => ∃ notReceived, s' = s.lock d notReceived
  | .checkLen => ∃ rawMode, s' = s.checkLen d rawMode
  | .arguments taker buffer len =>
    (buffer = none ∧ s' = { s with stage := .arguments taker (some s.processingBuffer) len }) ∨
      (len = none ∧ s' = { s with stage := .arguments taker buffer (some s.processingBufferLen) }) ∨
        ∃ b n, buffer = some b ∧ len = some n ∧
          s' = { s with
            stage := .processing taker b n
            transfers := s.transfers ++ [.call taker b n] }
  | .processing taker _ _ => ∃ rawMode expectsMore, s' = s.finish d taker rawMode expectsMore
  | .clearLen => s' = s.clearLen d
  | .setDone => s' = { s with processingDone := true, stage := .waiting }

/-- What the thread does depends on its stage. -/
theorem step_thread (he : e.IsThread) (hs : s.step d statusRequests e = some s') :
    ThreadStep d s s' := by
  rw [ThreadStep]
  cases e with
  | rxend => exact he.elim
  | expectPacket => exact he.elim
  | wake =>
    obtain ⟨hstage, hwake⟩ := Option.ite_none_right_eq_some.mp hs
    rw [hstage]
    exact .inl hwake
  | timeout =>
    obtain ⟨⟨hstage, hpending, -⟩, hnext⟩ := Option.ite_none_right_eq_some.mp hs
    rw [hstage]
    exact .inr ⟨hpending, (Option.some.inj hnext).symm⟩
  | readNdtr first second =>
    obtain ⟨hstage, hnext⟩ := Option.ite_none_right_eq_some.mp hs
    rw [hstage]
    exact ⟨first, second, (Option.some.inj hnext).symm⟩
  | lock notReceived =>
    obtain ⟨⟨hstage, -⟩, hnext⟩ := Option.ite_none_right_eq_some.mp hs
    rw [hstage]
    exact ⟨notReceived, (Option.some.inj hnext).symm⟩
  | checkLen rawMode =>
    obtain ⟨hstage, hnext⟩ := Option.ite_none_right_eq_some.mp hs
    rw [hstage]
    exact ⟨rawMode, (Option.some.inj hnext).symm⟩
  | loadBuffer =>
    rw [step] at hs
    split at hs
    · next taker len hstage =>
      rw [hstage]
      exact .inl ⟨rfl, (Option.some.inj hs).symm⟩
    · cases hs
  | loadLen =>
    rw [step] at hs
    split at hs
    · next taker buffer hstage =>
      rw [hstage]
      exact .inr (.inl ⟨rfl, (Option.some.inj hs).symm⟩)
    · cases hs
  | call =>
    rw [step] at hs
    split at hs
    · next taker b n hstage =>
      rw [hstage]
      exact .inr (.inr ⟨b, n, rfl, rfl, (Option.some.inj hs).symm⟩)
    · cases hs
  | finish rawMode expectsMore =>
    rw [step] at hs
    split at hs
    · next taker buffer len hstage =>
      rw [hstage]
      exact ⟨rawMode, expectsMore, (Option.some.inj hs).symm⟩
    · cases hs
  | clearLen =>
    obtain ⟨hstage, hnext⟩ := Option.ite_none_right_eq_some.mp hs
    rw [hstage]
    exact (Option.some.inj hnext).symm
  | setDone =>
    obtain ⟨hstage, hnext⟩ := Option.ite_none_right_eq_some.mp hs
    rw [hstage]
    exact (Option.some.inj hnext).symm

theorem step_waiting (hstage : s.stage = .waiting) (he : e.IsThread)
    (hs : s.step d statusRequests e = some s') :
    s.wake = some s' ∨ s.receivedPending = false ∧ s' = { s with stage := .timedOut } := by
  have h := step_thread he hs
  rwa [ThreadStep, hstage] at h

theorem step_timedOut (hstage : s.stage = .timedOut) (he : e.IsThread)
    (hs : s.step d statusRequests e = some s') : ∃ first second, s' = s.readNdtr first second := by
  have h := step_thread he hs
  rwa [ThreadStep, hstage] at h

theorem step_locking (hstage : s.stage = .locking) (he : e.IsThread)
    (hs : s.step d statusRequests e = some s') : ∃ notReceived, s' = s.lock d notReceived := by
  have h := step_thread he hs
  rwa [ThreadStep, hstage] at h

theorem step_checkLen (hstage : s.stage = .checkLen) (he : e.IsThread)
    (hs : s.step d statusRequests e = some s') : ∃ rawMode, s' = s.checkLen d rawMode := by
  have h := step_thread he hs
  rwa [ThreadStep, hstage] at h

theorem step_arguments {taker : BufferConsumer} {buffer : Option RecvBuffer} {len : Option ℕ}
    (hstage : s.stage = .arguments taker buffer len) (he : e.IsThread)
    (hs : s.step d statusRequests e = some s') :
    (buffer = none ∧ s' = { s with stage := .arguments taker (some s.processingBuffer) len }) ∨
      (len = none ∧ s' = { s with stage := .arguments taker buffer (some s.processingBufferLen) }) ∨
        ∃ b n, buffer = some b ∧ len = some n ∧
          s' = { s with
            stage := .processing taker b n
            transfers := s.transfers ++ [.call taker b n] } := by
  have h := step_thread he hs
  rwa [ThreadStep, hstage] at h

theorem step_processing {taker : BufferConsumer} {buffer : RecvBuffer} {len : ℕ}
    (hstage : s.stage = .processing taker buffer len) (he : e.IsThread)
    (hs : s.step d statusRequests e = some s') :
    ∃ rawMode expectsMore, s' = s.finish d taker rawMode expectsMore := by
  have h := step_thread he hs
  rwa [ThreadStep, hstage] at h

theorem step_clearLen (hstage : s.stage = .clearLen) (he : e.IsThread)
    (hs : s.step d statusRequests e = some s') : s' = s.clearLen d := by
  have h := step_thread he hs
  rwa [ThreadStep, hstage] at h

theorem step_setDone (hstage : s.stage = .setDone) (he : e.IsThread)
    (hs : s.step d statusRequests e = some s') :
    s' = { s with processingDone := true, stage := .waiting } := by
  have h := step_thread he hs
  rwa [ThreadStep, hstage] at h

/-- What comes behind a call. -/
theorem finish_eq (taker : BufferConsumer) (rawMode expectsMore : Bool) :
    ∃ expectsPacket stage,
      s.finish d taker rawMode expectsMore =
        { s with expectsPacket := expectsPacket, stage := stage } ∧
      (stage = .clearLen ∨ d = .gps ∧ stage = .arguments .rawDataOutput none none) := by
  cases d with
  | gps =>
    cases taker with
    | processBytes =>
      refine ⟨_, _, rfl, ?_⟩
      cases rawMode with
      | false => exact .inl rfl
      | true => exact .inr ⟨rfl, rfl⟩
    | rawDataOutput => exact ⟨_, _, rfl, .inl rfl⟩
  | vesc =>
    cases taker with
    | processBytes => exact ⟨_, _, rfl, .inl rfl⟩
    | rawDataOutput => exact ⟨_, _, rfl, .inl rfl⟩

/-- The thread adds to the history. -/
theorem step_transfers (he : e.IsThread) (hs : s.step d statusRequests e = some s') :
    ∃ more, s'.transfers = s.transfers ++ more := by
  match hat : s.stage with
  | .waiting =>
    rcases step_waiting hat he hs with hwake | ⟨-, rfl⟩
    · rw [wake] at hwake
      split at hwake
      · obtain rfl := Option.some.inj hwake
        exact ⟨[], (List.append_nil _).symm⟩
      split at hwake
      · obtain rfl := Option.some.inj hwake
        exact ⟨[], (List.append_nil _).symm⟩
      · cases hwake
    · exact ⟨[], (List.append_nil _).symm⟩
  | .timedOut =>
    obtain ⟨first, second, rfl⟩ := step_timedOut hat he hs
    refine ⟨[], ?_⟩
    rw [readNdtr, List.append_nil]
    split
    · rfl
    · rfl
  | .locking =>
    obtain ⟨notReceived, rfl⟩ := step_locking hat he hs
    rw [lock]
    split
    · exact ⟨_, rfl⟩
    · exact ⟨[], (List.append_nil _).symm⟩
  | .checkLen =>
    obtain ⟨rawMode, rfl⟩ := step_checkLen hat he hs
    refine ⟨[], ?_⟩
    rw [checkLen, List.append_nil]
    split
    · rfl
    · rfl
  | .arguments taker buffer len =>
    rcases step_arguments hat he hs with ⟨-, rfl⟩ | ⟨-, rfl⟩ | ⟨b, n, -, -, rfl⟩
    · exact ⟨[], (List.append_nil _).symm⟩
    · exact ⟨[], (List.append_nil _).symm⟩
    · exact ⟨_, rfl⟩
  | .processing taker buffer len =>
    obtain ⟨rawMode, expectsMore, rfl⟩ := step_processing hat he hs
    obtain ⟨expectsPacket, stage, heq, -⟩ := @finish_eq d s taker rawMode expectsMore
    rw [heq]
    exact ⟨[], (List.append_nil _).symm⟩
  | .clearLen =>
    obtain rfl := step_clearLen hat he hs
    exact ⟨[], (List.append_nil _).symm⟩
  | .setDone =>
    obtain rfl := step_setDone hat he hs
    exact ⟨[], (List.append_nil _).symm⟩

end DoubleBuffer

/-- The driver, its thread and the interrupts. -/
def doubleBufferMachine (d : ReceivingDriver) (statusRequests : Bool) :
    StateMachine DoubleBuffer ReceiveEvent where
  Init s := s = .start
  step s e := s.step d statusRequests e

end OpenMower
