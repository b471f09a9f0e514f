import OpenMower.Library.RingBuffer
import OpenMower.Library.StateMachine
import OpenMower.Drivers.CobsReceiver

/-!
# The DMA buffer of the cover UI

From `drivers/ui/yf_cover_ui`. `rxend_cb` makes the DMA begin at the front of its buffer again and
signals `EVT_RX_DMA_WRAP`. A pass of `ThreadFunc` takes the pending events, empties the buffer up
to its end if the wrap is among them, and then reads the counter of the DMA (`NDTR`).

Bytes can arrive and the DMA can begin again between any two of its steps, which are the return of
the wait, the read of `NDTR`, and each read of a byte in `ProcessRxBytes`. A wait can also run into
its timeout although an event is pending. The rest of the loop body does not touch the buffer.

Each byte carries its number in the order of arrival, so that what has been read can be told from
bytes with the same value. The number is a history variable.
-/

namespace OpenMower

/-- Where the thread is. -/
inductive PanelStage
  /-- In `chEvtWaitAnyTimeout`, or in what comes after the buffer has been drained. -/
  | waiting
  /-- In `ProcessRxBytes` up to the end of the buffer, for a wrap. -/
  | wrap (next : ℕ)
  /-- Before the read of `NDTR`. -/
  | counter
  /-- In `ProcessRxBytes` up to `received_so_far`. -/
  | delta (next receivedSoFar : ℕ)
  deriving DecidableEq, Repr

/-- The DMA and the thread. -/
structure PanelDma where
  /-- `dma_rx_buffer_` and `NDTR`. -/
  ring : RingBuffer (Byte × ℕ)
  /-- `EVT_RX_DMA_WRAP` is pending. -/
  wrapPending : Bool
  rxSeenLen : ℕ
  stage : PanelStage
  /-- History: the bytes that have arrived, with their numbers. -/
  arrived : List (Byte × ℕ)
  /-- History: the bytes that have been read in `ProcessRxBytes`. -/
  processed : List (Byte × ℕ)
  /-- History: how often `rxend_cb` has been called. -/
  rxends : ℕ
  /-- History: how often the thread has emptied the buffer up to its end for a wrap. -/
  wraps : ℕ
  /-- History: how many bytes had arrived at each read of `NDTR`, the last one first. -/
  ndtrReads : List ℕ

/-- The steps. -/
inductive PanelDmaEvent
  | arrive (b : Byte)
  | rxend
  /-- `chEvtWaitAnyTimeout` returns. -/
  | wake (timeout : Bool)
  /-- The thread goes on. -/
  | advance
  deriving DecidableEq, Repr

namespace PanelDma

variable (size : ℕ)

/-- The reception has been started. -/
def start : PanelDma where
  ring := .empty size fun _ => (0#8, 0)
  wrapPending := false
  rxSeenLen := 0
  stage := .waiting
  arrived := []
  processed := []
  rxends := 0
  wraps := 0
  ndtrReads := []

variable (s : PanelDma)

/-- A byte arrives. -/
def receive (b : Byte) : PanelDma :=
  { s with
    ring := s.ring.arrive size (b, s.arrived.length)
    arrived := s.arrived ++ [(b, s.arrived.length)] }

/-- `rxend_cb`. -/
def rxend : PanelDma :=
  { s with ring := s.ring.rearm size, wrapPending := true, rxends := s.rxends + 1 }

/-- `chEvtWaitAnyTimeout` returns, without the pending events if it has run into its timeout. -/
def wake (timeout : Bool) : PanelDma :=
  if timeout then { s with stage := .counter }
  else
    { s with
      wrapPending := false
      stage := if s.wrapPending then .wrap s.rxSeenLen else .counter }

/-- `data[i]` in `ProcessRxBytes`. -/
def readByte (slot : ℕ) (stage : PanelStage) : PanelDma :=
  { s with processed := s.processed ++ [s.ring.buffer slot], stage := stage }

/-- The read of `NDTR`, and what is to be processed for it. -/
def readNdtr : PanelDma :=
  let s' := { s with ndtrReads := s.arrived.length :: s.ndtrReads }
  if s.ring.left ≤ size then
    let receivedSoFar := size - s.ring.left
    if s.rxSeenLen < receivedSoFar then { s' with stage := .delta s.rxSeenLen receivedSoFar }
    else { s' with stage := .waiting }
  else { s' with stage := .waiting }

/-- The thread goes on from where it is. -/
def advance : Option PanelDma :=
  match s.stage with
  | .waiting => none
  | .wrap next =>
    if next < size then some (s.readByte next (.wrap (next + 1)))
    else some { s with rxSeenLen := 0, wraps := s.wraps + 1, stage := .counter }
  | .counter => some (s.readNdtr size)
  | .delta next receivedSoFar =>
    if next < receivedSoFar then some (s.readByte next (.delta (next + 1) receivedSoFar))
    else some { s with rxSeenLen := receivedSoFar, stage := .waiting }

/-- One step. -/
def step : PanelDmaEvent → Option PanelDma
  | .arrive b => if 0 < s.ring.left then some (s.receive size b) else none
  | .rxend => if s.ring.left = 0 then some (s.rxend size) else none
  | .wake timeout => if s.stage = .waiting then some (s.wake timeout) else none
  | .advance => s.advance size

/-- The slot that the thread reads next, if it is in `ProcessRxBytes`. -/
def nextSlot : Option ℕ :=
  match s.stage with
  | .wrap next => if next < size then some next else none
  | .delta next receivedSoFar => if next < receivedSoFar then some next else none
  | _ => none

/-- Up to where the thread has read in the buffer. -/
def cursor : ℕ :=
  match s.stage with
  | .waiting => s.rxSeenLen
  | .wrap next => next
  | .counter => s.rxSeenLen
  | .delta next _ => next

/-- The bytes of the ranges that have been passed to `ProcessRxBytes`. -/
def processedBytes : List Byte := s.processed.map Prod.fst

/-- The bytes that have arrived. -/
def arrivedBytes : List Byte := s.arrived.map Prod.fst

/-- The slot that is read next holds the byte that comes after the processed ones: the slots before
the position have been filled since the last wrap that has been handled, and the ones from there on
before it, with one `rxend` to be handled. -/
def LapsMatch : Prop :=
  ∀ slot, s.nextSlot size = some slot →
    if slot < s.ring.position size then s.rxends = s.wraps else s.rxends = s.wraps + 1

/-- The ranges that have been passed to `ProcessRxBytes` are the stream up to there. -/
def InOrder : Prop := s.processed <+: s.arrived

/-- Less than a whole buffer has arrived between two reads of `NDTR`, since the last one, and before
the first one. -/
def FewBetweenReads : Prop :=
  List.IsChain (fun later earlier => later < earlier + size)
    (s.arrived.length :: (s.ndtrReads ++ [0]))

instance : Decidable (s.FewBetweenReads size) :=
  inferInstanceAs (Decidable (List.IsChain _ _))

instance : Decidable s.InOrder := inferInstanceAs (Decidable (_ <+: _))

end PanelDma

/-- A DMA buffer of this size, and the thread of the panel. -/
def panelDmaMachine (size : ℕ) : StateMachine PanelDma PanelDmaEvent where
  Init s := s = .start size
  step s e := s.step size e

/-- `DMA_RX_BUFFER_SIZE` of the cover UI, where `msg_event_rain` has 12 bytes. -/
def panelDmaRxBufferSize : ℕ := 2 * (12 + 12 / 254 + 1 + 1)

end OpenMower
