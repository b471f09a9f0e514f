import OpenMower.Drivers.CobsReceiver
import OpenMower.Library.RingBuffer

/-!
# Receiving into one DMA buffer

From `drivers/motor/yfr4esc/YFR4escDriver`. The DMA counts down how much of its buffer is left
(`NDTR`), and at zero `rxend_cb` makes it begin at the front again. Each pass of `threadFunc` reads
the counter and passes what is new to `ProcessRxBytes`. What wakes the thread and the heartbeat are
left out: a pass can come at any time. It is one step, and no byte arrives while the counter is
zero.
-/

namespace OpenMower

open Buffer

/-- The DMA and the thread. -/
structure DmaReceiver where
  /-- `dma_rx_buffer_` and `NDTR`. -/
  ring : RingBuffer Byte
  rxSeenLen : ℕ
  /-- History: the bytes that have arrived. -/
  arrived : List Byte
  /-- History: the ranges that have been passed to `ProcessRxBytes`. -/
  processed : List (List Byte)
  /-- History: how many bytes had arrived when `NDTR` was read last. -/
  lastRead : Option ℕ

/-- The steps. -/
inductive DmaEvent
  | arrive (b : Byte)
  | rxend
  /-- A pass of `threadFunc`. -/
  | poll
  deriving DecidableEq, Repr

namespace DmaReceiver

variable (size : ℕ)

/-- The reception has been started. -/
def start : DmaReceiver where
  ring := .empty size fun _ => 0#8
  rxSeenLen := 0
  arrived := []
  processed := []
  lastRead := none

variable (s : DmaReceiver)

/-- A call of `ProcessRxBytes`. -/
def processRxBytes (start len : ℕ) : DmaReceiver :=
  { s with processed := s.processed ++ [slice s.ring.buffer start len] }

/-- `if (received_so_far < rx_seen_len_)`: the rest of the buffer, and then its front. -/
def processTail (receivedSoFar : ℕ) : DmaReceiver :=
  if receivedSoFar < s.rxSeenLen then
    { s.processRxBytes s.rxSeenLen (size - s.rxSeenLen) with rxSeenLen := 0 }
  else s

/-- `if (received_so_far > rx_seen_len_)`. -/
def processDelta (receivedSoFar : ℕ) : DmaReceiver :=
  if s.rxSeenLen < receivedSoFar then
    { s.processRxBytes s.rxSeenLen (receivedSoFar - s.rxSeenLen) with rxSeenLen := receivedSoFar }
  else s

/-- A pass of `threadFunc`. -/
def poll : DmaReceiver :=
  -- the counter is read once in each pass
  let ndtrNow := s.ring.left
  let s' := { s with lastRead := some s.arrived.length }
  if ndtrNow ≤ size then
    let receivedSoFar := size - ndtrNow
    (s'.processTail size receivedSoFar).processDelta receivedSoFar
  else s'

/-- One step. -/
def step : DmaEvent → Option DmaReceiver
  | .arrive b =>
    if 0 < s.ring.left then
      some { s with ring := s.ring.arrive size b, arrived := s.arrived ++ [b] }
    else none
  | .rxend => if s.ring.left = 0 then some { s with ring := s.ring.rearm size } else none
  | .poll => some (s.poll size)

/-- The bytes up to the last read of `NDTR`. -/
def upToLastRead : List Byte := s.arrived.take (s.lastRead.getD 0)

/-- The bytes since then. -/
def sinceLastRead : List Byte := s.arrived.drop (s.lastRead.getD 0)

variable {size s}

/-- From where the thread has read up to to the position. -/
theorem processDelta_of_le {receivedSoFar : ℕ} (h : s.rxSeenLen ≤ receivedSoFar) :
    ∃ processed, s.processDelta receivedSoFar =
        { s with processed := processed, rxSeenLen := receivedSoFar } ∧
      processed.flatten =
        s.processed.flatten ++ slice s.ring.buffer s.rxSeenLen (receivedSoFar - s.rxSeenLen) := by
  rw [processDelta]
  split
  · exact ⟨_, rfl, by simp [processRxBytes]⟩
  · have heq : receivedSoFar = s.rxSeenLen := by omega
    refine ⟨s.processed, by rw [heq], ?_⟩
    rw [heq, Nat.sub_self]
    exact (List.append_nil _).symm

/-- A pass at the position up to which the thread has read. -/
theorem poll_of_eq (hle : s.ring.left ≤ size) (h : size - s.ring.left = s.rxSeenLen) :
    s.poll size = { s with lastRead := some s.arrived.length } := by
  have hnot : ¬ s.rxSeenLen < s.rxSeenLen := Nat.lt_irrefl _
  rw [poll, if_pos hle, h]
  dsimp only
  rw [processTail, if_neg hnot, processDelta, if_neg hnot]

/-- **A pass** that can tell from the counter what has not been read. -/
theorem poll_of_unread {unread : List Byte} (h : s.ring.Unread size s.rxSeenLen unread)
    (hroom : unread.length < size) :
    ∃ processed, s.poll size =
        { s with
          lastRead := some s.arrived.length
          processed := processed
          rxSeenLen := size - s.ring.left } ∧
      processed.flatten = s.processed.flatten ++ unread := by
  rw [poll, if_pos h.left_le]
  dsimp only
  rcases h.cases hroom with ⟨hle, hunread⟩ | ⟨hlt, hunread⟩
  · have hnot : ¬ size - s.ring.left < s.rxSeenLen := Nat.not_lt.mpr hle
    rw [processTail, if_neg hnot]
    obtain ⟨processed, heq, hflatten⟩ := @processDelta_of_le
      { s with lastRead := some s.arrived.length } (size - s.ring.left) hle
    refine ⟨processed, heq, hflatten.trans ?_⟩
    rw [← hunread]
    rfl
  · -- the DMA has begun at the front again
    have hback : size - s.ring.left < s.rxSeenLen := hlt
    rw [processTail, if_pos hback]
    obtain ⟨processed, heq, hflatten⟩ := @processDelta_of_le
      { ({ s with lastRead := some s.arrived.length } : DmaReceiver).processRxBytes s.rxSeenLen
          (size - s.rxSeenLen) with rxSeenLen := 0 } (size - s.ring.left) (Nat.zero_le _)
    refine ⟨processed, heq, hflatten.trans ?_⟩
    rw [← hunread, processRxBytes, List.flatten_append, List.flatten_singleton, List.append_assoc]
    rfl

end DmaReceiver

/-- `DMA_RX_BUFFER_SIZE` of the YFR4 driver. -/
def dmaRxBufferSize : ℕ := 2 * (rxMaxPktCoded + 1)

/-- A DMA buffer of this size, and its reader. -/
def dmaMachine (size : ℕ) : StateMachine DmaReceiver DmaEvent where
  Init s := s = .start size
  step s e := s.step size e

end OpenMower
