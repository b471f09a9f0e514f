import OpenMower.Drivers.DoubleBuffer

/-!
# Handing over received buffers

A buffer that is handed over is to be processed exactly once before the next one, and the DMA is
not to write into it meanwhile. `processing_done_` says who may hand over the next one: the
interrupt handler only while it is set. The thread relies on an event only being pending while
there is something to process. This is not so if the interrupt comes between a timeout and the
section under `chSysLock`: the thread then processes the buffer at once, and the event wakes it
once more. In that pass it reads a length of zero and writes `processing_done_` nevertheless, so
that a buffer that is handed over meanwhile is forgotten, or is processed while `processing_done_`
says that it has been (`handover_late`).

`HandedOver` is what is expected of every state. It holds along a run if and only if the interrupt
handler never finds `processing_done_` set while the length is that of an unprocessed buffer or is
about to be cleared (`handover_iff`).
-/

namespace OpenMower

open DoubleBuffer

/-- Whether a call takes the buffer. In the GPS driver the raw output is only a copy. -/
def ReceivingDriver.Delivers (d : ReceivingDriver) (taker : BufferConsumer) : Prop :=
  d = .gps → taker = .processBytes

instance (d : ReceivingDriver) (taker : BufferConsumer) : Decidable (d.Delivers taker) :=
  inferInstanceAs (Decidable (_ → _))

/-- The buffer that is outstanding after one more transfer, or `none` if the transfer is out of
order. A buffer without a length need not be taken. -/
def afterTransfer (d : ReceivingDriver) (outstanding : Option (RecvBuffer × ℕ)) :
    Transfer → Option (Option (RecvBuffer × ℕ))
  | .handover buffer len =>
    if outstanding ≠ none then none else some (if len = 0 then none else some (buffer, len))
  | .call taker buffer len =>
    if outstanding = if d.Delivers taker then some (buffer, len) else none then some none else none

/-- Every buffer that was handed over with a length has been taken by exactly one call with that
length before the next one was handed over, up to the last one if it is outstanding. -/
def Orderly (d : ReceivingDriver) (transfers : List Transfer)
    (outstanding : Option (RecvBuffer × ℕ)) : Prop :=
  transfers.foldlM (afterTransfer d) none = some outstanding

/-- When the interrupt handler finds `processing_done_` set, the length is zero and is not about to
be cleared. -/
def NoLateHandover (s : DoubleBuffer) (e : ReceiveEvent) (_ : DoubleBuffer) : Prop :=
  e = .rxend → s.processingDone = true → s.processingBufferLen = 0 ∧ s.stage ≠ .clearLen

/-- The next transfer is a call that takes this buffer with this length. -/
def NextCall (d : ReceivingDriver) (b : RecvBuffer) (n : ℕ) (transfers : List Transfer)
    (_ s' : DoubleBuffer) : Prop :=
  ∃ taker, d.Delivers taker ∧ s'.transfers = transfers ++ [.call taker b n]

/-- What is expected of a state: the buffer that is being processed is not received into, each
buffer has been taken once before the next handover, and the thread is going to take one that is
outstanding, whatever it reads from the hardware. -/
structure HandedOver (d : ReceivingDriver) (statusRequests : Bool) (s : DoubleBuffer) : Prop where
  dmaTarget_ne : ∀ taker buffer len, s.stage = .processing taker buffer len → s.dmaTarget ≠ buffer
  orderly : ∃ outstanding, Orderly d s.transfers outstanding
  taken : ∀ b n, Orderly d s.transfers (some (b, n)) →
    (doubleBufferMachine d statusRequests).Inevitable ReceiveEvent.IsThread
      (NextCall d b n s.transfers) s

namespace Orderly

variable {d : ReceivingDriver} {transfers : List Transfer} {outstanding o : Option (RecvBuffer × ℕ)}
  {transfer : Transfer} {taker : BufferConsumer} {buffer : RecvBuffer} {len : ℕ}

theorem nil : Orderly d [] none := rfl

theorem unique (h : Orderly d transfers outstanding) (h' : Orderly d transfers o) :
    outstanding = o := Option.some.inj (h.symm.trans h')

/-- One more transfer. -/
theorem concat_iff : Orderly d (transfers ++ [transfer]) outstanding ↔
    ∃ o, Orderly d transfers o ∧ afterTransfer d o transfer = some outstanding := by
  rw [Orderly, List.foldlM_append]
  simp [Orderly, Option.bind_eq_some_iff]

theorem empty (h : Orderly d transfers none) : Orderly d (transfers ++ [.handover buffer 0]) none :=
  concat_iff.mpr ⟨none, h, rfl⟩

theorem handover (h : Orderly d transfers none) (hlen : 0 < len) :
    Orderly d (transfers ++ [.handover buffer len]) (some (buffer, len)) := by
  refine concat_iff.mpr ⟨none, h, ?_⟩
  rw [afterTransfer, if_neg (by simp), if_neg (by omega)]

theorem call (h : Orderly d transfers (some (buffer, len))) (htaker : d.Delivers taker) :
    Orderly d (transfers ++ [.call taker buffer len]) none := by
  refine concat_iff.mpr ⟨_, h, ?_⟩
  rw [afterTransfer, if_pos htaker, if_pos rfl]

theorem copy (h : Orderly d transfers none) (htaker : ¬ d.Delivers taker) :
    Orderly d (transfers ++ [.call taker buffer len]) none := by
  refine concat_iff.mpr ⟨_, h, ?_⟩
  rw [afterTransfer, if_neg htaker, if_pos rfl]

/-- Nothing may be outstanding at a handover. -/
theorem not_handover (h : Orderly d transfers (some (buffer, len))) {b : RecvBuffer} {n : ℕ} :
    ¬ Orderly d (transfers ++ [.handover b n]) outstanding := by
  intro h'
  obtain ⟨o, ho, hafter⟩ := concat_iff.mp h'
  obtain rfl := h.unique ho
  rw [afterTransfer, if_pos (by simp)] at hafter
  cases hafter

end Orderly

namespace ReceiveStage

/-- Before the section under `chSysLock`. -/
def BeforeLock : ReceiveStage → Prop
  | .waiting => True
  | .timedOut => True
  | .locking => True
  | _ => False

/-- Nothing is being processed. -/
def Idle : ReceiveStage → Prop
  | .arguments _ _ _ => False
  | .processing _ _ _ => False
  | _ => True

/-- The thread is about to process what has been handed over. -/
def Taking (d : ReceivingDriver) (s : DoubleBuffer) : ReceiveStage → Prop
  | .checkLen => True
  | .arguments taker buffer len => d.Delivers taker ∧ (∀ b ∈ buffer, b = s.processingBuffer) ∧
      ∀ n ∈ len, n = s.processingBufferLen
  | _ => False

/-- The thread has processed what has been handed over, or there was nothing to process. -/
def Finishing (d : ReceivingDriver) (s : DoubleBuffer) : ReceiveStage → Prop
  | .checkLen => s.processingBufferLen = 0
  | .arguments taker buffer _ => ¬ d.Delivers taker ∧ ∀ b ∈ buffer, b = s.processingBuffer
  | .processing _ buffer _ => buffer = s.processingBuffer
  | .clearLen => True
  | .setDone => s.processingBufferLen = 0
  | _ => False

/-- How many steps it takes at most until the call. -/
def toCall : ReceiveStage → ℕ
  | .timedOut => 6
  | .setDone => 6
  | .waiting => 5
  | .locking => 5
  | .checkLen => 4
  | .arguments _ none none => 3
  | .arguments _ (some _) none => 2
  | .arguments _ none (some _) => 2
  | .arguments _ (some _) (some _) => 1
  | _ => 0

end ReceiveStage

theorem ReceiveStage.Idle.cases {stage : ReceiveStage} (h : stage.Idle)
    (hclear : stage ≠ .clearLen) : stage.BeforeLock ∨ stage = .checkLen ∨ stage = .setDone := by
  cases stage with
  | waiting => exact .inl trivial
  | timedOut => exact .inl trivial
  | locking => exact .inl trivial
  | checkLen => exact .inr (.inl rfl)
  | arguments => exact h.elim
  | processing => exact h.elim
  | clearLen => exact absurd rfl hclear
  | setDone => exact .inr (.inr rfl)

theorem ReceiveStage.Taking.of_checkLen {d : ReceivingDriver} {s : DoubleBuffer}
    {stage : ReceiveStage} (h : stage = .checkLen) : stage.Taking d s := by
  rw [h]
  trivial

/-- Who has the buffers, and which one is outstanding. -/
inductive Owned (d : ReceivingDriver) (s : DoubleBuffer) : Option (RecvBuffer × ℕ) → Prop
  /-- The interrupt may hand over. -/
  | free (hdone : s.processingDone = true) (hlen : s.processingBufferLen = 0)
    (hstage : s.stage.Idle) : Owned d s none
  /-- The interrupt has handed over, and its event is pending. -/
  | signalled (hlen : 0 < s.processingBufferLen) (hpending : s.receivedPending = true)
    (hstage : s.stage.BeforeLock) (hdone : s.processingDone = true → s.stage = .waiting) :
    Owned d s (some (s.processingBuffer, s.processingBufferLen))
  /-- The interrupt has handed over before the thread writes `processing_done_`. -/
  | late (hlen : 0 < s.processingBufferLen) (hpending : s.receivedPending = true)
    (hstage : s.stage = .setDone) (hdone : s.processingDone = false) :
    Owned d s (some (s.processingBuffer, s.processingBufferLen))
  | taking (hlen : 0 < s.processingBufferLen) (hstage : s.stage.Taking d s) :
    Owned d s (some (s.processingBuffer, s.processingBufferLen))
  | finishing (hstage : s.stage.Finishing d s)
    (hdone : s.processingDone = true → 0 < s.processingBufferLen) : Owned d s none

/-- The invariant. -/
structure HandoverInv (d : ReceivingDriver) (s : DoubleBuffer)
    (outstanding : Option (RecvBuffer × ℕ)) : Prop where
  dmaTarget_eq : s.dmaTarget = s.processingBuffer.other
  owned : Owned d s outstanding
  orderly : Orderly d s.transfers outstanding

theorem RecvBuffer.other_other (b : RecvBuffer) : b.other.other = b := by
  cases b <;> rfl

theorem RecvBuffer.other_ne (b : RecvBuffer) : b.other ≠ b := by
  cases b <;> decide

theorem ReceivingDriver.recvBufferSize_pos (d : ReceivingDriver) : 0 < d.recvBufferSize := by
  cases d <;> decide

namespace HandoverInv

variable {d : ReceivingDriver} {statusRequests : Bool} {s s' : DoubleBuffer}
  {outstanding : Option (RecvBuffer × ℕ)} {b : RecvBuffer} {n : ℕ} {e : ReceiveEvent}

theorem of_start : HandoverInv d start none := ⟨rfl, .free rfl rfl trivial, .nil⟩

/-- While a buffer is outstanding or being processed, the handler receives into the same buffer
again. -/
theorem rxend_of_not_done (h : HandoverInv d s outstanding) (hdone : s.processingDone = false) :
    HandoverInv d (s.rxend d) outstanding := by
  rw [DoubleBuffer.rxend, if_pos hdone]
  refine ⟨rfl, ?_, h.orderly⟩
  cases h.owned with
  | free hset => exact absurd (hset.symm.trans hdone) (by decide)
  | signalled hlen hpending hstage hset => exact .signalled hlen hpending hstage hset
  | late hlen hpending hstage hset => exact .late hlen hpending hstage hset
  | taking hlen hstage => exact .taking hlen hstage
  | finishing hstage hset => exact .finishing hstage hset

/-- **The interrupt.** -/
theorem rxend (h : HandoverInv d s outstanding)
    (hlate : s.processingDone = true → s.processingBufferLen = 0 ∧ s.stage ≠ .clearLen) :
    ∃ outstanding', HandoverInv d (s.rxend d) outstanding' := by
  by_cases hdone : s.processingDone = false
  · exact ⟨_, h.rxend_of_not_done hdone⟩
  -- a handover: the length is zero, so that nothing is outstanding
  have hset : s.processingDone = true := by simpa using hdone
  obtain ⟨hzero, hclear⟩ := hlate hset
  have hpos := d.recvBufferSize_pos
  have hdma : s.processingBuffer = s.processingBuffer.other.other :=
    (RecvBuffer.other_other _).symm
  rw [DoubleBuffer.rxend, if_neg hdone]
  cases h.owned with
  | free _ _ hstage =>
    have horderly := @Orderly.handover d _ s.processingBuffer.other _ h.orderly hpos
    rcases hstage.cases hclear with hbefore | hcheck | hlast
    · exact ⟨_, hdma, .signalled hpos rfl hbefore (by simp [handOver]), horderly⟩
    · exact ⟨_, hdma, .taking hpos (.of_checkLen hcheck), horderly⟩
    · exact ⟨_, hdma, .late hpos rfl hlast rfl, horderly⟩
  | signalled hlen => omega
  | late hlen => omega
  | taking hlen => omega
  | finishing _ hlen =>
    have hlen := hlen hset
    omega

/-- Another driver thread asks for a packet. -/
theorem expectPacket (h : HandoverInv d s outstanding) :
    HandoverInv d { s with expectPacketPending := true } outstanding := by
  refine ⟨h.dmaTarget_eq, ?_, h.orderly⟩
  cases h.owned with
  | free hdone hlen hstage => exact .free hdone hlen hstage
  | signalled hlen hpending hstage hset => exact .signalled hlen hpending hstage hset
  | late hlen hpending hstage hset => exact .late hlen hpending hstage hset
  | taking hlen hstage => exact .taking hlen hstage
  | finishing hstage hset => exact .finishing hstage hset

/-- What a step of the thread does about an outstanding buffer. -/
inductive TowardsCall (d : ReceivingDriver) (s s' : DoubleBuffer) (b : RecvBuffer) (n : ℕ) : Prop
  | called (taker : BufferConsumer) (htaker : d.Delivers taker)
    (htransfers : s'.transfers = s.transfers ++ [.call taker b n]) (h : HandoverInv d s' none)
  | nearer (h : HandoverInv d s' (some (b, n))) (htransfers : s'.transfers = s.transfers)
    (hlt : s'.stage.toCall < s.stage.toCall)

/-- Before the section under `chSysLock`. -/
theorem step_of_signalled (h : HandoverInv d s (some (s.processingBuffer, s.processingBufferLen)))
    (hlen : 0 < s.processingBufferLen) (hpending : s.receivedPending = true)
    (hstage : s.stage.BeforeLock) (hdone : s.processingDone = true → s.stage = .waiting)
    (he : e.IsThread) (hs : s.step d statusRequests e = some s') :
    TowardsCall d s s' s.processingBuffer s.processingBufferLen := by
  match hat : s.stage, hstage with
  | .waiting, _ =>
    rcases step_waiting hat he hs with hwake | ⟨hnot, -⟩
    · rw [wake, if_pos hpending] at hwake
      obtain rfl := Option.some.inj hwake
      exact .nearer ⟨h.dmaTarget_eq, .taking hlen trivial, h.orderly⟩ rfl
        (by simp [hat, ReceiveStage.toCall])
    · exact absurd (hpending.symm.trans hnot) (by decide)
  | .timedOut, _ =>
    have hclear : ¬ s.processingDone = true := fun hset => by simpa [hat] using hdone hset
    obtain ⟨first, second, rfl⟩ := step_timedOut hat he hs
    rw [readNdtr]
    split
    · exact .nearer ⟨h.dmaTarget_eq, .signalled hlen hpending trivial (absurd · hclear), h.orderly⟩
        rfl (by simp [hat, ReceiveStage.toCall])
    · exact .nearer ⟨h.dmaTarget_eq, .signalled hlen hpending trivial (absurd · hclear), h.orderly⟩
        rfl (by simp [hat, ReceiveStage.toCall])
  | .locking, _ =>
    have hclear : ¬ s.processingDone = true := fun hset => by simpa [hat] using hdone hset
    obtain ⟨notReceived, rfl⟩ := step_locking hat he hs
    rw [lock, if_neg hclear]
    exact .nearer ⟨h.dmaTarget_eq, .taking hlen trivial, h.orderly⟩ rfl
      (by simp [hat, ReceiveStage.toCall])

/-- From the reading of the length to the call. -/
theorem step_of_taking (h : HandoverInv d s (some (s.processingBuffer, s.processingBufferLen)))
    (hlen : 0 < s.processingBufferLen) (hstage : s.stage.Taking d s) (he : e.IsThread)
    (hs : s.step d statusRequests e = some s') :
    TowardsCall d s s' s.processingBuffer s.processingBufferLen := by
  match hat : s.stage, hstage with
  | .checkLen, _ =>
    obtain ⟨rawMode, rfl⟩ := step_checkLen hat he hs
    rw [checkLen, if_pos hlen]
    refine .nearer ⟨h.dmaTarget_eq, .taking hlen ⟨?_, by simp, by simp⟩, h.orderly⟩ rfl
      (by simp [hat, ReceiveStage.toCall])
    rintro rfl
    simp
  | .arguments taker buffer len, hargs =>
    obtain ⟨htaker, hbuffer, hlength⟩ := hargs
    rcases step_arguments hat he hs with
      ⟨rfl, rfl⟩ | ⟨rfl, rfl⟩ | ⟨b, n, rfl, rfl, rfl⟩
    · refine .nearer ⟨h.dmaTarget_eq, .taking hlen ⟨htaker, by simp, hlength⟩, h.orderly⟩
        rfl ?_
      cases len with
      | none => simp [hat, ReceiveStage.toCall]
      | some n => simp [hat, ReceiveStage.toCall]
    · refine .nearer ⟨h.dmaTarget_eq, .taking hlen ⟨htaker, hbuffer, by simp⟩, h.orderly⟩
        rfl ?_
      cases buffer with
      | none => simp [hat, ReceiveStage.toCall]
      | some b => simp [hat, ReceiveStage.toCall]
    · obtain rfl := hbuffer b rfl
      obtain rfl := hlength n rfl
      exact .called taker htaker rfl
        ⟨h.dmaTarget_eq, .finishing rfl fun _ => hlen, h.orderly.call htaker⟩

/-- **A step of the thread while a buffer is outstanding.** -/
theorem step_of_some (h : HandoverInv d s (some (b, n))) (he : e.IsThread)
    (hs : s.step d statusRequests e = some s') : TowardsCall d s s' b n := by
  generalize hout : some (b, n) = outstanding at h
  cases h.owned with
  | free => cases hout
  | finishing => cases hout
  | signalled hlen hpending hstage hdone =>
    cases hout
    exact h.step_of_signalled hlen hpending hstage hdone he hs
  | late hlen hpending hstage hdone =>
    cases hout
    obtain rfl := step_setDone hstage he hs
    exact .nearer ⟨h.dmaTarget_eq, .signalled hlen hpending trivial fun _ => rfl, h.orderly⟩ rfl
      (by simp [hstage, ReceiveStage.toCall])
  | taking hlen hstage =>
    cases hout
    exact h.step_of_taking hlen hstage he hs

/-- The interrupt may hand over, and the thread goes on. -/
theorem step_of_free (h : HandoverInv d s none) (hdone : s.processingDone = true)
    (hlen : s.processingBufferLen = 0) (hstage : s.stage.Idle) (he : e.IsThread)
    (hs : s.step d statusRequests e = some s') :
    ∃ outstanding, HandoverInv d s' outstanding := by
  match hat : s.stage, hstage with
  | .waiting, _ =>
    rcases step_waiting hat he hs with hwake | ⟨-, rfl⟩
    · rw [wake] at hwake
      split at hwake
      · obtain rfl := Option.some.inj hwake
        exact ⟨_, h.dmaTarget_eq, .free hdone hlen trivial, h.orderly⟩
      split at hwake
      · obtain rfl := Option.some.inj hwake
        exact ⟨_, h.dmaTarget_eq, .free hdone hlen hstage, h.orderly⟩
      · cases hwake
    · exact ⟨_, h.dmaTarget_eq, .free hdone hlen trivial, h.orderly⟩
  | .timedOut, _ =>
    obtain ⟨first, second, rfl⟩ := step_timedOut hat he hs
    rw [readNdtr]
    split
    · exact ⟨_, h.dmaTarget_eq, .free hdone hlen trivial, h.orderly⟩
    · exact ⟨_, h.dmaTarget_eq, .free hdone hlen trivial, h.orderly⟩
  | .locking, _ =>
    obtain ⟨notReceived, rfl⟩ := step_locking hat he hs
    rw [lock, if_pos hdone]
    -- the thread takes the part that has been received, which may be empty
    rcases Nat.eq_zero_or_pos (stoppedLen d notReceived) with hzero | hpos
    · rw [hzero]
      exact ⟨_, (RecvBuffer.other_other _).symm, .finishing rfl (by simp [handOver]),
        h.orderly.empty⟩
    · exact ⟨_, (RecvBuffer.other_other _).symm, .taking hpos trivial, h.orderly.handover hpos⟩
  | .checkLen, _ =>
    obtain ⟨rawMode, rfl⟩ := step_checkLen hat he hs
    rw [checkLen, if_neg (by omega)]
    refine ⟨_, h.dmaTarget_eq, .free hdone hlen ?_, h.orderly⟩
    dsimp only
    split
    · trivial
    · trivial
  | .clearLen, _ =>
    obtain rfl := step_clearLen hat he hs
    exact ⟨_, h.dmaTarget_eq, .free hdone rfl trivial, h.orderly⟩
  | .setDone, _ =>
    obtain rfl := step_setDone hat he hs
    exact ⟨_, h.dmaTarget_eq, .free rfl hlen trivial, h.orderly⟩

/-- Up to `processing_done_ = true`. -/
theorem step_of_finishing (h : HandoverInv d s none) (hstage : s.stage.Finishing d s)
    (hdone : s.processingDone = true → 0 < s.processingBufferLen) (he : e.IsThread)
    (hs : s.step d statusRequests e = some s') :
    ∃ outstanding, HandoverInv d s' outstanding := by
  match hat : s.stage, hstage with
  | .checkLen, hlen =>
    obtain ⟨rawMode, rfl⟩ := step_checkLen hat he hs
    have hzero : ¬ 0 < s.processingBufferLen := Nat.not_lt.mpr (Nat.le_of_eq hlen)
    rw [checkLen, if_neg hzero]
    refine ⟨_, h.dmaTarget_eq, .finishing ?_ hdone, h.orderly⟩
    dsimp only
    split
    · trivial
    · exact hlen
  | .arguments taker buffer len, hargs =>
    obtain ⟨htaker, hbuffer⟩ := hargs
    rcases step_arguments hat he hs with
      ⟨rfl, rfl⟩ | ⟨rfl, rfl⟩ | ⟨b, n, rfl, rfl, rfl⟩
    · exact ⟨_, h.dmaTarget_eq, .finishing ⟨htaker, by simp⟩ hdone, h.orderly⟩
    · exact ⟨_, h.dmaTarget_eq, .finishing ⟨htaker, hbuffer⟩ hdone, h.orderly⟩
    · obtain rfl := hbuffer b rfl
      exact ⟨_, h.dmaTarget_eq, .finishing rfl hdone, h.orderly.copy htaker⟩
  | .processing taker buffer len, _ =>
    obtain ⟨rawMode, expectsMore, rfl⟩ := step_processing hat he hs
    obtain ⟨expectsPacket, stage, heq, hnext⟩ := @finish_eq d s taker rawMode expectsMore
    rw [heq]
    refine ⟨_, h.dmaTarget_eq, .finishing ?_ hdone, h.orderly⟩
    rcases hnext with rfl | ⟨rfl, rfl⟩
    · trivial
    · -- the GPS driver copies the buffer to the raw output
      exact ⟨by simp [ReceivingDriver.Delivers], by simp⟩
  | .clearLen, _ =>
    obtain rfl := step_clearLen hat he hs
    by_cases hset : s.processingDone = true
    · exact ⟨_, h.dmaTarget_eq, .free hset rfl trivial, h.orderly⟩
    · exact ⟨_, h.dmaTarget_eq, .finishing rfl (absurd · hset), h.orderly⟩
  | .setDone, hlen =>
    obtain rfl := step_setDone hat he hs
    exact ⟨_, h.dmaTarget_eq, .free rfl hlen trivial, h.orderly⟩

/-- **One step** that is no late handover. -/
theorem step (h : HandoverInv d s outstanding) (hs : s.step d statusRequests e = some s')
    (hlate : NoLateHandover s e s') : ∃ outstanding', HandoverInv d s' outstanding' := by
  by_cases he : e.IsThread
  · cases outstanding with
    | some buffer =>
      cases h.step_of_some he hs with
      | called _ _ _ h' => exact ⟨_, h'⟩
      | nearer h' _ _ => exact ⟨_, h'⟩
    | none =>
      cases h.owned with
      | free hdone hlen hstage => exact h.step_of_free hdone hlen hstage he hs
      | finishing hstage hdone => exact h.step_of_finishing hstage hdone he hs
  · cases e with
    | rxend =>
      obtain rfl := Option.some.inj hs
      exact h.rxend (hlate rfl)
    | expectPacket =>
      rw [DoubleBuffer.step] at hs
      split at hs
      · obtain rfl := Option.some.inj hs
        exact ⟨_, h.expectPacket⟩
      · cases hs
    | _ => exact absurd trivial he

/-- While a buffer is outstanding the thread can go on. -/
theorem exists_step_of_some (h : HandoverInv d s (some (b, n))) (statusRequests : Bool) :
    ∃ e s', e.IsThread ∧ s.step d statusRequests e = some s' := by
  generalize hout : some (b, n) = outstanding at h
  cases h.owned with
  | free => cases hout
  | finishing => cases hout
  | late hlen hpending hstage hdone =>
    exact ⟨.setDone, _, trivial, by rw [DoubleBuffer.step, if_pos hstage]⟩
  | signalled hlen hpending hstage hdone =>
    cases hat : s.stage with
    | waiting =>
      exact ⟨.wake, _, trivial, by rw [DoubleBuffer.step, if_pos hat, wake, if_pos hpending]⟩
    | timedOut => exact ⟨.readNdtr 0 0, _, trivial, by rw [DoubleBuffer.step, if_pos hat]⟩
    | locking =>
      exact ⟨.lock none, _, trivial, by rw [DoubleBuffer.step, if_pos ⟨hat, by simp⟩]⟩
    | checkLen | arguments | processing | clearLen | setDone =>
      rw [hat] at hstage
      exact hstage.elim
  | taking hlen hstage =>
    cases hat : s.stage with
    | checkLen => exact ⟨.checkLen false, _, trivial, by rw [DoubleBuffer.step, if_pos hat]⟩
    | arguments taker buffer len =>
      rcases buffer with _ | buffer
      · exact ⟨.loadBuffer, _, trivial, by rw [DoubleBuffer.step, hat]⟩
      rcases len with _ | len
      · exact ⟨.loadLen, _, trivial, by rw [DoubleBuffer.step, hat]⟩
      · exact ⟨.call, _, trivial, by rw [DoubleBuffer.step, hat]⟩
    | waiting | timedOut | locking | processing | clearLen | setDone =>
      rw [hat] at hstage
      exact hstage.elim

/-- The buffer that is being processed. -/
theorem buffer_eq (h : HandoverInv d s outstanding) {taker : BufferConsumer} {buffer : RecvBuffer}
    {len : ℕ} (hstage : s.stage = .processing taker buffer len) : buffer = s.processingBuffer := by
  cases h.owned with
  | free _ _ hidle =>
    rw [hstage] at hidle
    exact hidle.elim
  | signalled _ _ hbefore =>
    rw [hstage] at hbefore
    exact hbefore.elim
  | late _ _ hlast => exact absurd (hstage.symm.trans hlast) (by simp)
  | taking _ htaking =>
    rw [hstage] at htaking
    exact htaking.elim
  | finishing hfinishing =>
    rw [hstage] at hfinishing
    exact hfinishing

/-- **The invariant is enough.** -/
theorem handedOver (h : HandoverInv d s outstanding) (statusRequests : Bool) :
    HandedOver d statusRequests s := by
  refine ⟨fun taker buffer len hstage => ?_, ⟨_, h.orderly⟩, fun b n horderly => ?_⟩
  · rw [h.dmaTarget_eq, h.buffer_eq hstage]
    exact s.processingBuffer.other_ne
  · obtain rfl := h.orderly.unique horderly
    refine StateMachine.Inevitable.of_rank
      (I := fun s' => HandoverInv d s' (some (b, n)) ∧ s'.transfers = s.transfers)
      (fun s' => s'.stage.toCall) (fun s' hs' => hs'.1.exists_step_of_some statusRequests) ?_
      ⟨h, rfl⟩
    rintro s₁ e s₂ ⟨hinv, htransfers⟩ he hs
    cases hinv.step_of_some he hs with
    | called taker htaker hcall _ => exact .inl ⟨taker, htaker, by rw [hcall, htransfers]⟩
    | nearer hinv' hsame hlt => exact .inr ⟨⟨hinv', hsame.trans htransfers⟩, hlt⟩

end HandoverInv

/-! ### Late handovers -/

/-- Whether a transfer takes an outstanding buffer. -/
def Transfer.Takes (d : ReceivingDriver) : Transfer → Prop
  | .handover _ _ => False
  | .call taker _ _ => d.Delivers taker

/-- The thread is not going to read the length of the outstanding buffer. -/
def ReceiveStage.Missing (d : ReceivingDriver) (s : DoubleBuffer) : ReceiveStage → Prop
  | .arguments taker _ _ => ¬ d.Delivers taker
  | .processing _ _ _ => False
  | .clearLen => True
  | _ => s.processingBufferLen = 0

/-- A buffer that was handed over as the last one of these transfers is forgotten. -/
inductive Forgotten (d : ReceivingDriver) (transfers : List Transfer) (s : DoubleBuffer) : Prop
  | missing (htransfers : s.transfers = transfers) (hstage : s.stage.Missing d s)
  | passed (transfer : Transfer) (later : List Transfer)
    (htransfers : s.transfers = transfers ++ transfer :: later) (hnot : ¬ transfer.Takes d)

namespace Forgotten

variable {d : ReceivingDriver} {statusRequests : Bool} {transfers : List Transfer}
  {s s' : DoubleBuffer} {e : ReceiveEvent}

theorem not_nextCall (h : Forgotten d transfers s') {b : RecvBuffer} {n : ℕ} {s : DoubleBuffer} :
    ¬ NextCall d b n transfers s s' := by
  rintro ⟨taker, htaker, hcall⟩
  cases h with
  | missing htransfers _ =>
    rw [htransfers] at hcall
    simp at hcall
  | passed transfer later htransfers hnot =>
    rw [htransfers, List.append_cancel_left_eq] at hcall
    obtain ⟨rfl, -⟩ := List.cons.inj hcall
    exact hnot htaker

theorem step_of_missing (htransfers : s.transfers = transfers) (hstage : s.stage.Missing d s)
    (he : e.IsThread) (hs : s.step d statusRequests e = some s') : Forgotten d transfers s' := by
  match hat : s.stage, hstage with
  | .waiting, hlen =>
    rcases step_waiting hat he hs with hwake | ⟨-, rfl⟩
    · rw [wake] at hwake
      split at hwake
      · obtain rfl := Option.some.inj hwake
        exact .missing htransfers hlen
      split at hwake
      · obtain rfl := Option.some.inj hwake
        exact .missing htransfers hstage
      · cases hwake
    · exact .missing htransfers hlen
  | .timedOut, hlen =>
    obtain ⟨first, second, rfl⟩ := step_timedOut hat he hs
    rw [readNdtr]
    split
    · exact .missing htransfers hlen
    · exact .missing htransfers hlen
  | .locking, hlen =>
    obtain ⟨notReceived, rfl⟩ := step_locking hat he hs
    rw [lock]
    split
    · refine .passed _ [] (congrArg (· ++ [_]) htransfers) id
    · exact .missing htransfers hlen
  | .checkLen, hlen =>
    obtain ⟨rawMode, rfl⟩ := step_checkLen hat he hs
    have hzero : ¬ 0 < s.processingBufferLen := Nat.not_lt.mpr (Nat.le_of_eq hlen)
    rw [checkLen, if_neg hzero]
    refine .missing htransfers ?_
    dsimp only
    split
    · trivial
    · exact hlen
  | .arguments taker buffer len, hnot =>
    rcases step_arguments hat he hs with ⟨-, rfl⟩ | ⟨-, rfl⟩ | ⟨b, n, -, -, rfl⟩
    · exact .missing htransfers hnot
    · exact .missing htransfers hnot
    · exact .passed _ [] (congrArg (· ++ [_]) htransfers) hnot
  | .clearLen, _ =>
    obtain rfl := step_clearLen hat he hs
    exact .missing htransfers rfl
  | .setDone, hlen =>
    obtain rfl := step_setDone hat he hs
    exact .missing htransfers hlen

theorem step (h : Forgotten d transfers s) (he : e.IsThread)
    (hs : s.step d statusRequests e = some s') : Forgotten d transfers s' := by
  cases h with
  | missing htransfers hstage => exact step_of_missing htransfers hstage he hs
  | passed transfer later htransfers hnot =>
    obtain ⟨more, hmore⟩ := step_transfers he hs
    refine .passed transfer (later ++ more) ?_ hnot
    rw [hmore, htransfers, List.append_assoc, List.cons_append]

/-- A forgotten buffer is not taken. -/
theorem not_handedOver {b : RecvBuffer} {n : ℕ} (horderly : Orderly d s.transfers (some (b, n)))
    (h : Forgotten d s.transfers s) : ¬ HandedOver d statusRequests s := by
  intro hhanded
  refine StateMachine.Inevitable.not_of_invariant (J := Forgotten d s.transfers) ?_ h
    (hhanded.taken b n horderly)
  intro s₁ e s₂ h₁ he hs
  exact ⟨(h₁.step he hs).not_nextCall, h₁.step he hs⟩

end Forgotten

/-- **A late handover** is not as expected. -/
theorem HandoverInv.not_handedOver_rxend {d : ReceivingDriver} {statusRequests : Bool}
    {s : DoubleBuffer} {outstanding : Option (RecvBuffer × ℕ)} (h : HandoverInv d s outstanding)
    (hdone : s.processingDone = true) (hlate : s.processingBufferLen = 0 → s.stage = .clearLen) :
    ¬ HandedOver d statusRequests (s.rxend d) := by
  have hpos := d.recvBufferSize_pos
  have hset : ¬ s.processingDone = false := by simp [hdone]
  rw [DoubleBuffer.rxend, if_neg hset]
  have hforgotten : outstanding = none →
      s.stage.Missing d { s.handOver d.recvBufferSize with receivedPending := true } →
        ¬ HandedOver d statusRequests
          { s.handOver d.recvBufferSize with receivedPending := true } := by
    rintro rfl hmissing
    exact Forgotten.not_handedOver (h.orderly.handover hpos) (.missing rfl hmissing)
  cases h.owned with
  | free _ hlen _ =>
    refine hforgotten rfl ?_
    rw [hlate hlen]
    trivial
  | signalled =>
    intro hhanded
    obtain ⟨_, hnext⟩ := hhanded.orderly
    exact h.orderly.not_handover hnext
  | taking =>
    intro hhanded
    obtain ⟨_, hnext⟩ := hhanded.orderly
    exact h.orderly.not_handover hnext
  | late _ _ _ hnot => exact absurd hnot hset
  | finishing hstage hlen =>
    have hne := Nat.ne_of_gt (hlen hdone)
    -- while the buffer is processed the DMA writes into it, and later the new length is cleared
    match hat : s.stage, hstage with
    | .checkLen, hzero => exact absurd hzero hne
    | .setDone, hzero => exact absurd hzero hne
    | .processing taker buffer len, hbuffer =>
      intro hhanded
      exact hhanded.dmaTarget_ne taker buffer len hat (Eq.symm hbuffer)
    | .arguments taker buffer len, hargs =>
      refine hforgotten rfl ?_
      rw [hat]
      exact hargs.1
    | .clearLen, _ =>
      refine hforgotten rfl ?_
      rw [hat]
      trivial

/-- **Handover.** In every run of either driver, each state is as expected if and only if the
interrupt handler only finds `processing_done_` set while the length is zero and the thread is not
about to clear it. -/
theorem handover_iff (d : ReceivingDriver) (statusRequests : Bool) (es : List ReceiveEvent) :
    (doubleBufferMachine d statusRequests).EveryStep
        (fun _ _ s' => HandedOver d statusRequests s') start es ↔
      (doubleBufferMachine d statusRequests).EveryStep NoLateHandover start es := by
  constructor
  · refine fun h => h.imp (I := fun s => ∃ o, HandoverInv d s o) ⟨none, .of_start⟩ ?_
    rintro s e s' ⟨outstanding, hinv⟩ hs hhanded
    have hguard : NoLateHandover s e s' := by
      rintro rfl hdone
      obtain rfl := Option.some.inj hs
      by_contra hlate
      refine hinv.not_handedOver_rxend hdone (fun hlen => ?_) hhanded
      by_contra hclear
      exact hlate ⟨hlen, hclear⟩
    exact ⟨hinv.step hs hguard, hguard⟩
  · refine fun h => h.imp (I := fun s => ∃ o, HandoverInv d s o) ⟨none, .of_start⟩ ?_
    rintro s e s' ⟨outstanding, hinv⟩ hs hguard
    obtain ⟨outstanding', hinv'⟩ := hinv.step hs hguard
    exact ⟨⟨_, hinv'⟩, hinv'.handedOver statusRequests⟩

/-- The last byte of a GPS buffer arrives behind a timeout, and the next buffer is full when the
event has woken the thread once more. It is forgotten when the third one is full. -/
def forgottenRun : List ReceiveEvent :=
  [.timeout, .readNdtr 1 1, .timeout, .readNdtr 1 1, .rxend, .lock none, .checkLen false,
    .loadBuffer, .loadLen, .call, .finish false false, .clearLen, .setDone, .wake, .checkLen false,
    .rxend, .clearLen, .setDone]

/-- The same in the VESC driver, where the next buffer is still processed when the third one is
full. -/
def overwrittenRun : List ReceiveEvent :=
  [.expectPacket, .wake, .timeout, .readNdtr 1 1, .timeout, .readNdtr 1 1, .rxend, .lock none,
    .checkLen false, .loadBuffer, .loadLen, .call, .finish false true, .clearLen, .setDone, .wake,
    .checkLen false, .rxend, .setDone, .wake, .checkLen false, .loadBuffer, .loadLen, .call]

/-- In both runs a handover is late. -/
theorem handover_late :
    ¬ (doubleBufferMachine .gps false).EveryStep (fun _ _ s' => HandedOver .gps false s') start
        (forgottenRun ++ [.rxend]) ∧
      ¬ (doubleBufferMachine .vesc false).EveryStep (fun _ _ s' => HandedOver .vesc false s') start
        (overwrittenRun ++ [.rxend]) := by
  constructor
  · intro h
    obtain ⟨outstanding, horderly⟩ := (h.of_run rfl rfl).orderly
    cases horderly
  · intro h
    exact (h.of_run rfl rfl).dmaTarget_ne .processBytes .recvBuffer2 260 rfl rfl

end OpenMower
