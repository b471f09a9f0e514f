import OpenMower.Drivers.PanelDma
import OpenMower.Parsers.PanelDecoder

/-!
# Delivery from the DMA buffer of the cover UI

The thread takes from an event that the DMA has begun at the front again, and reads the counter
later, so that the two can disagree. How many wraps it has handled and up to where it has read say
which byte it expects in a slot, and how often the DMA has begun again says which byte is there.

The bytes are processed in order exactly if the two match whenever a slot is read
(`panelDma_inOrder_iff`). A wrap between the return of the wait and the read of `NDTR` can break
this even if less than a whole buffer arrives between two reads (`panelDma_wrapMissed`).
-/

namespace OpenMower

open PanelDma

/-- What is known in every state, whatever has been lost. -/
structure PanelDmaInv (size : ℕ) (s : PanelDma) : Prop where
  laps : s.ring.Laps size s.arrived s.rxends
  numbered : s.arrived.map Prod.snd = List.range s.arrived.length
  length_processed : s.processed.length = s.wraps * size + s.cursor
  seen_le : s.rxSeenLen ≤ size
  wrap_le : ∀ i, s.stage = .wrap i → i ≤ size
  delta_le : ∀ i receivedSoFar, s.stage = .delta i receivedSoFar →
    i ≤ receivedSoFar ∧ receivedSoFar ≤ size

namespace PanelDmaInv

variable {size : ℕ} {s s' : PanelDma}

theorem of_start : PanelDmaInv size (start size) :=
  ⟨.empty _, rfl, (Nat.zero_mul size).symm, Nat.zero_le _, nofun, nofun⟩

theorem nodup (h : PanelDmaInv size s) : s.arrived.Nodup :=
  .of_map Prod.snd (h.numbered ▸ List.nodup_range)

/-- **An arrival.** -/
theorem receive (h : PanelDmaInv size s) (hleft : 0 < s.ring.left) (b : Byte) :
    PanelDmaInv size (s.receive size b) := by
  refine ⟨h.laps.arrive hleft _, ?_, h.length_processed, h.seen_le, h.wrap_le, h.delta_le⟩
  rw [PanelDma.receive]
  dsimp only
  rw [List.map_append, h.numbered, List.length_append, List.length_singleton, List.range_succ]
  rfl

/-- **The interrupt.** -/
theorem rxend (h : PanelDmaInv size s) (hleft : s.ring.left = 0) :
    PanelDmaInv size (s.rxend size) :=
  ⟨h.laps.rearm hleft, h.numbered, h.length_processed, h.seen_le, h.wrap_le, h.delta_le⟩

/-- **The wait returns.** -/
theorem wake (h : PanelDmaInv size s) (hstage : s.stage = .waiting) (timeout : Bool) :
    PanelDmaInv size (s.wake timeout) := by
  have hlength := h.length_processed
  rw [cursor, hstage] at hlength
  rw [PanelDma.wake]
  split
  · exact ⟨h.laps, h.numbered, hlength, h.seen_le, nofun, nofun⟩
  · split
    · refine ⟨h.laps, h.numbered, hlength, h.seen_le, ?_, nofun⟩
      rintro _ ⟨⟩
      exact h.seen_le
    · exact ⟨h.laps, h.numbered, hlength, h.seen_le, nofun, nofun⟩

/-- **The read of `NDTR`.** -/
theorem readNdtr (h : PanelDmaInv size s) (hstage : s.stage = .counter) :
    PanelDmaInv size (s.readNdtr size) := by
  have hlength := h.length_processed
  rw [cursor, hstage] at hlength
  rw [PanelDma.readNdtr]
  dsimp only
  split
  · split
    · next hlt =>
      refine ⟨h.laps, h.numbered, hlength, h.seen_le, nofun, ?_⟩
      rintro _ _ ⟨⟩
      exact ⟨Nat.le_of_lt hlt, Nat.sub_le _ _⟩
    · exact ⟨h.laps, h.numbered, hlength, h.seen_le, nofun, nofun⟩
  · exact ⟨h.laps, h.numbered, hlength, h.seen_le, nofun, nofun⟩

/-- **The thread goes on.** -/
theorem advance (h : PanelDmaInv size s) (hs : s.advance size = some s') :
    PanelDmaInv size s' := by
  have hlength := h.length_processed
  rw [PanelDma.advance] at hs
  split at hs
  · cases hs
  · next i hstage =>
    rw [cursor, hstage] at hlength
    have hle := h.wrap_le i hstage
    split at hs
    · next hlt =>
      obtain rfl := Option.some.inj hs
      refine ⟨h.laps, h.numbered, ?_, h.seen_le, ?_, nofun⟩
      · rw [readByte, List.length_append, hlength]
        rfl
      · rintro _ ⟨⟩
        exact hlt
    · next hend =>
      obtain rfl := Option.some.inj hs
      obtain rfl : i = size := by omega
      refine ⟨h.laps, h.numbered, ?_, Nat.zero_le _, nofun, nofun⟩
      rw [hlength, Nat.succ_mul]
      rfl
  · next hstage =>
    obtain rfl := Option.some.inj hs
    exact h.readNdtr hstage
  · next i receivedSoFar hstage =>
    rw [cursor, hstage] at hlength
    obtain ⟨hle, hsize⟩ := h.delta_le i receivedSoFar hstage
    split at hs
    · next hlt =>
      obtain rfl := Option.some.inj hs
      refine ⟨h.laps, h.numbered, ?_, h.seen_le, nofun, ?_⟩
      · rw [readByte, List.length_append, hlength]
        rfl
      · rintro _ _ ⟨⟩
        exact ⟨hlt, hsize⟩
    · next hend =>
      obtain rfl := Option.some.inj hs
      obtain rfl : i = receivedSoFar := by omega
      exact ⟨h.laps, h.numbered, hlength, hsize, nofun, nofun⟩

/-- **One step.** -/
theorem step {e : PanelDmaEvent} (h : PanelDmaInv size s) (hs : s.step size e = some s') :
    PanelDmaInv size s' := by
  cases e with
  | arrive b =>
    rw [PanelDma.step] at hs
    split at hs
    · next hleft =>
      obtain rfl := Option.some.inj hs
      exact h.receive hleft b
    · cases hs
  | rxend =>
    rw [PanelDma.step] at hs
    split at hs
    · next hleft =>
      obtain rfl := Option.some.inj hs
      exact h.rxend hleft
    · cases hs
  | wake timeout =>
    rw [PanelDma.step] at hs
    split at hs
    · next hstage =>
      obtain rfl := Option.some.inj hs
      exact h.wake hstage timeout
    · cases hs
  | advance => exact h.advance hs

/-- The slot that is read next is in the buffer, and it is the one at the cursor. -/
theorem nextSlot (h : PanelDmaInv size s) {slot : ℕ} (hslot : s.nextSlot size = some slot) :
    slot < size ∧ s.cursor = slot := by
  rw [PanelDma.nextSlot] at hslot
  rw [cursor]
  split at hslot
  · next i hstage =>
    obtain ⟨hlt, ⟨⟩⟩ := Option.ite_none_right_eq_some.mp hslot
    rw [hstage]
    exact ⟨hlt, rfl⟩
  · next i receivedSoFar hstage =>
    obtain ⟨hlt, ⟨⟩⟩ := Option.ite_none_right_eq_some.mp hslot
    obtain ⟨-, hsize⟩ := h.delta_le _ receivedSoFar hstage
    rw [hstage]
    exact ⟨Nat.lt_of_lt_of_le hlt hsize, rfl⟩
  · cases hslot

end PanelDmaInv

/-- A step of the thread in `ProcessRxBytes` reads the next slot, and no other step reads one. -/
theorem PanelDma.processed_step {size : ℕ} {s s' : PanelDma} {e : PanelDmaEvent}
    (hs : s.step size e = some s') :
    (∃ slot, e = .advance ∧ s.nextSlot size = some slot ∧ s'.arrived = s.arrived ∧
        s'.processed = s.processed ++ [s.ring.buffer slot]) ∨
      (e = .advance → s.nextSlot size = none) ∧ s.arrived <+: s'.arrived ∧
        s'.processed = s.processed := by
  cases e with
  | arrive b =>
    obtain ⟨-, ⟨⟩⟩ := Option.ite_none_right_eq_some.mp hs
    exact .inr ⟨nofun, List.prefix_append _ _, rfl⟩
  | rxend =>
    obtain ⟨-, ⟨⟩⟩ := Option.ite_none_right_eq_some.mp hs
    exact .inr ⟨nofun, List.prefix_rfl, rfl⟩
  | wake timeout =>
    obtain ⟨-, ⟨⟩⟩ := Option.ite_none_right_eq_some.mp hs
    refine .inr ⟨nofun, ?_⟩
    rw [wake]
    split <;> exact ⟨List.prefix_rfl, rfl⟩
  | advance =>
    rw [PanelDma.step, advance] at hs
    rw [nextSlot]
    cases hstage : s.stage with
    | waiting =>
      rw [hstage] at hs
      cases hs
    | wrap i =>
      rw [hstage] at hs
      dsimp only at hs ⊢
      split at hs
      · next hlt =>
        obtain rfl := Option.some.inj hs
        exact .inl ⟨i, rfl, if_pos hlt, rfl, rfl⟩
      · next hend =>
        obtain rfl := Option.some.inj hs
        exact .inr ⟨fun _ => if_neg hend, List.prefix_rfl, rfl⟩
    | counter =>
      rw [hstage] at hs
      obtain rfl := Option.some.inj hs
      refine .inr ⟨fun _ => rfl, ?_⟩
      rw [readNdtr]
      dsimp only
      repeat' split
      all_goals exact ⟨List.prefix_rfl, rfl⟩
    | delta i receivedSoFar =>
      rw [hstage] at hs
      dsimp only at hs ⊢
      split at hs
      · next hlt =>
        obtain rfl := Option.some.inj hs
        exact .inl ⟨i, rfl, if_pos hlt, rfl, rfl⟩
      · next hend =>
        obtain rfl := Option.some.inj hs
        exact .inr ⟨fun _ => if_neg hend, List.prefix_rfl, rfl⟩

/-- The laps match when the thread reads a slot. -/
def ReadsMatch (size : ℕ) (s : PanelDma) (e : PanelDmaEvent) (_ : PanelDma) : Prop :=
  e = .advance → s.LapsMatch size

/-- What has been processed is the stream up to there. -/
def StaysInOrder (_ : PanelDma) (_ : PanelDmaEvent) (s' : PanelDma) : Prop := s'.InOrder

/-- **One step** from a state that has processed the stream up to some byte. -/
theorem PanelDmaInv.inOrder_step_iff {size : ℕ} {s s' : PanelDma} {e : PanelDmaEvent}
    (h : PanelDmaInv size s) (horder : s.InOrder) (hs : s.step size e = some s') :
    s'.InOrder ↔ ReadsMatch size s e s' := by
  rcases processed_step hs with ⟨slot, rfl, hslot, harrived, hprocessed⟩ | ⟨hnone, harrived, hsame⟩
  · obtain ⟨hlt, hcursor⟩ := h.nextSlot hslot
    have hread := h.laps.read_iff h.nodup (n := s.wraps) hlt
    rw [InOrder, harrived, hprocessed, RingBuffer.concat_isPrefix_iff horder,
      h.length_processed, hcursor, hread]
    constructor
    · rintro hmatch - slot' hslot'
      obtain rfl := Option.some.inj (hslot.symm.trans hslot')
      exact hmatch
    · intro hmatch
      exact hmatch rfl slot hslot
  · rw [InOrder, hsame]
    refine ⟨fun _ he slot hslot => ?_, fun _ => horder.trans harrived⟩
    rw [hnone he] at hslot
    cases hslot

/-- **Delivery.** In every run, what has been passed to `ProcessRxBytes` is the stream up to there
after every step, if and only if the laps match whenever a slot is read. -/
theorem panelDma_inOrder_iff (es : List PanelDmaEvent) :
    (panelDmaMachine panelDmaRxBufferSize).EveryStep StaysInOrder (start panelDmaRxBufferSize) es ↔
      (panelDmaMachine panelDmaRxBufferSize).EveryStep (ReadsMatch panelDmaRxBufferSize)
        (start panelDmaRxBufferSize) es := by
  have hstart : PanelDmaInv panelDmaRxBufferSize (start panelDmaRxBufferSize) ∧
      (start panelDmaRxBufferSize).InOrder := ⟨.of_start, List.nil_prefix⟩
  let I : PanelDma → Prop := fun s => PanelDmaInv panelDmaRxBufferSize s ∧ s.InOrder
  refine ⟨fun hrun => hrun.imp (I := I) hstart ?_, fun hrun => hrun.imp (I := I) hstart ?_⟩
  · rintro s e s' ⟨h, horder⟩ hs hnext
    exact ⟨⟨h.step hs, hnext⟩, (h.inOrder_step_iff horder hs).mp hnext⟩
  · rintro s e s' ⟨h, horder⟩ hs hmatch
    have hnext := (h.inOrder_step_iff horder hs).mpr hmatch
    exact ⟨⟨h.step hs, hnext⟩, hnext⟩

/-- The bytes of the stream, read in order. -/
theorem PanelDma.InOrder.processedBytes {s : PanelDma} (h : s.InOrder) :
    s.processedBytes = s.arrivedBytes.take s.processed.length := by
  rw [PanelDma.processedBytes, arrivedBytes, ← List.map_take, ← List.prefix_iff_eq_take.mp h]

/-- What the receiver behind the buffer has been given is the stream up to there. -/
theorem panelDma_receive {es : List PanelDmaEvent} {s : PanelDma}
    (hr : (panelDmaMachine panelDmaRxBufferSize).run (start panelDmaRxBufferSize) es = some s)
    (hmatch : (panelDmaMachine panelDmaRxBufferSize).EveryStep (ReadsMatch panelDmaRxBufferSize)
      (start panelDmaRxBufferSize) es) :
    YfCoverUi.processRxBytes .start s.processedBytes =
      YfCoverUi.processRxBytes .start (s.arrivedBytes.take s.processed.length) := by
  have horder : PanelDmaInv panelDmaRxBufferSize s ∧ s.InOrder :=
    hmatch.invariant (I := fun s => PanelDmaInv panelDmaRxBufferSize s ∧ s.InOrder) hr
      ⟨.of_start, List.nil_prefix⟩ fun s e s' ⟨h, horder⟩ hs hstep =>
        ⟨h.step hs, (h.inOrder_step_iff horder hs).mpr hstep⟩
  rw [horder.2.processedBytes]

/-- Bytes with these numbers arrive. -/
def arrivals (first count : ℕ) : List PanelDmaEvent :=
  (List.range' first count).map fun n => .arrive (BitVec.ofNat 8 n)

/-- Twenty bytes are drained. The wait returns for the end of a frame, and before `NDTR` is read the
buffer is filled and two more bytes arrive. The position is then before the one that has been
drained. The wrap is handled in the next pass, before which the DMA has come past that position. -/
def wrapMissed : List PanelDmaEvent :=
  arrivals 1 20 ++ [.wake false] ++ List.replicate 22 .advance ++
    [.wake false] ++ arrivals 21 8 ++ [.rxend] ++ arrivals 29 2 ++ [.advance] ++
    arrivals 31 19 ++ [.wake false, .advance]

/-- The thread reads the slot behind the drained ones, which has been overwritten. -/
theorem panelDma_wrapMissed :
    ∃ s, (panelDmaMachine panelDmaRxBufferSize).run (start panelDmaRxBufferSize) wrapMissed =
        some s ∧ s.FewBetweenReads panelDmaRxBufferSize ∧ ¬ s.InOrder := by
  have hrun : ((panelDmaMachine panelDmaRxBufferSize).run (start panelDmaRxBufferSize)
      wrapMissed).any fun s => s.FewBetweenReads panelDmaRxBufferSize ∧ ¬ s.InOrder := by
    decide +kernel
  obtain ⟨s, hs, h⟩ := (Option.any_eq_true _ _).mp hrun
  exact ⟨s, hs, of_decide_eq_true h⟩

end OpenMower
