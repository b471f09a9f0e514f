import OpenMower.Drivers.DmaReceiver
import OpenMower.Parsers.Yfr4Framing

/-!
# Delivery from the DMA buffer

The YFR4 thread infers that the DMA has begun at the front again from a position that is before
the one it has read up to. This is right as long as less than a whole buffer arrives between two
reads of `NDTR`, the start of the reception counting as one, and then all bytes are passed on in
order (`dma_delivery`). Nothing is known of the position before the first read, so that a whole
buffer that arrives before it is missed (`dma_firstRead_late`).
-/

namespace OpenMower

open Buffer DmaReceiver

/-- Less than a whole buffer has arrived between two reads of `NDTR`. -/
def FewBetweenReads (size : ℕ) (s : DmaReceiver) (e : DmaEvent) (_ : DmaReceiver) : Prop :=
  e = .poll → ∀ n, s.lastRead = some n → s.sinceLastRead.length < size

/-- Less than a whole buffer has arrived between two reads of `NDTR`, and before the first one. -/
def FewSinceRead (size : ℕ) (s : DmaReceiver) (e : DmaEvent) (_ : DmaReceiver) : Prop :=
  e = .poll → s.sinceLastRead.length < size

/-- The invariant: what has been read has been passed on, and the rest is in the buffer unless the
buffer has overflowed. -/
structure DmaInv (size : ℕ) (s : DmaReceiver) : Prop where
  lastRead_le : s.lastRead.getD 0 ≤ s.arrived.length
  processed_eq : s.processed.flatten = s.upToLastRead
  unread : s.sinceLastRead.length < size → s.ring.Unread size s.rxSeenLen s.sinceLastRead

namespace DmaInv

variable {size : ℕ} {s : DmaReceiver}

theorem of_start : DmaInv size (start size) := by
  refine ⟨Nat.le_refl _, rfl, fun _ => .nil ?_⟩
  exact Nat.zero_add _

/-- **An arrival.** -/
theorem arrive (h : DmaInv size s) (hleft : 0 < s.ring.left) (b : Byte) :
    DmaInv size { s with ring := s.ring.arrive size b, arrived := s.arrived ++ [b] } := by
  have hle := h.lastRead_le
  refine ⟨?_, ?_, fun hroom => ?_⟩
  · rw [List.length_append]
    exact Nat.le_add_right_of_le hle
  · rw [upToLastRead, List.take_append_of_le_length hle]
    exact h.processed_eq
  · rw [sinceLastRead, List.drop_append_of_le_length hle] at hroom ⊢
    rw [List.length_append, List.length_singleton] at hroom
    exact (h.unread (Nat.lt_of_succ_lt hroom)).arrive hleft (Nat.lt_of_succ_lt hroom) b

/-- **The interrupt.** -/
theorem rxend (h : DmaInv size s) (hleft : s.ring.left = 0) :
    DmaInv size { s with ring := s.ring.rearm size } :=
  ⟨h.lastRead_le, h.processed_eq, fun hroom => (h.unread hroom).rearm hleft hroom⟩

/-- **A pass.** -/
theorem poll (h : DmaInv size s) (hroom : s.sinceLastRead.length < size) :
    DmaInv size (s.poll size) := by
  have hunread := h.unread hroom
  obtain ⟨processed, heq, hflatten⟩ := poll_of_unread hunread hroom
  have hle := hunread.left_le
  rw [heq]
  refine ⟨Nat.le_refl _, ?_, fun _ => ?_⟩
  · have hall : s.upToLastRead ++ s.sinceLastRead = s.arrived := List.take_append_drop _ _
    rw [h.processed_eq, hall] at hflatten
    exact hflatten.trans (List.take_length).symm
  · have hnone : s.arrived.drop s.arrived.length = [] := List.drop_length
    have hseen : size - s.ring.left + s.ring.left = size := Nat.sub_add_cancel hle
    rw [sinceLastRead]
    dsimp only [Option.getD_some]
    rw [hnone]
    exact .nil hseen

/-- **One step** that does not read too late. -/
theorem step {e : DmaEvent} {s' : DmaReceiver} (h : DmaInv size s)
    (hs : s.step size e = some s') (hfew : FewSinceRead size s e s') : DmaInv size s' := by
  cases e with
  | arrive b =>
    rw [DmaReceiver.step] at hs
    split at hs
    · next hleft =>
      obtain rfl := Option.some.inj hs
      exact h.arrive hleft b
    · cases hs
  | rxend =>
    rw [DmaReceiver.step] at hs
    split at hs
    · next hleft =>
      obtain rfl := Option.some.inj hs
      exact h.rxend hleft
    · cases hs
  | poll =>
    obtain rfl := Option.some.inj hs
    exact h.poll (hfew rfl)

end DmaInv

/-- A run in which `NDTR` is never read too late. -/
theorem DmaInv.of_run {size : ℕ} {es : List DmaEvent} {s : DmaReceiver}
    (hr : (dmaMachine size).run (start size) es = some s)
    (hfew : (dmaMachine size).EveryStep (FewSinceRead size) (start size) es) : DmaInv size s :=
  hfew.invariant hr .of_start fun _ _ _ h hs hstep => h.step hs hstep

/-- **Delivery.** In every run in which less than a whole buffer arrives before the first read of
`NDTR` and between two reads, the ranges that are passed to `ProcessRxBytes` are the bytes that had
arrived at the last read, each once and in order. -/
theorem dma_delivery {es : List DmaEvent} {s : DmaReceiver}
    (hr : (dmaMachine dmaRxBufferSize).run (start dmaRxBufferSize) es = some s)
    (hfew : (dmaMachine dmaRxBufferSize).EveryStep (FewSinceRead dmaRxBufferSize)
      (start dmaRxBufferSize) es) :
    s.processed.flatten = s.upToLastRead :=
  (DmaInv.of_run hr hfew).processed_eq

/-- The events up to a read shortly before the end of the buffer. -/
def beforeWrap : List DmaEvent := (List.replicate 99 0x01#8).map .arrive

/-- The DMA begins at the front again, and another byte arrives. -/
def aroundWrap : List DmaEvent := [.arrive 0x02#8, .rxend, .arrive 0x00#8]

/-- Between the two reads, the DMA reaches the end of the buffer. -/
theorem dma_delivery_wrap :
    ∃ s, (dmaMachine dmaRxBufferSize).run (start dmaRxBufferSize)
        (beforeWrap ++ .poll :: (aroundWrap ++ [.poll])) = some s ∧
      s.processed.flatten = s.upToLastRead := by
  obtain ⟨s, hr⟩ : ∃ s, (dmaMachine dmaRxBufferSize).run (start dmaRxBufferSize)
      (beforeWrap ++ .poll :: (aroundWrap ++ [.poll])) = some s :=
    Option.isSome_iff_exists.mp (by decide +kernel)
  have hfirst : ((dmaMachine dmaRxBufferSize).run (start dmaRxBufferSize) beforeWrap).map
      (·.sinceLastRead.length) = some 99 := by decide +kernel
  have hsecond : ((dmaMachine dmaRxBufferSize).run (start dmaRxBufferSize)
      (beforeWrap ++ .poll :: aroundWrap)).map (·.sinceLastRead.length) = some 2 := by
    decide +kernel
  refine ⟨s, hr, dma_delivery hr ?_⟩
  refine .append (.of_forall fun s e s' he _ hpoll => ?_) fun s₁ hs₁ s₂ hs₂ => ⟨fun _ => ?_,
    .append (.of_forall fun s e s' he _ hpoll => ?_) fun s₃ hs₃ s₄ _ => ⟨fun _ => ?_, trivial⟩⟩
  · simp [beforeWrap, hpoll] at he
  · rw [hs₁] at hfirst
    have hlength : s₁.sinceLastRead.length = 99 := Option.some.inj hfirst
    rw [hlength]
    decide
  · simp [aroundWrap, hpoll] at he
  · rw [StateMachine.run_append, hs₁, Option.bind_some, StateMachine.run_cons, hs₂,
      Option.bind_some, hs₃] at hsecond
    have hlength : s₃.sinceLastRead.length = 2 := Option.some.inj hsecond
    rw [hlength]
    decide

/-- The receiver behind the DMA buffer is where the bytes up to the last read lead. -/
theorem dma_receive {es : List DmaEvent} {s : DmaReceiver}
    (hr : (dmaMachine dmaRxBufferSize).run (start dmaRxBufferSize) es = some s)
    (hfew : (dmaMachine dmaRxBufferSize).EveryStep (FewSinceRead dmaRxBufferSize)
      (start dmaRxBufferSize) es) :
    yfr4ProcessChunks .start s.processed =
      s.upToLastRead.foldl (.receive cobsBufferSize yfr4Decode) .start := by
  rw [yfr4ProcessChunks_eq, (DmaInv.of_run hr hfew).processed_eq]

/-- A whole buffer arrives before the first read. -/
def lateFirstRead : List DmaEvent :=
  (List.replicate dmaRxBufferSize 0x01#8).map .arrive ++ [.rxend, .poll]

theorem run_arrive {size : ℕ} (bytes : List Byte) (s : DmaReceiver)
    (h : bytes.length ≤ s.ring.left) :
    ∃ ring, (dmaMachine size).run s (bytes.map .arrive) =
        some { s with ring := ring, arrived := s.arrived ++ bytes } ∧
      ring.left + bytes.length = s.ring.left := by
  induction bytes generalizing s with
  | nil => exact ⟨s.ring, by simp, rfl⟩
  | cons b bytes ih =>
    rw [List.length_cons] at h
    have hstep : (dmaMachine size).step s (.arrive b) =
        some { s with ring := s.ring.arrive size b, arrived := s.arrived ++ [b] } :=
      if_pos (by omega)
    obtain ⟨ring, hrun, hleft⟩ := ih
      { s with ring := s.ring.arrive size b, arrived := s.arrived ++ [b] }
      (Nat.le_sub_one_of_lt h)
    refine ⟨ring, ?_, ?_⟩
    · rw [List.map_cons, StateMachine.run_cons, hstep]
      refine hrun.trans ?_
      dsimp only
      rw [List.append_assoc]
      rfl
    · have hone : (s.ring.arrive size b).left = s.ring.left - 1 := rfl
      dsimp only at hleft
      rw [List.length_cons]
      omega

/-- Nothing is passed on, although there is only one read. -/
theorem dma_firstRead_late :
    (dmaMachine dmaRxBufferSize).EveryStep (FewBetweenReads dmaRxBufferSize)
        (start dmaRxBufferSize) lateFirstRead ∧
      ∃ s, (dmaMachine dmaRxBufferSize).run (start dmaRxBufferSize) lateFirstRead = some s ∧
        s.processed.flatten ≠ s.upToLastRead := by
  have hlength : (List.replicate dmaRxBufferSize 0x01#8).length = dmaRxBufferSize :=
    List.length_replicate
  obtain ⟨ring, hrun, hleft⟩ := @run_arrive dmaRxBufferSize
    (List.replicate dmaRxBufferSize 0x01#8) (start dmaRxBufferSize) (Nat.le_of_eq hlength)
  have hzero : ring.left = 0 := by
    have hall : (start dmaRxBufferSize).ring.left = dmaRxBufferSize := rfl
    omega
  have hrearm : ∀ s : DmaReceiver, s.ring.left = 0 → (dmaMachine dmaRxBufferSize).step s .rxend =
      some { s with ring := s.ring.rearm dmaRxBufferSize } := fun s hs => if_pos hs
  constructor
  · refine .append (.of_forall fun s e s' he _ hpoll => ?_) fun s' hs' => ?_
    · simp [hpoll] at he
    · rw [hrun] at hs'
      obtain rfl := Option.some.inj hs'
      intro s₁ hs₁
      rw [hrearm _ hzero] at hs₁
      obtain rfl := Option.some.inj hs₁
      -- nothing has been read before
      refine ⟨by simp [FewBetweenReads], fun s₂ _ => ⟨fun _ n hn => ?_, trivial⟩⟩
      cases hn
  · refine ⟨{ start dmaRxBufferSize with
        ring := ring.rearm dmaRxBufferSize
        arrived := List.replicate dmaRxBufferSize 0x01#8
        lastRead := some (List.replicate dmaRxBufferSize 0x01#8).length }, ?_, ?_⟩
    · rw [lateFirstRead, StateMachine.run_append, hrun, Option.bind_some, StateMachine.run_cons,
        hrearm _ hzero]
      exact congrArg some (poll_of_eq (Nat.le_refl _) (Nat.sub_self _))
    · rw [upToLastRead]
      dsimp only [Option.getD_some]
      rw [List.take_length]
      exact (List.cons_ne_nil _ _).symm

end OpenMower
