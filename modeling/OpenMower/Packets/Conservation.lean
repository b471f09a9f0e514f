import OpenMower.Library.Distribution
import OpenMower.Library.LittleEndian
import OpenMower.Portable.PacketIo

/-!
# Conservation of packets

Each packet that the thread takes from the pool is passed to the first running service with the id
in its header, or is freed if the packet is not valid or there is no such service
(`Reception.release`). The history of the thread consists of one take and one release for each
reception, up to the packet that it holds, and the packets in the pool, the packet of the thread and
those of the services are always the packets that the pool began with (`packets_conserved`).
-/

namespace OpenMower

/-- The checks in `runIo`. -/
def XbotFormat.Accepts (format : XbotFormat) (data : List Byte) : Prop :=
  format.sizeofHeader ≤ data.length ∧
    format.payloadSize data = data.length - format.sizeofHeader

instance (format : XbotFormat) (data : List Byte) : Decidable (format.Accepts data) :=
  inferInstanceAs (Decidable (_ ∧ _))

/-- A running service with this id. -/
def ServiceFlags.Runs (id : BitVec 16) (flags : ServiceFlags) : Prop :=
  flags.serviceId = id ∧ flags.stopped = false

instance (id : BitVec 16) (flags : ServiceFlags) : Decidable (flags.Runs id) :=
  inferInstanceAs (Decidable (_ ∧ _))

namespace Reception

variable (format : XbotFormat) (r : Reception)

/-- The service at this index is to receive the packet: the packet is valid, and the service is
the first running one with the id in the header. -/
def IsFor (service : ℕ) : Prop :=
  ∃ data, r.data = some data ∧ format.Accepts data ∧
    (∃ flags, r.services[service]? = some flags ∧ flags.Runs (format.serviceId data)) ∧
    ∀ i flags, i < service → r.services[i]? = some flags → ¬ flags.Runs (format.serviceId data)

/-- The service that is to receive the packet. -/
def receiver : Option ℕ :=
  r.data.bind fun data =>
    if format.Accepts data then
      r.services.findIdx? fun flags => decide (flags.Runs (format.serviceId data))
    else none

/-- What is to be done with the packet. -/
def release : IoAction :=
  match r.receiver format with
  | some service => .ioInput service r.packet
  | none => .free r.packet

/-- What the thread is to do with the packet. -/
def actions : List IoAction := [.take r.packet, r.release format]

variable {format r}

theorem receiver_eq_some_iff {service : ℕ} :
    r.receiver format = some service ↔ r.IsFor format service := by
  rw [receiver, Option.bind_eq_some_iff]
  refine exists_congr fun data => and_congr_right fun _ => ?_
  rw [Option.ite_none_right_eq_some, List.findIdx?_eq_some_iff_getElem]
  refine and_congr_right fun _ => ?_
  constructor
  · rintro ⟨hlt, hruns, hfirst⟩
    refine ⟨⟨_, List.getElem?_eq_getElem hlt, of_decide_eq_true hruns⟩, fun i flags hi hget => ?_⟩
    obtain ⟨hlt', rfl⟩ := List.getElem?_eq_some_iff.mp hget
    exact of_decide_eq_false (Bool.not_eq_true _ ▸ hfirst i hi)
  · rintro ⟨⟨flags, hget, hruns⟩, hfirst⟩
    obtain ⟨hlt, rfl⟩ := List.getElem?_eq_some_iff.mp hget
    refine ⟨hlt, decide_eq_true hruns, fun i hi => ?_⟩
    have hi' : i < r.services.length := hi.trans hlt
    exact fun h => hfirst i _ hi (List.getElem?_eq_getElem hi') (of_decide_eq_true h)

/-- The packet is passed to the service that is to receive it, and to no other one. -/
theorem release_eq_ioInput_iff {service : ℕ} :
    r.release format = .ioInput service r.packet ↔ r.IsFor format service := by
  rw [← receiver_eq_some_iff, release]
  cases r.receiver format <;> simp

/-- Without a service that is to receive it, the packet is freed. -/
theorem release_eq_free_iff :
    r.release format = .free r.packet ↔ ∀ service, ¬ r.IsFor format service := by
  simp only [← receiver_eq_some_iff, release]
  cases r.receiver format <;> simp

end Reception

/-- The packet that the thread holds. -/
def IoStage.held : IoStage → List PacketId
  | .idle => []
  | .receiving packet => [packet]
  | .delivering packet _ _ => [packet]

/-- The steps of the thread while it holds a packet. -/
def IoEvent.Releases : IoEvent → Prop
  | .received _ => True
  | .visit => True
  | _ => False

namespace IoSystem

variable {format : XbotFormat} {s s' : IoSystem} {packet : PacketId}

/-- The packets of the services. -/
def owned (s : IoSystem) : List PacketId := s.services.flatMap ServiceIo.packets

/-- The packets are in the pool, with the thread, or owned by a service; the thread has released
each packet that it has taken before, and none of the services that it has passed is to receive the
one that it holds. -/
structure Conserved (format : XbotFormat) (s : IoSystem) : Prop where
  sema : s.sema = s.pool.length
  perm : (s.pool ++ s.stage.held ++ s.owned).Perm (List.range xbotPacketPoolSize)
  actions : s.actions =
    s.receptions.flatMap (Reception.actions format) ++ s.stage.held.map .take
  delivering : ∀ packet data passed, s.stage = .delivering packet data passed →
    format.Accepts data ∧ ∀ flags ∈ passed, ¬ flags.Runs (format.serviceId data)

theorem Conserved.initial : Conserved format {} where
  sema := rfl
  perm := by simp [IoStage.held, owned]
  actions := rfl
  delivering := nofun

/-- The thread goes on with the packet that it holds. -/
theorem Conserved.setStage (h : s.Conserved format) {stage : IoStage}
    (hheld : stage.held = s.stage.held)
    (hdelivering : ∀ packet data passed, stage = .delivering packet data passed →
      format.Accepts data ∧ ∀ flags ∈ passed, ¬ flags.Runs (format.serviceId data)) :
    { s with stage }.Conserved format where
  sema := h.sema
  perm := by
    have hperm := h.perm
    rwa [← hheld] at hperm
  actions := by
    have hactions := h.actions
    rwa [← hheld] at hactions
  delivering := hdelivering

/-- A packet is taken from the pool. -/
theorem allocatePacket_eq_some {r : PacketId × IoSystem} (h : s.allocatePacket = some r) :
    s.sema ≠ 0 ∧ ∃ pool, s.pool = r.1 :: pool ∧
      r.2 = { s with sema := s.sema - 1, pool := pool } := by
  rw [allocatePacket] at h
  split at h
  · cases h
  · next hsema =>
    split at h
    · cases h
    · next packet pool hpool =>
      obtain rfl := Option.some.inj h
      exact ⟨hsema, pool, hpool, rfl⟩

/-- The semaphore counts the packets in the pool, so that no thread loops in `allocatePacket`. -/
theorem Conserved.allocatePacket_isSome (h : s.Conserved format) (hsema : s.sema ≠ 0) :
    s.allocatePacket.isSome := by
  rw [allocatePacket, if_neg hsema]
  cases hpool : s.pool with
  | nil => exact absurd (h.sema.trans (by rw [hpool]; rfl)) hsema
  | cons packet pool => rfl

/-- The thread takes a packet. -/
theorem Conserved.receivePacket (h : s.Conserved format)
    (hs : s.step format .receivePacket = some s') : s'.Conserved format := by
  simp only [step] at hs
  split at hs
  · next hidle =>
    obtain ⟨⟨packet, s₁⟩, halloc, rfl⟩ := Option.map_eq_some_iff.mp hs
    obtain ⟨-, pool, hpool, rfl⟩ := allocatePacket_eq_some halloc
    refine ⟨?_, ?_, ?_, nofun⟩
    · have hsema := h.sema
      rw [hpool, List.length_cons] at hsema
      exact (congrArg (· - 1) hsema).trans (Nat.add_sub_cancel _ _)
    · have hperm := h.perm
      rw [hpool, hidle] at hperm
      refine List.Perm.trans ?_ hperm
      simp only [IoStage.held, List.append_nil, List.cons_append, List.append_assoc,
        List.nil_append]
      exact List.perm_middle
    · have hactions := h.actions
      rw [hidle] at hactions
      simp only [hactions, IoStage.held, List.map_nil, List.append_nil, List.map_cons]
  · cases hs

/-- The thread frees its packet if no service is to receive it. -/
theorem Conserved.dropPacket (h : s.Conserved format) (hheld : s.stage.held = [packet])
    {data : Option (List Byte)} {passed : List ServiceFlags}
    (hfree : (⟨packet, data, s.flagsAfter passed⟩ : Reception).release format = .free packet) :
    (s.dropPacket packet data passed).Conserved format where
  sema := congrArg (· + 1) h.sema
  perm := by
    have hperm := h.perm
    rw [hheld, List.append_assoc] at hperm
    refine List.Perm.trans ?_ hperm
    change (packet :: s.pool ++ [] ++ s.owned).Perm _
    rw [List.append_nil]
    exact List.perm_middle.symm
  actions := by
    have hactions := h.actions
    rw [hheld] at hactions
    simp only [IoSystem.dropPacket, hactions, List.flatMap_append, List.flatMap_singleton,
      Reception.actions, hfree, IoStage.held, List.map_nil, List.map_cons, List.append_nil,
      List.append_assoc, List.cons_append, List.nil_append]
  delivering := nofun

/-- The thread passes its packet to the service that is to receive it. -/
theorem Conserved.deliverPacket (h : s.Conserved format) {data : List Byte}
    {passed : List ServiceFlags} (hstage : s.stage = .delivering packet data passed)
    {service : ServiceIo} (hget : s.services[passed.length]? = some service)
    (hruns : service.flags.Runs (format.serviceId data)) :
    (s.deliverPacket packet data passed service).Conserved format := by
  have hheld : s.stage.held = [packet] := by rw [hstage]; rfl
  obtain ⟨haccepts, hpassed⟩ := h.delivering packet data passed hstage
  have hrelease : (⟨packet, some data, s.flagsAfter passed⟩ : Reception).release format =
      .ioInput passed.length packet := by
    refine Reception.release_eq_ioInput_iff.mpr
      ⟨data, rfl, haccepts, ⟨service.flags, ?_, hruns⟩, fun i flags hi hflags => ?_⟩
    · rw [flagsAfter, List.getElem?_append_right (le_refl _), Nat.sub_self, List.getElem?_map,
        List.getElem?_drop, Nat.add_zero, hget]
      rfl
    · rw [flagsAfter, List.getElem?_append_left hi] at hflags
      exact hpassed flags (List.mem_of_getElem? hflags)
  refine ⟨h.sema, ?_, ?_, nofun⟩
  · have hperm := h.perm
    rw [hheld, List.append_assoc] at hperm
    refine List.Perm.trans ?_ hperm
    have htake := flatMap_set_take (f := ServiceIo.packets) hget
      (b := { service with packets := service.packets ++ [packet] })
      (List.perm_append_singleton packet service.packets)
    change (s.pool ++ [] ++ _).Perm _
    rw [List.append_nil]
    exact htake.append_left _
  · have hactions := h.actions
    rw [hheld] at hactions
    simp only [IoSystem.deliverPacket, hactions, List.flatMap_append, List.flatMap_singleton,
      Reception.actions, hrelease, IoStage.held, List.map_nil, List.map_cons, List.append_nil,
      List.append_assoc, List.cons_append, List.nil_append]

/-- A packet that is not accepted is for no service. -/
theorem release_of_not_accepts {data : List Byte} (h : ¬ format.Accepts data)
    (flags : List ServiceFlags) :
    (⟨packet, some data, flags⟩ : Reception).release format = .free packet := by
  refine Reception.release_eq_free_iff.mpr ?_
  rintro service ⟨data', hdata, haccepts, -⟩
  obtain rfl := Option.some.inj hdata
  exact h haccepts

/-- The thread checks what it has received. -/
theorem Conserved.received (h : s.Conserved format) {datagram : Option (List Byte)}
    (hs : s.step format (.received datagram) = some s') : s'.Conserved format := by
  simp only [step] at hs
  split at hs
  · next packet hstage =>
    have hheld : s.stage.held = [packet] := by rw [hstage]; rfl
    split at hs
    · obtain rfl := Option.some.inj hs
      exact h.dropPacket hheld
        (Reception.release_eq_free_iff.mpr fun _ ⟨_, hdata, _⟩ => nomatch hdata)
    · next datagram =>
      split at hs
      · next hshort =>
        obtain rfl := Option.some.inj hs
        exact h.dropPacket hheld
          (release_of_not_accepts (fun haccepts => absurd haccepts.1 (not_le_of_gt hshort)) _)
      · next hlong =>
        split at hs
        · next hsize =>
          obtain rfl := Option.some.inj hs
          exact h.dropPacket hheld
            (release_of_not_accepts (fun haccepts => hsize haccepts.2.symm) _)
        · next hsize =>
          obtain rfl := Option.some.inj hs
          refine h.setStage hheld.symm ?_
          rintro packet' data' passed' ⟨⟩
          exact ⟨⟨not_lt.mp hlong, (not_not.mp hsize).symm⟩, nofun⟩
  · cases hs

/-- The thread visits a service. -/
theorem Conserved.visit (h : s.Conserved format) (hs : s.step format .visit = some s') :
    s'.Conserved format := by
  simp only [step] at hs
  split at hs
  · next packet data passed hstage =>
    have hheld : s.stage.held = [packet] := by rw [hstage]; rfl
    obtain ⟨haccepts, hpassed⟩ := h.delivering packet data passed hstage
    split at hs
    · next hend =>
      obtain rfl := Option.some.inj hs
      refine h.dropPacket hheld (Reception.release_eq_free_iff.mpr ?_)
      rintro service ⟨data', hdata, -, ⟨flags, hget, hruns⟩, -⟩
      obtain rfl := Option.some.inj hdata
      have hall : s.flagsAfter passed = passed := by
        rw [flagsAfter, List.drop_eq_nil_of_le (List.getElem?_eq_none_iff.mp hend)]
        exact List.append_nil _
      rw [hall] at hget
      exact hpassed flags (List.mem_of_getElem? hget) hruns
    · next service hget =>
      split at hs
      · next hruns =>
        obtain rfl := Option.some.inj hs
        exact h.deliverPacket hstage hget hruns
      · next hruns =>
        obtain rfl := Option.some.inj hs
        refine h.setStage hheld.symm ?_
        rintro packet' data' passed' ⟨⟩
        refine ⟨haccepts, fun flags hflags => ?_⟩
        rcases List.mem_append.mp hflags with hflags | hflags
        · exact hpassed flags hflags
        · rw [List.mem_singleton.mp hflags]
          exact hruns
  · cases hs

/-- A change of the services that keeps their packets. -/
theorem Conserved.setServices (h : s.Conserved format) {services : List ServiceIo}
    (howned : services.flatMap ServiceIo.packets = s.owned) :
    ({ s with services := services } : IoSystem).Conserved format := by
  refine ⟨h.sema, ?_, h.actions, h.delivering⟩
  have hperm := h.perm
  rwa [← howned] at hperm

/-- A service takes a packet from the pool. -/
theorem Conserved.serviceAllocate (h : s.Conserved format) {i : ℕ}
    (hs : s.step format (.allocatePacket i) = some s') : s'.Conserved format := by
  obtain ⟨service, hget, hs⟩ := Option.bind_eq_some_iff.mp hs
  obtain ⟨⟨packet, s₁⟩, halloc, rfl⟩ := Option.map_eq_some_iff.mp hs
  obtain ⟨-, pool, hpool, rfl⟩ := allocatePacket_eq_some halloc
  refine ⟨?_, ?_, h.actions, h.delivering⟩
  · have hsema := h.sema
    rw [hpool, List.length_cons] at hsema
    exact (congrArg (· - 1) hsema).trans (Nat.add_sub_cancel _ _)
  · have hperm := h.perm
    rw [hpool] at hperm
    refine List.Perm.trans ?_ hperm
    have htake := flatMap_set_take (f := ServiceIo.packets) hget
      (b := { service with packets := service.packets ++ [packet] })
      (List.perm_append_singleton packet service.packets)
    exact (htake.append_left _).trans List.perm_middle

/-- A service frees a packet. -/
theorem Conserved.serviceFree (h : s.Conserved format) {i : ℕ} {packet : PacketId}
    (hs : s.step format (.freePacket i packet) = some s') : s'.Conserved format := by
  obtain ⟨service, hget, hs⟩ := Option.bind_eq_some_iff.mp hs
  obtain ⟨hmem, hs⟩ := Option.ite_none_right_eq_some.mp hs
  obtain rfl := Option.some.inj hs
  refine ⟨congrArg (· + 1) h.sema, ?_, h.actions, h.delivering⟩
  refine List.Perm.trans ?_ h.perm
  have hgive := flatMap_set_give (f := ServiceIo.packets) hget
    (b := { service with packets := service.packets.erase packet }) (List.perm_cons_erase hmem)
  exact List.perm_middle.symm.trans (hgive.symm.append_left _)

/-- One step of the thread or of another one. -/
theorem Conserved.step (h : s.Conserved format) {e : IoEvent}
    (hs : s.step format e = some s') : s'.Conserved format := by
  cases e with
  | receivePacket => exact h.receivePacket hs
  | received datagram => exact h.received hs
  | visit => exact h.visit hs
  | registerServiceIo flags =>
    obtain rfl := Option.some.inj hs
    refine h.setServices ?_
    rw [List.flatMap_append]
    exact List.append_nil _
  | setStopped i stopped =>
    obtain ⟨service, hget, rfl⟩ := Option.map_eq_some_iff.mp hs
    exact h.setServices (flatMap_set_of_eq hget rfl)
  | allocatePacket i => exact h.serviceAllocate hs
  | freePacket i packet => exact h.serviceFree hs

/-- How far the thread is from the release of its packet. -/
def releaseRank (s : IoSystem) : ℕ :=
  match s.stage with
  | .idle => 0
  | .receiving _ => s.services.length + 2
  | .delivering _ _ passed => s.services.length + 1 - passed.length

/-- A step of the thread releases its packet or brings it closer to the release. -/
theorem releaseRank_lt {e : IoEvent} (he : e.Releases) (hs : s.step format e = some s') :
    s'.stage = .idle ∨ s'.stage ≠ .idle ∧ s'.releaseRank < s.releaseRank := by
  cases e with
  | received datagram =>
    simp only [step] at hs
    split at hs
    · next packet hstage =>
      split at hs
      · obtain rfl := Option.some.inj hs
        exact .inl rfl
      · split_ifs at hs
        · obtain rfl := Option.some.inj hs
          exact .inl rfl
        · obtain rfl := Option.some.inj hs
          exact .inl rfl
        · obtain rfl := Option.some.inj hs
          refine .inr ⟨nofun, ?_⟩
          simp [releaseRank, hstage]
    · cases hs
  | visit =>
    simp only [step] at hs
    split at hs
    · next packet data passed hstage =>
      split at hs
      · obtain rfl := Option.some.inj hs
        exact .inl rfl
      · next service hget =>
        have hlt := (List.getElem?_eq_some_iff.mp hget).1
        split_ifs at hs
        · obtain rfl := Option.some.inj hs
          exact .inl rfl
        · obtain rfl := Option.some.inj hs
          refine .inr ⟨nofun, ?_⟩
          simp only [releaseRank, hstage, List.length_append, List.length_singleton]
          omega
    · cases hs
  | _ => exact he.elim

/-- The thread can go on as long as it holds a packet. -/
theorem exists_release_step (h : s.stage ≠ .idle) :
    ∃ e s', IoEvent.Releases e ∧ s.step format e = some s' := by
  cases hstage : s.stage with
  | idle => exact absurd hstage h
  | receiving packet =>
    refine ⟨.received none, s.dropPacket packet none [], trivial, ?_⟩
    simp only [step, hstage]
  | delivering packet data passed =>
    refine ⟨.visit, ?_⟩
    simp only [step, hstage]
    split
    · exact ⟨_, trivial, rfl⟩
    · split_ifs
      · exact ⟨_, trivial, rfl⟩
      · exact ⟨_, trivial, rfl⟩

/-- Whatever it receives, the thread releases the packet that it holds. -/
theorem release_inevitable (h : s.stage ≠ .idle) :
    (ioMachine format).Inevitable IoEvent.Releases (fun _ s' => s'.stage = .idle) s :=
  .of_rank releaseRank (fun _ h => exists_release_step h)
    (fun _ _ _ _ he hs => releaseRank_lt he hs) h

theorem Conserved.of_reachable (h : (ioMachine format).Reachable s) : s.Conserved format := by
  refine h.invariant ?_ fun s e s' h hs => h.step hs
  rintro s rfl
  exact Conserved.initial

end IoSystem

/-- **Conservation of packets.** In every reachable state, the thread has taken and released one
packet for each reception, and taken the one that it holds, which it is going to release; it passes
a packet to a service exactly if the packet is valid and this is the first running service with its
id, and frees it otherwise; and the packets in the pool, with the thread and with the services are
those that the pool began with. -/
theorem packets_conserved (format : XbotFormat) (s : IoSystem)
    (h : (ioMachine format).Reachable s) :
    s.actions = s.receptions.flatMap (Reception.actions format) ++ s.stage.held.map .take ∧
      (∀ r ∈ s.receptions,
        (∀ service, r.release format = .ioInput service r.packet ↔ r.IsFor format service) ∧
          (r.release format = .free r.packet ↔ ∀ service, ¬ r.IsFor format service)) ∧
      (s.pool ++ s.stage.held ++ s.owned).Perm (List.range xbotPacketPoolSize) ∧
      s.pool.length + s.owned.length = xbotPacketPoolSize - s.stage.held.length ∧
      (s.stage ≠ .idle →
        (ioMachine format).Inevitable IoEvent.Releases (fun _ s' => s'.stage = .idle) s) := by
  have hs := IoSystem.Conserved.of_reachable h
  refine ⟨hs.actions, fun r _ => ⟨fun _ => Reception.release_eq_ioInput_iff,
    Reception.release_eq_free_iff⟩, hs.perm, ?_, IoSystem.release_inevitable⟩
  have hlength := hs.perm.length_eq
  rw [List.length_append, List.length_append, List.length_range] at hlength
  omega

open LittleEndian

/-- A packed header of 22 bytes: version, type, flags and an argument of one byte each, the id of
the service, another argument and a number of two each, a time of eight, and the size of the
payload. -/
def packedHeader : List ℕ := [1, 1, 1, 1, 2, 2, 2, 8, 4]

/-- Packets with such a header. -/
def packedFormat : XbotFormat where
  maxPacketSize := 1500
  sizeofHeader := packedHeader.sum
  serviceId data := BitVec.ofNat 16 ((unpack packedHeader data).getD 4 0)
  payloadSize data := (unpack packedHeader data).getD 8 0

/-- A packet for the service 7 with a payload of two bytes. -/
def secondServicePacket : List Byte :=
  pack (packedHeader.zip [1, 2, 0, 0, 7, 0, 513, 1700000000000000, 2]) ++ [42#8, 43#8]

/-- A stopped service and a running one have the same id, and a packet comes for it. -/
def secondServiceRun : List IoEvent :=
  [.registerServiceIo ⟨7#16, true⟩, .registerServiceIo ⟨7#16, false⟩, .receivePacket,
    .received (some secondServicePacket), .visit, .visit]

theorem packets_conserved_secondService :
    ∃ s, (ioMachine packedFormat).run {} secondServiceRun = some s ∧
      s.actions = [.take 0, .ioInput 1 0] ∧
      s.actions = s.receptions.flatMap (Reception.actions packedFormat) ++
        s.stage.held.map .take := by
  obtain ⟨s, hs⟩ : ∃ s, (ioMachine packedFormat).run {} secondServiceRun = some s := ⟨_, rfl⟩
  have hactions : ((ioMachine packedFormat).run {} secondServiceRun).map IoSystem.actions =
    some [.take 0, .ioInput 1 0] := rfl
  rw [hs] at hactions
  exact ⟨s, hs, Option.some.inj hactions,
    (packets_conserved packedFormat s (.run (.init rfl) hs)).1⟩

end OpenMower
