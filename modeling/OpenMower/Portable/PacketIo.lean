import OpenMower.Library.StateMachine
import OpenMower.Portable.Integers

/-!
# Packets for the services

From `portable/xbot`: the pool of `packet.cpp`, `receivePacket` and `transmitPacket` of
`socket.cpp`, and the thread that `runIo` runs. The header of a packet and the services belong to
the framework; of the header only its size and two of its fields matter, of a service its id, its
flag, and which packets it owns. A packet that is passed to `ioInput` is owned by the service.

The loop over the services visits one service in each step, so that services may be started and
stopped meanwhile.
-/

namespace OpenMower

/-- The place of a packet in the pool. -/
abbrev PacketId := ℕ

/-- `XBOT_PACKET_POOL_SIZE`. -/
def xbotPacketPoolSize : ℕ := 25

/-- `XbotHeader` and `max_packet_size`. -/
structure XbotFormat where
  maxPacketSize : ℕ
  /-- `sizeof(XbotHeader)`. -/
  sizeofHeader : ℕ
  serviceId : List Byte → BitVec 16
  payloadSize : List Byte → ℕ

/-- What the thread reads of a service: its id, and `stopped`. -/
structure ServiceFlags where
  serviceId : BitVec 16
  stopped : Bool
  deriving DecidableEq

/-- A registered service. -/
structure ServiceIo where
  flags : ServiceFlags
  /-- The packets that the service owns. -/
  packets : List PacketId := []
  deriving DecidableEq

/-- Where the thread is in `runIo`. -/
inductive IoStage
  /-- Before `receivePacket`. -/
  | idle
  /-- In `recvfrom`. -/
  | receiving (packet : PacketId)
  /-- In the loop over the services; `passed` are the ones that it has passed, as it has read
  them. -/
  | delivering (packet : PacketId) (data : List Byte) (passed : List ServiceFlags)
  deriving DecidableEq

/-- What the thread does with a packet. -/
inductive IoAction
  | take (packet : PacketId)
  | free (packet : PacketId)
  | ioInput (service : ℕ) (packet : PacketId)
  deriving DecidableEq

/-- A packet that the thread has received. -/
structure Reception where
  packet : PacketId
  /-- What `recvfrom` has written, `none` if it has failed. -/
  data : Option (List Byte)
  /-- The services, as the thread has read them, and the ones that it has not read as they are. -/
  services : List ServiceFlags

/-- The thread, the pool and the services. -/
structure IoSystem where
  /-- `xbot_packet_sema`. -/
  sema : ℕ := xbotPacketPoolSize
  /-- `xbot_packet_pool`. -/
  pool : List PacketId := List.range xbotPacketPoolSize
  services : List ServiceIo := []
  stage : IoStage := .idle
  /-- History: what the thread has done. -/
  actions : List IoAction := []
  /-- History: what the thread has received. -/
  receptions : List Reception := []

namespace IoSystem

variable (s : IoSystem)

/-- `allocatePacket`; it waits for the semaphore, and loops if the pool is empty then. -/
def allocatePacket : Option (PacketId × IoSystem) :=
  if s.sema = 0 then none
  else
    match s.pool with
    | [] => none
    | packet :: pool => some (packet, { s with sema := s.sema - 1, pool := pool })

/-- `freePacket`. -/
def freePacket (packet : PacketId) : IoSystem :=
  { s with sema := s.sema + 1, pool := packet :: s.pool }

/-- What the thread reads of the services from now on, after it has read some. -/
def flagsAfter (passed : List ServiceFlags) : List ServiceFlags :=
  passed ++ (s.services.drop passed.length).map ServiceIo.flags

/-- The thread frees its packet. -/
def dropPacket (packet : PacketId) (data : Option (List Byte)) (passed : List ServiceFlags) :
    IoSystem :=
  { s.freePacket packet with
    stage := .idle
    actions := s.actions ++ [.free packet]
    receptions := s.receptions ++ [⟨packet, data, s.flagsAfter passed⟩] }

/-- The thread passes its packet to a service. -/
def deliverPacket (packet : PacketId) (data : List Byte) (passed : List ServiceFlags)
    (service : ServiceIo) : IoSystem :=
  { s with
    services := s.services.set passed.length { service with packets := service.packets ++ [packet] }
    stage := .idle
    actions := s.actions ++ [.ioInput passed.length packet]
    receptions := s.receptions ++ [⟨packet, some data, s.flagsAfter passed⟩] }

end IoSystem

/-- What happens to the thread, and what the other threads do. -/
inductive IoEvent
  /-- `receivePacket` up to `recvfrom`. -/
  | receivePacket
  /-- The result of `recvfrom`, and the checks of the packet. -/
  | received (datagram : Option (List Byte))
  /-- The next service in the loop, or its end. -/
  | visit
  | registerServiceIo (flags : ServiceFlags)
  | setStopped (service : ℕ) (stopped : Bool)
  /-- A service takes a packet from the pool. -/
  | allocatePacket (service : ℕ)
  /-- A service frees a packet, directly or in `transmitPacket`. -/
  | freePacket (service : ℕ) (packet : PacketId)

namespace IoSystem

/-- One step. -/
def step (format : XbotFormat) (s : IoSystem) : IoEvent → Option IoSystem
  | .receivePacket =>
    match s.stage with
    | .idle => s.allocatePacket.map fun (packet, s') =>
        { s' with stage := .receiving packet, actions := s.actions ++ [.take packet] }
    | _ => none
  | .received datagram =>
    match s.stage with
    | .receiving packet =>
      match datagram with
      | none => some (s.dropPacket packet none [])
      | some datagram =>
        let data := datagram.take format.maxPacketSize
        if data.length < format.sizeofHeader then some (s.dropPacket packet (some data) [])
        else if data.length - format.sizeofHeader ≠ format.payloadSize data then
          some (s.dropPacket packet (some data) [])
        else some { s with stage := .delivering packet data [] }
    | _ => none
  | .visit =>
    match s.stage with
    | .delivering packet data passed =>
      match s.services[passed.length]? with
      | none => some (s.dropPacket packet (some data) passed)
      | some service =>
        if service.flags.serviceId = format.serviceId data ∧ service.flags.stopped = false then
          some (s.deliverPacket packet data passed service)
        else some { s with stage := .delivering packet data (passed ++ [service.flags]) }
    | _ => none
  | .registerServiceIo flags => some { s with services := s.services ++ [{ flags := flags }] }
  | .setStopped i stopped => s.services[i]?.map fun service =>
      { s with services := s.services.set i { service with
          flags := { service.flags with stopped := stopped } } }
  | .allocatePacket i => s.services[i]?.bind fun service => s.allocatePacket.map fun (packet, s') =>
      { s' with services := s.services.set i { service with
          packets := service.packets ++ [packet] } }
  | .freePacket i packet => s.services[i]?.bind fun service =>
      if packet ∈ service.packets then
        some { s.freePacket packet with
          services := s.services.set i { service with packets := service.packets.erase packet } }
      else none

end IoSystem

/-- The thread and the services, from the start on. -/
def ioMachine (format : XbotFormat) : StateMachine IoSystem IoEvent where
  Init s := s = {}
  step s e := s.step format e

end OpenMower
