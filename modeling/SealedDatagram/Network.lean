import SealedDatagram.Channel
import SealedDatagram.Endpoint
import SealedDatagram.Server
/-!
A server and clients, each with a channel on one host. A datagram that is sent arrives at once, if
the host has routes, is handled by the channel it is addressed to unless its workers are held up,
and so are the replies to it.
-/

namespace SealedDatagram

structure Station where
  channel : Channel
  endpoint : Endpoint
  /-- The payloads handed to the application, oldest first. -/
  inbox : List Bytes := []

structure Network (σ : Type) where
  host : Host
  server : Server σ
  /-- What the server's hooks work on. -/
  state : σ
  channel : Channel
  stations : List (String × Station) := []

namespace Network

variable {σ α : Type}

def taken (n : Network σ) : List SocketAddress :=
  n.channel.address :: n.stations.map (·.2.channel.address)

def station? (n : Network σ) (name : String) : Option Station := n.stations.lookup name

def setStation (n : Network σ) (name : String) (s : Station) : Network σ :=
  if (n.station? name).isSome then
    { n with stations := n.stations.map fun e => if e.1 == name then (name, s) else e }
  else { n with stations := n.stations ++ [(name, s)] }

def onState (x : Action σ α) : Action (Network σ) α :=
  x.within (·.state) fun state n => { n with state }

def onChannel (x : Action Channel α) : Action (Network σ) α :=
  x.within (·.channel) fun channel n => { n with channel }

def onStation (name : String) (s : Station) (x : Action Station α) : Action (Network σ) α :=
  x.within (fun n => (n.station? name).getD s) fun s n => n.setStation name s

def stationAt? (n : Network σ) (a : SocketAddress) : Option (String × Station) :=
  n.stations.find? (·.2.channel.address == a)

section
variable [CipherSuite]

def Station.receive (b : Bytes) (peer : SocketAddress) : Action Station Unit := do
  let onChannel {β : Type} (x : Action Channel β) : Action Station β :=
    x.within (·.channel) fun channel s => { s with channel }
  for l in ← onChannel (Channel.receive b peer) do
    let payload ← (Endpoint.handle l.message.bytes l.message.peer).within (·.endpoint)
      fun endpoint (s : Station) => { s with endpoint }
    onChannel (Channel.release l)
    modifyState fun s : Station => { s with inbox := s.inbox ++ payload.toList }

/-- A datagram arrives at a client, if one has the address. -/
def arriveAtStation (b : Bytes) (sender receiver : SocketAddress) : Action (Network σ) Unit := do
  let n : Network σ ← getState
  match n.stationAt? receiver with
  | some (name, s) => onStation name s (Station.receive b sender)
  | none => pure ()

def sendFromServer (b : Bytes) (receiver : SocketAddress) : Attempt (Network σ) Nat := do
  let n : Network σ ← getState
  let size ← n.host.transmit b.length n.channel.address receiver
  let arrival : Action (Network σ) Unit := arriveAtStation b n.channel.address receiver
  if n.host.routed then arrival
  return size

def serve (l : List Lease) : Action (Network σ) Unit := do
  let n : Network σ ← getState
  for lease in l do
    if let some reply ← onState (n.server.answer lease.message.bytes lease.message.peer) then
      discard (sendFromServer reply lease.message.peer).run
    onChannel (Channel.release lease)

/-- A datagram from a client arrives at the server or at another client. -/
def arrive (b : Bytes) (sender receiver : SocketAddress) : Action (Network σ) Unit := do
  let n : Network σ ← getState
  if receiver = n.channel.address then serve (← onChannel (Channel.receive b sender))
  else arriveAtStation b sender receiver

def send (s : Station) (b : Bytes) (receiver : SocketAddress) : Attempt (Network σ) Nat := do
  let n : Network σ ← getState
  let size ← n.host.transmit b.length s.channel.address receiver
  let arrival : Action (Network σ) Unit := arrive b s.channel.address receiver
  if n.host.routed then arrival
  return size

def sendPacket (name : String) (s : Station) (packet : Attempt Client Bytes) :
    Attempt (Network σ) Nat := do
  let made : Action Endpoint (Except Error Bytes) := (Endpoint.onClient packet).run
  let b ← ExceptT.mk (onStation name s
    (made.within (·.endpoint) fun endpoint s => { s with endpoint }))
  send s b s.endpoint.server

def push (packet : Attempt σ Bytes) (receiver : SocketAddress) : Attempt (Network σ) Nat := do
  let b ← ExceptT.mk (onState packet.run)
  sendFromServer b receiver

def resume : Action (Network σ) Unit := do serve (← onChannel Channel.resume)

def stopServer : Action (Network σ) Unit := do
  let n : Network σ ← getState
  let (first, channel) := n.channel.stop
  modifyState fun n : Network σ => { n with channel }
  if first then onState n.server.hooks.finish

end

def join (n : Network σ) (name : String) (c : Config) (client : Client) :
    Except Error (Network σ) := do
  let channel ← Channel.start n.host n.taken c
  return n.setStation name { channel, endpoint := ⟨client, n.channel.address, true⟩ }

def stopStation (n : Network σ) (name : String) (s : Station) : Network σ :=
  n.setStation name { s with channel := s.channel.stop.2 }

end Network

end SealedDatagram
