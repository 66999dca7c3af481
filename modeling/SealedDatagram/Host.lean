import SealedDatagram.Env
import SealedDatagram.SocketAddress
/-!
The host that sockets belong to, as far as binding and sending goes: what it refuses, and in which
order it finds out. A host without routes does not know which IPv4 addresses are its own, so it lets
any be bound, and it reaches no one, not even itself; only what it sends to the address of no host
goes out, and is lost.
-/

namespace SealedDatagram

structure Host where
  /-- Whether the host has routes to its peers and to itself. -/
  routed : Bool
  deriving DecidableEq, Repr

namespace Host

/-- Whether a socket may be bound to an IPv4 host. -/
def owns (h : Host) (host : UInt32) : Bool :=
  !h.routed || host = 0 || host >>> 24 = 127 || host >>> 28 = 14 || host = 0xffffffff

def interface : UInt32 := 1

/-- The address that a socket gets which is bound to a given one. A scope that is not needed is
dropped. -/
def bound (h : Host) (a : SocketAddress) : Except SocketFault SocketAddress :=
  match a with
  | .v4 host _ => if h.owns host then .ok a else .error .addressUnavailable
  | .v6 host scope port =>
    let plain := .v6 host 0 port
    match SocketAddress.embedded? host with
    | some short => if h.owns short then .ok plain else .error .addressUnavailable
    | none =>
      if SocketAddress.needsScope host then
        if scope = 0 then .error .invalidArgument
        else if scope ≠ interface then .error .noDevice
        else if SocketAddress.isGroup host then .ok a
        else .error .addressUnavailable
      else if host = 0 || SocketAddress.isGroup host || (h.routed && host = 1) then .ok plain
      else .error .addressUnavailable

def firstOwnPort : Nat := 49152

def freshPort (taken : List SocketAddress) : UInt16 :=
  let isFree (port : UInt16) : Bool := taken.all (·.port != port)
  let ports := (List.range (taken.length + 1)).map fun n => UInt16.ofNat (firstOwnPort + n)
  (ports.find? isFree).getD 0

def bind (h : Host) (taken : List SocketAddress) (a : SocketAddress) :
    Except SocketFault SocketAddress := do
  let a ← h.bound a
  if a ∈ taken then throw .addressInUse
  return if a.port = 0 then a.withPort (freshPort taken) else a

/-- Whether a socket's address can be the source of a datagram. A group of hosts cannot; a socket
that is bound to one leaves the source open, unless the group was written as an IPv6 host. -/
def isSource : SocketAddress → Bool
  | .v4 .. => true
  | .v6 host .. =>
    match SocketAddress.embedded? host with
    | some short => short >>> 28 != 14 && short != 0xffffffff
    | none => true

/-- Sends a datagram of `size` bytes: the size on the wire is checked first, the address next, then
the route, and last what fits one packet. -/
def send (h : Host) (size : Nat) (sender receiver : SocketAddress) : Except SocketFault Nat :=
  if 65535 < size then .error .messageTooLong
  else match sender, receiver with
  | .v4 .., .v6 .. => .error .addressFamily
  | _, _ =>
    if receiver.port = 0 || !isSource sender then .error .invalidArgument
    else if !h.routed && receiver != .v4 0 receiver.port then .error .networkUnreachable
    else if 65507 < size then .error .messageTooLong
    else .ok size

def transmit {σ : Type} (h : Host) (size : Nat) (sender receiver : SocketAddress) :
    Attempt σ Nat :=
  match h.send size sender receiver with
  | .ok n => do
    count (Metrics.datagramSent (UInt64.ofNat n))
    return n
  | .error fault => throw (.socket fault)

def reply {σ : Type} (h : Host) (sender : SocketAddress) (b : Bytes) (receiver : SocketAddress) :
    Action σ Unit :=
  discard (h.transmit b.length sender receiver).run

end Host

end SealedDatagram
