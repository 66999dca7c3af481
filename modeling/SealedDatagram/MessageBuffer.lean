import SealedDatagram.Env
import SealedDatagram.Memory
import SealedDatagram.Ring
import SealedDatagram.Signal
/-!
A ring of slots with a signal that is raised once for every message. A message that gives way takes
its signal with it.
-/

namespace SealedDatagram

structure MessageBuffer where
  ring : Ring
  signal : Signal := {}
  capacity : Nat
  slotSize : Nat
  deriving DecidableEq

namespace MessageBuffer

def ofCapacity (capacity slotSize : Nat) : MessageBuffer where
  ring := .ofCapacity capacity slotSize
  capacity
  slotSize

/-- Whether there is memory for such a buffer. A slot takes 64 bytes beside its storage. -/
def fits (m : Memory) (capacity slotSize : Nat) : Bool :=
  m.holds capacity 64 && (capacity == 0 || m.holds slotSize 1)

def readyCount (b : MessageBuffer) : Nat := b.ring.ready.length

def backlog (b : MessageBuffer) : Nat := b.signal.pending

def reserve : Fallible BufferError MessageBuffer Lease := do
  let b : MessageBuffer ← getState
  let (r, ring) := b.ring.reserve
  setState { b with ring }
  if r.evicted then
    count Metrics.datagramEvicted
    modifyState fun b : MessageBuffer => { b with signal := b.signal.tryConsume.2 }
  match r.lease with
  | some l => return l
  | none => throw .exhausted

/-- Makes what has been written a ready message, and signals it. -/
def commit (l : Lease) (length : Nat) (peer : SocketAddress) :
    Fallible BufferError MessageBuffer Unit := do
  let b : MessageBuffer ← getState
  let (r, ring) := b.ring.commit l length peer
  setState { b with ring }
  match r with
  | .error e => throw e
  | .ok () => modifyState fun b : MessageBuffer => { b with signal := b.signal.raise }

def rollback (l : Lease) : Action MessageBuffer Unit :=
  modifyState fun b : MessageBuffer => { b with ring := b.ring.rollback l }

/-- Writes a message in one go; one that is too long takes no slot. -/
def push (b : Bytes) (peer : SocketAddress) : Fallible BufferError MessageBuffer Unit := do
  let buffer : MessageBuffer ← getState
  if buffer.slotSize < b.length then throw (.oversized b.length)
  let l ← reserve
  commit { l with message := l.message.write 0 b } b.length peer

def pop : Fallible BufferError MessageBuffer Lease := do
  let b : MessageBuffer ← getState
  let (l, ring) := b.ring.pop
  setState { b with ring }
  match l with
  | some l => return l
  | none => throw .empty

def release (l : Lease) : Action MessageBuffer Unit :=
  modifyState fun b : MessageBuffer => { b with ring := b.ring.release l }

def tryConsume : Action MessageBuffer Bool := do
  let b : MessageBuffer ← getState
  let (r, signal) := b.signal.tryConsume
  setState { b with signal }
  return r

end MessageBuffer

end SealedDatagram
