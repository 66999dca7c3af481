import SealedDatagram.Config.Fault
import SealedDatagram.Host
import SealedDatagram.MessageBuffer
import SealedDatagram.WorkerPool.Gated
/-!
A bound socket with its receive pipeline: every datagram that comes is written into a slot and
signalled; for every signal a worker takes the oldest message and holds its slot until the message
has been handled. A datagram for which there is no slot is dropped.
-/

namespace SealedDatagram

structure Channel where
  address : SocketAddress
  buffer : MessageBuffer
  /-- The workers; they wait for the buffer's signal. -/
  workers : GatedPool
  /-- The messages that workers have taken and not handled. -/
  inHand : List Lease := []
  stopped : Bool := false
  deriving DecidableEq

namespace Channel

def workerCount (c : Channel) : Nat := c.workers.pool.running

def backlog (c : Channel) : Nat := c.buffer.readyCount

/-- Starts a channel on a host where some addresses are taken. -/
def start (h : Host) (taken : List SocketAddress) (c : Config) : Except Error Channel := do
  c.check.mapError ConfigFault.toError
  let wanted := (SocketAddress.ofText? c.channel.address).getD .unspecified
  let address ← (h.bind taken wanted).mapError .socket
  let workers ← GatedPool.start ("dgram-" ++ toString address.port.toNat) c.pool true
  let buffer := .ofCapacity c.channel.bufferCapacity.toNat c.channel.slotSize.toNat
  return { address, buffer, workers }

def onBuffer {α : Type} (x : Action MessageBuffer α) : Action Channel α :=
  x.within (·.buffer) fun buffer c => { c with buffer }

def takeMany : Nat → Action Channel (List Lease)
  | 0 => return []
  | n + 1 => do
    match ← onBuffer MessageBuffer.pop.run with
    | .ok l => return l :: (← takeMany n)
    | .error _ => takeMany n

/-- Lets the workers go on after something has happened to them. Every job that begins takes a
message; the answer is the messages whose jobs come to an end. -/
def work (happening : GatedPool → GatedPool) : Action Channel (List Lease) := do
  let c : Channel ← getState
  let pool := { c.workers.pool with signal := c.buffer.signal }
  let workers := happening { c.workers with pool }
  modifyState fun c : Channel =>
    { c with workers, buffer := { c.buffer with signal := workers.pool.signal } }
  let taken ← takeMany (workers.pool.begun - c.workers.pool.begun)
  let inHand := c.inHand ++ taken
  let ended := workers.pool.ended - c.workers.pool.ended
  modifyState fun c : Channel => { c with inHand := inHand.drop ended }
  return inHand.take ended

/-- Takes in a datagram, cut to the size of a slot; an empty one only takes a slot for a moment. The
answer is the messages to handle now. -/
def receive (b : Bytes) (peer : SocketAddress) : Action Channel (List Lease) := do
  let c : Channel ← getState
  if c.stopped then return []
  match ← onBuffer MessageBuffer.reserve.run with
  | .error _ =>
    count Metrics.datagramDropped
    return []
  | .ok l =>
    if b.isEmpty then
      onBuffer (MessageBuffer.rollback l)
      return []
    let length := min b.length c.buffer.slotSize
    let l := { l with message := l.message.write 0 b }
    discard (onBuffer (MessageBuffer.commit l length peer).run)
    count (Metrics.datagramReceived (UInt64.ofNat length))
    work GatedPool.settle

def release (l : Lease) : Action Channel Unit := onBuffer (MessageBuffer.release l)

def hold (c : Channel) : Channel := { c with workers := { c.workers with isOpen := false } }

def resume : Action Channel (List Lease) := work GatedPool.openGate

def stop (c : Channel) : Bool × Channel :=
  if c.stopped then (false, c)
  else (true, { c with stopped := true, workers := c.workers.shutdown.2 })

def shown (c : Channel) : String :=
  "Channel \x7b local_addr: " ++ c.address.toText ++ ", pool: " ++ c.workers.pool.shown ++
    ", backlog: " ++ toString c.backlog ++ ", stopped: " ++ toString c.stopped ++ " \x7d"

end Channel

end SealedDatagram
