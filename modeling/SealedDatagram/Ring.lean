import SealedDatagram.Bytes
import SealedDatagram.Error
import SealedDatagram.SocketAddress
/-!
A ring of slots for datagrams. A slot is free, or holds a message that is ready, or is lent out:
then its storage is in the hands of whoever writes or reads it, and comes back when they are done.
Ready messages leave in the order in which they came; when no slot is free the oldest of them gives
way. Storage is used again as it is, so that old bytes stay behind what is written over them.
-/

namespace SealedDatagram

structure Message where
  storage : Bytes
  /-- How much of the storage is the message. -/
  length : Nat
  peer : SocketAddress
  deriving DecidableEq

namespace Message

def bytes (m : Message) : Bytes := m.storage.take m.length

/-- A message that stands alone. -/
def ofBytes (b : Bytes) (peer : SocketAddress) : Message := ⟨b, b.length, peer⟩

def blank (size : Nat) : Message := ⟨List.replicate size 0, 0, .unspecified⟩

/-- Whether bytes that are written from some place on stay in the storage. -/
def holds (m : Message) (start : Nat) (b : Bytes) : Bool := start + b.length ≤ m.storage.length

def write (m : Message) (start : Nat) (b : Bytes) : Message :=
  let written := m.storage.take start ++ b ++ m.storage.drop (start + b.length)
  { m with storage := written.take m.storage.length }

end Message

structure Lease where
  index : Nat
  message : Message
  deriving DecidableEq

structure Ring where
  /-- The storage of every slot, except while it is lent out. -/
  slots : List (Option Message)
  /-- The slots without a message, in the order in which they are used. -/
  free : List Nat
  /-- The slots with a message, the oldest first. -/
  ready : List Nat
  deriving DecidableEq

/-- A slot to write into, unless all are lent out. -/
structure Reservation where
  lease : Option Lease
  /-- Whether the oldest message has given way. -/
  evicted : Bool
  deriving DecidableEq

namespace Ring

/-- Slots with blank storage, which is only made if there is a slot. -/
def blankSlots (slotSize : Nat) : Nat → List (Option Message)
  | 0 => []
  | n + 1 => List.replicate (n + 1) (some (.blank slotSize))

@[simp] theorem blankSlots_eq (slotSize n : Nat) :
    blankSlots slotSize n = List.replicate n (some (.blank slotSize)) := by
  cases n <;> rfl

def ofCapacity (capacity slotSize : Nat) : Ring where
  slots := blankSlots slotSize capacity
  free := List.range capacity
  ready := []

def lend (r : Ring) (i : Nat) : Option Lease × Ring :=
  ((r.slots[i]?.join).map (Lease.mk i), { r with slots := r.slots.set i none })

/-- Takes a slot to write into: a free one, else that of the oldest message. -/
def reserve (r : Ring) : Reservation × Ring :=
  match r.free, r.ready with
  | i :: free, _ =>
    let (lease, r) := { r with free }.lend i
    (⟨lease, false⟩, r)
  | [], i :: ready =>
    let (lease, r) := { r with ready }.lend i
    (⟨lease, true⟩, r)
  | [], [] => (⟨none, false⟩, r)

def pop (r : Ring) : Option Lease × Ring :=
  match r.ready with
  | i :: ready => { r with ready }.lend i
  | [] => (none, r)

def parkFree (r : Ring) (l : Lease) : Ring :=
  { r with slots := r.slots.set l.index (some l.message), free := r.free ++ [l.index] }

def parkReady (r : Ring) (l : Lease) : Ring :=
  { r with slots := r.slots.set l.index (some l.message), ready := r.ready ++ [l.index] }

/-- Makes the first `length` bytes of the storage a ready message. If the storage has fewer, the
slot is free again. -/
def commit (r : Ring) (l : Lease) (length : Nat) (peer : SocketAddress) :
    Except BufferError Unit × Ring :=
  if l.message.storage.length < length then (.error (.oversized length), r.parkFree l)
  else (.ok (), r.parkReady { l with message := { l.message with length, peer } })

def rollback (r : Ring) (l : Lease) : Ring := r.parkFree l

def release (r : Ring) (l : Lease) : Ring :=
  r.parkFree { l with message := { l.message with length := 0 } }

end Ring

end SealedDatagram
