import SealedDatagram.Memory
import SealedDatagram.Salt
/-!
The memory against replays: the salts accepted last, up to a capacity. A salt that is still
remembered is refused; when the memory is full the oldest salt is forgotten. A window of capacity
zero remembers nothing and refuses nothing.
-/

namespace SealedDatagram

structure SaltWindow where
  capacity : Nat
  /-- The salts remembered, oldest first. -/
  order : List Salt := []
  /-- The same salts, as the set that is asked. -/
  seen : List Salt := []
  deriving DecidableEq

namespace SaltWindow

def ofCapacity (capacity : Nat) : SaltWindow := { capacity }

/-- How many places the set has: a power of two, of which an eighth stays free. -/
def places (w : SaltWindow) : Nat :=
  if w.capacity = 0 then 0 else Nat.nextPowerOfTwo (8 * w.capacity / 7)

/-- Whether there is memory for such a window: the set, where a place takes a salt and a byte that
marks it as taken, and the queue. -/
def fits (w : SaltWindow) (m : Memory) : Bool :=
  m.holds w.places (Salt.size + 1) && m.holds w.capacity Salt.size

/-- The window of a session that does not choose its own. -/
def standard : SaltWindow := ofCapacity 64

def contains (w : SaltWindow) (s : Salt) : Bool := w.seen.contains s

def size (w : SaltWindow) : Nat := w.order.length

/-- Forgets the oldest salt if there is no room for another. -/
def makeRoom (w : SaltWindow) : SaltWindow :=
  if w.capacity ≤ w.order.length then
    match w.order with
    | [] => w
    | oldest :: order => { w with order, seen := w.seen.erase oldest }
  else w

def remember (w : SaltWindow) (s : Salt) : SaltWindow :=
  { w with order := w.order ++ [s], seen := s :: w.seen }

/-- Whether a salt is fresh; a fresh salt is remembered. -/
def accept (w : SaltWindow) (s : Salt) : Bool × SaltWindow :=
  if w.capacity = 0 then (true, w)
  else if w.contains s then (false, w)
  else (true, w.makeRoom.remember s)

end SaltWindow

end SealedDatagram
