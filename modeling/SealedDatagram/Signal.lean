/-!
A signal that counts: every time it is raised it is remembered until someone consumes it, so that
none is lost while no one waits. A closed signal lets every waiter go.
-/

namespace SealedDatagram

structure Signal where
  /-- Raised and not consumed. -/
  pending : Nat := 0
  closed : Bool := false
  deriving DecidableEq, Repr

namespace Signal

def raise (s : Signal) : Signal := { s with pending := s.pending + 1 }

/-- Consumes one without waiting; the answer is whether there was one. -/
def tryConsume (s : Signal) : Bool × Signal :=
  if s.pending = 0 then (false, s) else (true, { s with pending := s.pending - 1 })

/-- What the end of waiting does: it consumes one, unless there is none or the signal is closed. -/
def wait (s : Signal) : Bool × Signal := if s.closed then (false, s) else s.tryConsume

def close (s : Signal) : Signal := { s with closed := true }

end Signal

end SealedDatagram
