import SealedDatagram.Bytes
/-!
A source of random bytes: bytes queued in advance come first, then those of a splitmix64 generator,
and an optional budget bounds how many can be drawn in all. A draw gives exactly as many bytes as
were asked for, or none.
-/

namespace SealedDatagram

structure Entropy where
  /-- Bytes that come before any generated one. -/
  queued : Bytes := []
  state : UInt64 := 0
  /-- How many bytes may still be drawn; no bound if absent. -/
  budget : Option Nat := none
  deriving DecidableEq, Repr

namespace Entropy

/-- The output of the generator for one value of its counter. -/
def mix (z : UInt64) : UInt64 :=
  let z := (z ^^^ (z >>> 30)) * 0xBF58476D1CE4E5B9
  let z := (z ^^^ (z >>> 27)) * 0x94D049BB133111EB
  z ^^^ (z >>> 31)

def gamma : UInt64 := 0x9E3779B97F4A7C15

/-- The eight bytes of the next output wait behind the queued ones. -/
def refill (e : Entropy) : Entropy :=
  let state := e.state + gamma
  { e with queued := e.queued ++ Bytes.ofNatLE 8 (mix state).toNat, state }

def refills : Nat → Entropy → Entropy
  | 0, e => e
  | n + 1, e => refills n e.refill

@[simp] theorem length_queued_refill (e : Entropy) :
    e.refill.queued.length = e.queued.length + 8 := by simp [refill]

theorem length_queued_refills (n : Nat) (e : Entropy) :
    (refills n e).queued.length = e.queued.length + 8 * n := by
  induction n generalizing e with
  | zero => rfl
  | succ n ih => rw [refills, ih, length_queued_refill]; omega

def allows (e : Entropy) (n : Nat) : Bool :=
  match e.budget with
  | none => true
  | some left => n ≤ left

/-- The next `n` bytes; a draw beyond the budget takes nothing. -/
def draw? (n : Nat) (e : Entropy) : Option (Bytes × Entropy) :=
  if e.allows n then
    let full := refills ((n - e.queued.length + 7) / 8) e
    some (full.queued.take n,
      { full with queued := full.queued.drop n, budget := e.budget.map (· - n) })
  else none

theorem length_of_draw? {n : Nat} {e e' : Entropy} {b : Bytes} (h : e.draw? n = some (b, e')) :
    b.length = n := by
  simp only [draw?] at h
  split at h
  · simp only [Option.some.injEq, Prod.mk.injEq] at h
    rw [← h.1, List.length_take, length_queued_refills]
    omega
  · cases h

end Entropy

end SealedDatagram
