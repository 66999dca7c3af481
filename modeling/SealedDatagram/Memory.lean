/-!
What fits in memory. The things that are made at their full size at once, because their capacity is
chosen beforehand, are only made if a stretch of memory for them is to be had.
-/

namespace SealedDatagram

/-- The most bytes in one stretch: half of the address space. -/
def Memory.limit : Nat := UInt64.size / 2 - 1

/-- The memory of the host, by the stretches that it grants. -/
structure Memory where
  /-- Whether a stretch of so many bytes is to be had. -/
  grants : Nat → Bool
  le_limit : ∀ n, grants n = true → n ≤ Memory.limit

namespace Memory

/-- A host that grants whatever can be addressed. -/
def ample : Memory := ⟨fun n => n ≤ limit, fun _ => of_decide_eq_true⟩

/-- Whether there is memory for `n` things of some size. Nothing needs no memory. -/
def holds (m : Memory) (n size : Nat) : Bool := n * size == 0 || m.grants (n * size)

theorem le_limit_of_holds {m : Memory} {n size : Nat} (h : m.holds n size = true) :
    n * size ≤ limit := by
  rcases Bool.or_eq_true_iff.1 h with h | h
  · exact (beq_iff_eq.1 h).symm ▸ Nat.zero_le limit
  · exact m.le_limit _ h

end Memory

end SealedDatagram
