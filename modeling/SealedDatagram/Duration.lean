/-!
Spans of time, exact to the nanosecond, and how messages show them: in the largest unit of which
there is at least one, with a fraction that has no trailing zeros.
-/

namespace SealedDatagram

structure Duration where
  nanos : Nat
  deriving DecidableEq, Repr

namespace Duration

def zero : Duration := ⟨0⟩

def ofMillis (n : Nat) : Duration := ⟨n * 1000000⟩

def ofSeconds (n : Nat) : Duration := ⟨n * 1000000000⟩

def fits (d : Duration) : Bool := d.nanos / 1000000000 < UInt64.size

def millis (d : Duration) : Nat := d.nanos / 1000000

@[simp] theorem millis_ofMillis (n : Nat) : (ofMillis n).millis = n := by
  simp [millis, ofMillis]

instance : LT Duration := ⟨fun a b => a.nanos < b.nanos⟩

instance : LE Duration := ⟨fun a b => a.nanos ≤ b.nanos⟩

instance (a b : Duration) : Decidable (a < b) := inferInstanceAs (Decidable (a.nanos < b.nanos))

instance (a b : Duration) : Decidable (a ≤ b) := inferInstanceAs (Decidable (a.nanos ≤ b.nanos))

/-- Exactly `width` decimal digits of a number, the most significant first. -/
def padded : (width : Nat) → Nat → List Char
  | 0, _ => []
  | width + 1, n => padded width (n / 10) ++ [Nat.digitChar (n % 10)]

/-- `n` units of which `10 ^ width` make a whole, in wholes. -/
def inWholes (width n : Nat) : String :=
  let fraction := ((padded width (n % Nat.pow 10 width)).reverse.dropWhile (· == '0')).reverse
  toString (n / Nat.pow 10 width) ++
    if fraction.isEmpty then "" else "." ++ String.ofList fraction

def shown (d : Duration) : String :=
  if 1000000000 ≤ d.nanos then inWholes 9 d.nanos ++ "s"
  else if 1000000 ≤ d.nanos then inWholes 6 d.nanos ++ "ms"
  else if 1000 ≤ d.nanos then inWholes 3 d.nanos ++ "µs"
  else toString d.nanos ++ "ns"

end Duration

end SealedDatagram
