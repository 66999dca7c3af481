import SealedDatagram.Decimal.Binary64
/-!
The decimal text of a binary number: the fewest digits that read back as it, and of those the
nearest to it, written without an exponent. A whole number ends in `.0`.
-/

namespace SealedDatagram.Binary64

/-- A number and the reals that round to it, all as fractions of one unit: twice the numbers half
way to its neighbours. -/
structure Interval where
  low : Nat
  value : Nat
  high : Nat
  /-- Whether the ends belong to it. -/
  closed : Bool
  /-- How many such fractions make one. -/
  unit : Nat

/-- The reals that round to `mantissa * 2 ^ exponent`. Below a power of two the next number is only
half as far. -/
def interval (mantissa : Nat) (exponent : Int) : Interval :=
  let power := mantissa == 1 <<< 52 && decide (leastExponent < exponent)
  let (step, unit) := scaled 1 4 (-exponent)
  { low := (4 * mantissa - if power then 1 else 2) * step
    value := 4 * mantissa * step
    high := (4 * mantissa + 2) * step
    closed := mantissa % 2 == 0
    unit }

namespace Interval

def contains (i : Interval) (x : Nat) : Bool :=
  if i.closed then i.low ≤ x && x ≤ i.high else i.low < x && x < i.high

/-- The whole numbers of tenth powers nearest to the value on both sides, `10 ^ place` apart, that
lie in the interval; the nearer first. -/
def grid? (i : Interval) (place : Int) : Option Nat :=
  -- all of the interval, and one step of the grid, times a power of ten that makes both whole
  let (scale, step) := if place < 0 then (Nat.pow 10 (-place).toNat, i.unit)
    else (1, i.unit * Nat.pow 10 place.toNat)
  let scaled : Interval :=
    { i with low := i.low * scale, value := i.value * scale, high := i.high * scale }
  let below := scaled.value / step
  let above := below + 1
  let fits (n : Nat) : Bool := scaled.contains (n * step)
  let nearerBelow := decide (scaled.value - below * step < above * step - scaled.value)
  if fits below && (nearerBelow || !fits above) then some below
  else if fits above then some above
  else none

end Interval

/-- The power of ten of the first digit of a quotient, or one more. -/
def leadingPlace (num den : Nat) : Int :=
  if den ≤ num then (Nat.toDigits 10 (num / den)).length - 1
  else -((Nat.toDigits 10 (den / num)).length - 1 : Int)

/-- The first grid that meets the interval, the coarsest first. -/
def firstGrid (i : Interval) (top : Int) : (fuel : Nat) → (finer : Nat) → Nat × Int
  | 0, _ => (0, 0)
  | fuel + 1, finer =>
    let place := top - finer
    match i.grid? place with
    | some n => (n, place)
    | none => firstGrid i top fuel (finer + 1)

/-- The shortest decimal `n * 10 ^ e` that reads back, which never needs more than 17 digits. -/
def shortest (mantissa : Nat) (exponent : Int) : Nat × Int :=
  if mantissa = 0 then (0, 0)
  else
    let i := interval mantissa exponent
    firstGrid i (leadingPlace i.value i.unit + 1) 20 0

/-- `n * 10 ^ e` without an exponent. -/
def positional (n : Nat) (e : Int) : String :=
  let digits := Nat.toDigits 10 n
  if 0 ≤ e then String.ofList (digits ++ List.replicate e.toNat '0') ++ ".0"
  else
    let places := (-e).toNat
    let digits := List.replicate (places + 1 - digits.length) '0' ++ digits
    let whole := digits.take (digits.length - places)
    String.ofList (whole ++ '.' :: digits.drop (digits.length - places))

def toText : Binary64 → String
  | .nan => "NaN"
  | .infinite negative => if negative then "-inf" else "inf"
  | .finite negative m e =>
    let (n, e) := shortest m e
    (if negative then "-" else "") ++ positional n e

end SealedDatagram.Binary64
