/-!
Binary numbers of 64 bits and how a decimal is rounded to one: to the nearest, and of two equally
near to the one with an even mantissa.
-/

namespace SealedDatagram

/-- A finite number is `mantissa * 2 ^ exponent`; it is in lowest form when the mantissa has 53 bits
or the exponent is `-1074`. -/
inductive Binary64 where
  | nan
  | infinite (negative : Bool)
  | finite (negative : Bool) (mantissa : Nat) (exponent : Int)
  deriving DecidableEq, Repr

namespace Binary64

def leastExponent : Int := -1074

def greatestExponent : Int := 971

/-- The nearest whole number to a quotient, a half going to the even neighbour. -/
def roundDiv (num den : Nat) : Nat :=
  let q := num / den
  let twice := 2 * (num % den)
  if den < twice || (twice == den && q % 2 == 1) then q + 1 else q

/-- `num / den` as a multiple of `2 ^ e`, a numerator and a denominator. -/
def scaled (num den : Nat) (e : Int) : Nat × Nat :=
  if e < 0 then (num <<< (-e).toNat, den) else (num, den <<< e.toNat)

/-- The exponent at which a quotient has 53 bits in front of the point, or one more or less. -/
def exponentFor (num den : Nat) : Int :=
  max leastExponent ((num.log2 : Int) - den.log2 - 53)

/-- The mantissa at an exponent, and the exponent, once the mantissa fits 53 bits. -/
def fit (num den : Nat) (e : Int) : Nat × Int :=
  let (n, d) := scaled num den e
  if n / d < 1 <<< 53 then (roundDiv n d, e)
  else
    let (n, d) := scaled num den (e + 1)
    (roundDiv n d, e + 1)

def ofQuotient (negative : Bool) (num den : Nat) : Binary64 :=
  if num = 0 then finite negative 0 leastExponent
  else
    let (m, e) := fit num den (exponentFor num den)
    let (m, e) := if m = 1 <<< 53 then (1 <<< 52, e + 1) else (m, e)
    if greatestExponent < e then infinite negative else finite negative m e

def digitCount (n : Nat) : Nat := if n = 0 then 0 else (Nat.toDigits 10 n).length

/-- The nearest number to `n * 10 ^ e`. What is certainly too large or too small is decided by its
size alone. -/
def ofDecimal (negative : Bool) (n : Nat) (e : Int) : Binary64 :=
  let size := (digitCount n : Int) + e
  if n = 0 || size < -330 then finite negative 0 leastExponent
  else if 310 < size then infinite negative
  else if e < 0 then ofQuotient negative n (Nat.pow 10 (-e).toNat)
  else ofQuotient negative (n * Nat.pow 10 e.toNat) 1

/-- So many digits from the first that is not zero tell on which side of a half a decimal lies. All
halves end before, for they have 767 digits at most. -/
def decisive : Nat := 800

/-- The nearest number to the decimal that digits spell, times `10 ^ e`. Of what follows the
decisive digits it only matters whether it is zero: one more digit stands for it. -/
def ofDigits (negative : Bool) (digits : List Nat) (e : Int) : Binary64 :=
  let (front, behind) := (digits.dropWhile (· == 0)).splitAt decisive
  let n := front.foldl (fun n d => n * 10 + d) 0
  if behind.all (· == 0) then ofDecimal negative n (e + behind.length)
  else ofDecimal negative (n * 10 + 1) (e + behind.length - 1)

end Binary64

end SealedDatagram
