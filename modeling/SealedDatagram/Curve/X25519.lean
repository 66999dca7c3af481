import SealedDatagram.Bytes
/-!
Scalar multiplication on Curve25519 by coordinate u alone: a ladder over the bits of the scalar on
pairs of projective points, all arithmetic modulo 2^255 - 19.
-/

namespace SealedDatagram.X25519

def prime : Nat := (1 <<< 255) - 19

/-- The number 32 bytes stand for as a coordinate: the top bit is ignored. -/
def coordinate (b : Bytes) : Nat := Bytes.toNatLE b % (1 <<< 255) % prime

/-- A private key as a scalar: the three low bits and the top bit cleared, the next one set. -/
def scalar (secret : Bytes) : Nat :=
  let n := Bytes.toNatLE secret % (1 <<< 254)
  n - n % 8 + (1 <<< 254)

def sub (a b : Nat) : Nat := (a + (prime - b)) % prime

/-- `b ^ e`, where `fuel` bits of `e` are looked at. -/
def power : (fuel : Nat) → (b e : Nat) → Nat
  | 0, _, _ => 1
  | fuel + 1, b, e =>
    let square := power fuel (b * b % prime) (e / 2)
    if e % 2 = 1 then b * square % prime else square

/-- The two points of the ladder, whose difference is the point multiplied. -/
structure Ladder where
  x2 : Nat
  z2 : Nat
  x3 : Nat
  z3 : Nat

def Ladder.swap (l : Ladder) : Ladder := ⟨l.x3, l.z3, l.x2, l.z2⟩

/-- Doubles the first point and adds the two, whose difference has the coordinate `u`. -/
def Ladder.step (u : Nat) (l : Ladder) : Ladder :=
  let a := (l.x2 + l.z2) % prime
  let b := sub l.x2 l.z2
  let aa := a * a % prime
  let bb := b * b % prime
  let e := sub aa bb
  let da := sub l.x3 l.z3 * a % prime
  let cb := (l.x3 + l.z3) * b % prime
  let sum := (da + cb) % prime
  let difference := sub da cb
  ⟨aa * bb % prime, e * (aa + 121665 * e) % prime, sum * sum % prime,
    u * (difference * difference % prime) % prime⟩

/-- Works off the lowest `n` bits of `k`, the highest first. -/
def ladder (u k : Nat) : Nat → Ladder → Ladder
  | 0, l => l
  | n + 1, l =>
    let l := if k.testBit n then (l.swap.step u).swap else l.step u
    ladder u k n l

def multiply (k u : Nat) : Nat :=
  let l := ladder u k 255 ⟨1, 0, u, 1⟩
  l.x2 * power 255 l.z2 (prime - 2) % prime

/-- The 32 bytes of the product of a private key and a point. -/
def exchange (secret point : Bytes) : Bytes :=
  Bytes.ofNatLE 32 (multiply (scalar secret) (coordinate point))

/-- The public key of a private key: its product with the base point, whose coordinate is 9. -/
def publicKey (secret : Bytes) : Bytes := Bytes.ofNatLE 32 (multiply (scalar secret) 9)

end SealedDatagram.X25519
