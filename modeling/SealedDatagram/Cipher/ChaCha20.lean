import SealedDatagram.Bytes
/-!
The XChaCha20 keystream. A state of sixteen words is stirred by twenty rounds; the first sixteen
nonce bytes derive a subkey, the last eight number the stream, and a block counter numbers its
blocks of 64 bytes.
-/

namespace SealedDatagram.ChaCha20

structure State where
  x0 : UInt32
  x1 : UInt32
  x2 : UInt32
  x3 : UInt32
  x4 : UInt32
  x5 : UInt32
  x6 : UInt32
  x7 : UInt32
  x8 : UInt32
  x9 : UInt32
  x10 : UInt32
  x11 : UInt32
  x12 : UInt32
  x13 : UInt32
  x14 : UInt32
  x15 : UInt32

def rotateLeft (x n : UInt32) : UInt32 := (x <<< n) ||| (x >>> (32 - n))

structure Quad where
  a : UInt32
  b : UInt32
  c : UInt32
  d : UInt32

def quarterRound (a b c d : UInt32) : Quad :=
  let a := a + b; let d := rotateLeft (d ^^^ a) 16
  let c := c + d; let b := rotateLeft (b ^^^ c) 12
  let a := a + b; let d := rotateLeft (d ^^^ a) 8
  let c := c + d; let b := rotateLeft (b ^^^ c) 7
  ⟨a, b, c, d⟩

def doubleRound (s : State) : State :=
  let p := quarterRound s.x0 s.x4 s.x8 s.x12
  let q := quarterRound s.x1 s.x5 s.x9 s.x13
  let r := quarterRound s.x2 s.x6 s.x10 s.x14
  let t := quarterRound s.x3 s.x7 s.x11 s.x15
  let u := quarterRound p.a q.b r.c t.d
  let v := quarterRound q.a r.b t.c p.d
  let w := quarterRound r.a t.b p.c q.d
  let z := quarterRound t.a p.b q.c r.d
  ⟨u.a, v.a, w.a, z.a, z.b, u.b, v.b, w.b, w.c, z.c, u.c, v.c, v.d, w.d, z.d, u.d⟩

def stir : Nat → State → State
  | 0, s => s
  | n + 1, s => stir n (doubleRound s)

def word (b : Bytes) (i : Nat) : UInt32 := UInt32.ofNat (Bytes.toNatLE ((b.drop (4 * i)).take 4))

/-- The constants, a key of 32 bytes and the four words that number the block. -/
def start (key : Bytes) (n0 n1 n2 n3 : UInt32) : State :=
  ⟨0x61707865, 0x3320646e, 0x79622d32, 0x6b206574,
    word key 0, word key 1, word key 2, word key 3, word key 4, word key 5, word key 6, word key 7,
    n0, n1, n2, n3⟩

def wordBytes (w : UInt32) : Bytes :=
  [w.toUInt8, (w >>> 8).toUInt8, (w >>> 16).toUInt8, (w >>> 24).toUInt8]

/-- The subkey for the first sixteen bytes of a nonce. -/
def subkey (key nonce : Bytes) : Bytes :=
  let s := stir 10 (start key (word nonce 0) (word nonce 1) (word nonce 2) (word nonce 3))
  [s.x0, s.x1, s.x2, s.x3, s.x12, s.x13, s.x14, s.x15].flatMap wordBytes

def block (s : State) : Bytes :=
  let t := stir 10 s
  [s.x0 + t.x0, s.x1 + t.x1, s.x2 + t.x2, s.x3 + t.x3, s.x4 + t.x4, s.x5 + t.x5, s.x6 + t.x6,
    s.x7 + t.x7, s.x8 + t.x8, s.x9 + t.x9, s.x10 + t.x10, s.x11 + t.x11, s.x12 + t.x12,
    s.x13 + t.x13, s.x14 + t.x14, s.x15 + t.x15].flatMap wordBytes

/-- `n` blocks from block `i` on. -/
def blocks (key : Bytes) (n2 n3 : UInt32) : (n i : Nat) → Bytes
  | 0, _ => []
  | n + 1, i => block (start key (UInt32.ofNat i) 0 n2 n3) ++ blocks key n2 n3 n (i + 1)

theorem length_blocks (key : Bytes) (n2 n3 : UInt32) (n i : Nat) :
    (blocks key n2 n3 n i).length = 64 * n := by
  induction n generalizing i with
  | zero => rfl
  | succ n ih =>
    have h : (block (start key (UInt32.ofNat i) 0 n2 n3)).length = 64 := rfl
    rw [blocks, List.length_append, ih, h]; omega

/-- The first `n` bytes of the stream for a key of 32 bytes and a nonce of 24. -/
def keystream (key nonce : Bytes) (n : Nat) : Bytes :=
  (blocks (subkey key nonce) (word nonce 4) (word nonce 5) ((n + 63) / 64) 0).take n

@[simp] theorem length_keystream (key nonce : Bytes) (n : Nat) :
    (keystream key nonce n).length = n := by
  rw [keystream, List.length_take, length_blocks]; omega

end SealedDatagram.ChaCha20
