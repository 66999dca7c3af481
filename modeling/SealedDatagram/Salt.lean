import SealedDatagram.Bytes
/-!
The salt: eight bytes that name, for its issuer, the next packet it expects to be sealed under them.
-/

namespace SealedDatagram

structure Salt where
  bytes : Bytes
  length_eq : bytes.length = 8
  deriving DecidableEq

namespace Salt

def size : Nat := 8

def ofBytes? (b : Bytes) : Option Salt := if h : b.length = 8 then some ⟨b, h⟩ else none

@[ext] theorem ext {s t : Salt} (h : s.bytes = t.bytes) : s = t := by
  cases s; cases t; simp_all

@[simp] theorem ofBytes?_bytes (s : Salt) : ofBytes? s.bytes = some s := by
  simp [ofBytes?, s.length_eq]

end Salt

end SealedDatagram
