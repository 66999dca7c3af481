import SealedDatagram.Hash.Sha256
/-!
Keyed digests over SHA-256: the HMAC of a message under a key, and the derivation of further keys
from one (extract and expand) that is built on it.
-/

namespace SealedDatagram.Hmac

def blockSize : Nat := 64

/-- A key of exactly one block: a long key is digested, a short one filled up with zeros. -/
def blockKey (key : Bytes) : Bytes :=
  let k := if blockSize < key.length then Sha256.digest key else key
  k ++ List.replicate (blockSize - k.length) 0

def mac (key message : Bytes) : Bytes :=
  let k := blockKey key
  Sha256.digest (k.map (· ^^^ 0x5c) ++ Sha256.digest (k.map (· ^^^ 0x36) ++ message))

@[simp] theorem length_mac (key message : Bytes) : (mac key message).length = 32 := rfl

def extract (material : Bytes) : Bytes := mac (List.replicate 32 0) material

/-- One block of key for a purpose. -/
def expand (key purpose : Bytes) : Bytes := mac key (purpose ++ [1])

end SealedDatagram.Hmac
