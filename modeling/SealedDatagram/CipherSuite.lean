import SealedDatagram.Key
/-!
The primitives that packets and keys are built from. The rest of the library uses nothing of them
but the lengths of their results, so that whatever is said about packets, sessions and servers holds
for every suite.

Deriving keys is total here. HKDF with SHA-256 fails only for more than 8160 bytes and is asked for
32, and HMAC takes keys of any length, so that `CipherError.keyDerivation` is named with the other
causes and never arises.
-/

namespace SealedDatagram

/-- The cipher key and the tag key that one text key expands to. -/
structure Subkeys where
  cipher : Bytes
  mac : Bytes
  deriving DecidableEq, Repr

class CipherSuite where
  subkeys : (key : Bytes) → Subkeys
  keystream : (key nonce : Bytes) → (n : Nat) → Bytes
  length_keystream : ∀ key nonce n, (keystream key nonce n).length = n
  tag : (key message : Bytes) → Bytes
  length_tag : ∀ key message, (tag key message).length = 8
  publicKey : (secret : Bytes) → PublicKey
  sharedKey : (secret : Bytes) → PublicKey → SessionKey

attribute [simp] CipherSuite.length_keystream CipherSuite.length_tag

structure KeyPair where
  secret : Bytes
  publicKey : PublicKey
  deriving DecidableEq

namespace KeyPair

variable [CipherSuite]

def ofSecret (secret : Bytes) : KeyPair := ⟨secret, CipherSuite.publicKey secret⟩

def sharedKey (k : KeyPair) (peer : PublicKey) : SessionKey := CipherSuite.sharedKey k.secret peer

end KeyPair

def KeyPair.shown (k : KeyPair) : String :=
  "KeyPair \x7b public: \"" ++ k.publicKey.bytes.toHex ++ "\", .. \x7d"

end SealedDatagram
