import SealedDatagram.CipherSuite
import SealedDatagram.Hash.Hmac
import SealedDatagram.Cipher.ChaCha20
/-!
The suite in use: XChaCha20, HMAC-SHA256 cut to eight bytes, subkeys by HMAC expansion, and keys
agreed on Curve25519 whose shared point is used only through its digest.
-/

namespace SealedDatagram

namespace CipherSuite.Standard

def cipherPurpose : Bytes := Bytes.ofText "secure-datagram/v1/enc"

def macPurpose : Bytes := Bytes.ofText "secure-datagram/v1/mac"

def subkeys (key : Bytes) : Subkeys :=
  let root := Hmac.extract key
  ⟨Hmac.expand root cipherPurpose, Hmac.expand root macPurpose⟩

end CipherSuite.Standard

instance CipherSuite.standard : CipherSuite where
  subkeys := Standard.subkeys
  keystream := ChaCha20.keystream
  length_keystream := ChaCha20.length_keystream
  tag key message := (Hmac.mac key message).take 8
  length_tag key message := by rw [List.length_take, Hmac.length_mac]; rfl
  publicKey secret := ⟨X25519.publicKey secret, Bytes.length_ofNatLE 32 _⟩
  sharedKey secret peer := SessionKey.ofRaw (Sha256.digest (X25519.exchange secret peer.bytes))
    (Sha256.length_digest _)

end SealedDatagram
