import SealedDatagram.CipherSuite
import SealedDatagram.Env
import SealedDatagram.Salt
/-!
Authenticated encryption of one packet body. Four random bytes are put in front of the plaintext;
the footer is the tag of the header and that padded text, and the nonce of the keystream is the
header and the footer, so that a salt used twice repeats a keystream only for the same padded text.
Lengths are checked before any primitive runs.
-/

namespace SealedDatagram

/-- A sealed body: the salt it was sealed under, the ciphertext and the tag. -/
structure Sealed where
  header : Bytes
  ciphertext : Bytes
  footer : Bytes
  deriving DecidableEq, Repr

namespace Sealed

def headerSize : Nat := 8

def footerSize : Nat := 8

def padSize : Nat := 4

def maxPlaintext : Nat := 65200

def wire (s : Sealed) : Bytes := s.header ++ s.ciphertext ++ s.footer

def wireSize (s : Sealed) : Nat := headerSize + s.ciphertext.length + footerSize

end Sealed

section
variable [CipherSuite]

namespace Subkeys

def nonce (header footer : Bytes) : Bytes := header ++ footer ++ List.replicate 8 0

/-- Encrypts, and decrypts: the keystream for a header and a footer, added bit by bit. -/
def cover (k : Subkeys) (header footer text : Bytes) : Bytes :=
  Bytes.xor text (CipherSuite.keystream k.cipher (nonce header footer) text.length)

/-- The footer of a padded text under a header. -/
def footer (k : Subkeys) (header padded : Bytes) : Bytes :=
  CipherSuite.tag k.mac (header ++ padded)

def sealWith (k : Subkeys) (salt pad plaintext : Bytes) : Sealed :=
  let padded := pad ++ plaintext
  let footer := k.footer salt padded
  ⟨salt, k.cover salt footer padded, footer⟩

/-- Seals a plaintext under a salt with a pad drawn for it. -/
def sealBody {σ : Type} (k : Subkeys) (salt plaintext : Bytes) : Fallible CipherError σ Sealed := do
  if salt.length ≠ Salt.size then throw (.saltLength salt.length)
  if Sealed.maxPlaintext < plaintext.length then throw (.oversizedData plaintext.length)
  return k.sealWith salt (← draw Sealed.padSize) plaintext

/-- Opens a body if its footer is the tag of what it decrypts to. -/
def openBody (k : Subkeys) (s : Sealed) : Except CipherError Bytes :=
  if s.header.length ≠ Sealed.headerSize then .error (.headerLength s.header.length)
  else if s.footer.length ≠ Sealed.footerSize then .error (.footerLength s.footer.length)
  else if s.ciphertext.length < Sealed.padSize then
    .error (.ciphertextTooShort s.ciphertext.length)
  else if Sealed.padSize + Sealed.maxPlaintext < s.ciphertext.length then
    .error (.oversizedData (s.ciphertext.length - Sealed.padSize))
  else
    let padded := k.cover s.header s.footer s.ciphertext
    if k.footer s.header padded = s.footer then .ok (padded.drop Sealed.padSize)
    else .error .tagMismatch

/-- A key must have 12 to 64 bytes; an empty one is refused in words of its own. -/
def checkKey (key : Bytes) : Except CipherError Unit :=
  if key.isEmpty then .error .emptyKey
  else if key.length < 12 ∨ 64 < key.length then .error (.keyLength key.length)
  else .ok ()

/-- The subkeys of a key of 12 to 64 bytes. -/
def ofKey (key : Bytes) : Except CipherError Subkeys := do
  checkKey key
  return CipherSuite.subkeys key

end Subkeys

namespace Sealed

/-- Seals under a text key. Salt, key and plaintext are checked, in this order, before the key is
expanded or a pad drawn. -/
def encrypt {σ : Type} (salt key plaintext : Bytes) : Fallible CipherError σ Sealed := do
  if salt.length ≠ Salt.size then throw (.saltLength salt.length)
  Subkeys.checkKey key
  if maxPlaintext < plaintext.length then throw (.oversizedData plaintext.length)
  (CipherSuite.subkeys key).sealBody salt plaintext

/-- Opens under a text key. The key, the header, the footer and the least size of the ciphertext
are checked, in this order, before the key is expanded. -/
def decrypt (key : Bytes) (s : Sealed) : Except CipherError Bytes := do
  Subkeys.checkKey key
  if s.header.length ≠ headerSize then throw (.headerLength s.header.length)
  if s.footer.length ≠ footerSize then throw (.footerLength s.footer.length)
  if s.ciphertext.length < padSize then throw (.ciphertextTooShort s.ciphertext.length)
  (CipherSuite.subkeys key).openBody s

end Sealed

end

end SealedDatagram
