import SealedDatagram.Packet
import SealedDatagram.Seal
/-!
Writing packets: the tag of the kind, a public key where the kind has one, and the sealed body. Only
sizes that the reader would refuse, and a random source without a pad to give, make writing fail.
-/

namespace SealedDatagram

def PublicKey.field (k : PublicKey) : Bytes := Field.blob k.bytes

def Salt.field (s : Salt) : Bytes := Field.blob s.bytes

def drawSalt {σ : Type} : Attempt σ Salt := do
  let ⟨b, h⟩ ← orCipher (draw Salt.size)
  return ⟨b, h⟩

/-- 32 random bytes for a new key, without which nothing goes on. -/
def drawKeyBytes {σ : Type} : Attempt σ { b : Bytes // b.length = 32 } :=
  tryCatch (ExceptT.adapt (fun _ => Error.keyGeneration) (draw 32)) fun e => do
    halt
    throw e

def SessionKey.generate {σ : Type} : Attempt σ SessionKey := do
  let ⟨b, h⟩ ← drawKeyBytes
  return SessionKey.ofRaw b h

def KeyPair.generate [CipherSuite] {σ : Type} : Attempt σ KeyPair := do
  let ⟨b, _⟩ ← drawKeyBytes
  return KeyPair.ofSecret b

section
variable [CipherSuite] {σ : Type}

/-- Seals a body behind the tag of its kind and a prologue. -/
def PacketKind.packet (kind : PacketKind) (prologue body : Bytes) (key : SessionKey) (salt : Salt) :
    Attempt σ Bytes := do
  let s ← orCipher (Sealed.encrypt salt.bytes key.bytes body)
  return Field.word kind.tag ++ prologue ++ s.wire

def Hello.encode (p : Hello) : Bytes := Field.word PacketKind.hello.tag ++ p.publicKey.field

/-- A flag is a word that is zero or one. -/
def flag (b : Bool) : Bytes := Field.integer (if b then 1 else 0)

def Olleh.body (p : Olleh) : Bytes := flag p.info.needLogin ++ flag p.info.needPass

/-- Sealed under the key shared with the client. -/
def Olleh.encode (p : Olleh) (key : SessionKey) (salt : Salt) : Attempt σ Bytes :=
  PacketKind.olleh.packet p.info.publicKey.field p.body key salt

def Auth.body (p : Auth) : Bytes :=
  p.salt.field ++ Field.blob (Bytes.ofText p.credentials.login) ++
    Field.blob (Bytes.ofText p.credentials.pass) ++ Field.blob p.sessionKey.bytes

/-- Sealed under the key shared with the server; a login or password that is too long is refused. -/
def Auth.encode (p : Auth) (key : SessionKey) (salt : Salt) : Attempt σ Bytes := do
  if Credentials.maxSize < p.credentials.login.utf8ByteSize ∨
      Credentials.maxSize < p.credentials.pass.utf8ByteSize then
    throw (.codec .oversizedPayload)
  PacketKind.auth.packet p.publicKey.field p.body key salt

def Htua.body (p : Htua) : Bytes := p.salt.field

/-- Sealed under the session key that the client proposed. -/
def Htua.encode (p : Htua) (key : SessionKey) (salt : Salt) : Attempt σ Bytes :=
  PacketKind.htua.packet [] p.body key salt

def Data.body (p : Data) : Bytes := p.salt.field ++ Field.blob p.payload

/-- Sealed under the session key; a payload that is too long is refused. -/
def Data.encode (p : Data) (key : SessionKey) (salt : Salt) : Attempt σ Bytes := do
  if Data.maxPayload < p.payload.length then throw (.codec .oversizedPayload)
  PacketKind.data.packet [] p.body key salt

end

end SealedDatagram
