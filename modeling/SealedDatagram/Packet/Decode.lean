import SealedDatagram.Packet.Encode
/-!
Reading packets, in three stages that never mix: the part in clear down to the frame of the sealed
body, the key for it, and the fields of the opened body. The key is asked for once, and only for a
packet whose clear part is well formed.
-/

namespace SealedDatagram

/-- A sealed body as it lies at the end of a packet. -/
structure Frame where
  header : Salt
  ciphertext : Bytes
  footer : Bytes
  deriving DecidableEq

namespace Frame

/-- Eight bytes of header, eight of footer, and between them the ciphertext. -/
def ofBytes? (b : Bytes) : Option Frame :=
  if h : 16 ≤ b.length then
    some ⟨⟨b.take 8, by rw [List.length_take]; omega⟩, (b.drop 8).take (b.length - 16),
      b.drop (b.length - 8)⟩
  else none

def read : Reader Frame := do
  match ofBytes? (← Reader.rest) with
  | some f => return f
  | none => Reader.fault .missingFrame

def sealed (f : Frame) : Sealed := ⟨f.header.bytes, f.ciphertext, f.footer⟩

/-- The plaintext of the body under a key. -/
def plain [CipherSuite] (f : Frame) (key : SessionKey) : Except Error Bytes :=
  (Sealed.decrypt key.bytes f.sealed).mapError .cipher

end Frame

namespace Reader

def publicKey : Reader PublicKey := do
  let ⟨b, h⟩ ← fixed 32 .badPublicKey
  return ⟨b, h⟩

def salt : Reader Salt := do
  let ⟨b, h⟩ ← fixed Salt.size .badSalt
  return ⟨b, h⟩

/-- A flag counts as set unless its word is zero. -/
def flag : Reader Bool := return (← integer) != 0

def sessionKey : Reader SessionKey := do SessionKey.ofText (← text 64)

end Reader

section
variable [CipherSuite] {m : Type → Type} [Monad m]

def Hello.read : Reader Hello := do
  PacketKind.hello.expect
  let publicKey ← Reader.publicKey
  Reader.finish
  return ⟨publicKey⟩

def Hello.decode (b : Bytes) : Except Error Hello := Hello.read.parse b

/-- The part in clear of a packet with a public key. -/
def PacketKind.keyedFrame (kind : PacketKind) : Reader (PublicKey × Frame) := do
  kind.expect
  let publicKey ← Reader.publicKey
  return (publicKey, ← Frame.read)

/-- The part in clear of a packet without one. -/
def PacketKind.bareFrame (kind : PacketKind) : Reader Frame := do
  kind.expect
  Frame.read

def Olleh.readBody (publicKey : PublicKey) : Reader Olleh := do
  let needLogin ← Reader.flag
  let needPass ← Reader.flag
  Reader.finish
  return ⟨publicKey, needLogin, needPass⟩

def Olleh.ofFrame (publicKey : PublicKey) (f : Frame) (key : SessionKey) :
    Except Error (Received Olleh) := do
  return ⟨f.header, ← (Olleh.readBody publicKey).parse (← f.plain key)⟩

def Olleh.decode (b : Bytes) (keyFor : PublicKey → ExceptT Error m SessionKey) :
    ExceptT Error m (Received Olleh) := do
  let (publicKey, f) ← PacketKind.olleh.keyedFrame.parse b
  let key ← keyFor publicKey
  Olleh.ofFrame publicKey f key

def Auth.readBody (publicKey : PublicKey) : Reader Auth := do
  let salt ← Reader.salt
  let login ← Reader.text Credentials.maxSize
  let pass ← Reader.text Credentials.maxSize
  let sessionKey ← Reader.sessionKey
  Reader.finish
  return ⟨publicKey, salt, ⟨login, pass⟩, sessionKey⟩

def Auth.ofFrame (publicKey : PublicKey) (f : Frame) (key : SessionKey) :
    Except Error (Received Auth) := do
  return ⟨f.header, ← (Auth.readBody publicKey).parse (← f.plain key)⟩

def Auth.decode (b : Bytes) (keyFor : PublicKey → ExceptT Error m SessionKey) :
    ExceptT Error m (Received Auth) := do
  let (publicKey, f) ← PacketKind.auth.keyedFrame.parse b
  let key ← keyFor publicKey
  Auth.ofFrame publicKey f key

def Htua.readBody : Reader Htua := do
  let salt ← Reader.salt
  Reader.finish
  return ⟨salt⟩

def Htua.ofFrame (f : Frame) (key : SessionKey) : Except Error (Received Htua) := do
  return ⟨f.header, ← Htua.readBody.parse (← f.plain key)⟩

/-- Reads an Htua under the key it must be sealed with. -/
def Htua.decode (b : Bytes) (key : SessionKey) : Except Error (Received Htua) := do
  Htua.ofFrame (← PacketKind.htua.bareFrame.parse b) key

def Data.readBody : Reader Data := do
  let salt ← Reader.salt
  let payload ← Reader.blob Data.maxPayload
  Reader.finish
  return ⟨salt, payload⟩

def Data.ofFrame (f : Frame) (key : SessionKey) : Except Error (Received Data) := do
  return ⟨f.header, ← Data.readBody.parse (← f.plain key)⟩

/-- Reads a Data packet, asking for the key of the session that its header salt names. -/
def Data.decode (b : Bytes) (keyFor : Salt → ExceptT Error m SessionKey) :
    ExceptT Error m (Received Data) := do
  let f ← PacketKind.data.bareFrame.parse b
  let key ← keyFor f.header
  Data.ofFrame f key

end

end SealedDatagram
