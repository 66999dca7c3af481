import SealedDatagram.Packet.Decode
import SealedDatagram.SaltWindow
import SealedDatagram.Env
/-!
The client's side of a session: it makes the packets to send and takes in the packets received, and
leaves the sending to others. The phases of a session only ever go forward.
-/

namespace SealedDatagram

inductive Phase where
  | unauthenticated
  | keyExchanged
  | authenticated
  | streaming
  deriving DecidableEq, Repr

namespace Phase

def rank : Phase → Nat
  | .unauthenticated => 0
  | .keyExchanged => 1
  | .authenticated => 2
  | .streaming => 3

def reached (p target : Phase) : Bool := target.rank ≤ p.rank

end Phase

structure Client where
  keyPair : KeyPair
  /-- The only server key to accept, if it is known beforehand. -/
  pinned : Option PublicKey := none
  phase : Phase := .unauthenticated
  server : Option ServerInfo := none
  /-- The key that Auth is sealed with. -/
  sharedKey : Option SessionKey := none
  /-- The key proposed last. -/
  sessionKey : Option SessionKey := none
  /-- The salt received last: the next packet is sealed under it. -/
  peerSalt : Option Salt := none
  /-- The salts issued to the server, oldest first. -/
  issued : List Salt := []
  window : SaltWindow := .standard
  deriving DecidableEq

namespace Client

/-- How many issued salts the server may still seal a packet under. -/
def issuedHistory : Nat := 8

/-- Remembers a salt as issued; beyond the history the oldest is forgotten. -/
def issue (c : Client) (salt : Salt) : Client :=
  let all := c.issued ++ [salt]
  { c with issued := if issuedHistory < all.length then all.drop 1 else all }

def require (allowed : List Phase) : Attempt Client Unit := do
  let c : Client ← getState
  if c.phase ∈ allowed then return () else throw (.session .wrongState)

/-- Refuses a header salt that was not issued, or too long ago. -/
def checkIssued (header : Salt) : Attempt Client Unit := do
  let c : Client ← getState
  if header ∈ c.issued then return () else throw (.session .unknownSalt)

/-- The key and the salt to seal with; `missing` says that there are none. -/
def sealing (key : Option SessionKey) (salt : Option Salt) (missing : SessionFault) :
    Attempt Client (SessionKey × Salt) :=
  match key, salt with
  | some k, some s => return (k, s)
  | _, _ => throw (.session missing)

def hello : Attempt Client Bytes := do
  require [.unauthenticated]
  let c : Client ← getState
  return (Hello.mk c.keyPair.publicKey).encode

/-- Whether a server key is the pinned one, if one is pinned. -/
def pinHolds (c : Client) (k : PublicKey) : Bool :=
  match c.pinned with
  | some p => p.same k
  | none => true

section
variable [CipherSuite]

def takeOlleh (b : Bytes) : Attempt Client ServerInfo := do
  require [.unauthenticated]
  let received ← Olleh.decode b fun k => do
    let c : Client ← getState
    if c.pinHolds k then return c.keyPair.sharedKey k else throw (.session .serverKeyMismatch)
  let info := received.packet.info
  modifyState fun c : Client => { c with
    sharedKey := some (c.keyPair.sharedKey info.publicKey)
    server := some info
    peerSalt := some received.header
    phase := .keyExchanged }
  return info

/-- An Auth that proposes a session key. It may be made again before the Htua comes; the proposal
made last is the one that counts. -/
def authWithKey (credentials : Credentials) (sessionKey : SessionKey) : Attempt Client Bytes := do
  require [.keyExchanged]
  let c : Client ← getState
  let (shared, peerSalt) ← sealing c.sharedKey c.peerSalt .wrongState
  let salt ← drawSalt
  let b ← (Auth.mk c.keyPair.publicKey salt credentials sessionKey).encode shared peerSalt
  modifyState fun c : Client => { c with sessionKey := some sessionKey }.issue salt
  return b

/-- An Auth that proposes a fresh session key, which is drawn before anything is checked. -/
def auth (credentials : Credentials) : Attempt Client Bytes := do
  authWithKey credentials (← SessionKey.generate)

/-- Takes in the server's Htua: it must open under the proposed key, name an issued salt and bring
a fresh one. -/
def takeHtua (b : Bytes) : Attempt Client Unit := do
  require [.keyExchanged]
  let c : Client ← getState
  let some key := c.sessionKey | throw (.session .emptySessionKey)
  let received ← Htua.decode b key
  checkIssued received.header
  let (fresh, window) := c.window.accept received.packet.salt
  if !fresh then throw (.session .replayedSalt)
  modifyState fun c : Client => { c with
    window, peerSalt := some received.packet.salt, phase := .authenticated }

def sealData (payload : Bytes) : Attempt Client Bytes := do
  require [.authenticated, .streaming]
  let c : Client ← getState
  let (key, peerSalt) ← sealing c.sessionKey c.peerSalt .emptySessionKey
  let salt ← drawSalt
  let b ← (Data.mk salt payload).encode key peerSalt
  modifyState fun c : Client => { c.issue salt with phase := .streaming }
  return b

def openData (b : Bytes) : Attempt Client Bytes := do
  require [.authenticated, .streaming]
  let c : Client ← getState
  let some key := c.sessionKey | throw (.session .emptySessionKey)
  let received ← Data.decode b fun header => do
    checkIssued header
    return key
  let (fresh, window) := c.window.accept received.packet.salt
  if !fresh then
    count Metrics.replayRejected
    throw (.session .replayedSalt)
  modifyState fun c : Client => { c with
    window, peerSalt := some received.packet.salt, phase := .streaming }
  return received.packet.payload

/-- Takes in a packet of any kind; the answer is the payload, if it was Data. -/
def receive (b : Bytes) : Attempt Client (Option Bytes) := do
  match ← PacketKind.peek b with
  | .olleh => do
    let _ ← takeOlleh b
    return none
  | .htua => do
    takeHtua b
    return none
  | .data => return some (← openData b)
  | kind => throw (.packetType kind.tag)

end

end Client

end SealedDatagram
