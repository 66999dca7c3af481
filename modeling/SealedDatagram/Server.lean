import SealedDatagram.Hooks
import SealedDatagram.Packet.Decode
/-!
The server's side of the handshake. A datagram is answered, delivered or dropped, and each of these
is counted once; nothing is sent back for a datagram that fails.
-/

namespace SealedDatagram

structure Server (σ : Type) where
  info : ServerInfo
  hooks : Hooks σ

namespace Server

variable {σ : Type}

/-- A server that asks of its clients what its configuration says. -/
def ofConfig (key : PublicKey) (c : SecurityConfig) (hooks : Hooks σ) : Server σ :=
  ⟨⟨key, c.needLogin, c.needPass⟩, hooks⟩

variable [CipherSuite]

/-- Answers a Hello with what the hooks make of the server's own information. -/
def answerHello (s : Server σ) (b : Bytes) (peer : SocketAddress) : Attempt σ Bytes := do
  let hello ← Hello.decode b
  s.hooks.checkKey hello.publicKey
  let info ← s.hooks.advertise peer hello.publicKey s.info
  let key ← s.hooks.derive hello.publicKey
  let salt ← drawSalt
  let reply ← (Olleh.mk info).encode key salt
  count Metrics.helloAnswered
  return reply

/-- Whether credentials leave out what the server's own information asks for. -/
def lacks (info : ServerInfo) (c : Credentials) : Bool :=
  (info.needLogin && c.login.isEmpty) || (info.needPass && c.pass.isEmpty)

/-- Answers an Auth: the session is registered before the Htua for it is sealed. -/
def answerAuth (s : Server σ) (b : Bytes) (peer : SocketAddress) : Attempt σ Bytes := do
  let received ← Auth.decode b fun k => do
    s.hooks.checkKey k
    s.hooks.derive k
  let auth := received.packet
  if lacks s.info auth.credentials then throw (.rejected .credentials)
  s.hooks.checkCredentials peer auth.credentials
  let ownSalt ← drawSalt
  s.hooks.create
    { peer, publicKey := auth.publicKey, key := auth.sessionKey, peerSalt := auth.salt, ownSalt }
  let reply ← (Htua.mk ownSalt).encode auth.sessionKey auth.salt
  count Metrics.sessionEstablished
  return reply

def openData (s : Server σ) (b : Bytes) (peer : SocketAddress) : Attempt σ (Received Data) :=
  Data.decode b (s.hooks.lookup peer)

def roll (s : Server σ) (peer : SocketAddress) (r : Received Data) : Attempt σ Unit :=
  s.hooks.update peer r.header r.packet.salt

def handOn (s : Server σ) (peer : SocketAddress) (d : Data) : Attempt σ Unit := do
  s.hooks.deliver peer d.payload
  count Metrics.delivered

/-- Delivers a Data packet once its salt has been accepted. -/
def acceptData (s : Server σ) (b : Bytes) (peer : SocketAddress) : Attempt σ Unit := do
  let received ← s.openData b peer
  s.roll peer received
  s.handOn peer received.packet

/-- Handles one datagram; the answer is the reply to send, if there is one. -/
def process (s : Server σ) (b : Bytes) (peer : SocketAddress) : Attempt σ (Option Bytes) := do
  match ← PacketKind.peek b with
  | .hello => return some (← s.answerHello b peer)
  | .auth => return some (← s.answerAuth b peer)
  | .data => do
    s.acceptData b peer
    return none
  | kind => throw (.packetType kind.tag)

/-- Handles one datagram; one that fails is dropped, unless the failure ends everything. The answer
is the reply to send. -/
def answer (s : Server σ) (b : Bytes) (peer : SocketAddress) : Action σ (Option Bytes) := do
  match ← (s.process b peer).run with
  | .ok reply => return reply
  | .error e =>
    unless e.isFatal do dropped e
    return none

/-- Handles one datagram from a channel, to whose socket `send` sends a reply. -/
def handle (s : Server σ) (send : Bytes → SocketAddress → Action σ Unit) (b : Bytes)
    (peer : SocketAddress) : Action σ Unit := do
  match ← s.answer b peer with
  | some reply => send reply peer
  | none => pure ()

end Server

end SealedDatagram
