import SealedDatagram.Config
import SealedDatagram.Env
import SealedDatagram.Packet.Encode
import SealedDatagram.SaltWindow
import SealedDatagram.SocketAddress
import SealedDatagram.Table
/-!
The table of sessions that a server keeps, by peer address, with an index from the salts this side
has issued to the peer each was issued to. A salt names a session only for its own peer and only
while it is among the last eight issued to it. Idle sessions expire, but are only found to have
expired by a look-up of theirs or by a sweep.
-/

namespace SealedDatagram

/-- What Auth establishes. -/
structure NewSession where
  peer : SocketAddress
  publicKey : PublicKey
  key : SessionKey
  /-- The salt in the client's Auth; the next packet to the client is sealed under it. -/
  peerSalt : Salt
  /-- The salt sent back in Htua; the client's first Data comes under it. -/
  ownSalt : Salt
  deriving DecidableEq

structure Session where
  key : SessionKey
  publicKey : PublicKey
  /-- The salt of the Auth that created this session. -/
  authSalt : Salt
  /-- The salt received last; the next packet to the peer is sealed under it. -/
  peerSalt : Salt
  /-- The salts issued to the peer, oldest first. -/
  issued : List Salt
  window : SaltWindow
  lastSeen : Nat
  deriving DecidableEq

structure SessionStore where
  sessions : Table SocketAddress Session := ∅
  /-- To whom a salt was issued. -/
  bySalt : Table Salt SocketAddress := ∅
  replayWindow : Nat
  maxSessions : Nat
  /-- Nanoseconds after which an idle session has expired. -/
  ttl : Nat

/-- How many issued salts a session may still be named by. -/
def issuedHistory : Nat := 8

/-- Whether a session has been idle for longer than `ttl`. -/
def Session.expired (ttl now : Nat) (e : Session) : Bool := ttl < now - e.lastSeen

namespace SessionStore

def ofConfig (c : SecurityConfig) : SessionStore where
  replayWindow := c.replayWindow.toNat
  maxSessions := c.maxSessions.toNat
  ttl := c.sessionTtl.nanos

def size (s : SessionStore) : Nat := s.sessions.size

def contains (s : SessionStore) (peer : SocketAddress) : Bool := s.sessions.contains peer

/-- The key a peer authenticated with. -/
def publicKey? (s : SessionStore) (peer : SocketAddress) : Option PublicKey :=
  (s.sessions.get? peer).map (·.publicKey)

/-- Removes a salt from the index if it was issued to this peer. -/
def dropSalt (s : SessionStore) (peer : SocketAddress) (salt : Salt) : SessionStore :=
  if s.bySalt.get? salt = some peer then { s with bySalt := s.bySalt.erase salt } else s

/-- Removes the session of a peer and the salts that name it. -/
def forget (s : SessionStore) (peer : SocketAddress) : SessionStore :=
  match s.sessions.get? peer with
  | none => s
  | some e => e.issued.foldl (fun s salt => s.dropSalt peer salt)
      { s with sessions := s.sessions.erase peer }

/-- The peers whose sessions have expired. -/
def expiredPeers (s : SessionStore) (now : Nat) : List SocketAddress :=
  (s.sessions.entries.filter fun e => e.2.expired s.ttl now).map Prod.fst

/-- Forgets every expired session. -/
def sweep (s : SessionStore) (now : Nat) : SessionStore :=
  (s.expiredPeers now).foldl forget s

/-- Lets a peer know one more salt; beyond the history the oldest stops naming its session. -/
def issue (s : SessionStore) (peer : SocketAddress) (salt : Salt) : SessionStore :=
  match s.sessions.get? peer with
  | none => s
  | some e =>
    let all := e.issued ++ [salt]
    let full := decide (issuedHistory < all.length)
    let issued := if full then all.drop 1 else all
    let s := { s with
      sessions := s.sessions.insert peer { e with issued }
      bySalt := s.bySalt.insert salt peer }
    match all with
    | oldest :: _ => if full then s.dropSalt peer oldest else s
    | [] => s

inductive Registration where
  | accepted
  | replayed
  | full
  | outOfMemory
  deriving DecidableEq, Repr

/-- Puts a session in place of whatever the peer had, with the given window. -/
def establish (s : SessionStore) (now : Nat) (n : NewSession) (window : SaltWindow) :
    SessionStore :=
  let s := s.forget n.peer
  let s := { s with
    sessions := s.sessions.insert n.peer
      { key := n.key, publicKey := n.publicKey, authSalt := n.peerSalt, peerSalt := n.peerSalt,
        issued := [], window, lastSeen := now } }
  s.issue n.peer n.ownSalt

/-- Registers a session. Expired sessions are swept first. A salt that the peer's live session has
seen is a replay; a replacement keeps the window, so that what was seen stays refused. A peer
without a live session gets a new window, for which there has to be memory. -/
def register (s : SessionStore) (m : Memory) (now : Nat) (n : NewSession) :
    Registration × SessionStore :=
  let s := s.sweep now
  match s.sessions.get? n.peer with
  | some e =>
    if e.authSalt = n.peerSalt then (.replayed, s)
    else
      match e.window.accept n.peerSalt with
      | (false, _) => (.replayed, s)
      | (true, window) => (.accepted, s.establish now n window)
  | none =>
    let window := SaltWindow.ofCapacity s.replayWindow
    if s.maxSessions ≤ s.size then (.full, s)
    else if window.fits m then (.accepted, s.establish now n (window.accept n.peerSalt).2)
    else (.outOfMemory, s)

/-- The key for a packet from a peer under a header salt, which marks the session as seen. The
session is forgotten if it has expired. -/
def lookup (s : SessionStore) (now : Nat) (peer : SocketAddress) (header : Salt) :
    Option SessionKey × SessionStore :=
  if s.bySalt.get? header = some peer then
    match s.sessions.get? peer with
    | none => (none, s)
    | some e =>
      if e.expired s.ttl now then (none, s.forget peer)
      else (some e.key,
        { s with sessions := s.sessions.insert peer { e with lastSeen := now } })
  else (none, s)

inductive Rolling where
  | accepted
  | replayed
  | unknownPeer
  deriving DecidableEq, Repr

/-- Takes the salt in an opened packet as the one to seal the next packet to the peer under. -/
def update (s : SessionStore) (now : Nat) (peer : SocketAddress) (next : Salt) :
    Rolling × SessionStore :=
  match s.sessions.get? peer with
  | none => (.unknownPeer, s)
  | some e =>
    match e.window.accept next with
    | (false, _) => (.replayed, s)
    | (true, window) => (.accepted,
      { s with
        sessions := s.sessions.insert peer { e with window, peerSalt := next, lastSeen := now } })

def remove (s : SessionStore) (peer : SocketAddress) : Bool × SessionStore :=
  (s.contains peer, s.forget peer)

def clear (s : SessionStore) : SessionStore := { s with sessions := ∅, bySalt := ∅ }

def purge (s : SessionStore) (now : Nat) : Nat × SessionStore :=
  ((s.expiredPeers now).length, s.sweep now)

/-- Without memory for the window of a new session nothing goes on. -/
def registerStep (n : NewSession) : Attempt SessionStore Bool := do
  let (r, s) := SessionStore.register (← getState) (← getMemory) (← getNow) n
  setState s
  match r with
  | .accepted => return true
  | .full => return false
  | .replayed =>
    count Metrics.replayRejected
    return false
  | .outOfMemory =>
    halt
    throw .outOfMemory

def lookupStep (peer : SocketAddress) (header : Salt) :
    Action SessionStore (Option SessionKey) := do
  let (k, s) := (← getState).lookup (← getNow) peer header
  setState s
  return k

def updateStep (peer : SocketAddress) (next : Salt) : Action SessionStore Bool := do
  let (r, s) := (← getState).update (← getNow) peer next
  setState s
  if r = .replayed then count Metrics.replayRejected
  return r = .accepted

/-- A Data packet to a peer, sealed under the salt received from it last; the salt in it is issued
to the peer. The salt is drawn before the session is looked for. -/
def sealData [CipherSuite] (peer : SocketAddress) (payload : Bytes) :
    Attempt SessionStore Bytes := do
  let ownSalt ← drawSalt
  match (← getState).sessions.get? peer with
  | none => throw (.session .unknownSalt)
  | some e =>
    let b ← (Data.mk ownSalt payload).encode e.key e.peerSalt
    modifyState (·.issue peer ownSalt)
    return b

end SessionStore

end SealedDatagram
