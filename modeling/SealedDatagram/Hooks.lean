import SealedDatagram.SessionStore
/-!
What a server asks of its owner. Every question is optional: one that is not answered is taken as
agreed to, except for the two without which nothing can be decrypted, the key derivation and the
session look-up, which are then refused.
-/

namespace SealedDatagram

structure Hooks (σ : Type) where
  validKey : Option (PublicKey → Action σ Bool) := none
  /-- May change what this one client is told, also when it turns the client away. -/
  hello : Option (SocketAddress → PublicKey → ServerInfo → Action σ (Bool × ServerInfo)) := none
  validCredentials : Option (SocketAddress → Credentials → Action σ Bool) := none
  deriveKey : Option (PublicKey → Attempt σ SessionKey) := none
  createSession : Option (NewSession → Attempt σ Bool) := none
  lookupSession : Option (SocketAddress → Salt → Action σ (Option SessionKey)) := none
  /-- Gets the header a packet came under and the salt in it. -/
  updateSession : Option (SocketAddress → Salt → Salt → Action σ Bool) := none
  data : Option (SocketAddress → Bytes → Action σ Unit) := none
  cleanup : Option (Action σ Unit) := none

namespace Hooks

variable {σ : Type}

/-- Asks a question that is agreed to if no one answers it. -/
def demand {α : Type} (hook : Option α) (ask : α → Attempt σ Bool) (e : Error) :
    Attempt σ Unit := do
  if let some f := hook then
    if !(← ask f) then throw e

def checkKey (h : Hooks σ) (k : PublicKey) : Attempt σ Unit :=
  demand h.validKey (fun f => f k) (.rejected .publicKey)

def advertise (h : Hooks σ) (peer : SocketAddress) (k : PublicKey) (info : ServerInfo) :
    Attempt σ ServerInfo := do
  match h.hello with
  | none => return info
  | some f =>
    let (accepted, info) ← f peer k info
    if accepted then return info else throw (.rejected .hello)

def checkCredentials (h : Hooks σ) (peer : SocketAddress) (c : Credentials) : Attempt σ Unit :=
  demand h.validCredentials (fun f => f peer c) (.rejected .credentials)

def derive (h : Hooks σ) (k : PublicKey) : Attempt σ SessionKey :=
  match h.deriveKey with
  | some f => f k
  | none => throw (.session .noKeyDerivation)

def create (h : Hooks σ) (n : NewSession) : Attempt σ Unit :=
  demand h.createSession (· n) (.rejected .session)

def lookup (h : Hooks σ) (peer : SocketAddress) (header : Salt) : Attempt σ SessionKey := do
  match h.lookupSession with
  | none => throw (.session .noSessionLookup)
  | some f =>
    match ← f peer header with
    | some k => return k
    | none => throw (.session .unknownSalt)

def update (h : Hooks σ) (peer : SocketAddress) (header next : Salt) : Attempt σ Unit :=
  demand h.updateSession (fun f => f peer header next) (.session .replayedSalt)

def deliver (h : Hooks σ) (peer : SocketAddress) (payload : Bytes) : Action σ Unit :=
  match h.data with
  | some f => f peer payload
  | none => pure ()

def finish (h : Hooks σ) : Action σ Unit := h.cleanup.getD (pure ())

def withKeyPair [CipherSuite] (h : Hooks σ) (pair : KeyPair) : Hooks σ :=
  { h with deriveKey := some fun peer => return pair.sharedKey peer }

/-- Sessions kept in a store that is a part of the state. -/
def withStore (h : Hooks σ) (part : σ → SessionStore) (put : SessionStore → σ → σ) : Hooks σ :=
  { h with
    createSession := some fun n => (SessionStore.registerStep n).within part put
    lookupSession := some fun peer header => (SessionStore.lookupStep peer header).within part put
    updateSession := some fun peer _ next => (SessionStore.updateStep peer next).within part put
    cleanup := some (Action.within part put (modifyState SessionStore.clear)) }

def shown (h : Hooks σ) : String :=
  "Callbacks \x7b valid_key: " ++ toString h.validKey.isSome ++
    ", hello: " ++ toString h.hello.isSome ++
    ", valid_creds: " ++ toString h.validCredentials.isSome ++
    ", derive_key: " ++ toString h.deriveKey.isSome ++
    ", session_create: " ++ toString h.createSession.isSome ++
    ", session_lookup: " ++ toString h.lookupSession.isSome ++
    ", session_update: " ++ toString h.updateSession.isSome ++
    ", data_arrival: " ++ toString h.data.isSome ++
    ", cleanup: " ++ toString h.cleanup.isSome ++ " \x7d"

end Hooks

end SealedDatagram
