import SealedDatagram.Client
import SealedDatagram.SocketAddress
/-!
A client session on a channel: it takes in what its server sends, hands payloads on, and lets the
application wait for a phase.
-/

namespace SealedDatagram

structure Endpoint where
  client : Client
  server : SocketAddress
  takesData : Bool := false
  deriving DecidableEq

namespace Endpoint

variable [CipherSuite]

def onClient {α : Type} (x : Attempt Client α) : Attempt Endpoint α :=
  ExceptT.mk (Action.within (·.client) (fun client e => { e with client }) x.run)

/-- Handles one datagram. What does not come from the server is dropped; the answer is the payload
that the application gets. -/
def handle (b : Bytes) (peer : SocketAddress) : Action Endpoint (Option Bytes) := do
  let e : Endpoint ← getState
  if peer ≠ e.server then
    dropped (.session .peerMismatch)
    return none
  match ← (onClient (Client.receive b)).run with
  | .error fault =>
    dropped fault
    return none
  | .ok none => return none
  | .ok (some payload) =>
    count Metrics.delivered
    return if e.takesData then some payload else none

/-- What waiting for a phase ends in when its time is over. -/
def waitFor (e : Endpoint) (target : Phase) : Except Error Unit :=
  if e.client.phase.reached target then .ok () else .error .timeout

end Endpoint

namespace Phase

def name : Phase → String
  | .unauthenticated => "Unauthenticated"
  | .keyExchanged => "KeyExchanged"
  | .authenticated => "Authenticated"
  | .streaming => "Streaming"

def ofName? (s : String) : Option Phase :=
  [unauthenticated, keyExchanged, authenticated, streaming].find? (·.name == s)

end Phase

def Endpoint.shown (e : Endpoint) : String :=
  "ClientHandler \x7b server: " ++ e.server.toText ++ ", state: " ++ e.client.phase.name ++
    ", on_data: " ++ toString e.takesData ++ " \x7d"

end SealedDatagram
