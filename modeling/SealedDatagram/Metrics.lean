/-!
Counters of the receive pipeline and the handshake. Every counter is a 64-bit word and wraps.
-/

namespace SealedDatagram

structure Metrics where
  datagramsReceived : UInt64 := 0
  bytesReceived : UInt64 := 0
  datagramsDropped : UInt64 := 0
  datagramsEvicted : UInt64 := 0
  datagramsSent : UInt64 := 0
  bytesSent : UInt64 := 0
  hellosAnswered : UInt64 := 0
  sessionsEstablished : UInt64 := 0
  handshakesRejected : UInt64 := 0
  cipherFailures : UInt64 := 0
  dataDelivered : UInt64 := 0
  replaysRejected : UInt64 := 0
  deriving DecidableEq, Repr

namespace Metrics

def datagramReceived (n : UInt64) (m : Metrics) : Metrics :=
  { m with
    datagramsReceived := m.datagramsReceived + 1
    bytesReceived := m.bytesReceived + n }

def datagramDropped (m : Metrics) : Metrics :=
  { m with datagramsDropped := m.datagramsDropped + 1 }

def datagramEvicted (m : Metrics) : Metrics :=
  { m with datagramsEvicted := m.datagramsEvicted + 1 }

def datagramSent (n : UInt64) (m : Metrics) : Metrics :=
  { m with datagramsSent := m.datagramsSent + 1, bytesSent := m.bytesSent + n }

def helloAnswered (m : Metrics) : Metrics :=
  { m with hellosAnswered := m.hellosAnswered + 1 }

def sessionEstablished (m : Metrics) : Metrics :=
  { m with sessionsEstablished := m.sessionsEstablished + 1 }

def handshakeRejected (m : Metrics) : Metrics :=
  { m with handshakesRejected := m.handshakesRejected + 1 }

def cipherFailure (m : Metrics) : Metrics :=
  { m with cipherFailures := m.cipherFailures + 1 }

def delivered (m : Metrics) : Metrics :=
  { m with dataDelivered := m.dataDelivered + 1 }

def replayRejected (m : Metrics) : Metrics :=
  { m with replaysRejected := m.replaysRejected + 1 }

/-- How far every counter moved from `a` to `b`, wrapping. -/
def since (a b : Metrics) : Metrics where
  datagramsReceived := b.datagramsReceived - a.datagramsReceived
  bytesReceived := b.bytesReceived - a.bytesReceived
  datagramsDropped := b.datagramsDropped - a.datagramsDropped
  datagramsEvicted := b.datagramsEvicted - a.datagramsEvicted
  datagramsSent := b.datagramsSent - a.datagramsSent
  bytesSent := b.bytesSent - a.bytesSent
  hellosAnswered := b.hellosAnswered - a.hellosAnswered
  sessionsEstablished := b.sessionsEstablished - a.sessionsEstablished
  handshakesRejected := b.handshakesRejected - a.handshakesRejected
  cipherFailures := b.cipherFailures - a.cipherFailures
  dataDelivered := b.dataDelivered - a.dataDelivered
  replaysRejected := b.replaysRejected - a.replaysRejected

def counters (m : Metrics) : List (String × UInt64) :=
  [("datagrams_received", m.datagramsReceived), ("bytes_received", m.bytesReceived),
    ("datagrams_dropped", m.datagramsDropped), ("datagrams_evicted", m.datagramsEvicted),
    ("datagrams_sent", m.datagramsSent), ("bytes_sent", m.bytesSent),
    ("hellos_answered", m.hellosAnswered), ("sessions_established", m.sessionsEstablished),
    ("handshakes_rejected", m.handshakesRejected), ("crypto_failures", m.cipherFailures),
    ("data_delivered", m.dataDelivered), ("replays_rejected", m.replaysRejected)]

end Metrics

end SealedDatagram
