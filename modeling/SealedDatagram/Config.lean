import SealedDatagram.Duration
import SealedDatagram.LogLevel
/-!
The configuration of a channel, its worker pool, the handshake policy and logging, with defaults
for everything.
-/

namespace SealedDatagram

structure ChannelConfig where
  /-- The address to bind; port zero lets the host choose one. -/
  address : String := "127.0.0.1:0"
  /-- How long the receiver waits for a datagram before it looks whether to stop. -/
  pollTimeout : Duration := .ofSeconds 1
  bufferCapacity : UInt64 := 64
  /-- Bytes per slot; a longer datagram is cut. -/
  slotSize : UInt64 := 65536
  debugDrops : Bool := false
  deriving DecidableEq, Repr

structure PoolConfig where
  minWorkers : UInt64 := 1
  maxWorkers : UInt64 := 8
  /-- How long a worker waits for a signal before it counts an idle attempt. -/
  waitTimeout : Duration := .ofMillis 500
  /-- Idle attempts in a row after which a surplus worker retires. -/
  maxIdleAttempts : UInt32 := 10
  /-- How many signals may wait before a woken worker starts another. -/
  backlogThreshold : UInt64 := 2
  /-- How long stopping waits for the workers. -/
  shutdownTimeout : Duration := .ofSeconds 5
  deriving DecidableEq, Repr

/-- What a server asks of its clients, and how it remembers them. -/
structure SecurityConfig where
  needLogin : Bool := false
  needPass : Bool := false
  /-- Salts remembered per session; none turns the replay check off. -/
  replayWindow : UInt64 := 64
  sessionTtl : Duration := .ofSeconds 600
  maxSessions : UInt64 := 65536
  deriving DecidableEq, Repr

structure LoggingConfig where
  appName : String := "secure-datagram"
  logLevel : LogLevel := .info
  jsonFormat : Bool := false
  /-- Whether a filter in the environment takes the place of the level. -/
  envFilter : Bool := true
  deriving DecidableEq, Repr

structure Config where
  channel : ChannelConfig := {}
  pool : PoolConfig := {}
  security : SecurityConfig := {}
  logging : LoggingConfig := {}
  deriving DecidableEq, Repr

end SealedDatagram
