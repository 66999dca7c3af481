import SealedDatagram.Config
import SealedDatagram.SocketAddress
/-!
What can be wrong with a configuration. Every section lists its problems, in the order of its
settings; a configuration without problems is valid.
-/

namespace SealedDatagram

inductive Problem where
  | emptyAddress
  | badAddress (address : String)
  | zeroPollTimeout
  | longPollTimeout (d : Duration)
  | zeroCapacity
  | largeCapacity (n : UInt64)
  | smallSlots (n : UInt64)
  | largeSlots (n : UInt64)
  | noWorkers
  | fewerThanMinimum (max min : UInt64)
  | manyWorkers (n : UInt64)
  | zeroWaitTimeout
  | noIdleAttempts
  | shortShutdown (shutdown wait : Duration)
  | largeWindow (n : UInt64)
  | zeroTtl
  | noSessions
  | manySessions (n : UInt64)
  | emptyName
  | longName (bytes : Nat)
  deriving DecidableEq, Repr

def Problem.message : Problem → String
  | .emptyAddress => "Channel address cannot be empty"
  | .badAddress a => "Invalid channel address format: '" ++ a ++
      "' (expected format: '0.0.0.0:9000')"
  | .zeroPollTimeout => "Poll timeout must be greater than 0"
  | .longPollTimeout d => "Poll timeout too long: " ++ d.shown ++
      " (maximum: 30s, shutdown waits on it)"
  | .zeroCapacity => "Buffer capacity must be greater than 0"
  | .largeCapacity n => "Buffer capacity too large: " ++ toString n.toNat ++ " (maximum: 65536)"
  | .smallSlots n => "Slot size too small: " ++ toString n.toNat ++ " bytes (minimum: 512)"
  | .largeSlots n => "Slot size too large: " ++ toString n.toNat ++ " bytes (maximum: 65536)"
  | .noWorkers => "Minimum workers must be at least 1"
  | .fewerThanMinimum max min => "Maximum workers (" ++ toString max.toNat ++
      ") cannot be lower than minimum workers (" ++ toString min.toNat ++ ")"
  | .manyWorkers n => "Maximum workers too large: " ++ toString n.toNat ++ " (maximum: 1024)"
  | .zeroWaitTimeout => "Worker wait timeout must be greater than 0"
  | .noIdleAttempts => "Max idle attempts must be at least 1"
  | .shortShutdown shutdown wait => "Shutdown timeout (" ++ shutdown.shown ++
      ") should not be shorter than the worker wait timeout (" ++ wait.shown ++ ")"
  | .largeWindow n => "Replay window too large: " ++ toString n.toNat ++ " (maximum: 4096)"
  | .zeroTtl => "Session TTL must be greater than 0"
  | .noSessions => "Max sessions must be at least 1"
  | .manySessions n => "Max sessions too large: " ++ toString n.toNat ++ " (maximum: 1048576)"
  | .emptyName => "Application name cannot be empty"
  | .longName n => "Application name too long: " ++ toString n ++ " characters (maximum: 64)"

def firstOf : List (Bool × Problem) → List Problem
  | [] => []
  | (holds, p) :: r => if holds then [p] else firstOf r

def ChannelConfig.problems (c : ChannelConfig) : List Problem :=
  firstOf [(c.address.isEmpty, .emptyAddress),
    ((SocketAddress.ofText? c.address).isNone, .badAddress c.address)] ++
  firstOf [(c.pollTimeout = .zero, .zeroPollTimeout),
    (.ofSeconds 30 < c.pollTimeout, .longPollTimeout c.pollTimeout)] ++
  firstOf [(c.bufferCapacity = 0, .zeroCapacity),
    (65536 < c.bufferCapacity, .largeCapacity c.bufferCapacity)] ++
  firstOf [(c.slotSize < 512, .smallSlots c.slotSize),
    (65536 < c.slotSize, .largeSlots c.slotSize)]

def PoolConfig.problems (c : PoolConfig) : List Problem :=
  firstOf [(c.minWorkers = 0, .noWorkers)] ++
  firstOf [(c.maxWorkers < c.minWorkers, .fewerThanMinimum c.maxWorkers c.minWorkers),
    (1024 < c.maxWorkers, .manyWorkers c.maxWorkers)] ++
  firstOf [(c.waitTimeout = .zero, .zeroWaitTimeout)] ++
  firstOf [(c.maxIdleAttempts = 0, .noIdleAttempts)] ++
  firstOf [(c.shutdownTimeout < c.waitTimeout, .shortShutdown c.shutdownTimeout c.waitTimeout)]

def SecurityConfig.problems (c : SecurityConfig) : List Problem :=
  firstOf [(4096 < c.replayWindow, .largeWindow c.replayWindow)] ++
  firstOf [(c.sessionTtl = .zero, .zeroTtl)] ++
  firstOf [(c.maxSessions = 0, .noSessions),
    (1048576 < c.maxSessions, .manySessions c.maxSessions)]

/-- The length of the name counts bytes. -/
def LoggingConfig.problems (c : LoggingConfig) : List Problem :=
  firstOf [(c.appName.isEmpty, .emptyName),
    (64 < c.appName.utf8ByteSize, .longName c.appName.utf8ByteSize)]

def Config.problems (c : Config) : List Problem :=
  c.channel.problems ++ c.pool.problems ++ c.security.problems ++ c.logging.problems

end SealedDatagram
