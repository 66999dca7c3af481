import SealedDatagram.Bytes
import SealedDatagram.Config.Fault
import SealedDatagram.LogFilter
/-!
What environment variables say about a configuration. A variable that is no text counts as not set,
and one that should hold a number but does not is passed over.
-/

namespace SealedDatagram

abbrev Variables := String → Option Bytes

namespace Variables

def text? (v : Variables) (name : String) : Option String := (v name).bind Bytes.toText?

def number? (v : Variables) (name : String) : Option Nat :=
  (v.text? name).bind (Text.unsigned? UInt64.size)

end Variables

namespace Config

def levelOf (v : Variables) (otherwise : LogLevel) : Except ConfigFault LogLevel :=
  match v.text? "SECURE_DATAGRAM_LOG_LEVEL" with
  | none => .ok otherwise
  | some s =>
    match LogLevel.ofText? s with
    | some l => .ok l
    | none => .error (.level s)

/-- The defaults with what the environment says in their place. -/
def ofEnvironment (v : Variables) : Except ConfigFault Config := do
  let c : Config := {}
  let number (name : String) (otherwise : UInt64) : UInt64 :=
    ((v.number? name).map UInt64.ofNat).getD otherwise
  return { c with
    channel := { c.channel with
      address := (v.text? "SECURE_DATAGRAM_ADDRESS").getD c.channel.address
      bufferCapacity := number "SECURE_DATAGRAM_BUFFER_CAPACITY" c.channel.bufferCapacity
      pollTimeout := ((v.number? "SECURE_DATAGRAM_POLL_TIMEOUT_MS").map .ofMillis).getD
        c.channel.pollTimeout }
    pool := { c.pool with
      minWorkers := number "SECURE_DATAGRAM_MIN_WORKERS" c.pool.minWorkers
      maxWorkers := number "SECURE_DATAGRAM_MAX_WORKERS" c.pool.maxWorkers }
    logging := { c.logging with logLevel := ← levelOf v c.logging.logLevel } }

end Config

/-- Puts a logger in place, which one process can do once. A filter in the environment is looked at
first, if the configuration lets it count. -/
def LoggingConfig.install (c : LoggingConfig) (v : Variables) (inPlace : Bool) :
    Except ConfigFault Unit := do
  if c.envFilter then
    if let some filter := v.text? "RUST_LOG" then
      if !(filter.toList.all Text.isBlank) then
        (LogFilter.check filter).mapError .badFilter
  if inPlace then throw .loggerInPlace

end SealedDatagram
