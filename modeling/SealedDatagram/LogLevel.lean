import SealedDatagram.Text.Unsigned
/-!
Levels of logging, from the fewest messages to the most. A level is written as its name, in any
letter case, or as its number.
-/

namespace SealedDatagram

inductive LogLevel where
  | error
  | warn
  | info
  | debug
  | trace
  deriving DecidableEq, Repr

namespace LogLevel

def all : List LogLevel := [error, warn, info, debug, trace]

def name : LogLevel → String
  | .error => "error"
  | .warn => "warn"
  | .info => "info"
  | .debug => "debug"
  | .trace => "trace"

def number : LogLevel → Nat
  | .error => 1
  | .warn => 2
  | .info => 3
  | .debug => 4
  | .trace => 5

def ofName? (s : String) : Option LogLevel := all.find? (·.name == s)

def ofNumber? (n : Nat) : Option LogLevel := all.find? (·.number == n)

def ofText? (s : String) : Option LogLevel :=
  ((Text.unsigned? UInt64.size s).bind ofNumber?).or (ofName? s.toLower)

theorem ofText?_name (l : LogLevel) : ofText? l.name = some l := by
  cases l <;> decide +kernel

end LogLevel

end SealedDatagram
