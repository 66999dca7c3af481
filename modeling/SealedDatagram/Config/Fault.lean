import SealedDatagram.Config.Problem
import SealedDatagram.Error
import SealedDatagram.LogFilter
import SealedDatagram.Text.Blank
/-!
Why a configuration cannot be had, kept or used.
-/

namespace SealedDatagram

inductive Misfit where
  | missing (key : String)
  /-- A value of a kind that the setting does not take; both are described in words. -/
  | kind (found expected : String)
  | range (n : Int64) (expected : String)
  | length (n : Nat) (expected : String)
  | level (text : String)
  deriving DecidableEq, Repr

/-- What is wrong with a file or the place where it should be. -/
inductive FileFault where
  | absent
  | directory
  | notText
  deriving DecidableEq, Repr

def FileFault.message : FileFault → String
  | .absent => "No such file or directory (os error 2)"
  | .directory => "Is a directory (os error 21)"
  | .notText => "stream did not contain valid UTF-8"

inductive ConfigFault where
  | invalid (problems : List Problem)
  | unreadable
  | misfit (m : Misfit)
  | unwritable
  /-- A text with more quotes in a row than can be counted. -/
  | longRun
  | level (text : String)
  | cannotOpen (fault : FileFault)
  | cannotRead (fault : FileFault)
  | cannotWrite (fault : FileFault)
  | badFilter (fault : LogFilter.Fault)
  | loggerInPlace
  deriving DecidableEq, Repr

namespace Misfit

def message : Misfit → String
  | .missing key => "missing field `" ++ key ++ "`"
  | .kind found expected => "invalid type: " ++ found ++ ", expected " ++ expected
  | .range n expected =>
    "invalid value: integer `" ++ toString n.toInt ++ "`, expected " ++ expected
  | .length n expected => "invalid length " ++ toString n ++ ", expected " ++ expected
  | .level text => "Invalid log level: " ++ text

def openings : List String :=
  ["missing field", "invalid type", "invalid value", "invalid length", "Invalid log level"]

/-- The last line of a text, less the blanks behind it. -/
def lastLine (s : String) : List Char :=
  ((Text.trimEnd s.toList).splitOnP (· == '\n')).getLastD []

/-- A message on one line: only its last line counts, and only if it begins like a message. -/
def summary (m : Misfit) : String :=
  let line := lastLine m.message
  if openings.any fun o => o.toList.isPrefixOf line then ": " ++ String.ofList line else ""

end Misfit

namespace ConfigFault

def message : ConfigFault → String
  | .invalid problems => "Configuration validation failed:\n  - " ++
      "\n  - ".intercalate (problems.map Problem.message)
  | .unreadable => "Failed to parse TOML"
  | .misfit m => "Failed to parse TOML" ++ m.summary
  | .unwritable => "Failed to serialize config: out-of-range value for u64 type"
  | .longRun => Error.message .longRun
  | .level text => "Invalid log level: " ++ text
  | .cannotOpen f => "Failed to open config file: " ++ f.message
  | .cannotRead f => "Failed to read config file: " ++ f.message
  | .cannotWrite f => "Failed to write config file: " ++ f.message
  | .badFilter _ => "Invalid RUST_LOG directive"
  | .loggerInPlace => "Failed to install logger"

def toError : ConfigFault → Error
  | .badFilter .splitCharacter => .splitCharacter
  | .longRun => .longRun
  | f => .config f.message

end ConfigFault

def Config.check (c : Config) : Except ConfigFault Unit :=
  if c.problems.isEmpty then .ok () else .error (.invalid c.problems)

end SealedDatagram
