import SealedDatagram.Bytes
import SealedDatagram.Config.Stored
/-!
Configurations kept in files: what comes of loading one from a place and of saving one to it.
-/

namespace SealedDatagram

inductive Place where
  | file (content : Bytes)
  | directory
  /-- Nothing, in a directory. -/
  | vacant
  /-- Nothing, and no directory to put a file into. -/
  | unreachable
  deriving DecidableEq

namespace Config

/-- Loads a configuration. A directory can be opened, but not read. -/
def load : Place → Except ConfigFault Config
  | .file content =>
    match content.toText? with
    | some text => ofToml text
    | none => .error (.cannotRead .notText)
  | .directory => .error (.cannotRead .directory)
  | .vacant | .unreachable => .error (.cannotOpen .absent)

/-- Saves a configuration; the answer is what is at the place afterwards. -/
def save (c : Config) (p : Place) : Except ConfigFault Place := do
  let text ← c.toToml
  match p with
  | .file _ | .vacant => return .file (Bytes.ofText text)
  | .directory => throw (.cannotWrite .directory)
  | .unreachable => throw (.cannotWrite .absent)

end Config

end SealedDatagram
