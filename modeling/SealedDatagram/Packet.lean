import SealedDatagram.Field.Reader
import SealedDatagram.Key
import SealedDatagram.Salt
import SealedDatagram.Text.Quoted
/-!
The five kinds of packet and what they carry. A client opens with Hello, the server answers Olleh;
the client sends Auth, the server confirms with Htua; after that both sides send Data. All but Hello
carry a sealed body, and a body always holds a fresh salt for the answer, Olleh apart.
-/

namespace SealedDatagram

inductive PacketKind where
  | hello
  | olleh
  | auth
  | htua
  | data
  deriving DecidableEq, Repr

namespace PacketKind

/-- The word every packet of this kind starts with. -/
def tag : PacketKind → UInt32
  | .hello => 1
  | .olleh => 2
  | .auth => 4
  | .htua => 5
  | .data => 8

def ofTag (t : UInt32) : Except Error PacketKind :=
  if t = 1 then .ok .hello
  else if t = 2 then .ok .olleh
  else if t = 4 then .ok .auth
  else if t = 5 then .ok .htua
  else if t = 8 then .ok .data
  else .error (.packetType t)

@[simp] theorem ofTag_tag (k : PacketKind) : ofTag k.tag = .ok k := by cases k <;> rfl

def read : Reader PacketKind := do ofTag (← Reader.word)

/-- The kind of a packet, from its first word alone. -/
def peek (b : Bytes) : Except Error PacketKind := read.parse b

/-- Consumes the first word and requires this kind. -/
def expect (k : PacketKind) : Reader Unit := do
  let found ← read
  if found = k then return () else throw (.packetType found.tag)

end PacketKind

structure ServerInfo where
  publicKey : PublicKey
  needLogin : Bool
  needPass : Bool
  deriving DecidableEq

structure Credentials where
  login : String := ""
  pass : String := ""
  deriving DecidableEq, Repr

namespace Credentials

def maxSize : Nat := 1024

def shown (c : Credentials) : String :=
  "Credentials \x7b login: " ++ Text.quoted c.login ++ ", pass: \"<redacted>\" \x7d"

end Credentials

structure Hello where
  publicKey : PublicKey
  deriving DecidableEq

structure Olleh where
  info : ServerInfo
  deriving DecidableEq

structure Auth where
  publicKey : PublicKey
  salt : Salt
  credentials : Credentials
  sessionKey : SessionKey
  deriving DecidableEq

structure Htua where
  salt : Salt
  deriving DecidableEq

structure Data where
  salt : Salt
  payload : Bytes
  deriving DecidableEq

def Data.maxPayload : Nat := 1024

/-- A packet with the salt it came sealed under. -/
structure Received (α : Type) where
  header : Salt
  packet : α
  deriving DecidableEq

end SealedDatagram
