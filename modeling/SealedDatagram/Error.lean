/-!
What can go wrong, as causes. Every cause has one wording, given by its `message`; nothing else in
the library spells an error.
-/

namespace SealedDatagram

inductive FieldFault where
  | shortBuffer
  | lengthOverflow
  | nonzeroPadding
  | invalidText
  | trailingBytes
  | missingFrame
  | badSalt
  | badPublicKey
  | oversizedPayload
  deriving DecidableEq, Repr

def FieldFault.message : FieldFault → String
  | .shortBuffer => "Buffer too short for field"
  | .lengthOverflow => "Declared length exceeds remaining bytes"
  | .nonzeroPadding => "Non-zero padding after opaque field"
  | .invalidText => "String field is not valid UTF-8"
  | .trailingBytes => "Unexpected trailing bytes after last field"
  | .missingFrame => "Encrypted body shorter than header and footer"
  | .badSalt => "Salt field must be exactly 8 bytes"
  | .badPublicKey => "Public key field must be exactly 32 bytes"
  | .oversizedPayload => "Payload exceeds maximum size"

/-- Why an operation does not fit the state of a session. -/
inductive SessionFault where
  | unknownSalt
  | emptySessionKey
  | sessionKeyLength
  | noKeyDerivation
  | noSessionLookup
  | wrongState
  | serverKeyMismatch
  | replayedSalt
  | peerMismatch
  deriving DecidableEq, Repr

def SessionFault.message : SessionFault → String
  | .unknownSalt => "No session registered for salt"
  | .emptySessionKey => "Session key is empty"
  | .sessionKeyLength => "Session key length out of range"
  | .noKeyDerivation => "No key derivation registered"
  | .noSessionLookup => "No session lookup registered"
  | .wrongState => "Operation not allowed in current session state"
  | .serverKeyMismatch => "Server public key does not match the pre-shared key"
  | .replayedSalt => "Salt already accepted for this session"
  | .peerMismatch => "Salt belongs to a different peer"

inductive Rejection where
  | publicKey
  | hello
  | credentials
  | session
  deriving DecidableEq, Repr

def Rejection.message : Rejection → String
  | .publicKey => "Public key rejected"
  | .hello => "Hello rejected"
  | .credentials => "Credentials rejected"
  | .session => "Session registration rejected"

inductive CipherError where
  | emptyKey
  | keyLength (n : Nat)
  | saltLength (n : Nat)
  | oversizedData (n : Nat)
  | ciphertextTooShort (n : Nat)
  | headerLength (n : Nat)
  | footerLength (n : Nat)
  | tagMismatch
  | keyDerivation
  | randomSource
  deriving DecidableEq, Repr

def CipherError.message : CipherError → String
  | .emptyKey => "Encryption key is empty"
  | .keyLength n => s!"Encryption key length {n} outside 12..=64 bytes"
  | .saltLength n => s!"Salt must be 8 bytes, got {n}"
  | .oversizedData n => s!"Data too large: {n} bytes"
  | .ciphertextTooShort n => s!"Ciphertext too short: {n} bytes"
  | .headerLength n => s!"Header must be 8 bytes, got {n}"
  | .footerLength n => s!"Footer must be 8 bytes, got {n}"
  | .tagMismatch => "Authentication tag mismatch"
  | .keyDerivation => "Key derivation failed"
  | .randomSource => "Random source unavailable"

inductive BufferError where
  | empty
  | exhausted
  | oversized (n : Nat)
  deriving DecidableEq, Repr

def BufferError.message : BufferError → String
  | .empty => "No ready message"
  | .exhausted => "Every slot is currently lent out"
  | .oversized n => s!"Message of {n} bytes does not fit in a slot"

/-- Why the host's network refused an operation on a socket. -/
inductive SocketFault where
  | messageTooLong
  | addressInUse
  | addressUnavailable
  | networkUnreachable
  | invalidArgument
  | addressFamily
  | noDevice
  deriving DecidableEq, Repr

def SocketFault.message : SocketFault → String
  | .messageTooLong => "Message too long (os error 90)"
  | .addressInUse => "Address already in use (os error 98)"
  | .addressUnavailable => "Cannot assign requested address (os error 99)"
  | .networkUnreachable => "Network is unreachable (os error 101)"
  | .invalidArgument => "Invalid argument (os error 22)"
  | .addressFamily => "Address family not supported by protocol (os error 97)"
  | .noDevice => "No such device (os error 19)"

inductive Error where
  | socket (fault : SocketFault)
  | timeout
  | packetType (tag : UInt32)
  | codec (fault : FieldFault)
  | cipher (fault : CipherError)
  | session (fault : SessionFault)
  | rejected (what : Rejection)
  | buffer (fault : BufferError)
  | config (text : String)
  /-- The random source had no bytes for a new key, without which nothing can go on. -/
  | keyGeneration
  /-- A text was to be cut inside a character, after which nothing can go on either. -/
  | splitCharacter
  /-- A text had a longer run of quotes than can be counted; this ends everything as well. -/
  | longRun
  /-- There was no memory for something that is made at its full size; nothing goes on after it. -/
  | outOfMemory
  deriving DecidableEq, Repr

/-- Whether an error ends everything, so that no one is left to make anything of it. -/
def Error.isFatal : Error → Bool
  | .keyGeneration | .splitCharacter | .longRun | .outOfMemory => true
  | _ => false

def Error.message : Error → String
  | .socket f => s!"Socket failure: {f.message}"
  | .timeout => "Timeout occurred"
  | .packetType tag => s!"Invalid packet type: {tag}"
  | .codec f => s!"Codec error: {f.message}"
  | .cipher f => s!"Crypto error: {f.message}"
  | .session f => s!"Session error: {f.message}"
  | .rejected r => s!"Handshake rejected: {r.message}"
  | .buffer f => s!"Message buffer error: {f.message}"
  | .config text => s!"Configuration error: {text}"
  | .keyGeneration => "Key generation failed"
  | .splitCharacter => "Text cut inside a character"
  | .longRun => "Run of quotes too long"
  | .outOfMemory => "Out of memory"

end SealedDatagram
