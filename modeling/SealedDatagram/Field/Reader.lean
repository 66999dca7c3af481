import SealedDatagram.Field
/-!
Reading fields from the front of a byte string. A reader's state is what is still unread, and a
reader that fails leaves behind what it has not consumed: the length word goes first, then the
declared bytes, then the zero bytes after them.
-/

namespace SealedDatagram

/-- A reader consumes a front part of the unread bytes, also when it fails. -/
abbrev Reader (α : Type) := ExceptT Error (StateM Bytes) α

namespace Reader

variable {α : Type}

/-- The outcome of a reader on `b`, and what it leaves unread. -/
def runOn (r : Reader α) (b : Bytes) : Except Error α × Bytes := r.run.run b

def parse (r : Reader α) (b : Bytes) : Except Error α := (r.runOn b).1

def fault (f : FieldFault) : Reader α := throw (.codec f)

def take (n : Nat) : Reader Bytes := do
  let unread ← get
  if n ≤ unread.length then
    set (unread.drop n)
    return unread.take n
  else fault .shortBuffer

def rest : Reader Bytes := do
  let unread ← get
  set ([] : Bytes)
  return unread

def word : Reader UInt32 := return UInt32.ofNat (Bytes.toNatBE (← take 4))

def integer : Reader Int32 := return (← word).toInt32

def blob (max : Nat) : Reader Bytes := do
  let declared := (← word).toNat
  if max < declared then fault .oversizedPayload
  else if (← get).length < declared then fault .lengthOverflow
  else
    let b ← take declared
    let pad ← take (Field.padding declared)
    if pad.any (· != 0) then fault .nonzeroPadding else return b

/-- A byte string of exactly `n` bytes; `bad` says that it has another length. -/
def fixed (n : Nat) (bad : FieldFault) : Reader { b : Bytes // b.length = n } := do
  let b ← tryCatch (blob n) fun e =>
    throw (if e = .codec .oversizedPayload then .codec bad else e)
  if h : b.length = n then return ⟨b, h⟩ else fault bad

def text (max : Nat) : Reader String := do
  match Bytes.toText? (← blob max) with
  | some s => return s
  | none => fault .invalidText

def finish : Reader Unit := do
  if (← get).isEmpty then return () else fault .trailingBytes

end Reader

end SealedDatagram
