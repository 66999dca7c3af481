import SealedDatagram.Config.Fault
import SealedDatagram.Decimal.Shortest
import SealedDatagram.Text.Quoted
import SealedDatagram.Toml.Value
/-!
Settings and how documents hold them. A setting is read from a value and written as a scalar; a
section of a document is read as a whole, because which of several misfits counts depends on all of
its settings: first what is there, in the order of the document, then what is missing, in the order
of the settings.
-/

namespace SealedDatagram

namespace Toml.Value

def described : Value → String
  | .string s => "string " ++ Text.quoted s
  | .integer n => "integer `" ++ toString n.toInt ++ "`"
  | .float x => "floating point `" ++ x.toText ++ "`"
  | .boolean b => "boolean `" ++ toString b ++ "`"
  | .datetime => "map"
  | .array _ => "sequence"
  | .table _ => "map"

end Toml.Value

open Toml

structure Setting (α : Type) where
  key : String
  read : Value → Except Misfit α
  /-- There is no scalar for a number that is too large. -/
  write : α → Option Scalar
  /-- What the setting is when it is left out, if it may be. -/
  fallback : Option α := none

namespace Setting

variable {α : Type}

def readUnsigned (bound : Nat) (expected : String) : Value → Except Misfit Nat
  | .integer n =>
    if 0 ≤ n.toInt ∧ n.toInt < bound then .ok n.toInt.toNat else .error (.range n expected)
  | v => .error (.kind v.described expected)

/-- A document holds no integer beyond 63 bits. -/
def writeUnsigned (n : Nat) : Option Scalar :=
  if 2 * n < UInt64.size then some (.integer (Int64.ofNat n)) else none

def readText : Value → Except Misfit String
  | .string s => .ok s
  | v => .error (.kind v.described "a string")

def text (key : String) : Setting String where
  key
  read := readText
  write s := some (.string s)

def flag (key : String) : Setting Bool where
  key
  read
    | .boolean b => .ok b
    | v => .error (.kind v.described "a boolean")
  write b := some (.boolean b)

def size (key : String) (fallback : Option UInt64 := none) : Setting UInt64 where
  key
  read v := UInt64.ofNat <$> readUnsigned UInt64.size "usize" v
  write n := writeUnsigned n.toNat
  fallback

def smallCount (key : String) : Setting UInt32 where
  key
  read v := UInt32.ofNat <$> readUnsigned UInt32.size "u32" v
  write n := writeUnsigned n.toNat

/-- A duration is held as whole milliseconds, of which only 64 bits count. -/
def duration (key : String) : Setting Duration where
  key
  read v := Duration.ofMillis <$> readUnsigned UInt64.size "u64" v
  write d := writeUnsigned (d.millis % UInt64.size)

def level (key : String) : Setting LogLevel where
  key
  read v := do
    let s ← readText v
    match LogLevel.ofText? s with
    | some l => return l
    | none => throw (.level s)
  write l := some (.string l.name)

/-- A setting whatever its type: its key and what its value has to pass. -/
def check (s : Setting α) : String × (Value → Except Misfit Unit) :=
  (s.key, fun v => discard (s.read v))

def entry (s : Setting α) (a : α) : Option (String × Scalar) := (s.write a).map (s.key, ·)

end Setting

/-- What a document offers for the settings of a section, and what it means that one is missing. -/
structure Offer where
  entries : Entries
  missing : String → Misfit

def Setting.get {α : Type} (s : Setting α) (o : Offer) : Except Misfit α :=
  match o.entries.lookup s.key, s.fallback with
  | some v, _ => s.read v
  | none, some a => .ok a
  | none, none => .error (o.missing s.key)

structure Layout (α : Type) where
  title : String
  settings : List (String × (Value → Except Misfit Unit))
  build : Offer → Except Misfit α
  entries : α → Option (List (String × Scalar))

namespace Layout

variable {α : Type} (l : Layout α)

def check (entries : Entries) : Except Misfit Unit :=
  entries.forM fun e => match l.settings.lookup e.1 with
    | some test => test e.2
    | none => .ok ()

/-- The settings by position: values in the order of the settings, of which some may be missing at
the end; values beyond the last setting say nothing. -/
def positional (values : List Value) : Offer where
  entries := (l.settings.map Prod.fst).zip values
  missing _ := .length values.length
    (l.title ++ " with " ++ toString l.settings.length ++ " elements")

def offer : Value → Except Misfit Offer
  | .table entries => .ok ⟨entries, .missing⟩
  | .datetime => .ok ⟨[], .missing⟩
  | .array values => .ok (l.positional values)
  | v => .error (.kind v.described l.title)

def read (v : Value) : Except Misfit α := do
  let o ← l.offer v
  l.check o.entries
  l.build o

end Layout

end SealedDatagram
