import SealedDatagram.Decimal.Binary64
/-!
The values of a TOML document. Of dates and times it is only kept that there was one. The entries of
a table are in the order in which their keys first came.
-/

namespace SealedDatagram.Toml

inductive Value where
  | string (s : String)
  | integer (n : Int64)
  | float (x : Binary64)
  | boolean (b : Bool)
  | datetime
  | array (values : List Value)
  | table (entries : List (String × Value))

abbrev Entries := List (String × Value)

/-- The values that documents of this library are written with. -/
inductive Scalar where
  | string (s : String)
  | integer (n : Int64)
  | boolean (b : Bool)
  deriving DecidableEq, Repr

def Scalar.toValue : Scalar → Value
  | .string s => .string s
  | .integer n => .integer n
  | .boolean b => .boolean b

structure Section where
  name : String
  entries : List (String × Scalar)
  deriving DecidableEq, Repr

def Section.toValue (s : Section) : Value :=
  .table (s.entries.map fun e => (e.1, e.2.toValue))

/-- The document that sections make up. -/
def Entries.ofSections (sections : List Section) : Entries :=
  sections.map fun s => (s.name, s.toValue)

end SealedDatagram.Toml
