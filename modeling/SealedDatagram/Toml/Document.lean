import SealedDatagram.Toml.Value
/-!
Documents under construction, statement by statement. A table remembers how it came to be, because
that decides what may still be added to it: a header makes a table that only its own lines fill, a
longer header or key makes the tables it passes through.
-/

namespace SealedDatagram.Toml

/-- A key: the tables it passes through and the name in the last of them. -/
structure Path where
  tables : List String
  name : String
  deriving DecidableEq, Repr

inductive Statement where
  /-- From here on lines belong to this table. -/
  | table (path : Path)
  /-- From here on lines belong to a new element of this array. -/
  | element (path : Path)
  | pair (path : Path) (value : Value)

/-- How a table came to be. -/
inductive Origin where
  /-- By its own header, or as the whole document. -/
  | header
  /-- By a longer header. -/
  | passed
  /-- By a key with dots. -/
  | dotted
  deriving DecidableEq, Repr

inductive Node where
  | value (v : Value)
  | table (origin : Origin) (entries : List (String × Node))
  /-- An array whose elements have headers; the last element comes first. -/
  | elements (last : List (String × Node)) (before : List (List (String × Node)))

abbrev Document := List (String × Node)

mutual

def Node.toValue : Node → Value
  | .value v => v
  | .table _ entries => .table (entriesToValues entries)
  | .elements last before =>
    .array ((tablesToValues before).reverse ++ [.table (entriesToValues last)])

def entriesToValues : List (String × Node) → Entries
  | [] => []
  | (k, n) :: r => (k, n.toValue) :: entriesToValues r

def tablesToValues : List (List (String × Node)) → List Value
  | [] => []
  | t :: r => .table (entriesToValues t) :: tablesToValues r

end

namespace Document

def toEntries (d : Document) : Entries := entriesToValues d

def erase (d : Document) (k : String) : Document := d.filter (·.1 != k)

def put (d : Document) (k : String) (n : Node) : Document :=
  if (d.lookup k).isSome then d.map fun e => if e.1 == k then (k, n) else e else d ++ [(k, n)]

/-- Changes the table that a way through tables leads to. A missing table is made, with the given
origin; an array of tables stands for its last element. A dotted way may not pass through a table
that has a header. -/
def within (made : Origin) (change : Origin → Document → Option Document) :
    (way : List String) → Origin → Document → Option Document
  | [], origin, d => change origin d
  | k :: way, _, d => do
    match d.lookup k with
    | none => return d ++ [(k, .table made (← within made change way made []))]
    | some (.table origin sub) =>
      if made = .dotted ∧ origin = .header then none
      return d.put k (.table origin (← within made change way origin sub))
    | some (.elements last before) =>
      return d.put k (.elements (← within made change way .header last) before)
    | some (.value _) => none

/-- Makes room for the lines under a table's header. Such a table may have been passed through, and
then moves to the end, but not have been described before. -/
def openTable (k : String) (d : Document) : Option Document :=
  match d.lookup k with
  | none => some (d ++ [(k, .table .header [])])
  | some (.table .passed sub) => some (d.erase k ++ [(k, .table .header sub)])
  | some _ => none

def openElement (k : String) (d : Document) : Option Document :=
  match d.lookup k with
  | none => some (d ++ [(k, .elements [] [])])
  | some (.elements last before) => some (d.put k (.elements [] (last :: before)))
  | some _ => none

/-- Adds a value to a table. A name may come only once, and a dotted key ends in a table that dotted
keys have made. -/
def addPair (path : Path) (v : Value) (origin : Origin) (d : Document) : Option Document :=
  within .dotted (fun origin d =>
    if (origin == .dotted) == path.tables.isEmpty || (d.lookup path.name).isSome then none
    else some (d ++ [(path.name, .value v)])) path.tables origin d

def ofPairs (pairs : List (Path × Value)) : Option Document :=
  pairs.foldlM (fun d p => addPair p.1 p.2 .header d) []

/-- One more statement, where lines belong to the table that a way leads to; the answer says where
they belong from here on. -/
def addStatement (d : Document) (way : List String) :
    Statement → Option (Document × List String)
  | .table p => do
    let d ← within .passed (fun _ => openTable p.name) p.tables .header d
    return (d, p.tables ++ [p.name])
  | .element p => do
    let d ← within .passed (fun _ => openElement p.name) p.tables .header d
    return (d, p.tables ++ [p.name])
  | .pair p v => do
    let d ← within .passed (addPair p v) way .header d
    return (d, way)

/-- The document that statements describe one after the other. -/
def ofStatements (l : List Statement) : Option Document := do
  let (d, _) ← l.foldlM (fun (d, way) s => addStatement d way s) (([] : Document), [])
  return d

end Document

end SealedDatagram.Toml
