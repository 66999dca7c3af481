import SealedDatagram.Toml.Document
import SealedDatagram.Toml.Literal
/-!
The statements of a TOML text: headers of tables, headers of elements of arrays of tables, and pairs
of a key and a value. Keys and values nest less than eighty levels deep.
-/

namespace SealedDatagram.Toml

open Text Text.Scan

/-- The first depth that is too deep. -/
def depthLimit : Nat := 80

def isBareKeyChar (c : Char) : Bool := c.isAlphanum || c == '-' || c == '_'

def keyPart : Scan String := do
  spaces
  let part ← basicString <|> literalString <|> (String.ofList <$> takeWhile1 isBareKeyChar)
  spaces
  return part

/-- The parts of a key with dots between them. -/
def key : Scan Path := do
  let first ← keyPart
  let more ← many (char '.' *> keyPart)
  demand (more.length + 1 < depthLimit)
  return ⟨(first :: more).dropLast, (first :: more).getLast (by simp)⟩

def spaced {α : Type} (x : Scan α) : Scan α := spaces *> x <* spaces

/-- Values in brackets, with gaps anywhere and a comma after the last if one likes. -/
def arrayOf (value : Scan Value) : Scan Value := do
  char '['
  let values ← separated (gap *> value <* gap) (char ',')
  if !values.isEmpty then discard (maybe (char ','))
  gap
  char ']'
  return .array values

def inlineTableOf (value : Scan Value) : Scan Value := do
  char '\x7b'
  let pairs ← separated (do
    let k ← key
    char '='
    return (k, ← spaced value)) (char ',')
  spaces
  char '\x7d'
  match Document.ofPairs pairs with
  | some d => return .table d.toEntries
  | none => refuse

/-- A value in which arrays and inline tables nest at most `depth` levels deep. -/
def valueWithin : (depth : Nat) → Scan Value
  | 0 => scalar
  | depth + 1 => scalar <|> arrayOf (valueWithin depth) <|> inlineTableOf (valueWithin depth)
where
  scalar : Scan Value :=
    Value.string <$> string <|> (do literal ['t', 'r', 'u', 'e']; return .boolean true) <|>
      (do literal ['f', 'a', 'l', 's', 'e']; return .boolean false) <|>
      (do datetime; return .datetime) <|> Value.float <$> float <|> Value.integer <$> integer

def value : Scan Value := valueWithin (depthLimit - 1)

def statement : Scan Statement :=
  (do
    literal ['[', '[']
    let k ← key
    literal [']', ']']
    lineEnd
    return .element k) <|>
  (do
    char '['
    let k ← key
    char ']'
    lineEnd
    return .table k) <|>
  (do
    let k ← key
    char '='
    spaces
    let v ← value
    lineEnd
    return .pair k v)

/-- The statements of a text; between them there may be blanks, comments and empty lines. A byte
order mark at the start is passed over. -/
def statements : Scan (List Statement) := do
  discard (maybe (char '\ufeff'))
  let lines ← many (spaces *> ((do
    let s ← statement
    return some s) <|> (comment *> (newline <|> endOfText) *> pure none) <|>
      (newline *> pure none)))
  spaces
  return lines.filterMap id

def read? (text : String) : Option Entries := do
  let l ← statements.whole? text.toList
  return (← Document.ofStatements l).toEntries

end SealedDatagram.Toml
