import SealedDatagram.Toml.Value
/-!
The text of a document that consists of sections. A string takes the plainest of the four forms that
can hold it; names of sections and settings are bare keys, and stand as they are.
-/

namespace SealedDatagram.Toml

/-- A control character other than the two that strings show as they are. -/
def isControl (c : Char) : Bool :=
  (c.toNat < 32 && c != '\t' && c != '\n') || c.toNat == 127

/-- The length of the longest run of a character; `current` counts the run being read. -/
def longestRun (q : Char) : List Char → (current : Nat) → Nat
  | [], n => n
  | c :: r, n => if c == q then longestRun q r (n + 1) else max n (longestRun q r 0)

/-- The longest run of a quote that can be written, because the quotes of a run are counted in a
byte. -/
def runLimit : Nat := 255

/-- Whether the runs of quotes in a text can be counted. -/
def countable (cs : List Char) : Bool :=
  longestRun '"' cs 0 ≤ runLimit && longestRun '\'' cs 0 ≤ runLimit

inductive StringForm where
  | basic
  | literal
  | multilineBasic
  | multilineLiteral
  deriving DecidableEq, Repr

def StringForm.of (cs : List Char) : StringForm :=
  let control := cs.any isControl
  let backslash := cs.contains '\\'
  let lines := cs.contains '\n'
  let double := longestRun '"' cs 0
  let single := longestRun '\'' cs 0
  if !control && !backslash && !lines && double == 0 then .basic
  else if !control && !lines && single == 0 then .literal
  else if !control && !backslash && double ≤ 2 then .multilineBasic
  else if !control && single ≤ 2 then .multilineLiteral
  else if lines then .multilineBasic
  else .basic

def hexDigit (n : Nat) : Char := (Nat.digitChar n).toUpper

/-- A character in a basic string; quotes are not decided here. -/
def escapeChar (multiline : Bool) (c : Char) : List Char :=
  if c = '\x08' then ['\\', 'b']
  else if c = '\t' then ['\\', 't']
  else if c = '\n' then if multiline then ['\n'] else ['\\', 'n']
  else if c = '\x0c' then ['\\', 'f']
  else if c = '\r' then ['\\', 'r']
  else if c = '\\' then ['\\', '\\']
  else if isControl c then
    ['\\', 'u', '0', '0', hexDigit (c.toNat / 16), hexDigit (c.toNat % 16)]
  else [c]

/-- The inside of a basic string, where a quote that comes after `allowed` others is escaped. -/
def escapeAfter (multiline : Bool) (allowed : Nat) : List Char → (run : Nat) → List Char
  | [], _ => []
  | c :: r, run =>
    if c = '"' then
      if run < allowed then '"' :: escapeAfter multiline allowed r (run + 1)
      else '\\' :: '"' :: escapeAfter multiline allowed r 0
    else escapeChar multiline c ++ escapeAfter multiline allowed r 0

/-- A text between three quotes; the text of several lines starts on a line of its own. -/
def tripled (q : Char) (cs inside : List Char) : List Char :=
  [q, q, q] ++ (if cs.contains '\n' then ['\n'] else []) ++ inside ++ [q, q, q]

def writeString (s : String) : String :=
  let cs := s.toList
  String.ofList <| match StringForm.of cs with
    | .basic => '"' :: escapeAfter false 0 cs 0 ++ ['"']
    | .literal => '\'' :: cs ++ ['\'']
    | .multilineBasic => tripled '"' cs (escapeAfter true 2 cs 0)
    | .multilineLiteral => tripled '\'' cs cs

def Scalar.write : Scalar → String
  | .string s => writeString s
  | .integer n => toString n.toInt
  | .boolean b => if b then "true" else "false"

/-- Whether all strings of a section can be written. -/
def Section.countable (s : Section) : Bool :=
  s.entries.all fun e => match e.2 with
    | .string t => Toml.countable t.toList
    | _ => true

def Section.write (s : Section) : String :=
  "[" ++ s.name ++ "]\n" ++
    String.join (s.entries.map fun e => e.1 ++ " = " ++ e.2.write ++ "\n")

/-- The text of a document, with an empty line between two sections. -/
def write (sections : List Section) : String := "\n".intercalate (sections.map Section.write)

end SealedDatagram.Toml
