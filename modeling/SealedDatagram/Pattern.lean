import SealedDatagram.Pattern.Bracketed
import SealedDatagram.Text.Alphanumeric
/-!
Patterns of texts: branches between bars, whose items are atoms, bracketed sets and groups, and may
be repeated. Only the question which texts are patterns is answered here. A count of repetitions in
braces is not part of a pattern, because in the texts in question no brace is closed.
-/

namespace SealedDatagram.Pattern

open Text Text.Scan

def depthLimit : Nat := 250

/-- A pattern or group as far as it is read. -/
structure Body where
  flags : Flags
  /-- The names that groups have so far. -/
  names : List (List Char)
  /-- How deep each earlier branch nests. -/
  branches : List Nat := []
  /-- How deep each item of the last branch nests, the last item first. -/
  items : List Nat := []
  /-- Whether there is an item to repeat. -/
  repeatable : Bool := false

namespace Body

def depth (b : Body) : Nat := together (together b.items :: b.branches)

def add (b : Body) (depth : Nat) : Body :=
  { b with items := depth :: b.items, repeatable := true }

def repeated (b : Body) : Body :=
  match b.items with
  | depth :: items => { b with items := (depth + 1) :: items }
  | [] => b

/-- From here on another branch is read. -/
def branch (b : Body) : Body :=
  { b with branches := together b.items :: b.branches, items := [], repeatable := false }

def setFlags (b : Body) (flags : Flags) : Body :=
  { b with flags, items := 0 :: b.items, repeatable := false }

end Body

/-- The name of a group after its opening angle bracket. -/
def groupName : Scan (List Char) := do
  let first ← satisfy fun c => c == '_' || isAlphabetic c
  let more ← takeWhile fun c =>
    c == '_' || c == '.' || c == '[' || c == ']' || isAlphanumeric c
  char '>'
  return first :: more

/-- Letters of flags, each at most once, and a minus sign between two of them or in front. -/
def flagLetters : Scan (List Char) := do
  let letters ← takeWhile "imsUuRx-".toList.contains
  demand (letters.eraseDups == letters && letters.getLast? != some '-')
  return letters

inductive Parenthesis where
  | flags (f : Flags)
  | group (name : Option (List Char)) (f : Flags)

def parenthesis (f : Flags) : Scan Parenthesis := do
  char '('
  skip f
  (do
    literal ['?', 'P', '<'] <|> literal ['?', '<']
    return .group (some (← groupName)) f) <|>
  (do
    char '?'
    let letters ← flagLetters
    (do
      char ':'
      return .group none (f.change letters)) <|>
    (do
      char ')'
      demand !letters.isEmpty
      return .flags (f.change letters))) <|>
  pure (.group none f)

/-- A character that is no mark, or a mark with a backslash. -/
def atom (f : Flags) : Scan Atom :=
  escaped f <|> do
    match ← satisfy fun c => !("\\()[|*+?\x7b".toList.contains c) with
    | '.' => return .any
    | '^' | '$' => return .edge
    | c => return .char c

/-- One more part of a pattern; what is in a group is read by `inner`. -/
def item (inner : Flags → List (List Char) → Scan Body) (b : Body) : Scan Body := do
  skip b.flags
  match ← peek? with
  | some '|' =>
    char '|'
    return b.branch
  | some '[' => return b.add (← bracketed b.flags (depthLimit + 1))
  | some '(' =>
    match ← parenthesis b.flags with
    | .flags f => return b.setFlags f
    | .group name f =>
      demand (name.all fun n => !b.names.contains n)
      let group ← inner f (name.toList ++ b.names)
      skip group.flags
      char ')'
      return { b.add (group.depth + 1) with names := group.names }
  | some c =>
    if c = '*' ∨ c = '+' ∨ c = '?' then
      demand b.repeatable
      char c
      discard (maybe (char '?'))
      return b.repeated
    else
      let a ← atom b.flags
      demand (a.isAllowed b.flags)
      return b.add 0
  | none => refuse

/-- A pattern in which groups nest less than `levels` deep. -/
def body : (levels : Nat) → Flags → List (List Char) → Scan Body
  | 0, _, _ => refuse
  | levels + 1, flags, names => iterate (item (body levels)) { flags, names }

def isPattern (cs : List Char) : Bool :=
  let whole : Scan Unit := do
    let b ← body (depthLimit + 1) {} []
    skip b.flags
    demand (b.depth ≤ depthLimit)
  (whole.whole? cs).isSome

end SealedDatagram.Pattern
