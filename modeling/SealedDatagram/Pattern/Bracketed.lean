import SealedDatagram.Pattern.Atom
/-!
Sets of characters in brackets. Their members are characters, ranges, named sets and other bracketed
sets. Two equal signs join what is before them and after them: what both share, the one less the
other, or what only one of them has. What counts about a set is how deep it nests.
-/

namespace SealedDatagram.Pattern

open Text Text.Scan

/-- How deep parts that stand together nest; one alone adds no level. -/
def together : List Nat → Nat
  | [] => 0
  | [depth] => depth
  | depths => 1 + depths.foldl max 0

def setNames : List String :=
  ["alnum", "alpha", "ascii", "blank", "cntrl", "digit", "graph", "lower", "print", "punct",
   "space", "upper", "word", "xdigit"]

/-- The name of a set; the answer is whether the set is turned around. -/
def namedSet : Scan Bool := do
  literal ['[', ':']
  let negated ← maybe (char '^')
  let name ← takeWhile (· != ':')
  literal [':', ']']
  demand (setNames.contains (String.ofList name))
  return negated.isSome

def member (f : Flags) : Scan Atom :=
  escaped f <|> (do return .char (← satisfy (· != '\\')))

/-- The next character after blanks. A comment hides its mark only. -/
def next? (f : Flags) (cs : List Char) : Option Char :=
  if f.spaced then
    match cs.dropWhile isBlank with
    | '#' :: r => (r.dropWhile isBlank).head?
    | r => r.head?
  else cs.head?

/-- A dash makes a range, unless it comes last or before another dash. -/
def isRange (f : Flags) : List Char → Bool
  | '-' :: r => next? f r != some ']' && next? f r != some '-'
  | _ => false

/-- A member, or two of them as the ends of a range. -/
def memberOrRange (f : Flags) : Scan Unit := do
  let first ← member f
  skip f
  demand (first.isMember f)
  if isRange f (← rest) then
    char '-'
    skip f
    let last ← member f
    demand (last.isMember f)
    match first.char?, last.char? with
    | some low, some high => demand (low.toNat ≤ high.toNat)
    | _, _ => refuse

/-- What has been read of a set: how deep the part nests that is joined to what follows, and how
deep the members do after that. -/
structure Operands where
  joined : Option Nat := none
  members : List Nat := []

def Operands.depth (o : Operands) : Nat :=
  match o.joined with
  | none => together o.members
  | some depth => 1 + max depth (together o.members)

/-- One more part of a set. A named set takes no letter case into account, and in a match of bytes
it cannot be turned around, as it would hold parts of characters. -/
def part (f : Flags) (nested : Scan Nat) (o : Operands) : Scan Operands := do
  skip f
  let sign ← maybe (literal ['&', '&'] <|> literal ['-', '-'] <|> literal ['~', '~'])
  if sign.isSome then return { joined := some o.depth }
  match ← peek? with
  | some ']' => refuse
  | some '[' =>
    match ← maybe namedSet with
    | some negated =>
      demand (if f.unicode then !f.folded else !negated)
      return { o with members := 0 :: o.members }
    | none => return { o with members := (← nested) :: o.members }
  | _ =>
    memberOrRange f
    return { o with members := 0 :: o.members }

/-- What may stand in front of the members: dashes, or else a closing bracket, for themselves. -/
def opening (f : Flags) : Scan (List Nat) := do
  let dashes ← many (char '-' <* skip f)
  if !dashes.isEmpty then return dashes.map fun _ => 0
  return (← maybe (char ']' <* skip f)).toList.map fun _ => 0

/-- A set in which sets nest less than `levels` deep; the answer is how deep it nests. -/
def bracketed (f : Flags) : (levels : Nat) → Scan Nat
  | 0 => refuse
  | levels + 1 => do
    char '['
    skip f
    let negated ← maybe (char '^' <* skip f)
    demand (f.unicode || negated.isNone)
    let first ← opening f
    demand (first.isEmpty || (Atom.char '-').isMember f)
    let all ← iterate (part f (bracketed f levels)) { members := first }
    skip f
    char ']'
    return 1 + all.depth

end SealedDatagram.Pattern
