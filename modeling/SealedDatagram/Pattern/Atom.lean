import SealedDatagram.Text.Blank
import SealedDatagram.Text.Scan
/-!
The smallest parts of a pattern, and the flags that decide how they are read and whether they may be
used. Letter case and kinds of characters are known for bytes only, so a part that needs to know
them for characters is refused; and no part may match half a character.
-/

namespace SealedDatagram.Pattern

open Text Text.Scan

structure Flags where
  /-- Whether letter case is passed over. -/
  folded : Bool := false
  /-- Whether a pattern matches characters; otherwise it matches bytes. -/
  unicode : Bool := true
  /-- Whether blanks and comments may stand between parts. -/
  spaced : Bool := false
  deriving DecidableEq, Repr

namespace Flags

/-- Switches a flag; the other flags change nothing about what is a pattern. -/
def switch (on : Bool) (f : Flags) : Char → Flags
  | 'i' => { f with folded := on }
  | 'u' => { f with unicode := on }
  | 'x' => { f with spaced := on }
  | _ => f

/-- Switches flags on, and those after a minus sign off. -/
def change (f : Flags) (letters : List Char) : Flags :=
  let on := letters.takeWhile (· != '-')
  (letters.drop on.length).foldl (switch false) (on.foldl (switch true) f)

end Flags

/-- Blanks and comments, which go up to the end of their line, where they may stand. -/
def skip (f : Flags) : Scan Unit :=
  if f.spaced then discard (many (discard (takeWhile1 isBlank) <|>
    (char '#' *> discard (takeWhile (· != '\n')))))
  else pure ()

inductive Atom where
  | char (c : Char)
  /-- A character below 256 by its two hexadecimal digits; a byte if bytes are matched. -/
  | byte (c : Char)
  | any
  /-- A digit, blank or part of a word; or all but these. -/
  | kind (negated : Bool)
  /-- The start or end of a line or text. -/
  | edge
  /-- The start or end of a word, or a place that is neither. -/
  | wordEdge
  deriving DecidableEq, Repr

namespace Atom

def isAllowed (f : Flags) : Atom → Bool
  | .char _ => !(f.unicode && f.folded)
  | .byte c => if f.unicode then !f.folded else c.toNat < 128
  | .any => f.unicode
  | .kind negated => !f.unicode && !negated
  | .edge => true
  | .wordEdge => !f.unicode

def isMember (f : Flags) : Atom → Bool
  | .char c | .byte c => if f.unicode then !f.folded else c.toNat < 128
  | .kind negated => !f.unicode && !negated
  | _ => false

/-- The character that an atom stands for. -/
def char? : Atom → Option Char
  | .char c | .byte c => some c
  | _ => none

end Atom

def hexDigits (f : Flags) : (count : Nat) → Scan (List Char)
  | 0 => pure []
  | count + 1 => do
    skip f
    return (← satisfy (isDigit 16)) :: (← hexDigits f count)

def codePoint (f : Flags) (width : Nat) : Scan Char := do
  let n := number 16 (← hexDigits f width)
  demand (n.isValidChar)
  return Char.ofNat n

/-- A backslash and what follows it. Before a sign it makes that stand for itself, but for angle
brackets. -/
def escaped (f : Flags) : Scan Atom := do
  char '\\'
  match ← satisfy (·.toNat < 128) with
  | 'x' => return .byte (← codePoint f 2)
  | 'u' => return .char (← codePoint f 4)
  | 'U' => return .char (← codePoint f 8)
  | 'a' => return .char '\x07'
  | 't' => return .char '\t'
  | 'n' => return .char '\n'
  | 'v' => return .char '\x0b'
  | 'f' => return .char '\x0c'
  | 'r' => return .char '\r'
  | 'd' | 's' | 'w' => return .kind false
  | 'D' | 'S' | 'W' => return .kind true
  | 'A' | 'z' => return .edge
  | 'b' | 'B' | '<' | '>' => return .wordEdge
  | c =>
    demand !c.isAlphanum
    return .char c

end SealedDatagram.Pattern
