import SealedDatagram.LogLevel
import SealedDatagram.Pattern
/-!
Filters of log messages, as far as their grammar goes. A filter is a list of directives with commas
between them. A directive is a level, or a target, a span with a field, or both, and may end in an
equals sign and the level for these.

A directive is read without the blanks around it, but its parts are cut, at the places found there,
from the text with its blanks.
-/

namespace SealedDatagram.LogFilter

open Text Text.Scan

inductive Fault where
  | malformed
  /-- A part would begin or end inside a character. -/
  | splitCharacter
  deriving DecidableEq, Repr

/-- A level, by name or number; `off` and zero let no message through, and no name lets all. -/
def isLevel (s : String) : Bool :=
  s == "" || s.toLower == "off" || Text.unsigned? UInt64.size s == some 0 ||
    (LogLevel.ofText? s).isSome

/-- Digits with a point among, before or behind them, and perhaps an exponent. -/
def decimal : Scan Unit := do
  let whole ← takeWhile (isDigit 10)
  let fraction ← maybe (char '.' *> takeWhile (isDigit 10))
  demand (!whole.isEmpty || !(fraction.getD []).isEmpty)
  discard (maybe do
    discard (satisfy fun c => c == 'e' || c == 'E')
    discard (maybe (satisfy fun c => c == '+' || c == '-'))
    takeWhile1 (isDigit 10))

def isPositive : List Char → Bool
  | '+' :: cs =>
    (decimal.whole? cs).isSome ||
      ["inf", "infinity", "nan"].contains (String.ofList cs).toLower
  | _ => false

/-- A field is a name, and perhaps a value after an equals sign: a number or a pattern. What follows
a second equals sign does not count. -/
def isField (cs : List Char) : Bool :=
  match cs.splitOnP (· == '=') with
  | _ :: value :: _ => isPositive value || Pattern.isPattern value
  | _ => !cs.isEmpty

/-- The characters before a place, after those in front of them, the last first, and the characters
behind it; a place inside a character has neither. -/
def splitAt? : (front : List Char) → (place : Nat) → List Char → Option (List Char × List Char)
  | front, _, [] => some (front.reverse, [])
  | front, place, c :: cs =>
    if place = 0 then some (front.reverse, c :: cs)
    else if c.utf8Size ≤ place then splitAt? (c :: front) (place - c.utf8Size) cs
    else none

def part (text : List Char) (start stop : Nat) : Except Fault (List Char) :=
  let cut := do
    let (_, behind) ← splitAt? [] start text
    let (between, _) ← splitAt? [] (stop - start) behind
    return between
  match cut with
  | some cs => .ok cs
  | none => .error .splitCharacter

/-- How far a directive is read, and at which place the part began that is being read. -/
inductive Stage where
  | front
  | subject
  | span (start : Nat)
  | field (start : Nat)
  | afterField
  | afterSpan
  | level (start : Nat)
  deriving DecidableEq, Repr

def isFirst (c : Char) : Bool := c == '-' || c == ':' || c == '_' || isAlphanumeric c

def Stage.next (text : List Char) (place : Nat) (c : Char) : Stage → Except Fault Stage
  | .front =>
    if c = '[' then .ok (.span (place + 1))
    else if isFirst c then .ok .subject
    else .error .malformed
  | .subject =>
    if c = '=' then do
      discard (part text 0 place)
      return .level (place + 1)
    else if c = '[' then do
      discard (part text 0 place)
      return .span (place + 1)
    else .ok .subject
  | .span start =>
    if c = ']' then do
      discard (part text start place)
      return .afterSpan
    else if c = '\x7b' then do
      discard (part text start place)
      return .field (place + 1)
    else .ok (.span start)
  | .field start =>
    if c = '\x7d' then do
      if isField (← part text start place) then return .afterField else throw .malformed
    else .ok (.field start)
  | .afterField => if c = ']' then .ok .afterSpan else .error .malformed
  | .afterSpan => if c = '=' then .ok (.level (place + 1)) else .error .malformed
  | .level start => .ok (.level start)

def Stage.finish (text : List Char) : Stage → Except Fault Unit
  | .subject | .afterSpan => .ok ()
  | .level start => do
    let name ← part text start (text.foldl (· + ·.utf8Size) 0)
    if isLevel (String.ofList name) then return () else throw .malformed
  | _ => .error .malformed

def checkDirective (text : List Char) : Except Fault Unit := do
  let step (s : Stage × Nat) (c : Char) : Except Fault (Stage × Nat) := do
    return (← s.1.next text s.2 c, s.2 + c.utf8Size)
  let (stage, _) ← (trim text).foldlM step (.front, 0)
  stage.finish text

/-- Refuses a text that is no filter, for the first directive that is none. -/
def check (s : String) : Except Fault Unit :=
  (s.toList.splitOnP (· == ',')).forM fun text =>
    if text.isEmpty then .ok () else checkDirective text

end SealedDatagram.LogFilter
