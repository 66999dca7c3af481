import SealedDatagram.Text.Scan
import SealedDatagram.Toml.Value
/-!
The smallest parts of a TOML document: blanks, line ends and comments; the four forms of strings;
integers, floats, dates and times.
-/

namespace SealedDatagram.Toml

open Text Text.Scan

def isSpace (c : Char) : Bool := c == ' ' || c == '\t'

def isCommentChar (c : Char) : Bool := c == '\t' || (32 ≤ c.toNat && c.toNat != 127)

def spaces : Scan Unit := discard (takeWhile isSpace)

def newline : Scan Unit := literal ['\n'] <|> literal ['\r', '\n']

def comment : Scan Unit := do
  char '#'
  discard (takeWhile isCommentChar)

def endOfText : Scan Unit := do
  demand (← rest).isEmpty

/-- What has to follow a statement. -/
def lineEnd : Scan Unit := do
  spaces
  discard (maybe comment)
  newline <|> endOfText

def gap : Scan Unit :=
  discard (many (discard (takeWhile1 isSpace) <|> newline <|> (comment *> newline)))

/-- The character of a code point in hexadecimal digits. -/
def codePoint (width : Nat) : Scan Char := do
  let cs ← rest
  let digits := cs.take width
  demand (digits.length == width && digits.all (isDigit 16))
  set (cs.drop width)
  let n := Text.number 16 digits
  demand (n.isValidChar)
  return Char.ofNat n

def escaped : Scan Char := do
  match ← satisfy (fun _ => true) with
  | 'b' => return '\x08'
  | 't' => return '\t'
  | 'n' => return '\n'
  | 'f' => return '\x0c'
  | 'r' => return '\r'
  | '"' => return '"'
  | '\\' => return '\\'
  | 'u' => codePoint 4
  | 'U' => codePoint 8
  | _ => refuse

/-- A character of a basic string that stands for itself. -/
def isBasicChar (c : Char) : Bool := isCommentChar c && c != '"' && c != '\\'

def isLiteralChar (c : Char) : Bool := isCommentChar c && c != '\''

def basicString : Scan String := do
  char '"'
  let parts ← many (takeWhile1 isBasicChar <|> (do return [← char '\\' *> escaped]))
  char '"'
  return String.ofList parts.flatten

def literalString : Scan String := do
  char '\''
  let cs ← takeWhile isLiteralChar
  char '\''
  return String.ofList cs

/-- A line end in a string, which counts as a line feed. -/
def lineBreak : Scan (List Char) := do
  newline
  return ['\n']

/-- A backslash at the end of a line skips all blanks and line ends up to the next character. -/
def continuation : Scan (List Char) := do
  char '\\'
  spaces
  newline
  discard (many (discard (takeWhile1 isSpace) <|> newline))
  return []

/-- One or two quotes that do not end the string they stand in. -/
def innerQuotes (q : Char) : Scan (List Char) := do
  let quotes ← takeWhile1 (· == q)
  demand (quotes.length < 3)
  return quotes

/-- The end of a multi-line string: up to two quotes before the last three belong to it. -/
def closing (q : Char) : Scan (List Char) := do
  let quotes ← takeWhile (· == q)
  demand (3 ≤ quotes.length && quotes.length ≤ 5)
  return quotes.drop 3

/-- A string between three quotes on each side, whose other parts are read by `part`. -/
def multiline (q : Char) (part : Scan (List Char)) : Scan String := do
  literal [q, q, q]
  discard (maybe newline)
  let parts ← many (part <|> lineBreak <|> innerQuotes q)
  let last ← closing q
  return String.ofList (parts.flatten ++ last)

def multilineBasic : Scan String :=
  multiline '"' (takeWhile1 isBasicChar <|> continuation <|>
    (do return [← char '\\' *> escaped]))

def multilineLiteral : Scan String := multiline '\'' (takeWhile1 isLiteralChar)

def string : Scan String := multilineBasic <|> basicString <|> multilineLiteral <|> literalString

/-- Digits of a base; between two of them an underscore may stand. -/
def digits (base : Nat) : Scan (List Char) := do
  let first ← satisfy (isDigit base)
  let more ← many (do
    discard (maybe (char '_'))
    satisfy (isDigit base))
  return first :: more

def sign : Scan Bool := do
  match ← maybe (satisfy fun c => c == '+' || c == '-') with
  | some '-' => return true
  | _ => return false

/-- Decimal digits of which the first is not zero, or a zero alone. -/
def wholeDigits : Scan (List Char) := do
  match ← peek? with
  | some '0' => return [← satisfy (· == '0')]
  | _ => digits 10

/-- The integer of 64 bits that digits spell. The least of them is the furthest from zero. -/
def fitting (negative : Bool) (base : Nat) (ds : List Char) : Scan Int64 := do
  let some n := numberBelow? base (Int64.minValue.toInt.natAbs + 1) ds | refuse
  let i : Int := if negative then -(n : Int) else n
  demand (decide (Int64.minValue.toInt ≤ i) && decide (i ≤ Int64.maxValue.toInt))
  return Int64.ofInt i

/-- An integer with the mark of its base in front, which takes no sign. -/
def based (mark : Char) (base : Nat) : Scan Int64 := do
  literal ['0', mark]
  fitting false base (← digits base)

def integer : Scan Int64 :=
  based 'x' 16 <|> based 'o' 8 <|> based 'b' 2 <|> do
    let negative ← sign
    fitting negative 10 (← wholeDigits)

/-- An exponent past which no more digits are counted. -/
def exponentReach : Nat := UInt16.size

/-- The exponent of a float. Its further digits are passed over once they have come to the reach. -/
def exponent : Scan Int := do
  discard (satisfy fun c => c == 'e' || c == 'E')
  let negative ← sign
  let ds := (← digits 10).filterMap (digit? 10)
  let n := ds.foldl (fun n d => if n < exponentReach then n * 10 + d else n) 0
  return if negative then -(n : Int) else n

/-- A float with a fraction, an exponent or both. One that is too large is refused, if it is
positive. -/
def decimalFloat : Scan Binary64 := do
  let negative ← sign
  let whole ← wholeDigits
  let fraction ← maybe (char '.' *> digits 10)
  let power ← maybe exponent
  demand (fraction.isSome || power.isSome)
  let fraction := fraction.getD []
  let x := Binary64.ofDigits negative ((whole ++ fraction).filterMap (digit? 10))
    (power.getD 0 - fraction.length)
  demand (x != .infinite false)
  return x

def specialFloat : Scan Binary64 := do
  let negative ← sign
  (do literal ['i', 'n', 'f']; return .infinite negative) <|>
    (do literal ['n', 'a', 'n']; return .nan)

def float : Scan Binary64 := decimalFloat <|> specialFloat

/-- A number of exactly `width` digits that lies between two bounds. -/
def fixedNumber (width low high : Nat) : Scan Nat := do
  let cs ← rest
  let ds := cs.take width
  demand (ds.length == width && ds.all (isDigit 10))
  set (cs.drop width)
  let n := Text.number 10 ds
  demand (low ≤ n && n ≤ high)
  return n

def isLeapYear (year : Nat) : Bool := year % 4 == 0 && (year % 100 != 0 || year % 400 == 0)

def daysIn (year month : Nat) : Nat :=
  if month = 2 then (if isLeapYear year then 29 else 28)
  else if month = 4 ∨ month = 6 ∨ month = 9 ∨ month = 11 then 30
  else 31

def date : Scan Unit := do
  let year ← fixedNumber 4 0 9999
  char '-'
  let month ← fixedNumber 2 1 12
  char '-'
  discard (fixedNumber 2 1 (daysIn year month))

def hourMinute : Scan Unit := do
  discard (fixedNumber 2 0 23)
  char ':'
  discard (fixedNumber 2 0 59)

def time : Scan Unit := do
  hourMinute
  char ':'
  discard (fixedNumber 2 0 60)
  discard (maybe (char '.' *> takeWhile1 (isDigit 10)))

def offset : Scan Unit :=
  discard (satisfy fun c => c == 'Z' || c == 'z') <|>
    (satisfy (fun c => c == '+' || c == '-') *> hourMinute)

/-- A date, a date with a time, or a time; an offset only after both. -/
def datetime : Scan Unit :=
  (do
    date
    discard (maybe do
      discard (satisfy fun c => c == 'T' || c == 't' || c == ' ')
      time
      discard (maybe offset))) <|> time

end SealedDatagram.Toml
