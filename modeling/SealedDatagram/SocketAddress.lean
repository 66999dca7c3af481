import SealedDatagram.Text.Scan
/-!
Addresses of sockets: an IPv4 host or an IPv6 host with a scope, and a port. An IPv4 host is four
decimal numbers; an IPv6 host is written in brackets as eight hexadecimal groups, where one run of
zero groups may be left out and the last two groups may be an IPv4 host.
-/

namespace SealedDatagram

inductive SocketAddress where
  | v4 (host : UInt32) (port : UInt16)
  | v6 (host : BitVec 128) (scope : UInt32) (port : UInt16)
  deriving DecidableEq

namespace SocketAddress

open Text Text.Scan

def unspecified : SocketAddress := .v4 0 0

/-- The IPv4 host that an IPv6 host stands for. -/
def embedded? (host : BitVec 128) : Option UInt32 :=
  if host.toNat >>> 32 = 0xffff then some (UInt32.ofNat host.toNat) else none

/-- Whether an IPv6 host is a group of hosts. -/
def isGroup (host : BitVec 128) : Bool := host >>> 120 = 0xff

/-- Whether an IPv6 host exists once per interface, so that only its scope tells which it is. -/
def needsScope (host : BitVec 128) : Bool :=
  host >>> 118 = 0x3fa || (host >>> 112) &&& 0xff0f = 0xff01 || (host >>> 112) &&& 0xff0f = 0xff02

def port : SocketAddress → UInt16
  | .v4 _ p => p
  | .v6 _ _ p => p

def withPort (a : SocketAddress) (port : UInt16) : SocketAddress :=
  match a with
  | .v4 host _ => .v4 host port
  | .v6 host scope _ => .v6 host scope port

/-- How a number in an address may be written. -/
structure NumberFormat where
  base : Nat
  /-- The most digits, if there is a limit. -/
  width : Option Nat
  leadingZeros : Bool
  /-- The first number that is too large. -/
  bound : Nat

def octet : NumberFormat := ⟨10, some 3, false, UInt8.size⟩

def group : NumberFormat := ⟨16, some 4, true, UInt16.size⟩

def portNumber : NumberFormat := ⟨10, none, true, UInt16.size⟩

def scopeNumber : NumberFormat := ⟨10, none, true, UInt32.size⟩

def number (f : NumberFormat) : Scan Nat := do
  let ds ← takeWhile1 (isDigit f.base)
  demand (f.width.all (ds.length ≤ ·))
  demand (f.leadingZeros || ds.length == 1 || ds.head? != some '0')
  let some n := numberBelow? f.base f.bound ds | refuse
  return n

def ipv4 : Scan Nat := do
  let a ← number octet
  char '.'
  let b ← number octet
  char '.'
  let c ← number octet
  char '.'
  let d ← number octet
  return ((a * 256 + b) * 256 + c) * 256 + d

/-- At most `limit` groups, and whether they end in an IPv4 host, which takes the place of two. A
colon is in front of every group but the first. -/
def groups : (limit : Nat) → (first : Bool) → Scan (List Nat × Bool)
  | 0, _ => return ([], false)
  | limit + 1, first =>
    let separator : Scan Unit := if first then pure () else char ':'
    let host : Scan (List Nat × Bool) := do
      demand (limit != 0)
      separator
      let n ← ipv4
      return ([n / 65536, n % 65536], true)
    let more : Scan (List Nat × Bool) := do
      separator
      let g ← number group
      let (gs, mixed) ← groups limit false
      return (g :: gs, mixed)
    host <|> more <|> return ([], false)

def ipv6 : Scan (List Nat) := do
  let (front, mixed) ← groups 8 true
  if front.length = 8 then return front
  demand !mixed
  literal [':', ':']
  let (back, _) ← groups (7 - front.length) true
  return front ++ List.replicate (8 - front.length - back.length) 0 ++ back

def scanV4 : Scan SocketAddress := do
  let host ← ipv4
  char ':'
  let port ← number portNumber
  return .v4 (UInt32.ofNat host) (UInt16.ofNat port)

def scanV6 : Scan SocketAddress := do
  char '['
  let host ← ipv6
  let scope ← maybe (char '%' *> number scopeNumber)
  literal [']', ':']
  let port ← number portNumber
  let n := host.foldl (fun n g => n * 65536 + g) 0
  return .v6 (BitVec.ofNat 128 n) (UInt32.ofNat (scope.getD 0)) (UInt16.ofNat port)

def ofText? (s : String) : Option SocketAddress := (scanV4 <|> scanV6).whole? s.toList

def octetsText (n : Nat) : String :=
  ".".intercalate ([n / 16777216, n / 65536 % 256, n / 256 % 256, n % 256].map toString)

/-- The eight groups of an IPv6 host. -/
def hostGroups (h : BitVec 128) : List Nat :=
  (List.range 8).map fun i => h.toNat >>> (16 * (7 - i)) % 65536

def zeroRun (gs : List Nat) : Nat := (gs.takeWhile (· == 0)).length

/-- Start and length of the longest run of zeros, the first of several. -/
def longestZeros (gs : List Nat) : Nat × Nat :=
  (List.range gs.length).foldl
    (fun best i => let n := zeroRun (gs.drop i); if best.2 < n then (i, n) else best) (0, 0)

def groupsText (gs : List Nat) : String :=
  ":".intercalate (gs.map fun g => String.ofList (Nat.toDigits 16 g))

/-- An IPv6 host in its shortest form; an embedded IPv4 host is written as one. -/
def hostText (h : BitVec 128) : String :=
  match embedded? h with
  | some short => "::ffff:" ++ octetsText short.toNat
  | none =>
    let gs := hostGroups h
    let (start, length) := longestZeros gs
    if 1 < length then groupsText (gs.take start) ++ "::" ++ groupsText (gs.drop (start + length))
    else groupsText gs

def toText : SocketAddress → String
  | .v4 host port => octetsText host.toNat ++ ":" ++ toString port.toNat
  | .v6 host scope port =>
    let zone := if scope = 0 then "" else "%" ++ toString scope.toNat
    "[" ++ hostText host ++ zone ++ "]:" ++ toString port.toNat

end SocketAddress

end SealedDatagram
