/-!
Byte strings and the views of them that the rest of the library uses: the number they spell with
the most or the least significant byte first, hexadecimal text, and UTF-8 text.
-/

namespace SealedDatagram

abbrev Bytes := List UInt8

namespace Bytes

/-- The number a byte string spells, most significant byte first. -/
def toNatBE (b : Bytes) : Nat := b.foldl (fun n x => n * 256 + x.toNat) 0

/-- The number a byte string spells, least significant byte first. -/
def toNatLE : Bytes → Nat
  | [] => 0
  | x :: r => x.toNat + 256 * toNatLE r

/-- The low `len` bytes of a number, least significant first. -/
def ofNatLE : (len : Nat) → Nat → Bytes
  | 0, _ => []
  | len + 1, n => UInt8.ofNat n :: ofNatLE len (n / 256)

@[simp] theorem length_ofNatLE (len n : Nat) : (ofNatLE len n).length = len := by
  induction len generalizing n with
  | zero => rfl
  | succ len ih => simp [ofNatLE, ih]

/-- The low `len` bytes of a number, most significant first. -/
def ofNatBE (len n : Nat) : Bytes := (ofNatLE len n).reverse

@[simp] theorem length_ofNatBE (len n : Nat) : (ofNatBE len n).length = len := by
  simp [ofNatBE]

def hexDigit (n : Nat) : Char :=
  if n < 10 then Char.ofNat (48 + n) else Char.ofNat (87 + n)

/-- Two lower-case hexadecimal digits for every byte. -/
def hexChars (b : Bytes) : List Char :=
  b.flatMap fun x => [hexDigit (x.toNat / 16), hexDigit (x.toNat % 16)]

def toHex (b : Bytes) : String := String.ofList (hexChars b)

def ofText (s : String) : Bytes := s.toUTF8.data.toList

/-- The text whose UTF-8 form this is, if there is one. -/
def toText? (b : Bytes) : Option String := String.fromUTF8? ⟨b.toArray⟩

@[simp] theorem length_ofText (s : String) : (ofText s).length = s.utf8ByteSize := rfl

/-- Two byte strings of one length, combined byte by byte with exclusive or. -/
def xor (a b : Bytes) : Bytes := List.zipWith (· ^^^ ·) a b

end Bytes

end SealedDatagram
