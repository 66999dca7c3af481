import SealedDatagram.Bytes
import SealedDatagram.Error
/-!
The written form of a field. A word is four bytes, most significant first; a byte string is its
length as a word, the bytes, and zero bytes up to the next multiple of four.
-/

namespace SealedDatagram.Field

/-- Zero bytes that follow a byte string of length `n`. -/
def padding (n : Nat) : Nat := (4 - n % 4) % 4

def blobSize (n : Nat) : Nat := 4 + n + padding n

/-- Whether the size of the written form of a byte string of length `n` is a number of 64 bits. -/
def fits (n : Nat) : Bool := blobSize n < UInt64.size

theorem padding_lt (n : Nat) : padding n < 4 := Nat.mod_lt _ (by decide)

def word (w : UInt32) : Bytes := Bytes.ofNatBE 4 w.toNat

@[simp] theorem length_word (w : UInt32) : (word w).length = 4 := by simp [word]

/-- A signed number as its two's complement word. -/
def integer (i : Int32) : Bytes := word i.toUInt32

/-- A byte string whose length fits a word, as written. -/
def blob (b : Bytes) : Bytes :=
  word (UInt32.ofNat b.length) ++ b ++ List.replicate (padding b.length) 0

@[simp] theorem length_blob (b : Bytes) : (blob b).length = blobSize b.length := by
  simp [blob, blobSize]; omega

/-- Writes a byte string, unless its length does not fit a word. -/
def blob? (b : Bytes) : Except Error Bytes :=
  if b.length < UInt32.size then .ok (blob b) else .error (.codec .oversizedPayload)

def text? (s : String) : Except Error Bytes := blob? (Bytes.ofText s)

end SealedDatagram.Field
