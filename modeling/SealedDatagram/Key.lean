import SealedDatagram.Error
import SealedDatagram.Curve.X25519
/-!
Keys as the protocol handles them. A public key is 32 bytes that are kept as they came, but two of
them are the same key when they name the same coordinate. A session key is a text of 12 to 64 bytes.
-/

namespace SealedDatagram

structure PublicKey where
  bytes : Bytes
  length_eq : bytes.length = 32
  deriving DecidableEq

namespace PublicKey

def ofBytes? (b : Bytes) : Option PublicKey := if h : b.length = 32 then some ⟨b, h⟩ else none

/-- Two keys are the same if they name the same coordinate. -/
def same (a b : PublicKey) : Bool := X25519.coordinate a.bytes == X25519.coordinate b.bytes

end PublicKey

structure SessionKey where
  text : String
  min_le : 12 ≤ text.utf8ByteSize
  le_max : text.utf8ByteSize ≤ 64
  deriving DecidableEq

namespace SessionKey

def bytes (k : SessionKey) : Bytes := Bytes.ofText k.text

/-- A key must have 12 to 64 bytes; an empty one is refused in words of its own. -/
def ofText (s : String) : Except Error SessionKey :=
  if s.isEmpty then .error (.session .emptySessionKey)
  else if h : 12 ≤ s.utf8ByteSize ∧ s.utf8ByteSize ≤ 64 then .ok ⟨s, h.1, h.2⟩
  else .error (.session .sessionKeyLength)

theorem utf8Size_hexDigit {n : Nat} (h : n < 16) : (Bytes.hexDigit n).utf8Size = 1 := by
  have : ∀ k : Fin 16, (Bytes.hexDigit k.val).utf8Size = 1 := by decide
  exact this ⟨n, h⟩

theorem utf8ByteSize_toHex (b : Bytes) : b.toHex.utf8ByteSize = 2 * b.length := by
  unfold Bytes.toHex
  induction b with
  | nil => rfl
  | cons x r ih =>
    have hx := x.toNat_lt
    simp only [Bytes.hexChars, List.flatMap_cons, List.cons_append, List.nil_append] at ih ⊢
    rw [String.ofList_cons, String.ofList_cons]
    simp only [String.utf8ByteSize_append, String.utf8ByteSize_singleton, ih, List.length_cons]
    rw [utf8Size_hexDigit (by omega), utf8Size_hexDigit (by omega)]
    omega

def ofRaw (b : Bytes) (h : b.length = 32) : SessionKey where
  text := b.toHex
  min_le := by rw [utf8ByteSize_toHex]; omega
  le_max := by rw [utf8ByteSize_toHex]; omega

def shown (k : SessionKey) : String := s!"SessionKey(<{k.text.utf8ByteSize} bytes>)"

end SessionKey

end SealedDatagram
