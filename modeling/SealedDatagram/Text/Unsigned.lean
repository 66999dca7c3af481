import SealedDatagram.Text.Scan
/-!
Unsigned numbers as users write them: an optional plus sign and decimal digits, nothing else, and
not too large.
-/

namespace SealedDatagram.Text

/-- The number below `bound` that a text spells. -/
def unsigned? (bound : Nat) (s : String) : Option Nat :=
  let cs := match s.toList with
    | '+' :: r => r
    | cs => cs
  if !cs.isEmpty && cs.all (isDigit 10) then numberBelow? 10 bound cs else none

end SealedDatagram.Text
