/-!
Scanners, which read a text from its front. A scanner gives a value and leaves what follows it, or
refuses; of alternatives the first that does not refuse counts, and each starts at the same place.
-/

namespace SealedDatagram.Text

abbrev Scan (α : Type) := StateT (List Char) Option α

namespace Scan

variable {α : Type}

def refuse : Scan α := fun _ => none

def demand (b : Bool) : Scan Unit := if b then pure () else refuse

/-- The next character, which has to pass a test. -/
def satisfy (p : Char → Bool) : Scan Char := fun cs =>
  match cs with
  | c :: r => if p c then some (c, r) else none
  | [] => none

def char (c : Char) : Scan Unit := discard (satisfy (· == c))

def literal : List Char → Scan Unit
  | [] => pure ()
  | c :: r => do
    char c
    literal r

def rest : Scan (List Char) := get

def peek? : Scan (Option Char) := return (← rest).head?

def takeWhile (p : Char → Bool) : Scan (List Char) := fun cs =>
  some (cs.takeWhile p, cs.dropWhile p)

def takeWhile1 (p : Char → Bool) : Scan (List Char) := do
  let cs ← takeWhile p
  demand !cs.isEmpty
  return cs

def maybe (x : Scan α) : Scan (Option α) := (some <$> x) <|> pure none

/-- Goes on from a value as long as a step does not refuse. Each step but the last takes up some of
the text, so that there are no more than the text has characters; `bound` has as many. -/
def iterateWithin (step : α → Scan α) : (bound : List Char) → α → Scan α
  | [], a, cs => some (a, cs)
  | _ :: bound, a, cs =>
    match step a cs with
    | some (a, r) => iterateWithin step bound a r
    | none => some (a, cs)

/-- Goes on from a value as long as a step does not refuse; each has to take up some of the text. -/
def iterate (step : α → Scan α) (a : α) : Scan α := fun cs => iterateWithin step cs a cs

/-- As many values as there are; each has to take up some of the text. -/
def many (x : Scan α) : Scan (List α) := do
  return (← iterate (fun l => do return (← x) :: l) []).reverse

/-- Values with a separator between each two; there may be none. -/
def separated (x : Scan α) (separator : Scan Unit) : Scan (List α) :=
  (do return (← x) :: (← many (separator *> x))) <|> pure []

def whole? (x : Scan α) (cs : List Char) : Option α :=
  match x cs with
  | some (a, []) => some a
  | _ => none

end Scan

def digit? (base : Nat) (c : Char) : Option Nat :=
  let n := c.toNat
  let v := if 48 ≤ n ∧ n ≤ 57 then n - 48
    else if 97 ≤ n ∧ n ≤ 102 then n - 87
    else if 65 ≤ n ∧ n ≤ 70 then n - 55
    else 16
  if v < base then some v else none

def isDigit (base : Nat) (c : Char) : Bool := (digit? base c).isSome

/-- The number that digits spell; what is no digit is passed over. -/
def number (base : Nat) (cs : List Char) : Nat :=
  (cs.filterMap (digit? base)).foldl (fun n d => n * base + d) 0

/-- The number that digits spell if it is below a bound; reading stops where it no longer can be. -/
def numberBelow? (base bound : Nat) (cs : List Char) : Option Nat :=
  (cs.filterMap (digit? base)).foldlM
    (fun n d => if n * base + d < bound then some (n * base + d) else none) 0

theorem le_foldl_digits {base : Nat} (hb : 0 < base) (ds : List Nat) (n : Nat) :
    n ≤ ds.foldl (fun n d => n * base + d) n := by
  induction ds generalizing n with
  | nil => exact Nat.le_refl n
  | cons d ds ih =>
    have := Nat.le_mul_of_pos_right n hb
    exact Nat.le_trans (by omega) (ih (n * base + d))

theorem foldlM_digits {base bound : Nat} (hb : 0 < base) (ds : List Nat) (n : Nat)
    (hn : n < bound) :
    ds.foldlM (fun n d => if n * base + d < bound then some (n * base + d) else none) n =
      if ds.foldl (fun n d => n * base + d) n < bound
      then some (ds.foldl (fun n d => n * base + d) n) else none := by
  induction ds generalizing n with
  | nil => simp [hn]
  | cons d ds ih =>
    rw [List.foldlM_cons, List.foldl_cons]
    by_cases h : n * base + d < bound
    · rw [if_pos h]
      exact ih _ h
    · have := le_foldl_digits hb ds (n * base + d)
      rw [if_neg h, if_neg (by omega)]
      rfl

theorem numberBelow?_eq {base bound : Nat} (hb : 0 < base) (h : 0 < bound) (cs : List Char) :
    numberBelow? base bound cs =
      if number base cs < bound then some (number base cs) else none :=
  foldlM_digits hb _ 0 h

end SealedDatagram.Text
