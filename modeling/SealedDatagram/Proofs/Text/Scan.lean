import Mathlib.Data.List.Basic
import SealedDatagram.Text.Scan
/-!
How scanners go over a text: what they do where it begins with the one thing or the other, and how
repeated steps get through it, each taking up some of it, to the place where the step refuses.
-/

namespace SealedDatagram.Text.Scan

variable {α β : Type}

@[simp] theorem pure_apply (a : α) (cs : List Char) : (pure a : Scan α) cs = some (a, cs) := rfl

@[simp] theorem bind_apply (x : Scan α) (f : α → Scan β) (cs : List Char) :
    (x >>= f) cs = (x cs).bind fun p => f p.1 p.2 := rfl

@[simp] theorem map_apply (f : α → β) (x : Scan α) (cs : List Char) :
    (f <$> x) cs = (x cs).map fun p => (f p.1, p.2) := by
  change (x cs).bind (fun p => some (f p.1, p.2)) = _
  cases x cs <;> rfl

@[simp] theorem seqRight_apply (x : Scan α) (y : Scan β) (cs : List Char) :
    (x *> y) cs = (x cs).bind fun p => y p.2 := rfl

@[simp] theorem orElse_apply (x y : Scan α) (cs : List Char) :
    (x <|> y) cs = (x cs).or (y cs) := by
  change (x cs <|> y cs) = _
  cases x cs <;> rfl

@[simp] theorem discard_apply (x : Scan α) (cs : List Char) :
    (discard x : Scan PUnit) cs = (x cs).map fun p => ((), p.2) := map_apply _ x cs

@[simp] theorem maybe_apply (x : Scan α) (cs : List Char) :
    maybe x cs = some (match x cs with
      | some (a, r) => (some a, r)
      | none => (none, cs)) := by
  unfold maybe
  rw [orElse_apply, map_apply]
  cases x cs <;> rfl

@[simp] theorem satisfy_cons (p : Char → Bool) (c : Char) (cs : List Char) :
    satisfy p (c :: cs) = if p c then some (c, cs) else none := rfl

@[simp] theorem char_cons (c d : Char) (cs : List Char) :
    char c (d :: cs) = if d = c then some ((), cs) else none := by
  unfold char
  rw [discard_apply, satisfy_cons]
  by_cases h : d = c <;> simp [h]

@[simp] theorem literal_nil (cs : List Char) : literal [] cs = some ((), cs) := rfl

@[simp] theorem literal_cons (c : Char) (l cs : List Char) :
    literal (c :: l) cs = (char c cs).bind fun p => literal l p.2 := rfl

@[simp] theorem demand_apply (b : Bool) (cs : List Char) :
    demand b cs = if b then some ((), cs) else none := by
  cases b <;> rfl

@[simp] theorem rest_apply (cs : List Char) : rest cs = some (cs, cs) := rfl

@[simp] theorem set_apply (r cs : List Char) : (set r : Scan PUnit) cs = some ((), r) := rfl

@[simp] theorem peek?_apply (cs : List Char) : peek? cs = some (cs.head?, cs) := rfl

/-- A text that does not begin with a character that passes a test. -/
def Stops (p : Char → Bool) (cs : List Char) : Prop := ∀ c ∈ cs.head?, p c = false

section Runs
variable {p : Char → Bool} {c : Char} {l cs : List Char}

@[simp] theorem stops_nil (p : Char → Bool) : Stops p [] := fun _ hc => nomatch hc

@[simp] theorem stops_cons : Stops p (c :: cs) ↔ p c = false := by
  simp [Stops]

theorem Stops.append (h : Stops p l) (hne : l ≠ []) : Stops p (l ++ cs) := by
  obtain ⟨a, l, rfl⟩ := List.exists_cons_of_ne_nil hne
  exact stops_cons.2 (stops_cons.1 h)

theorem Stops.char_eq (h : Stops (· == c) cs) : char c cs = none := by
  cases cs with
  | nil => rfl
  | cons a cs =>
    rw [stops_cons, beq_eq_false_iff_ne] at h
    rw [char_cons, if_neg h]

theorem Stops.literal_eq (h : Stops (· == c) cs) (l : List Char) : literal (c :: l) cs = none := by
  rw [literal_cons, h.char_eq, Option.bind_none]

theorem Stops.takeWhile_eq (h : Stops p cs) : cs.takeWhile p = [] := by
  cases cs with
  | nil => rfl
  | cons c cs => rw [List.takeWhile_cons, stops_cons.1 h]; rfl

theorem Stops.dropWhile_eq (h : Stops p cs) : cs.dropWhile p = cs := by
  cases cs with
  | nil => rfl
  | cons c cs => rw [List.dropWhile_cons, stops_cons.1 h]; rfl

theorem Stops.takeWhile_append (h : Stops p cs) (hl : ∀ a ∈ l, p a = true) :
    (l ++ cs).takeWhile p = l := by
  rw [List.takeWhile_append_of_pos hl, h.takeWhile_eq, List.append_nil]

theorem Stops.dropWhile_append (h : Stops p cs) (hl : ∀ a ∈ l, p a = true) :
    (l ++ cs).dropWhile p = cs := by
  rw [List.dropWhile_append_of_pos hl, h.dropWhile_eq]

@[simp] theorem takeWhile_apply (p : Char → Bool) (cs : List Char) :
    takeWhile p cs = some (cs.takeWhile p, cs.dropWhile p) := rfl

theorem takeWhile1_cons (p : Char → Bool) (c : Char) (cs : List Char) :
    takeWhile1 p (c :: cs) =
      if p c then some (c :: cs.takeWhile p, cs.dropWhile p) else none := by
  by_cases h : p c <;> simp [takeWhile1, h]

theorem Stops.takeWhile1_append (h : Stops p cs) (hne : l ≠ []) (hl : ∀ a ∈ l, p a = true) :
    takeWhile1 p (l ++ cs) = some (l, cs) := by
  obtain ⟨a, l, rfl⟩ := List.exists_cons_of_ne_nil hne
  obtain ⟨ha, hl⟩ := List.forall_mem_cons.1 hl
  rw [List.cons_append, takeWhile1_cons, if_pos ha, h.takeWhile_append hl, h.dropWhile_append hl]

end Runs

/-- A step goes over a text, with these values, up to a place where it refuses. -/
inductive Chain (x : Scan α) : List Char → List α → List Char → Prop
  | nil {cs : List Char} (h : x cs = none) : Chain x cs [] cs
  | cons {cs r rest : List Char} {a : α} {as : List α} (h : x cs = some (a, r))
      (hlt : r.length < cs.length) (t : Chain x r as rest) : Chain x cs (a :: as) rest

namespace Chain

variable {x : Scan α} {cs rest : List Char} {as : List α}

/-- There may be as many steps as the text has characters, which are enough. -/
theorem iterateWithin_eq (h : Chain x cs as rest) {step : List α → Scan (List α)}
    (hstep : ∀ l cs, step l cs = (x cs).map fun p => (p.1 :: l, p.2)) {bound : List Char}
    (hb : cs.length ≤ bound.length) (acc : List α) :
    iterateWithin step bound acc cs = some (as.reverse ++ acc, rest) := by
  induction h generalizing bound acc with
  | nil h =>
    cases bound with
    | nil => rfl
    | cons b bound => rw [iterateWithin, hstep, h]; rfl
  | cons h hlt t ih =>
    cases bound with
    | nil =>
      rw [List.length_nil] at hb
      omega
    | cons b bound =>
      rw [List.length_cons] at hb
      rw [iterateWithin, hstep, h]
      dsimp only [Option.map_some]
      rw [ih (by omega), List.reverse_cons, List.append_assoc, List.singleton_append]

theorem many_eq (h : Chain x cs as rest) : many x cs = some (as, rest) := by
  have hiterate : iterate (fun l => do return (← x) :: l) [] cs = some (as.reverse ++ [], rest) :=
    h.iterateWithin_eq (fun l cs => map_apply (· :: l) x cs) (Nat.le_refl _) []
  unfold many
  rw [bind_apply, hiterate]
  simp

theorem of_chars {f : Char → α} {l : List Char} (hl : ∀ c ∈ l, ∀ r, x (c :: r) = some (f c, r))
    (hrest : x rest = none) : Chain x (l ++ rest) (l.map f) rest := by
  induction l with
  | nil => exact .nil hrest
  | cons c l ih =>
    obtain ⟨hc, hl⟩ := List.forall_mem_cons.1 hl
    exact .cons (hc _) (Nat.lt_succ_self _) (ih hl)

end Chain

/-- Repeated steps spell a text, in whatever parts, up to a place where they refuse. -/
def Covers (x : Scan (List Char)) (cs out rest : List Char) : Prop :=
  ∃ parts, Chain x cs parts rest ∧ parts.flatten = out

/-- Where it comes first, `s` is read as `c`. -/
def Stands (x : Scan (List Char)) (s : List Char) (c : Char) : Prop :=
  ∀ {cs out rest : List Char}, Covers x cs out rest → Covers x (s ++ cs) (c :: out) rest

section Covers
variable {x : Scan (List Char)} {p : Char → Bool} {c : Char} {s cs out rest : List Char}

theorem covers_nil (h : x cs = none) : Covers x cs [] cs := ⟨[], .nil h, rfl⟩

theorem Covers.step (h : Covers x cs out rest) {l : List Char} (hx : x (s ++ cs) = some (l, cs))
    (hs : s ≠ []) : Covers x (s ++ cs) (l ++ out) rest := by
  obtain ⟨parts, hchain, rfl⟩ := h
  refine ⟨l :: parts, .cons hx ?_ hchain, rfl⟩
  rw [List.length_append]
  have := List.length_pos_of_ne_nil hs
  omega

theorem stands_of_step (hs : s ≠ []) (hx : ∀ r, x (s ++ r) = some ([c], r)) : Stands x s c :=
  fun h => h.step (hx _) hs

/-- Characters that are taken in runs: one more in front makes a run longer, or one of its own. -/
theorem stands_of_run (hx : ∀ c r, p c = true → x (c :: r) = takeWhile1 p (c :: r))
    (hc : p c = true) : Stands x [c] c := by
  rintro cs out rest ⟨parts, hchain, rfl⟩
  have hfirst : x (c :: cs) = some (c :: cs.takeWhile p, cs.dropWhile p) := by
    rw [hx c cs hc, takeWhile1_cons, if_pos hc]
  have hlt : (cs.dropWhile p).length < (c :: cs).length :=
    Nat.lt_succ_of_le (List.dropWhile_sublist p).length_le
  rw [List.singleton_append]
  cases cs with
  | nil => exact ⟨[c] :: parts, .cons hfirst hlt hchain, rfl⟩
  | cons d cs =>
    by_cases hd : p d = true
    · cases hchain with
      | nil h =>
        rw [hx d cs hd, takeWhile1_cons, if_pos hd] at h
        cases h
      | @cons _ r _ a parts h _ t =>
        rw [hx d cs hd, takeWhile1_cons, if_pos hd] at h
        obtain ⟨rfl, rfl⟩ := Prod.mk.inj (Option.some.inj h)
        rw [List.takeWhile_cons_of_pos hd, List.dropWhile_cons_of_pos hd] at hfirst
        rw [List.dropWhile_cons_of_pos hd] at hlt
        exact ⟨(c :: d :: cs.takeWhile p) :: parts, .cons hfirst hlt t, rfl⟩
    · rw [List.takeWhile_cons_of_neg hd, List.dropWhile_cons_of_neg hd] at hfirst
      exact ⟨[c] :: parts, .cons hfirst (Nat.lt_succ_self _) hchain, rfl⟩

end Covers

end SealedDatagram.Text.Scan
