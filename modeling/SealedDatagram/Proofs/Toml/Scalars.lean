import SealedDatagram.Proofs.Toml.Strings
import SealedDatagram.Toml.Statement
/-!
A scalar that is written at the end of a line is read as the same scalar. The digits of an integer
begin no date, because a date goes on with a dash or a colon, and no float, because that goes on
with a fraction or an exponent.
-/

namespace SealedDatagram.Toml

open Text Text.Scan

theorem digit?_of_isDigit {c : Char} (h : c.isDigit = true) :
    digit? 10 c = some (c.toNat - 48) := by
  simp only [Char.isDigit, Bool.and_eq_true, decide_eq_true_eq] at h
  have hlow : 48 ≤ c.toNat := h.1
  have hhigh : c.toNat ≤ 57 := h.2
  have hv : c.toNat - 48 < 10 := by omega
  simp [digit?, hlow, hhigh, hv]

/-- Digits as an integer is written: not empty, and without zeros in front. -/
structure Decimal (ds : List Char) : Prop where
  digits : ∀ d ∈ ds, isDigit 10 d = true
  ne_nil : ds ≠ []
  leading : ds.head? = some '0' → ds = ['0']

theorem toDigits_of_leading {n : Nat} (h : (Nat.toDigits 10 n).head? = some '0') : n = 0 := by
  induction n using Nat.strongRecOn with
  | ind n ih =>
    by_cases hn : n < 10
    · rw [Nat.toDigits_of_lt_base hn, List.head?_cons] at h
      have hall : ∀ m < 10, some (Nat.digitChar m) = some '0' → m = 0 := by decide
      exact hall n hn h
    · rw [Nat.toDigits_of_base_le (by decide) (Nat.not_lt.1 hn),
        List.head?_append_of_ne_nil _ Nat.toDigits_ne_nil] at h
      have := ih (n / 10) (by omega) h
      omega

theorem decimal_toDigits (n : Nat) : Decimal (Nat.toDigits 10 n) where
  digits d hd := by
    rw [isDigit, digit?_of_isDigit (Nat.isDigit_of_mem_toDigits (by decide) (by decide) hd)]
    rfl
  ne_nil := Nat.toDigits_ne_nil
  leading h := by
    rw [toDigits_of_leading h]
    rfl

theorem number_toDigits (n : Nat) : number 10 (Nat.toDigits 10 n) = n := by
  have hall : ∀ ds : List Char, (∀ d ∈ ds, d.isDigit = true) → ∀ m,
      (ds.filterMap (digit? 10)).foldl (fun n d => n * 10 + d) m = Nat.ofDigitChars 10 ds m := by
    intro ds hds
    induction ds with
    | nil => exact fun m => rfl
    | cons d ds ih =>
      intro m
      obtain ⟨hd, hds⟩ := List.forall_mem_cons.1 hds
      rw [List.filterMap_cons_some (digit?_of_isDigit hd), List.foldl_cons, ih hds,
        Nat.ofDigitChars_cons, Nat.mul_comm]
      rfl
  rw [number, hall _ (fun d hd => Nat.isDigit_of_mem_toDigits (by decide) (by decide) hd),
    Nat.ofDigitChars_ten_toDigits]

section Integers
variable {ds : List Char}

/-- Behind digits at the end of a line comes another digit, or the line ends. -/
theorem stops_digits (hds : ∀ d ∈ ds, isDigit 10 d = true) {p : Char → Bool}
    (hp : ∀ c, p c = true → isDigit 10 c = false) (hn : p '\n' = false) (r : List Char) :
    Stops p (ds ++ '\n' :: r) := by
  cases ds with
  | nil => exact stops_cons.2 hn
  | cons d ds =>
    rw [List.cons_append, stops_cons, ← Bool.not_eq_true]
    intro hd
    have hdigit := hds d List.mem_cons_self
    rw [hp d hd] at hdigit
    cases hdigit

theorem digits_append (hds : ∀ d ∈ ds, isDigit 10 d = true) (hne : ds ≠ []) (r : List Char) :
    digits 10 (ds ++ '\n' :: r) = some (ds, '\n' :: r) := by
  obtain ⟨d, ds, rfl⟩ := List.exists_cons_of_ne_nil hne
  obtain ⟨hd, hds⟩ := List.forall_mem_cons.1 hds
  have hmore : many (do discard (maybe (char '_')); satisfy (isDigit 10)) (ds ++ '\n' :: r) =
      some (ds.map id, '\n' :: r) := by
    refine (Chain.of_chars (fun c hc r => ?_) ?_).many_eq
    · have hcd := hds c hc
      have hne : c ≠ '_' := by
        rintro rfl
        cases hcd
      simp [hne, hcd]
    · rfl
  rw [List.map_id] at hmore
  unfold digits
  rw [List.cons_append, bind_apply, satisfy_cons, if_pos hd]
  dsimp only [Option.bind_some]
  rw [bind_apply, hmore]
  rfl

theorem wholeDigits_of_head {cs : List Char} (h : cs.head? ≠ some '0') :
    wholeDigits cs = digits 10 cs := by
  unfold wholeDigits
  rw [bind_apply, peek?_apply]
  dsimp only [Option.bind_some]
  generalize cs.head? = head at h
  split
  · exact absurd rfl h
  · rfl

theorem wholeDigits_append (h : Decimal ds) (r : List Char) :
    wholeDigits (ds ++ '\n' :: r) = some (ds, '\n' :: r) := by
  by_cases hhead : ds.head? = some '0'
  · rw [h.leading hhead]
    rfl
  · rw [wholeDigits_of_head (by rwa [List.head?_append_of_ne_nil _ h.ne_nil]),
      digits_append h.digits h.ne_nil]

def signed (negative : Bool) (ds : List Char) : List Char := if negative then '-' :: ds else ds

theorem exists_cons_signed (h : Decimal ds) (negative : Bool) :
    ∃ c l, signed negative ds = c :: l ∧ (c = '-' ∨ isDigit 10 c = true) := by
  cases negative with
  | true => exact ⟨'-', ds, rfl, .inl rfl⟩
  | false =>
    obtain ⟨d, l, rfl⟩ := List.exists_cons_of_ne_nil h.ne_nil
    exact ⟨d, l, rfl, .inr (h.digits d List.mem_cons_self)⟩

theorem stops_signed (h : Decimal ds) (negative : Bool) {c : Char} (hminus : c ≠ '-')
    (hc : isDigit 10 c = false) (r : List Char) :
    Stops (· == c) (signed negative ds ++ r) := by
  obtain ⟨a, l, heq, ha⟩ := exists_cons_signed h negative
  rw [heq, List.cons_append, stops_cons, beq_eq_false_iff_ne]
  rintro rfl
  rcases ha with rfl | ha
  · exact hminus rfl
  · rw [hc] at ha
    cases ha

theorem sign_signed (h : Decimal ds) (negative : Bool) (r : List Char) :
    sign (signed negative ds ++ r) = some (negative, ds ++ r) := by
  cases negative with
  | true => rfl
  | false =>
    obtain ⟨d, l, rfl⟩ := List.exists_cons_of_ne_nil h.ne_nil
    have hd := h.digits d List.mem_cons_self
    have hne : d ≠ '+' ∧ d ≠ '-' := by
      constructor <;> (rintro rfl; cases hd)
    simp [sign, signed, hne]

theorem based_signed (h : Decimal ds) (negative : Bool) {mark : Char} (hm : mark ≠ '\n')
    (base : Nat) (r : List Char) : based mark base (signed negative ds ++ '\n' :: r) = none := by
  have hopen : literal ['0', mark] (signed negative ds ++ '\n' :: r) = none := by
    cases negative with
    | true => rfl
    | false =>
      obtain ⟨d, l, rfl⟩ := List.exists_cons_of_ne_nil h.ne_nil
      by_cases hd : d = '0'
      · subst hd
        rw [h.leading rfl]
        simp [signed, Ne.symm hm]
      · simp [signed, hd]
  unfold based
  rw [bind_apply, hopen]
  rfl

theorem fitting_toDigits (n : Int64) :
    fitting (decide (n.toInt < 0)) 10 (Nat.toDigits 10 n.toInt.natAbs) = pure n := by
  have hmin : Int64.minValue.toInt = -0x8000000000000000 := by decide
  have hmax : Int64.maxValue.toInt = 0x7fffffffffffffff := by decide
  have hlow : -0x8000000000000000 ≤ n.toInt := n.le_toInt
  have hhigh : n.toInt < 0x8000000000000000 := n.toInt_lt
  have hbound : n.toInt.natAbs < Int64.minValue.toInt.natAbs + 1 := by
    rw [hmin]
    omega
  have hvalue : (if decide (n.toInt < 0) = true then -(n.toInt.natAbs : Int)
      else n.toInt.natAbs) = n.toInt := by
    simp only [decide_eq_true_eq]
    split <;> omega
  have hrange : (decide (Int64.minValue.toInt ≤ n.toInt) &&
      decide (n.toInt ≤ Int64.maxValue.toInt)) = true := by
    rw [hmin, hmax, Bool.and_eq_true, decide_eq_true_eq, decide_eq_true_eq]
    omega
  unfold fitting
  rw [numberBelow?_eq (by decide) (by decide), number_toDigits, if_pos hbound]
  dsimp only
  rw [hvalue, hrange, Int64.ofInt_toInt]
  rfl

theorem integer_signed (h : Decimal ds) {negative : Bool} {n : Int64}
    (hn : fitting negative 10 ds = pure n) (r : List Char) :
    integer (signed negative ds ++ '\n' :: r) = some (n, '\n' :: r) := by
  have hlast : (do
      let negative ← sign
      fitting negative 10 (← wholeDigits) : Scan Int64) (signed negative ds ++ '\n' :: r) =
      some (n, '\n' :: r) := by
    rw [bind_apply, sign_signed h]
    dsimp only [Option.bind_some]
    rw [bind_apply, wholeDigits_append h]
    dsimp only [Option.bind_some]
    rw [hn]
    rfl
  unfold integer
  rw [orElse_apply, orElse_apply, orElse_apply, based_signed h _ (by decide),
    based_signed h _ (by decide), based_signed h _ (by decide), hlast]
  rfl

theorem float_signed (h : Decimal ds) (negative : Bool) (r : List Char) :
    float (signed negative ds ++ '\n' :: r) = none := by
  obtain ⟨d, l, rfl⟩ := List.exists_cons_of_ne_nil h.ne_nil
  have hd := h.digits d List.mem_cons_self
  have hletter : d ≠ 'i' ∧ d ≠ 'n' := by
    constructor <;> (rintro rfl; cases hd)
  have hspecial : specialFloat (signed negative (d :: l) ++ '\n' :: r) = none := by
    simp [specialFloat, sign_signed h, hletter]
  have hdecimal : decimalFloat (signed negative (d :: l) ++ '\n' :: r) = none := by
    have hwhole := wholeDigits_append h r
    rw [List.cons_append] at hwhole
    simp [decimalFloat, sign_signed h, hwhole, exponent]
  rw [float, orElse_apply, hdecimal, hspecial]
  rfl

theorem fixedNumber_eq_some {width low high n : Nat} {cs r : List Char}
    (h : fixedNumber width low high cs = some (n, r)) :
    (cs.take width).length = width ∧ (cs.take width).all (isDigit 10) = true ∧
      r = cs.drop width := by
  simp only [fixedNumber, bind_apply, rest_apply, demand_apply, set_apply, pure_apply,
    Option.bind_some] at h
  split at h
  · rename_i hds
    rw [Bool.and_eq_true, beq_iff_eq] at hds
    rw [Option.bind_some] at h
    split at h
    · cases h
      exact ⟨hds.1, hds.2, rfl⟩
    · cases h
  · cases h

/-- A number of some digits out of an integer at the end of a line is not followed by a mark. -/
theorem fixedNumber_signed (h : Decimal ds) (negative : Bool) {width low high n : Nat}
    {r t : List Char}
    (hx : fixedNumber (width + 1) low high (signed negative ds ++ '\n' :: r) = some (n, t))
    {mark : Char} (hm : isDigit 10 mark = false) (hn : mark ≠ '\n') : Stops (· == mark) t := by
  obtain ⟨hlen, hall, rfl⟩ := fixedNumber_eq_some hx
  rw [List.all_eq_true] at hall
  cases negative with
  | true => cases hall '-' List.mem_cons_self
  | false =>
    change ∀ c ∈ (ds ++ '\n' :: r).take (width + 1), _ at hall
    change Stops _ ((ds ++ '\n' :: r).drop (width + 1))
    have hle : width + 1 ≤ ds.length := by
      by_contra hlt
      have hline : '\n' ∈ (ds ++ '\n' :: r).take (width + 1) := by
        obtain ⟨k, hk⟩ := Nat.exists_eq_add_of_lt (Nat.not_le.1 hlt)
        rw [List.take_append, show width + 1 - ds.length = k + 1 by omega]
        simp
      cases hall '\n' hline
    rw [List.drop_append_of_le_length hle]
    refine stops_digits (fun d hd => h.digits d (List.mem_of_mem_drop hd)) (fun c hc => ?_) ?_ r
    · rwa [eq_of_beq hc]
    · simpa using hn.symm

theorem datetime_signed (h : Decimal ds) (negative : Bool) (r : List Char) :
    datetime (signed negative ds ++ '\n' :: r) = none := by
  have hdate : date (signed negative ds ++ '\n' :: r) = none := by
    unfold date
    rw [bind_apply]
    cases hx : fixedNumber 4 0 9999 (signed negative ds ++ '\n' :: r) with
    | none => rfl
    | some p =>
      have hstops : Stops (· == '-') p.2 := fixedNumber_signed h negative hx rfl (by decide)
      rw [Option.bind_some, bind_apply, hstops.char_eq]
      rfl
  have htime : hourMinute (signed negative ds ++ '\n' :: r) = none := by
    unfold hourMinute
    rw [bind_apply, discard_apply]
    cases hx : fixedNumber 2 0 23 (signed negative ds ++ '\n' :: r) with
    | none => rfl
    | some p =>
      have hstops : Stops (· == ':') p.2 := fixedNumber_signed h negative hx rfl (by decide)
      rw [Option.map_some, Option.bind_some, bind_apply, hstops.char_eq]
      rfl
  simp [datetime, time, hdate, htime]

theorem toList_toString (i : Int) :
    (toString i).toList = signed (decide (i < 0)) (Nat.toDigits 10 i.natAbs) := by
  cases i with
  | ofNat n =>
    change (Nat.repr n).toList = _
    have hn : decide (Int.ofNat n < 0) = false :=
      decide_eq_false (Int.not_lt.2 (Int.natCast_nonneg n))
    rw [Nat.toList_repr, hn]
    rfl
  | negSucc n =>
    change ("-" ++ Nat.repr (n + 1)).toList = _
    rw [String.toList_append, Nat.toList_repr, decide_eq_true (Int.negSucc_lt_zero n)]
    rfl

end Integers

theorem value_of_scalar {cs r : List Char} {v : Value}
    (h : valueWithin.scalar cs = some (v, r)) : value cs = some (v, r) := by
  have hvalue : value cs = (valueWithin.scalar cs).or _ := orElse_apply _ _ _
  rw [hvalue, h]
  rfl

theorem string_of_stops {cs : List Char} (hdouble : Stops (· == '"') cs)
    (hsingle : Stops (· == '\'') cs) : string cs = none := by
  rw [string_apply, multilineBasic, multiline_of_not_opened (hdouble.literal_eq _), basicString,
    bind_apply, hdouble.char_eq, multilineLiteral, multiline_of_not_opened (hsingle.literal_eq _),
    literalString, bind_apply, hsingle.char_eq]
  rfl

theorem scalar_apply (cs : List Char) : valueWithin.scalar cs =
    ((string cs).map fun p => (Value.string p.1, p.2)).or
    (((literal ['t', 'r', 'u', 'e'] cs).map fun p => (Value.boolean true, p.2)).or
    (((literal ['f', 'a', 'l', 's', 'e'] cs).map fun p => (Value.boolean false, p.2)).or
    (((datetime cs).map fun p => (Value.datetime, p.2)).or
    (((float cs).map fun p => (Value.float p.1, p.2)).or
    ((integer cs).map fun p => (Value.integer p.1, p.2)))))) := by
  simp [valueWithin.scalar]

/-- A scalar is read as it was written at the end of a line. -/
theorem Scalar.value_write (v : Scalar) (r : List Char) :
    value (v.write.toList ++ '\n' :: r) = some (v.toValue, '\n' :: r) := by
  apply value_of_scalar
  rw [scalar_apply]
  cases v with
  | string s =>
    have hread : Toml.string ((writeString s).toList ++ '\n' :: r) = _ :=
      string_write s (stops_cons.2 rfl) (stops_cons.2 rfl)
    rw [Scalar.write, hread]
    rfl
  | integer n =>
    have hdec := decimal_toDigits n.toInt.natAbs
    have hstops (c : Char) (hminus : c ≠ '-') (hc : isDigit 10 c = false) := stops_signed hdec
      (decide (n.toInt < 0)) hminus hc ('\n' :: r)
    have hstring := string_of_stops (hstops '"' (by decide) rfl) (hstops '\'' (by decide) rfl)
    have htrue := (hstops 't' (by decide) rfl).literal_eq ['r', 'u', 'e']
    have hfalse := (hstops 'f' (by decide) rfl).literal_eq ['a', 'l', 's', 'e']
    rw [Scalar.write, toList_toString, hstring, htrue, hfalse, datetime_signed hdec,
      float_signed hdec, integer_signed hdec (fitting_toDigits n)]
    rfl
  | boolean b =>
    have hquote (c : Char) (hc : ('t' == c) = false ∧ ('f' == c) = false) :
        Stops (· == c) ((Scalar.boolean b).write.toList ++ '\n' :: r) := by
      cases b with
      | true => exact stops_cons.2 hc.1
      | false => exact stops_cons.2 hc.2
    rw [string_of_stops (hquote '"' (by decide)) (hquote '\'' (by decide))]
    cases b <;> rfl

end SealedDatagram.Toml
