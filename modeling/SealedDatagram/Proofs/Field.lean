import Mathlib.Algebra.Order.Ring.Nat
import Mathlib.Data.List.Induction
import SealedDatagram.Field.Reader
/-!
Fields are read exactly as they are written. What a reader of fields takes from the front of a byte
string is the written form of the value it gives, so that no value has two written forms.
-/

namespace SealedDatagram

namespace Bytes

theorem toNatBE_eq (b : Bytes) : toNatBE b = toNatLE b.reverse := by
  unfold toNatBE
  induction b using List.reverseRecOn with
  | nil => rfl
  | append_singleton b x ih =>
    rw [List.foldl_append, ih, List.reverse_append]
    simp only [List.foldl_cons, List.foldl_nil, List.reverse_singleton, List.singleton_append,
      toNatLE]
    omega

theorem toNatLE_ofNatLE (len n : Nat) : toNatLE (ofNatLE len n) = n % 256 ^ len := by
  induction len generalizing n with
  | zero => rw [Nat.pow_zero, Nat.mod_one]; rfl
  | succ len ih =>
    have h : n % 256 ^ (len + 1) = n % 256 + 256 * (n / 256 % 256 ^ len) := by
      rw [Nat.pow_succ', Nat.mod_mul]
    rw [ofNatLE, toNatLE, ih, UInt8.toNat_ofNat', h]

theorem ofNatLE_toNatLE (b : Bytes) : ofNatLE b.length (toNatLE b) = b := by
  induction b with
  | nil => rfl
  | cons x r ih =>
    have hx := x.toNat_lt
    have hhead : UInt8.ofNat (x.toNat + 256 * toNatLE r) = x := by
      apply UInt8.toNat_inj.1
      rw [UInt8.toNat_ofNat']
      omega
    have htail : (x.toNat + 256 * toNatLE r) / 256 = toNatLE r := by omega
    rw [toNatLE, List.length_cons, ofNatLE, hhead, htail, ih]

theorem toNatLE_lt (b : Bytes) : toNatLE b < 256 ^ b.length := by
  induction b with
  | nil => exact Nat.one_pos
  | cons x r ih =>
    have hx := x.toNat_lt
    rw [toNatLE, List.length_cons, Nat.pow_succ']
    omega

theorem toNatBE_ofNatBE (len n : Nat) : toNatBE (ofNatBE len n) = n % 256 ^ len := by
  rw [toNatBE_eq, ofNatBE, List.reverse_reverse, toNatLE_ofNatLE]

theorem ofNatBE_toNatBE (b : Bytes) : ofNatBE b.length (toNatBE b) = b := by
  rw [toNatBE_eq, ofNatBE, ← List.length_reverse, ofNatLE_toNatLE, List.reverse_reverse]

theorem toText?_eq_some_iff {b : Bytes} {s : String} : toText? b = some s ↔ b = ofText s := by
  unfold toText? String.fromUTF8? ofText
  constructor
  · intro h
    split at h
    · rw [← Option.some.inj h]
      rfl
    · cases h
  · rintro rfl
    exact dif_pos s.isValidUTF8

end Bytes

section
variable {ε α β : Type} {x : Except ε α} {f : α → Except ε β}

theorem Except.bind_eq_ok_iff {c : β} : x >>= f = .ok c ↔ ∃ a, x = .ok a ∧ f a = .ok c := by
  cases x <;> simp [bind, Except.bind]

theorem Except.bind_eq_error_iff {err : ε} :
    x >>= f = .error err ↔ x = .error err ∨ ∃ a, x = .ok a ∧ f a = .error err := by
  cases x <;> simp [bind, Except.bind]

end

theorem Field.word_toNatBE {b : Bytes} (h : b.length = 4) :
    Field.word (UInt32.ofNat (Bytes.toNatBE b)) = b := by
  have hlt : Bytes.toNatBE b < 4294967296 := by
    have := Bytes.toNatLE_lt b.reverse
    rw [← Bytes.toNatBE_eq, List.length_reverse, h] at this
    exact this
  have hnat : (UInt32.ofNat (Bytes.toNatBE b)).toNat = Bytes.toNatBE b := by
    rw [UInt32.toNat_ofNat']
    exact Nat.mod_eq_of_lt hlt
  rw [Field.word, hnat, ← h, Bytes.ofNatBE_toNatBE]

theorem Field.toNatBE_word (w : UInt32) : UInt32.ofNat (Bytes.toNatBE (Field.word w)) = w := by
  have hw : w.toNat < 256 ^ 4 := lt_of_lt_of_eq w.toNat_lt (by decide)
  rw [Field.word, Bytes.toNatBE_ofNatBE, Nat.mod_eq_of_lt hw, UInt32.ofNat_toNat]

theorem Field.word_inj {v w : UInt32} : Field.word v = Field.word w ↔ v = w := by
  constructor
  · intro h
    rw [← Field.toNatBE_word v, h, Field.toNatBE_word]
  · intro h
    rw [h]

namespace Reader

variable {α β : Type} {b rest : Bytes}

theorem runOn_bind (r : Reader α) (f : α → Reader β) (b : Bytes) :
    (r >>= f).runOn b = match r.runOn b with
      | (.ok a, b') => (f a).runOn b'
      | (.error e, b') => (.error e, b') := by
  change ExceptT.bindCont f (r.runOn b).1 (r.runOn b).2 = _
  rcases r.runOn b with ⟨_ | _, _⟩ <;> rfl

theorem runOn_tryCatch (r : Reader α) (f : Error → Reader α) (b : Bytes) :
    (tryCatch r f).runOn b = match r.runOn b with
      | (.ok a, b') => (.ok a, b')
      | (.error e, b') => (f e).runOn b' := by
  unfold runOn
  simp only [tryCatch, tryCatchThe, MonadExceptOf.tryCatch, ExceptT.tryCatch, ExceptT.run_mk,
    StateT.run_bind]
  change (StateT.run r.run b >>= _ : Id (Except Error α × Bytes)) = _
  rcases StateT.run r.run b with ⟨_ | _, _⟩ <;> rfl

theorem runOn_pure (a : α) (b : Bytes) : (pure a : Reader α).runOn b = (.ok a, b) := rfl

theorem runOn_throw (e : Error) (b : Bytes) : (throw e : Reader α).runOn b = (.error e, b) := rfl

theorem fault_ne_ok {f : FieldFault} {a : α} : (fault f : Reader α).runOn b ≠ (.ok a, rest) := nofun

theorem runOn_get (b : Bytes) : (get : Reader Bytes).runOn b = (.ok b, b) := rfl

theorem runOn_liftExcept (x : Except Error α) (b : Bytes) :
    (liftM x : Reader α).runOn b = (x, b) := rfl

theorem bind_eq_ok_iff {r : Reader α} {f : α → Reader β} {c : β} :
    (r >>= f).runOn b = (.ok c, rest) ↔
      ∃ a b', r.runOn b = (.ok a, b') ∧ (f a).runOn b' = (.ok c, rest) := by
  rw [runOn_bind]
  constructor
  · intro h
    rcases hr : r.runOn b with ⟨e | a, b'⟩
    · rw [hr] at h
      cases h
    · rw [hr] at h
      exact ⟨a, b', rfl, h⟩
  · rintro ⟨a, b', hr, h⟩
    rw [hr]
    exact h

theorem pure_eq_ok_iff {a c : α} :
    (pure a : Reader α).runOn b = (.ok c, rest) ↔ a = c ∧ b = rest := by
  rw [runOn_pure, Prod.mk.injEq, Except.ok.injEq]

theorem get_eq_ok_iff {a : Bytes} :
    (get : Reader Bytes).runOn b = (.ok a, rest) ↔ b = a ∧ b = rest := pure_eq_ok_iff

theorem unless_eq_ok_iff {c : Prop} [Decidable c] {f : FieldFault} {r : Reader α} {a : α} :
    (if c then fault f else r).runOn b = (.ok a, rest) ↔ ¬ c ∧ r.runOn b = (.ok a, rest) := by
  by_cases h : c
  · rw [if_pos h]
    exact iff_of_false fault_ne_ok fun hr => hr.1 h
  · rw [if_neg h, and_iff_right h]

theorem parse_eq_ok_iff {r : Reader α} {a : α} :
    r.parse b = .ok a ↔ ∃ rest, r.runOn b = (.ok a, rest) := by
  unfold parse
  rcases r.runOn b with ⟨x, rest⟩
  simp

theorem runOn_take (n : Nat) (b : Bytes) : (take n).runOn b =
    if n ≤ b.length then (.ok (b.take n), b.drop n) else (.error (.codec .shortBuffer), b) := by
  unfold take
  rw [runOn_bind, runOn_get]
  dsimp only
  split <;> rfl

theorem take_eq_ok_iff {n : Nat} {a : Bytes} :
    (take n).runOn b = (.ok a, rest) ↔ a.length = n ∧ b = a ++ rest := by
  rw [runOn_take]
  constructor
  · intro h
    by_cases hn : n ≤ b.length
    · rw [if_pos hn] at h
      obtain ⟨ha, rfl⟩ := Prod.mk.inj h
      obtain rfl := Except.ok.inj ha
      exact ⟨List.length_take_of_le hn, (List.take_append_drop n b).symm⟩
    · rw [if_neg hn] at h
      cases h
  · rintro ⟨rfl, rfl⟩
    rw [if_pos (by simp), List.take_left, List.drop_left]

theorem rest_eq_ok_iff {a : Bytes} : Reader.rest.runOn b = (.ok a, rest) ↔ a = b ∧ rest = [] := by
  have hrun : Reader.rest.runOn b = (.ok b, []) := rfl
  rw [hrun, Prod.mk.injEq, Except.ok.injEq]
  constructor <;> rintro ⟨rfl, rfl⟩ <;> exact ⟨rfl, rfl⟩

theorem word_eq_ok_iff {w : UInt32} :
    word.runOn b = (.ok w, rest) ↔ b = Field.word w ++ rest := by
  unfold word
  rw [bind_eq_ok_iff]
  constructor
  · rintro ⟨a, b', ha, hw⟩
    obtain ⟨hlen, rfl⟩ := take_eq_ok_iff.1 ha
    obtain ⟨rfl, rfl⟩ := pure_eq_ok_iff.1 hw
    rw [Field.word_toNatBE hlen]
  · rintro rfl
    refine ⟨Field.word w, rest, take_eq_ok_iff.2 ⟨Field.length_word w, rfl⟩, ?_⟩
    exact pure_eq_ok_iff.2 ⟨Field.toNatBE_word w, rfl⟩

theorem integer_eq_ok_iff {i : Int32} :
    integer.runOn b = (.ok i, rest) ↔ b = Field.integer i ++ rest := by
  unfold integer Field.integer
  simp only [bind_eq_ok_iff, pure_eq_ok_iff, word_eq_ok_iff]
  constructor
  · rintro ⟨w, b', rfl, rfl, rfl⟩
    rw [UInt32.toUInt32_toInt32]
  · rintro rfl
    exact ⟨i.toUInt32, rest, rfl, Int32.toInt32_toUInt32 i, rfl⟩

theorem finish_eq_ok_iff {u : Unit} : finish.runOn b = (.ok u, rest) ↔ b = [] ∧ rest = [] := by
  have hrun : finish.runOn b =
      if b.isEmpty then (.ok (), b) else (.error (.codec .trailingBytes), b) := by
    unfold finish
    rw [runOn_bind, runOn_get]
    dsimp only
    split <;> rfl
  rw [hrun]
  cases b with
  | nil => simp [eq_comm]
  | cons x b => simp

theorem any_ne_zero_eq_false_iff {n : Nat} {z : Bytes} (hz : z.length = n) :
    z.any (· != 0) = false ↔ z = List.replicate n 0 := by
  rw [List.eq_replicate_iff, List.any_eq_false]
  simp [hz]

/-- A limit may be larger than any length that fits a word. -/
theorem blob_eq_ok_iff {max : Nat} {a : Bytes} : (blob max).runOn b = (.ok a, rest) ↔
    a.length ≤ max ∧ a.length < UInt32.size ∧ b = Field.blob a ++ rest := by
  unfold blob
  simp only [bind_eq_ok_iff, unless_eq_ok_iff, pure_eq_ok_iff, get_eq_ok_iff, word_eq_ok_iff,
    take_eq_ok_iff, Bool.not_eq_true]
  constructor
  · rintro ⟨w, _, rfl, hmax, _, _, ⟨rfl, rfl⟩, -, a, _, ⟨hlen, rfl⟩, z, _, ⟨hz, rfl⟩, hzero,
      rfl, rfl⟩
    have hword : UInt32.ofNat a.length = w := by rw [hlen, UInt32.ofNat_toNat]
    have hpad := (any_ne_zero_eq_false_iff hz).1 hzero
    refine ⟨by omega, hlen ▸ w.toNat_lt, ?_⟩
    rw [Field.blob, hword, hlen, hpad, List.append_assoc, List.append_assoc]
  · rintro ⟨ha, hsize, rfl⟩
    have hnat : (UInt32.ofNat a.length).toNat = a.length := UInt32.toNat_ofNat_of_lt' hsize
    refine ⟨UInt32.ofNat a.length, a ++ (List.replicate (Field.padding a.length) 0 ++ rest),
      by rw [Field.blob, List.append_assoc, List.append_assoc], ?_⟩
    rw [hnat]
    exact ⟨Nat.not_lt.2 ha, _, _, ⟨rfl, rfl⟩, by simp, a, _, ⟨rfl, rfl⟩, _, rest,
      ⟨List.length_replicate, rfl⟩, (any_ne_zero_eq_false_iff List.length_replicate).2 rfl,
      rfl, rfl⟩

theorem blob_eq_ok_iff_of_lt {max : Nat} (hmax : max < UInt32.size) {a : Bytes} :
    (blob max).runOn b = (.ok a, rest) ↔ a.length ≤ max ∧ b = Field.blob a ++ rest := by
  rw [blob_eq_ok_iff]
  exact and_congr_right fun ha => and_iff_right (Nat.lt_of_le_of_lt ha hmax)

theorem fixed_eq_ok_iff {n : Nat} {bad : FieldFault} {a : { a : Bytes // a.length = n }} :
    (fixed n bad).runOn b = (.ok a, rest) ↔ n < UInt32.size ∧ b = Field.blob a.val ++ rest := by
  have hcatch : ∀ {f : Error → Error} {c r : Bytes},
      (tryCatch (blob n) fun e => throw (f e)).runOn b = (.ok c, r) ↔
        (blob n).runOn b = (.ok c, r) := by
    intro f c r
    rw [runOn_tryCatch]
    rcases (blob n).runOn b with ⟨_ | _, _⟩
    · simp [runOn_throw]
    · rfl
  unfold fixed
  rw [bind_eq_ok_iff]
  constructor
  · rintro ⟨c, b', hc, h⟩
    split at h
    · rename_i hn
      obtain ⟨rfl, rfl⟩ := pure_eq_ok_iff.1 h
      exact hn ▸ (blob_eq_ok_iff.1 (hcatch.1 hc)).2
    · exact absurd h fault_ne_ok
  · rintro ⟨hn, rfl⟩
    have hle : a.val.length ≤ n := Nat.le_of_eq a.property
    refine ⟨a.val, rest, hcatch.2 ((blob_eq_ok_iff_of_lt hn).2 ⟨hle, rfl⟩), ?_⟩
    rw [dif_pos a.property]
    rfl

theorem text_eq_ok_iff {max : Nat} {s : String} : (text max).runOn b = (.ok s, rest) ↔
    s.utf8ByteSize ≤ max ∧ s.utf8ByteSize < UInt32.size ∧
      b = Field.blob (Bytes.ofText s) ++ rest := by
  unfold text
  rw [bind_eq_ok_iff]
  constructor
  · rintro ⟨a, b', ha, h⟩
    split at h
    · rename_i s' hs
      obtain ⟨rfl, rfl⟩ := pure_eq_ok_iff.1 h
      obtain rfl := Bytes.toText?_eq_some_iff.1 hs
      exact blob_eq_ok_iff.1 ha
    · exact absurd h fault_ne_ok
  · intro h
    refine ⟨Bytes.ofText s, rest, blob_eq_ok_iff.2 h, ?_⟩
    rw [Bytes.toText?_eq_some_iff.2 rfl]
    rfl

theorem text_eq_ok_iff_of_lt {max : Nat} (hmax : max < UInt32.size) {s : String} :
    (text max).runOn b = (.ok s, rest) ↔
      s.utf8ByteSize ≤ max ∧ b = Field.blob (Bytes.ofText s) ++ rest := by
  rw [text_eq_ok_iff]
  exact and_congr_right fun hs => and_iff_right (Nat.lt_of_le_of_lt hs hmax)

end Reader

/-- A byte string is told from what follows it. -/
theorem Field.blob_append_inj {a c x y : Bytes} (ha : a.length < UInt32.size)
    (hc : c.length < UInt32.size) (h : Field.blob a ++ x = Field.blob c ++ y) : a = c ∧ x = y := by
  have hread {d z : Bytes} (hd : d.length < UInt32.size) :
      (Reader.blob (UInt32.size - 1)).runOn (Field.blob d ++ z) = (.ok d, z) :=
    Reader.blob_eq_ok_iff.2 ⟨Nat.le_pred_of_lt hd, hd, rfl⟩
  have hsame := hread (z := x) ha
  rw [h, hread hc] at hsame
  obtain ⟨hac, hxy⟩ := Prod.mk.inj hsame
  exact ⟨(Except.ok.inj hac).symm, hxy.symm⟩

end SealedDatagram
