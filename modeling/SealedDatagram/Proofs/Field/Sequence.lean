import Mathlib.Data.List.Forall2
import SealedDatagram.Proofs.Field
import SealedDatagram.Proofs.Recorder
/-!
Fields one behind another. Values written in order are read back by calls for the same kinds of
values, whatever comes behind them, and what such calls read is nothing but values written in order.
Calls that fail may consume a part of what they looked at, but no call gives back what another has
consumed, and none goes beyond the end, however large the limits and lengths it is given.
-/

namespace SealedDatagram

variable {b rest : Bytes}

namespace Field

/-- What is written as one field. -/
inductive Value where
  | word (w : UInt32)
  | integer (i : Int32)
  | blob (b : Bytes)
  | text (s : String)
  deriving DecidableEq

namespace Value

/-- Whether the length of a value fits a word, if it is written with its length. -/
def Fits : Value → Prop
  | .word _ | .integer _ => True
  | .blob b => b.length < UInt32.size
  | .text s => s.utf8ByteSize < UInt32.size

instance : DecidablePred Fits
  | .word _ | .integer _ => .isTrue trivial
  | .blob b => Nat.decLt b.length UInt32.size
  | .text s => Nat.decLt s.utf8ByteSize UInt32.size

def field : Value → Bytes
  | .word w => Field.word w
  | .integer i => Field.integer i
  | .blob b => Field.blob b
  | .text s => Field.blob (Bytes.ofText s)

def field? : Value → Except Error Bytes
  | .word w => return Field.word w
  | .integer i => return Field.integer i
  | .blob b => Field.blob? b
  | .text s => Field.text? s

end Value

variable {v : Value} {vs : List Value} {out written : Bytes}

def put (out : Bytes) (v : Value) : Except Error Bytes := return out ++ (← v.field?)

def writeAll (vs : List Value) : Except Error Bytes := vs.foldlM put []

theorem blob?_eq_ok_iff {a : Bytes} :
    blob? a = .ok written ↔ a.length < UInt32.size ∧ written = blob a := by
  unfold blob?
  split
  · rename_i h
    rw [Except.ok.injEq, and_iff_right h, eq_comm]
  · rename_i h
    exact iff_of_false nofun fun hw => h hw.1

theorem Value.field?_eq_ok_iff : v.field? = .ok written ↔ v.Fits ∧ written = v.field := by
  cases v with
  | word w => simp [field?, Fits, field, pure, Except.pure, eq_comm]
  | integer i => simp [field?, Fits, field, pure, Except.pure, eq_comm]
  | blob a => exact blob?_eq_ok_iff
  | text s => exact blob?_eq_ok_iff

theorem put_eq_ok_iff : put out v = .ok written ↔ v.Fits ∧ written = out ++ v.field := by
  unfold put
  rw [Except.bind_eq_ok_iff]
  constructor
  · rintro ⟨field, hfield, hw⟩
    obtain ⟨hv, rfl⟩ := Value.field?_eq_ok_iff.1 hfield
    exact ⟨hv, (Except.ok.inj hw).symm⟩
  · rintro ⟨hv, rfl⟩
    exact ⟨v.field, Value.field?_eq_ok_iff.2 ⟨hv, rfl⟩, rfl⟩

theorem foldlM_put_eq_ok_iff : vs.foldlM put out = .ok written ↔
    (∀ v ∈ vs, v.Fits) ∧ written = out ++ vs.flatMap Value.field := by
  induction vs generalizing out with
  | nil => simp [pure, Except.pure, eq_comm]
  | cons v vs ih =>
    rw [List.foldlM_cons, Except.bind_eq_ok_iff, List.forall_mem_cons, List.flatMap_cons,
      ← List.append_assoc, and_assoc]
    constructor
    · rintro ⟨out', hput, hrest⟩
      obtain ⟨hv, rfl⟩ := put_eq_ok_iff.1 hput
      exact ⟨hv, ih.1 hrest⟩
    · rintro ⟨hv, hrest⟩
      exact ⟨_, put_eq_ok_iff.2 ⟨hv, rfl⟩, ih.2 hrest⟩

theorem writeAll_eq_ok_iff : writeAll vs = .ok written ↔
    (∀ v ∈ vs, v.Fits) ∧ written = vs.flatMap Value.field := foldlM_put_eq_ok_iff

/-- What a field is asked for as, and how long it may be, or must be if it has one size. -/
inductive Kind where
  | word
  | integer
  | blob (max : Nat)
  | fixed (n : Nat) (bad : FieldFault)
  | text (max : Nat)

namespace Kind

def read : Kind → Reader Value
  | .word => return .word (← Reader.word)
  | .integer => return .integer (← Reader.integer)
  | .blob max => return .blob (← Reader.blob max)
  | .fixed n bad => return .blob (← Reader.fixed n bad).val
  | .text max => return .text (← Reader.text max)

/-- Whether a value is one that is asked for, as long as it may be. -/
def Admits : Kind → Value → Prop
  | .word, .word _ | .integer, .integer _ => True
  | .blob max, .blob b => b.length ≤ max
  | .fixed n _, .blob b => b.length = n
  | .text max, .text s => s.utf8ByteSize ≤ max
  | _, _ => False

end Kind

/-- Reads values in order, as long as no call fails. -/
def readAll (kinds : List Kind) : Reader (List Value) := kinds.mapM Kind.read

/-- Calls made one after another, whether they fail or not: what each leaves unread, and what it
answers. -/
def recorder : Recorder Bytes Kind (Except Error Value) where
  next k unread := (k.read.runOn unread).2
  facts k unread := [(k.read.runOn unread).1]

theorem Kind.read_eq_ok_iff {k : Kind} :
    k.read.runOn b = (.ok v, rest) ↔ k.Admits v ∧ v.Fits ∧ b = v.field ++ rest := by
  have hmap {α : Type} {r : Reader α} {f : α → Value} :
      (do return f (← r) : Reader Value).runOn b = (.ok v, rest) ↔
        ∃ a, r.runOn b = (.ok a, rest) ∧ f a = v := by
    rw [Reader.bind_eq_ok_iff]
    constructor
    · rintro ⟨a, b', hr, h⟩
      obtain ⟨hf, rfl⟩ := Reader.pure_eq_ok_iff.1 h
      exact ⟨a, hr, hf⟩
    · rintro ⟨a, hr, rfl⟩
      exact ⟨a, rest, hr, rfl⟩
  cases k with
  | word =>
    rw [read, hmap]
    simp only [Reader.word_eq_ok_iff]
    cases v <;> simp [Admits, Value.Fits, Value.field]
  | integer =>
    rw [read, hmap]
    simp only [Reader.integer_eq_ok_iff]
    cases v <;> simp [Admits, Value.Fits, Value.field]
  | blob max =>
    rw [read, hmap]
    simp only [Reader.blob_eq_ok_iff]
    cases v <;> simp [Admits, Value.Fits, Value.field]
  | fixed n bad =>
    rw [read, hmap]
    simp only [Reader.fixed_eq_ok_iff]
    constructor
    · rintro ⟨⟨a, rfl⟩, hb, rfl⟩
      exact ⟨rfl, hb⟩
    · rintro ⟨hlen, hb⟩
      cases v with
      | blob a => exact ⟨⟨a, hlen⟩, hlen ▸ hb, rfl⟩
      | _ => exact hlen.elim
  | text max =>
    rw [read, hmap]
    simp only [Reader.text_eq_ok_iff]
    cases v <;> simp [Admits, Value.Fits, Value.field]

theorem readAll_eq_ok_iff {kinds : List Kind} : (readAll kinds).runOn b = (.ok vs, rest) ↔
    List.Forall₂ Kind.Admits kinds vs ∧ (∀ v ∈ vs, v.Fits) ∧
      b = vs.flatMap Value.field ++ rest := by
  unfold readAll
  -- for any bytes, as each call starts where the one before it has stopped
  induction kinds generalizing b vs rest with
  | nil =>
    rw [List.mapM_nil, Reader.pure_eq_ok_iff, List.forall₂_nil_left_iff]
    constructor
    · rintro ⟨rfl, rfl⟩
      exact ⟨rfl, nofun, rfl⟩
    · rintro ⟨rfl, -, rfl⟩
      exact ⟨rfl, rfl⟩
  | cons k kinds ih =>
    rw [List.mapM_cons, Reader.bind_eq_ok_iff]
    simp only [Reader.bind_eq_ok_iff, Reader.pure_eq_ok_iff, Kind.read_eq_ok_iff, ih,
      List.forall₂_cons_left_iff]
    constructor
    · rintro ⟨v, b', ⟨hk, hv, rfl⟩, vs, b'', ⟨hks, hvs, rfl⟩, rfl, rfl⟩
      exact ⟨⟨v, vs, hk, hks, rfl⟩, List.forall_mem_cons.2 ⟨hv, hvs⟩, by simp⟩
    · rintro ⟨⟨v, vs, hk, hks, rfl⟩, hfits, rfl⟩
      obtain ⟨hv, hvs⟩ := List.forall_mem_cons.1 hfits
      exact ⟨v, _, ⟨hk, hv, by simp⟩, vs, rest, ⟨hks, hvs, rfl⟩, rfl, rfl⟩

end Field

namespace Reader

variable {α β : Type}

/-- What a reader leaves is the end of what it was given, also when it fails. -/
def Advances (r : Reader α) : Prop := ∀ b, (r.runOn b).2 <:+ b

namespace Advances

theorem pure (a : α) : Advances (Pure.pure a : Reader α) := List.suffix_refl

theorem throw (err : Error) : Advances (MonadExcept.throw err : Reader α) := List.suffix_refl

theorem get : Advances (MonadState.get : Reader Bytes) := List.suffix_refl

theorem bind {r : Reader α} {f : α → Reader β} (hr : Advances r) (hf : ∀ a, Advances (f a)) :
    Advances (r >>= f) := by
  intro b
  have hb := hr b
  rw [runOn_bind]
  rcases hx : r.runOn b with ⟨err | a, b'⟩
  · rwa [hx] at hb
  · rw [hx] at hb
    exact (hf a b').trans hb

theorem tryCatch {r : Reader α} {f : Error → Reader α} (hr : Advances r)
    (hf : ∀ err, Advances (f err)) : Advances (MonadExcept.tryCatch r f) := by
  intro b
  have hb := hr b
  rw [runOn_tryCatch]
  rcases hx : r.runOn b with ⟨err | a, b'⟩
  · rw [hx] at hb
    exact (hf err b').trans hb
  · rwa [hx] at hb

theorem take (n : Nat) : Advances (Reader.take n) := by
  intro b
  rw [runOn_take]
  split
  · exact List.drop_suffix n b
  · exact List.suffix_refl b

theorem word : Advances Reader.word := bind (take 4) fun _ => pure _

theorem integer : Advances Reader.integer := bind word fun _ => pure _

/-- Each part of a byte string is consumed before the next is looked at. -/
theorem blob (max : Nat) : Advances (Reader.blob max) := by
  unfold Reader.blob
  refine bind word fun w => ?_
  dsimp only
  split
  · exact throw _
  refine bind get fun unread => ?_
  split
  · exact throw _
  refine bind (take _) fun a => bind (take _) fun z => ?_
  split
  · exact throw _
  · exact pure a

theorem fixed (n : Nat) (bad : FieldFault) : Advances (Reader.fixed n bad) := by
  unfold Reader.fixed
  refine bind (tryCatch (blob n) fun _ => throw _) fun a => ?_
  split
  · exact pure _
  · exact throw _

theorem text (max : Nat) : Advances (Reader.text max) := by
  unfold Reader.text
  refine bind (blob max) fun a => ?_
  split
  · exact pure _
  · exact throw _

end Advances

/-- Where the `n` bytes from a place on end, as a number of 64 bits, if the sum is one and there are
as many bytes. -/
def stop? (size : Nat) (p n : UInt64) : Option UInt64 :=
  if p.toNat + n.toNat < UInt64.size ∧ p.toNat + n.toNat ≤ size then some (p + n) else none

/-- Taking bytes as a cursor does that counts in 64 bits. -/
theorem runOn_take_drop {p : UInt64} (hp : p.toNat ≤ b.length) (hb : b.length < UInt64.size)
    (n : UInt64) : (take n.toNat).runOn (b.drop p.toNat) = match stop? b.length p n with
      | some q => (.ok ((b.take q.toNat).drop p.toNat), b.drop q.toNat)
      | none => (.error (.codec .shortBuffer), b.drop p.toNat) := by
  rw [runOn_take, List.length_drop, stop?]
  by_cases hn : p.toNat + n.toNat ≤ b.length
  · -- a sum within the buffer is within 64 bits, so it is the place itself
    have hq : (p + n).toNat = p.toNat + n.toNat := by
      rw [UInt64.toNat_add]
      exact Nat.mod_eq_of_lt (Nat.lt_of_le_of_lt hn hb)
    rw [if_pos (by omega), if_pos ⟨by omega, hn⟩]
    simp only [hq, List.drop_drop, List.drop_take, Nat.add_sub_cancel_left]
  · rw [if_neg (by omega), if_neg (by omega)]

end Reader

namespace Field

theorem Kind.advances (k : Kind) : k.read.Advances := by
  cases k with
  | word => exact .bind .word fun _ => .pure _
  | integer => exact .bind .integer fun _ => .pure _
  | blob max => exact .bind (.blob max) fun _ => .pure _
  | fixed n bad => exact .bind (.fixed n bad) fun _ => .pure _
  | text max => exact .bind (.text max) fun _ => .pure _

theorem suffix_after (b : Bytes) (kinds : List Kind) : recorder.after b kinds <:+ b :=
  recorder.keeps (P := fun unread _ => unread <:+ b) (h := [])
    (fun unread _ k h => (k.advances unread).trans h) (List.suffix_refl b) kinds

theorem exists_place_after {p : Nat} (hp : p ≤ b.length) (kinds : List Kind) :
    ∃ q, p ≤ q ∧ q ≤ b.length ∧ recorder.after (b.drop p) kinds = b.drop q := by
  have hsuffix := suffix_after (b.drop p) kinds
  have hlen := hsuffix.length_le
  rw [List.length_drop] at hlen
  refine ⟨b.length - (recorder.after (b.drop p) kinds).length, by omega, Nat.sub_le _ _, ?_⟩
  exact List.suffix_iff_eq_drop.1 (hsuffix.trans (List.drop_suffix p b))

/-- A byte string of at most some length is read exactly if its written form comes first. -/
theorem runOn_blob_iff_prefix {max : Nat} {unread a : Bytes} :
    (Reader.blob max).runOn unread = (.ok a, rest) ↔
      a.length ≤ max ∧ (∃ written, blob? a = .ok written ∧ written <+: unread) ∧
        rest = unread.drop (blobSize a.length) := by
  rw [Reader.blob_eq_ok_iff]
  simp only [blob?_eq_ok_iff]
  refine and_congr_right fun _ => ?_
  constructor
  · rintro ⟨hfits, rfl⟩
    refine ⟨⟨blob a, ⟨hfits, rfl⟩, List.prefix_append _ _⟩, ?_⟩
    rw [← length_blob, List.drop_left]
  · rintro ⟨⟨_, ⟨hfits, rfl⟩, tail, rfl⟩, rfl⟩
    rw [← length_blob, List.drop_left]
    exact ⟨hfits, rfl⟩

/-- Values that fit, written in order, are what calls for values like them read, and nothing else
is; the end is found if nothing comes behind them. -/
theorem readAll_writeAll {kinds : List Kind} (hkinds : List.Forall₂ Kind.Admits kinds vs)
    (hfits : ∀ v ∈ vs, v.Fits) : ∃ written, writeAll vs = .ok written ∧
      (∀ b rest, (readAll kinds).runOn b = (.ok vs, rest) ↔ b = written ++ rest) ∧
      ∀ rest, (do let vs ← readAll kinds; Reader.finish; return vs : Reader _).parse
        (written ++ rest) = .ok vs ↔ rest = [] := by
  have hread (b rest : Bytes) : (readAll kinds).runOn b = (.ok vs, rest) ↔
      b = vs.flatMap Value.field ++ rest := by
    rw [readAll_eq_ok_iff, and_iff_right hkinds, and_iff_right hfits]
  refine ⟨vs.flatMap Value.field, writeAll_eq_ok_iff.2 ⟨hfits, rfl⟩, hread, fun rest => ?_⟩
  rw [Reader.parse_eq_ok_iff]
  simp only [Reader.bind_eq_ok_iff, Reader.pure_eq_ok_iff, Reader.finish_eq_ok_iff]
  constructor
  · rintro ⟨_, a, b', hr, _, _, ⟨rfl, rfl⟩, rfl, rfl⟩
    exact List.append_cancel_left ((hread _ []).1 hr)
  · rintro rfl
    exact ⟨[], vs, [], (hread _ []).2 rfl, (), [], ⟨rfl, rfl⟩, rfl, rfl⟩

/-- Fields are an exact grammar. What is written in order is read back by matching calls, and only
that is; a byte string is read exactly if its written form comes first, and then that form is
consumed; and whatever calls are made, failing or not, the place they have come to is within the
buffer and never moves back, the sums in 64 bits that find it being checked. -/
theorem grammar_exact :
    (∀ kinds vs, List.Forall₂ Kind.Admits kinds vs → (∀ v ∈ vs, v.Fits) →
      ∃ written, writeAll vs = .ok written ∧
        (∀ b rest, (readAll kinds).runOn b = (.ok vs, rest) ↔ b = written ++ rest) ∧
        ∀ rest, (do let vs ← readAll kinds; Reader.finish; return vs : Reader _).parse
          (written ++ rest) = .ok vs ↔ rest = []) ∧
    (∀ max unread a rest, (Reader.blob max).runOn unread = (.ok a, rest) ↔
      a.length ≤ max ∧ (∃ written, blob? a = .ok written ∧ written <+: unread) ∧
        rest = unread.drop (blobSize a.length)) ∧
    (∀ (b : Bytes) p kinds, p ≤ b.length →
      ∃ q, p ≤ q ∧ q ≤ b.length ∧ recorder.after (b.drop p) kinds = b.drop q) ∧
    (∀ (b : Bytes) (p n : UInt64), p.toNat ≤ b.length → b.length < UInt64.size →
      (Reader.take n.toNat).runOn (b.drop p.toNat) = match Reader.stop? b.length p n with
        | some q => (.ok ((b.take q.toNat).drop p.toNat), b.drop q.toNat)
        | none => (.error (.codec .shortBuffer), b.drop p.toNat)) :=
  ⟨fun _ _ => readAll_writeAll, fun _ _ _ _ => runOn_blob_iff_prefix,
    fun _ _ kinds hp => exists_place_after hp kinds,
    fun _ _ n hp hb => Reader.runOn_take_drop hp hb n⟩

/-- One value of every kind with two bytes behind them; a length of almost all that a word can say,
in the middle of a buffer and with no limit; and a place that the sum would carry past the last
number of 64 bits. -/
theorem grammar_exact_of_login :
    let kinds : List Kind := [.word, .integer, .text 64, .fixed 8 .badSalt, .blob 300]
    let vs : List Value := [.word 8, .integer (-1), .text "login", .blob (List.replicate 8 9),
      .blob [1, 2, 3]]
    let b : Bytes := [0, 0, 255, 255, 255, 240, 1, 2]
    (List.Forall₂ Kind.Admits kinds vs ∧ (∀ v ∈ vs, v.Fits) ∧ ∃ written,
      writeAll vs = .ok written ∧ (readAll kinds).runOn (written ++ [1, 2]) = (.ok vs, [1, 2])) ∧
    (2 ≤ b.length ∧ ∃ q, 2 ≤ q ∧ q ≤ b.length ∧
      recorder.after (b.drop 2) [.blob (UInt64.size - 1), .word] = b.drop q) ∧
    ((2 : UInt64).toNat ≤ b.length ∧ b.length < UInt64.size ∧
      (Reader.take (0xffffffffffffffff : UInt64).toNat).runOn (b.drop (2 : UInt64).toNat) =
        (.error (.codec .shortBuffer), b.drop 2)) := by
  intro kinds vs b
  obtain ⟨hread, -, hplace, htake⟩ := grammar_exact
  have hkinds : List.Forall₂ Kind.Admits kinds vs :=
    .cons trivial (.cons trivial (.cons (show "login".utf8ByteSize ≤ 64 by decide)
      (.cons rfl (.cons (show 3 ≤ 300 by decide) .nil))))
  have hfits : ∀ v ∈ vs, v.Fits := by decide
  obtain ⟨written, hwritten, hiff, -⟩ := hread kinds vs hkinds hfits
  exact ⟨⟨hkinds, hfits, written, hwritten, (hiff _ _).2 rfl⟩,
    ⟨by decide, hplace b 2 [.blob (UInt64.size - 1), .word] (by decide)⟩,
    by decide, by decide, htake b 2 0xffffffffffffffff (by decide) (by decide)⟩

end Field

end SealedDatagram
