import SealedDatagram.Proofs.Packet.Decode
/-!
The four kinds of packet with a sealed body, taken together. They differ in what they carry, in
whom a reader asks for the key, and in the bodies they read. Every packet is read as it was written,
and what is read was written: with the pad of its body given, there is one written form.
-/

namespace SealedDatagram

inductive SealedKind where
  | olleh
  | auth
  | htua
  | data
  deriving DecidableEq, Repr

namespace SealedKind

def kind : SealedKind → PacketKind
  | .olleh => .olleh
  | .auth => .auth
  | .htua => .htua
  | .data => .data

abbrev Packet : SealedKind → Type
  | .olleh => Olleh
  | .auth => Auth
  | .htua => Htua
  | .data => Data

/-- What a key is asked for: the public key in clear, or the header of the body. Who reads an Htua
has the key. -/
abbrev Subject : SealedKind → Type
  | .olleh => PublicKey
  | .auth => PublicKey
  | .htua => Unit
  | .data => Salt

def subject : (t : SealedKind) → Received t.Packet → t.Subject
  | .olleh, r => r.packet.info.publicKey
  | .auth, r => r.packet.publicKey
  | .htua, _ => ()
  | .data, r => r.header

def prologue : (t : SealedKind) → t.Packet → Bytes
  | .olleh, p => p.info.publicKey.field
  | .auth, p => p.publicKey.field
  | .htua, _ => []
  | .data, _ => []

def body : (t : SealedKind) → t.Packet → Bytes
  | .olleh, p => p.body
  | .auth, p => p.body
  | .htua, p => p.body
  | .data, p => p.body

def Fits : (t : SealedKind) → t.Packet → Prop
  | .olleh, _ => True
  | .auth, p => p.credentials.Sendable
  | .htua, _ => True
  | .data, p => p.payload.length ≤ Data.maxPayload

/-- The bodies that are read as a packet. -/
def Reads : (t : SealedKind) → Bytes → t.Packet → Prop
  | .olleh, text, p => ∃ x y, p.Flags x y ∧ text = Field.word x ++ Field.word y
  | .auth, text, p => p.credentials.Sendable ∧ text = p.body
  | .htua, text, p => text = p.body
  | .data, text, p => p.payload.length ≤ Data.maxPayload ∧ text = p.body

variable {t : SealedKind} {p : t.Packet} {text b : Bytes}

theorem reads_body (h : t.Fits p) : t.Reads (t.body p) p := by
  cases t with
  | olleh => exact p.exists_flags_body
  | auth => exact ⟨h, rfl⟩
  | htua => exact rfl
  | data => exact ⟨h, rfl⟩

theorem fits_of_reads (h : t.Reads text p) : t.Fits p := by
  cases t with
  | olleh => trivial
  | auth => exact h.1
  | htua => trivial
  | data => exact h.1

section
variable [CipherSuite] {σ : Type} {key : SessionKey} {header : Salt} {pad : Bytes}

def encode : (t : SealedKind) → t.Packet → SessionKey → Salt → Attempt σ Bytes
  | .olleh => Olleh.encode
  | .auth => Auth.encode
  | .htua => Htua.encode
  | .data => Data.encode

def decode : (t : SealedKind) → Bytes → (t.Subject → Attempt σ SessionKey) →
    Attempt σ (Received t.Packet)
  | .olleh => Olleh.decode
  | .auth => Auth.decode
  | .htua => fun b keyFor => do Htua.decode b (← keyFor ())
  | .data => Data.decode

def wire (t : SealedKind) (p : t.Packet) (key : SessionKey) (header : Salt) (pad : Bytes) : Bytes :=
  t.kind.wire (t.prologue p) key header pad (t.body p)

theorem exec_encode_of_not_fits (h : ¬ t.Fits p) (key : SessionKey) (header : Salt) (e : Env σ) :
    (t.encode p key header).exec e = (.error (.codec .oversizedPayload), e) := by
  cases t with
  | olleh => exact absurd trivial h
  | auth => exact Auth.exec_encode_of_not_sendable h key header e
  | htua => exact absurd trivial h
  | data => exact Data.exec_encode_of_oversized (Nat.lt_of_not_le h) key header e

theorem exec_encode_cases (h : t.Fits p) (key : SessionKey) (header : Salt) (e : Env σ) :
    (∃ pad entropy, pad.length = Sealed.padSize ∧
      e.entropy.draw? Sealed.padSize = some (pad, entropy) ∧
      (t.encode p key header).exec e = (.ok (t.wire p key header pad), { e with entropy })) ∨
    (e.entropy.draw? Sealed.padSize = none ∧
      (t.encode p key header).exec e = (.error (.cipher .randomSource), e)) := by
  cases t with
  | olleh => exact Olleh.exec_encode_cases p key header e
  | auth => exact Auth.exec_encode_cases h key header e
  | htua => exact Htua.exec_encode_cases p key header e
  | data => exact Data.exec_encode_cases h key header e

theorem exec_encode_eq_ok_iff {e e' : Env σ} :
    (t.encode p key header).exec e = (.ok b, e') ↔ t.Fits p ∧ ∃ pad entropy,
      e.entropy.draw? Sealed.padSize = some (pad, entropy) ∧ b = t.wire p key header pad ∧
        e' = { e with entropy } := by
  by_cases hfits : t.Fits p
  · rw [exec_eq_ok_iff_of_draw (exec_encode_cases hfits key header e), and_iff_right hfits]
  · simp [exec_encode_of_not_fits hfits, hfits]

/-- A reader takes what was sealed under the key it was given, if the body is one it reads. It asks
for the key once, and what it leaves behind is what asking left. -/
theorem exec_decode_eq_ok_iff {keyFor : t.Subject → Attempt σ SessionKey} {e e' : Env σ}
    {r : Received t.Packet} :
    (t.decode b keyFor).exec e = (.ok r, e') ↔
      ∃ key, (keyFor (t.subject r)).exec e = (.ok key, e') ∧
        ∃ text pad, t.Reads text r.packet ∧ pad.length = Sealed.padSize ∧
          b = t.kind.wire (t.prologue r.packet) key r.header pad text := by
  cases t with
  | olleh =>
    refine Olleh.exec_decode_eq_ok_iff.trans ?_
    constructor
    · rintro ⟨key, hk, x, y, hflags, pad, hpad, hb⟩
      exact ⟨key, hk, _, pad, ⟨x, y, hflags, rfl⟩, hpad, hb⟩
    · rintro ⟨key, hk, _, pad, ⟨x, y, hflags, rfl⟩, hpad, hb⟩
      exact ⟨key, hk, x, y, hflags, pad, hpad, hb⟩
  | auth =>
    refine Auth.exec_decode_eq_ok_iff.trans ?_
    constructor
    · rintro ⟨key, hk, hc, pad, hpad, hb⟩
      exact ⟨key, hk, _, pad, ⟨hc, rfl⟩, hpad, hb⟩
    · rintro ⟨key, hk, _, pad, ⟨hc, rfl⟩, hpad, hb⟩
      exact ⟨key, hk, hc, pad, hpad, hb⟩
  | htua =>
    refine Fallible.exec_bind_eq_ok.trans ?_
    simp only [Fallible.exec_liftExcept, Prod.mk.injEq, Htua.decode_eq_ok_iff]
    constructor
    · rintro ⟨key, _, hk, ⟨pad, hpad, hb⟩, rfl⟩
      exact ⟨key, hk, _, pad, rfl, hpad, hb⟩
    · rintro ⟨key, hk, _, pad, rfl, hpad, hb⟩
      exact ⟨key, e', hk, ⟨pad, hpad, hb⟩, rfl⟩
  | data =>
    refine Data.exec_decode_eq_ok_iff.trans ?_
    constructor
    · rintro ⟨key, hk, hlen, pad, hpad, hb⟩
      exact ⟨key, hk, _, pad, ⟨hlen, rfl⟩, hpad, hb⟩
    · rintro ⟨key, hk, _, pad, ⟨hlen, rfl⟩, hpad, hb⟩
      exact ⟨key, hk, hlen, pad, hpad, hb⟩

theorem exists_reads_of_exec_decode {keyFor : t.Subject → Attempt σ SessionKey} {e e' : Env σ}
    {r : Received t.Packet} (hkey : ∀ s, ∃ e₁, (keyFor s).exec e = (.ok key, e₁))
    (h : (t.decode b keyFor).exec e = (.ok r, e')) :
    ∃ text pad, t.Reads text r.packet ∧ pad.length = Sealed.padSize ∧
      b = t.kind.wire (t.prologue r.packet) key r.header pad text := by
  obtain ⟨key', hk, text, pad, hreads, hp, hb⟩ := exec_decode_eq_ok_iff.1 h
  obtain ⟨e₁, hk₁⟩ := hkey (t.subject r)
  obtain rfl : key = key' := Except.ok.inj (Prod.mk.inj (hk₁.symm.trans hk)).1
  exact ⟨text, pad, hreads, hp, hb⟩

/-- What a packet says to whoever holds the key of its body. -/
def opened (t : SealedKind) (b : Bytes) (key : SessionKey) : Except Error (Received t.Packet) :=
  (Fallible.exec (t.decode b fun _ => return key) { state := () }).1

theorem opened_eq_ok_iff {r : Received t.Packet} :
    t.opened b key = .ok r ↔ ∃ text pad, t.Reads text r.packet ∧ pad.length = Sealed.padSize ∧
      b = t.kind.wire (t.prologue r.packet) key r.header pad text := by
  unfold opened
  constructor
  · intro h
    exact exists_reads_of_exec_decode (fun s => ⟨_, rfl⟩) (Prod.ext h rfl)
  · intro h
    exact congrArg Prod.fst (exec_decode_eq_ok_iff.2 ⟨key, rfl, h⟩)

theorem opened_wire (h : t.Fits p) (hp : pad.length = Sealed.padSize) :
    t.opened (t.wire p key header pad) key = .ok ⟨header, p⟩ :=
  opened_eq_ok_iff.2 ⟨_, pad, reads_body h, hp, rfl⟩

/-- Writing gives `b` whenever the random source gives `pad` next. -/
def Writes (t : SealedKind) (p : t.Packet) (key : SessionKey) (header : Salt) (pad b : Bytes) :
    Prop :=
  GivesFor (fun _ => t.encode p key header) pad b

/-- What was sealed as a body is written with one pad, unless it is not written as this body. -/
theorem existsUnique_writes_iff (hp : pad.length = Sealed.padSize) :
    (∃! pad', pad'.length = Sealed.padSize ∧
      t.Writes p key header pad' (t.kind.wire (t.prologue p) key header pad text)) ↔
      t.Fits p ∧ text = t.body p := by
  refine (existsUnique_givesFor_iff exec_encode_eq_ok_iff fun hp h =>
    (PacketKind.wire_inj hp h).1).trans (and_congr_right fun _ => ?_)
  constructor
  · rintro ⟨pad', hp', hb⟩
    exact (PacketKind.wire_inj (hp.trans hp'.symm) hb).2
  · rintro rfl
    exact ⟨pad, hp, rfl⟩

/-- The flags in a packet, if it has any, decrypt to words that are zero or one. -/
def FlagsWritten : SealedKind → Bytes → SessionKey → Prop
  | .olleh, b, key => ∃ k f x y, PacketKind.olleh.keyedFrame.parse b = .ok (k, f) ∧
      f.plain key = .ok (Field.word x ++ Field.word y) ∧ (x = 0 ∨ x = 1) ∧ (y = 0 ∨ y = 1)
  | _, _, _ => True

theorem flagsWritten_iff (h : t.Reads text p) (hp : pad.length = Sealed.padSize) :
    t.FlagsWritten (t.kind.wire (t.prologue p) key header pad text) key ↔ text = t.body p := by
  cases t with
  | olleh =>
    obtain ⟨x, y, hflags, rfl⟩ := h
    have hparse : PacketKind.olleh.keyedFrame.parse
        (PacketKind.olleh.wire p.info.publicKey.field key header pad
          (Field.word x ++ Field.word y)) = .ok (p.info.publicKey, _) :=
      PacketKind.keyedFrame_eq_ok_frame_iff.2 rfl
    have hplain : (key.frame header pad (Field.word x ++ Field.word y)).plain key =
        .ok (Field.word x ++ Field.word y) :=
      Frame.plain_frame (by simp [Sealed.maxPlaintext]) hp
    refine Iff.trans ?_ (Olleh.body_eq_iff hflags).symm
    constructor
    · rintro ⟨k, f, x', y', hf, htext, hx, hy⟩
      obtain ⟨-, rfl⟩ := Prod.mk.inj (Except.ok.inj (hparse.symm.trans hf))
      obtain ⟨hxx, hyy⟩ := List.append_inj (Except.ok.inj (hplain.symm.trans htext))
        (by rw [Field.length_word, Field.length_word])
      rw [Field.word_inj.1 hxx, Field.word_inj.1 hyy]
      exact ⟨hx, hy⟩
    · intro hxy
      exact ⟨_, _, x, y, hparse, hplain, hxy⟩
  | auth => exact iff_of_true trivial h.2
  | htua => exact iff_of_true trivial h
  | data => exact iff_of_true trivial h.2

end

end SealedKind

end SealedDatagram
