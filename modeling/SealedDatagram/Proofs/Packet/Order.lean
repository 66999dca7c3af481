import SealedDatagram.Proofs.Packet.Fault
/-!
The order in which a packet is looked at: its tag, the part in clear behind it, the key, the body.
What is wrong first is what is reported. The key is asked for once, if all in clear is well formed,
and before anything of the body is opened; and a body of whatever size can only be too short, too
long, or not have the tag of what it decrypts to, since keys, headers and footers have the right
lengths by then.
-/

namespace SealedDatagram

variable {b rest : Bytes}

namespace PacketKind

variable {k : PacketKind} {w : UInt32}

theorem runOn_expect_of_short (h : b.length < 4) :
    k.expect.runOn b = (.error (.codec .shortBuffer), b) := by
  have htake : (Reader.take 4).runOn b = (.error (.codec .shortBuffer), b) := by
    rw [Reader.runOn_take, if_neg (Nat.not_le.2 h)]
  have hword : Reader.word.runOn b = (.error (.codec .shortBuffer), b) := by
    unfold Reader.word
    rw [Reader.runOn_bind, htake]
  have hread : read.runOn b = (.error (.codec .shortBuffer), b) := by
    unfold read
    rw [Reader.runOn_bind, hword]
  unfold expect
  rw [Reader.runOn_bind, hread]

theorem runOn_expect_of_ne (h : w ≠ k.tag) :
    k.expect.runOn (Field.word w ++ rest) = (.error (.packetType w), rest) := by
  have hread : read.runOn (Field.word w ++ rest) = (ofTag w, rest) := by
    unfold read
    rw [Reader.runOn_bind, Reader.word_eq_ok_iff.2 rfl]
    exact Reader.runOn_liftExcept _ _
  unfold expect
  rw [Reader.runOn_bind, hread]
  cases ho : ofTag w with
  | error err =>
    unfold ofTag at ho
    split_ifs at ho
    obtain rfl := Except.error.inj ho
    rfl
  | ok found =>
    obtain rfl := ofTag_eq_ok_iff.1 ho
    dsimp only
    rw [if_neg fun hk => h (congrArg tag hk)]
    rfl

section
variable {α : Type} {r : Reader α}

theorem parse_expect_of_short (h : b.length < 4) :
    (do k.expect; r : Reader α).parse b = .error (.codec .shortBuffer) := by
  rw [Reader.parse, Reader.runOn_bind, runOn_expect_of_short h]

theorem parse_expect_of_ne (h : w ≠ k.tag) :
    (do k.expect; r : Reader α).parse (Field.word w ++ rest) = .error (.packetType w) := by
  rw [Reader.parse, Reader.runOn_bind, runOn_expect_of_ne h]

theorem parse_expect :
    (do k.expect; r : Reader α).parse (Field.word k.tag ++ rest) = r.parse rest := by
  rw [Reader.parse, Reader.runOn_bind, expect_eq_ok_iff (u := ()).2 rfl]
  rfl

end

end PacketKind

theorem Reader.parse_bind_pure {α β : Type} (r : Reader α) (g : α → β) (b : Bytes) :
    (do return g (← r) : Reader β).parse b = (r.parse b).map g := by
  unfold parse
  rw [runOn_bind]
  rcases r.runOn b with ⟨_ | _, _⟩ <;> rfl

def Error.OfField (err : Error) : Prop := ∃ f, err = .codec f

namespace SealedKind

variable {t : SealedKind} {s : t.Subject} {f : Frame}

/-- What stands between the tag and the body of a packet whose reader asks about `s`. -/
def inClear : (t : SealedKind) → t.Subject → Bytes
  | .olleh, k => k.field
  | .auth, k => k.field
  | .htua, _ => []
  | .data, _ => []

/-- Who reads a Data packet asks about the salt at the front of its body. -/
def Names : (t : SealedKind) → t.Subject → Frame → Prop
  | .data, s, f => s = f.header
  | _, _, _ => True

/-- What comes after a tag is well formed: what the key is asked about, and a body with its header,
ciphertext and footer. -/
structure Clear (t : SealedKind) (rest : Bytes) (s : t.Subject) (f : Frame) : Prop where
  bytes : rest = t.inClear s ++ (f.header.bytes ++ f.ciphertext ++ f.footer)
  footer : f.footer.length = 8
  names : t.Names s f

/-- What comes after a tag does not start as a packet of the kind does, or is then too short for a
header and a footer. -/
def Malformed (t : SealedKind) (rest : Bytes) : Prop :=
  ∀ s tail, rest = t.inClear s ++ tail → tail.length < 16

theorem malformed_iff : t.Malformed rest ↔ ∀ s f, ¬ t.Clear rest s f := by
  constructor
  · intro h s f hclear
    have hlt := h s _ hclear.bytes
    rw [List.length_append, List.length_append, f.header.length_eq, hclear.footer] at hlt
    omega
  · rintro h s tail rfl
    by_contra hlen
    obtain ⟨f, hf⟩ : ∃ f, Frame.ofBytes? tail = some f := ⟨_, dif_pos (Nat.le_of_not_lt hlen)⟩
    obtain ⟨hfooter, htail⟩ := Frame.ofBytes?_eq_some_iff.1 hf
    have hbytes : t.inClear s ++ tail =
        t.inClear s ++ (f.header.bytes ++ f.ciphertext ++ f.footer) :=
      congrArg (t.inClear s ++ ·) htail
    cases t with
    | olleh => exact h s f ⟨hbytes, hfooter, trivial⟩
    | auth => exact h s f ⟨hbytes, hfooter, trivial⟩
    | htua => exact h s f ⟨hbytes, hfooter, trivial⟩
    | data => exact h f.header f ⟨hbytes, hfooter, rfl⟩

def clear : (t : SealedKind) → Reader (t.Subject × Frame)
  | .olleh => do return (← Reader.publicKey, ← Frame.read)
  | .auth => do return (← Reader.publicKey, ← Frame.read)
  | .htua => do return ((), ← Frame.read)
  | .data => do
    let f ← Frame.read
    return (f.header, f)

theorem failsIn_clear (t : SealedKind) : Reader.FailsIn Error.OfField t.clear := by
  have hfield : ∀ f, Error.OfField (.codec f) := fun f => ⟨f, rfl⟩
  have hframe := Reader.FailsIn.frame hfield
  have hkey := Reader.FailsIn.publicKey hfield
  cases t with
  | olleh => exact .bind hkey fun _ => .bind hframe fun _ => .pure _
  | auth => exact .bind hkey fun _ => .bind hframe fun _ => .pure _
  | htua => exact .bind hframe fun _ => .pure _
  | data => exact .bind hframe fun _ => .pure _

theorem clear_eq_ok_iff : t.clear.parse b = .ok (s, f) ↔ t.Clear b s f := by
  have hbare : Frame.read.parse b = .ok f ↔
      f.footer.length = 8 ∧ b = f.header.bytes ++ f.ciphertext ++ f.footer := by
    simp only [Reader.parse_eq_ok_iff, Frame.read_eq_ok_iff, exists_eq_right]
    rfl
  have hkeyed : ∀ k, (do return (← Reader.publicKey, ← Frame.read) :
      Reader (PublicKey × Frame)).parse b = .ok (k, f) ↔
        f.footer.length = 8 ∧ b = k.field ++ (f.header.bytes ++ f.ciphertext ++ f.footer) := by
    intro k
    rw [Reader.parse_eq_ok_iff]
    simp only [Reader.bind_eq_ok_iff, Reader.pure_eq_ok_iff]
    constructor
    · rintro ⟨_, k', _, hk, f', _, hf, heq, rfl⟩
      obtain ⟨rfl, rfl⟩ := Prod.mk.inj heq
      obtain ⟨⟨hfooter, rfl⟩, -⟩ := Frame.read_eq_ok_iff.1 hf
      exact ⟨hfooter, Reader.publicKey_eq_ok_iff.1 hk⟩
    · rintro ⟨hfooter, hb⟩
      exact ⟨[], k, _, Reader.publicKey_eq_ok_iff.2 hb, f, [],
        Frame.read_eq_ok_iff.2 ⟨⟨hfooter, rfl⟩, rfl⟩, rfl, rfl⟩
  cases t with
  | olleh =>
    exact (hkeyed s).trans ⟨fun ⟨hfooter, hb⟩ => ⟨hb, hfooter, trivial⟩,
      fun h => ⟨h.footer, h.bytes⟩⟩
  | auth =>
    exact (hkeyed s).trans ⟨fun ⟨hfooter, hb⟩ => ⟨hb, hfooter, trivial⟩,
      fun h => ⟨h.footer, h.bytes⟩⟩
  | htua =>
    have hmap : SealedKind.htua.clear.parse b = .ok (s, f) ↔ Frame.read.parse b = .ok f := by
      rw [clear, Reader.parse_bind_pure]
      cases Frame.read.parse b <;> simp [Except.map]
    exact (hmap.trans hbare).trans ⟨fun ⟨hfooter, hb⟩ => ⟨hb, hfooter, trivial⟩,
      fun h => ⟨h.footer, h.bytes⟩⟩
  | data =>
    have hmap : SealedKind.data.clear.parse b = .ok (s, f) ↔
        s = f.header ∧ Frame.read.parse b = .ok f := by
      rw [clear, Reader.parse_bind_pure]
      cases Frame.read.parse b <;> grind [Except.map]
    rw [hmap, hbare]
    exact ⟨fun ⟨hs, hfooter, hb⟩ => ⟨hb, hfooter, hs⟩,
      fun h => ⟨h.names, h.footer, h.bytes⟩⟩

section
variable [CipherSuite] {σ : Type}

/-- Where a reader takes its key from. Who reads an Htua has it; all others ask. -/
def KeySource (σ : Type) : SealedKind → Type
  | .olleh => PublicKey → Attempt σ SessionKey
  | .auth => PublicKey → Attempt σ SessionKey
  | .htua => SessionKey
  | .data => Salt → Attempt σ SessionKey

def KeySource.ask : {t : SealedKind} → KeySource σ t → t.Subject → Attempt σ SessionKey
  | .olleh, keyFor => keyFor
  | .auth, keyFor => keyFor
  | .htua, key => fun _ => return key
  | .data, keyFor => keyFor

def decodeFrom : (t : SealedKind) → Bytes → KeySource σ t → Attempt σ (Received t.Packet)
  | .olleh, b, keyFor => Olleh.decode b keyFor
  | .auth, b, keyFor => Auth.decode b keyFor
  | .htua, b, key => Htua.decode b key
  | .data, b, keyFor => Data.decode b keyFor

/-- What a key makes of a well-formed packet. -/
def ofFrame : (t : SealedKind) → t.Subject → Frame → SessionKey → Except Error (Received t.Packet)
  | .olleh, k => Olleh.ofFrame k
  | .auth, k => Auth.ofFrame k
  | .htua, _ => Htua.ofFrame
  | .data, _ => Data.ofFrame

/-- Nothing is asked before all in clear is read, and nothing is opened before the answer. -/
theorem exec_decodeFrom (t : SealedKind) (b : Bytes) (source : KeySource σ t) (e : Env σ) :
    (t.decodeFrom b source).exec e =
      match (do t.kind.expect; t.clear : Reader (t.Subject × Frame)).parse b with
      | .error err => (.error err, e)
      | .ok (s, f) => match (source.ask s).exec e with
        | (.error err, e') => (.error err, e')
        | (.ok key, e') => (t.ofFrame s f key, e') := by
  have hbare : ∀ {α : Type} (kind : PacketKind) (g : Frame → α),
      (do kind.expect; let f ← Frame.read; return g f : Reader α).parse b =
        (kind.bareFrame.parse b).map g := by
    intro α kind g
    rw [← Reader.parse_bind_pure, PacketKind.bareFrame, bind_assoc]
  cases t with
  | olleh =>
    refine (PacketKind.exec_keyed .olleh b source Olleh.ofFrame e).trans ?_
    rw [show (do kind .olleh |>.expect; clear .olleh) = PacketKind.olleh.keyedFrame from rfl]
    rcases PacketKind.olleh.keyedFrame.parse b with err | ⟨k, f⟩ <;> rfl
  | auth =>
    refine (PacketKind.exec_keyed .auth b source Auth.ofFrame e).trans ?_
    rw [show (do kind .auth |>.expect; clear .auth) = PacketKind.auth.keyedFrame from rfl]
    rcases PacketKind.auth.keyedFrame.parse b with err | ⟨k, f⟩ <;> rfl
  | htua =>
    rw [clear, kind, hbare .htua]
    change (Htua.decode b source, e) = _
    unfold Htua.decode
    cases PacketKind.htua.bareFrame.parse b <;> rfl
  | data =>
    refine (Data.exec_decode b source e).trans ?_
    rw [clear, kind, hbare .data]
    cases PacketKind.data.bareFrame.parse b <;> rfl

theorem cipher_of_ofFrame {key : SessionKey} {c : CipherError} (hfooter : f.footer.length = 8)
    (h : t.ofFrame s f key = .error (.cipher c)) :
    (f.ciphertext.length < 4 ∧ c = .ciphertextTooShort f.ciphertext.length) ∨
    (65204 < f.ciphertext.length ∧ c = .oversizedData (f.ciphertext.length - 4)) ∨
    (4 ≤ f.ciphertext.length ∧ f.ciphertext.length ≤ 65204 ∧ c = .tagMismatch) := by
  have hopen : key.subkeys.openBody f.sealed = .error c := by
    have hread : ∀ {α : Type} {read : Reader α}, Reader.FailsIn (∀ c, · ≠ .cipher c) read →
        (do return ⟨f.header, ← read.parse (← f.plain key)⟩ : Except Error (Received α)) =
          .error (.cipher c) → key.subkeys.openBody f.sealed = .error c := by
      intro α read hfails hread
      rcases Frame.read_plain_eq_error hread with ⟨c', hc, hopen⟩ | ⟨text, hparse⟩
      · obtain rfl := Error.cipher.inj hc
        exact hopen
      · exact absurd rfl (hfails.parse hparse c)
    have hfield : ∀ f c, Error.codec f ≠ .cipher c := fun _ _ => nofun
    cases t with
    | olleh => exact hread (.ollehBody hfield s) h
    | auth => exact hread (.authBody hfield (fun _ _ => nofun) s) h
    | htua => exact hread (.htuaBody hfield) h
    | data => exact hread (.dataBody hfield) h
  exact Subkeys.openBody_eq_error f.header.length_eq hfooter hopen

/-- What a reader does with any bytes. -/
theorem exec_decodeFrom_order (t : SealedKind) (b : Bytes) (source : KeySource σ t) (e : Env σ) :
    (b.length < 4 → (t.decodeFrom b source).exec e = (.error (.codec .shortBuffer), e)) ∧
    ∀ w rest, b = Field.word w ++ rest →
      (w ≠ t.kind.tag → (t.decodeFrom b source).exec e = (.error (.packetType w), e)) ∧
      (w = t.kind.tag → t.Malformed rest →
        ∃ fault, (t.decodeFrom b source).exec e = (.error (.codec fault), e)) ∧
      (w = t.kind.tag → ¬ t.Malformed rest → ∃ s f, t.Clear rest s f ∧
        (t.decodeFrom b source).exec e = (match (source.ask s).exec e with
          | (.error err, e') => (.error err, e')
          | (.ok key, e') => (t.ofFrame s f key, e')) ∧
        ∀ key c, t.ofFrame s f key = .error (.cipher c) →
          (f.ciphertext.length < 4 ∧ c = .ciphertextTooShort f.ciphertext.length) ∨
          (65204 < f.ciphertext.length ∧ c = .oversizedData (f.ciphertext.length - 4)) ∨
          (4 ≤ f.ciphertext.length ∧ f.ciphertext.length ≤ 65204 ∧ c = .tagMismatch)) := by
  rw [exec_decodeFrom]
  refine ⟨fun hshort => ?_, ?_⟩
  · rw [PacketKind.parse_expect_of_short hshort]
  rintro w rest rfl
  refine ⟨fun hne => ?_, ?_, ?_⟩
  · rw [PacketKind.parse_expect_of_ne hne]
  · rintro rfl hmalformed
    rw [PacketKind.parse_expect]
    cases hparse : t.clear.parse rest with
    | error err =>
      obtain ⟨fault, rfl⟩ := t.failsIn_clear.parse hparse
      exact ⟨fault, rfl⟩
    | ok r => exact absurd (clear_eq_ok_iff.1 hparse) (malformed_iff.1 hmalformed r.1 r.2)
  · rintro rfl hmalformed
    obtain ⟨s, f, hclear⟩ : ∃ s f, t.Clear rest s f := by
      by_contra hnone
      exact hmalformed (malformed_iff.2 fun s f hclear => hnone ⟨s, f, hclear⟩)
    refine ⟨s, f, hclear, ?_, fun key c => cipher_of_ofFrame hclear.footer⟩
    rw [PacketKind.parse_expect, clear_eq_ok_iff.2 hclear]

end

end SealedKind

end SealedDatagram
