import SealedDatagram.CipherSuite.Standard
import SealedDatagram.Proofs.Packet.SealedKind
import SealedDatagram.Proofs.SessionStore.Run
/-!
The kinds of packet cannot be taken for one another, although neither the tag nor the public key of
a packet is authenticated: a body that was sealed as one kind opens under its key as any other, but
its fields are never those of another kind. All kinds but Auth and Data are told apart by their
sizes; an Auth goes on where a Data packet ends.
-/

namespace SealedDatagram

theorem Auth.body_ne_data_body {p : Auth} {q : Data} (hp : p.credentials.Sendable)
    (hq : q.payload.length ≤ Data.maxPayload) : p.body ≠ q.body := by
  intro h
  rw [Auth.body, Data.body, List.append_assoc, List.append_assoc] at h
  obtain ⟨-, hfields⟩ := List.append_inj h (by rw [Salt.length_field, Salt.length_field])
  -- the login stands where the payload does, and nothing may follow the payload
  have hlogin : (Bytes.ofText p.credentials.login).length < UInt32.size :=
    Nat.lt_of_le_of_lt hp.1 (by decide)
  have hpayload : q.payload.length < UInt32.size := Nat.lt_of_le_of_lt hq (by decide)
  rw [← List.append_nil (Field.blob q.payload)] at hfields
  obtain ⟨-, hrest⟩ := Field.blob_append_inj hlogin hpayload hfields
  have hlength := congrArg List.length hrest
  rw [List.length_append, Field.length_blob, Field.length_blob, Field.blobSize] at hlength
  simp only [List.length_nil] at hlength
  omega

namespace SealedKind

variable {t t' : SealedKind} {text : Bytes}

/-- The sizes that the bodies of a kind have. -/
def Size : SealedKind → Nat → Prop
  | .olleh, n => n = 8
  | .auth, n => 36 ≤ n
  | .htua, n => n = 12
  | .data, n => 16 ≤ n

theorem size_of_reads {p : t.Packet} (h : t.Reads text p) : t.Size text.length := by
  cases t with
  | olleh =>
    obtain ⟨x, y, -, rfl⟩ := h
    simp [Size]
  | auth =>
    obtain ⟨-, rfl⟩ := h
    have hkey : p.sessionKey.bytes.length = p.sessionKey.text.utf8ByteSize :=
      Bytes.length_ofText _
    have hmin := p.sessionKey.min_le
    simp only [Size, Auth.body, List.length_append, Salt.length_field, Field.length_blob,
      Field.blobSize, hkey]
    omega
  | htua =>
    obtain rfl := h
    exact p.salt.length_field
  | data =>
    obtain ⟨-, rfl⟩ := h
    simp only [Size, Data.body, List.length_append, Salt.length_field, Field.length_blob,
      Field.blobSize]
    omega

theorem not_reads_of_reads (hne : t' ≠ t) {p : t.Packet} {p' : t'.Packet} (h : t.Reads text p) :
    ¬ t'.Reads text p' := by
  intro h'
  have hsize := size_of_reads h
  have hsize' := size_of_reads h'
  have hkinds : t = .auth ∧ t' = .data ∨ t = .data ∧ t' = .auth := by
    cases t <;> cases t' <;> grind [Size]
  rcases hkinds with ⟨rfl, rfl⟩ | ⟨rfl, rfl⟩
  · exact Auth.body_ne_data_body h.1 h'.1 (h.2.symm.trans h'.2)
  · exact Auth.body_ne_data_body h'.1 h.1 (h'.2.symm.trans h.2)

/-- What may stand between the tag and the body: a public key, if the kind has one. -/
def IsPrologue : SealedKind → Bytes → Prop
  | .olleh, b => ∃ k : PublicKey, b = k.field
  | .auth, b => ∃ k : PublicKey, b = k.field
  | .htua, b => b = []
  | .data, b => b = []

theorem isPrologue_prologue (p : t.Packet) : t.IsPrologue (t.prologue p) := by
  cases t with
  | olleh => exact ⟨p.info.publicKey, rfl⟩
  | auth => exact ⟨p.publicKey, rfl⟩
  | htua => exact rfl
  | data => exact rfl

theorem IsPrologue.length_eq {b c : Bytes} (hb : t.IsPrologue b) (hc : t.IsPrologue c) :
    b.length = c.length := by
  cases t with
  | olleh =>
    obtain ⟨k, rfl⟩ := hb
    obtain ⟨k', rfl⟩ := hc
    rw [k.length_field, k'.length_field]
  | auth =>
    obtain ⟨k, rfl⟩ := hb
    obtain ⟨k', rfl⟩ := hc
    rw [k.length_field, k'.length_field]
  | htua => rw [show b = [] from hb, show c = [] from hc]
  | data => rw [show b = [] from hb, show c = [] from hc]

variable [CipherSuite] {σ : Type} {key : SessionKey} {header : Salt} {e e' : Env σ}

theorem reads_of_exec_decode {prologue pad : Bytes} (hprologue : t.IsPrologue prologue)
    {keyFor : t.Subject → Attempt σ SessionKey}
    (hkey : ∀ s, ∃ e₁, (keyFor s).exec e = (.ok key, e₁)) {r : Received t.Packet}
    (h : (t.decode (t.kind.wire prologue key header pad text) keyFor).exec e = (.ok r, e'))
    (hp : pad.length = Sealed.padSize) : t.Reads text r.packet := by
  obtain ⟨text', pad', hreads, hp', hb⟩ := exists_reads_of_exec_decode hkey h
  rw [PacketKind.wire, PacketKind.wire, List.append_assoc, List.append_assoc] at hb
  obtain ⟨-, hwire⟩ := List.append_inj (List.append_cancel_left hb)
    (hprologue.length_eq (isPrologue_prologue r.packet))
  have hsealed := Subkeys.sealWith_eq_of_wire
    (header.length_eq.trans r.header.length_eq.symm) hwire
  rw [show header.bytes = r.header.bytes from congrArg Sealed.header hsealed] at hsealed
  rw [(Subkeys.sealWith_inj (hp.trans hp'.symm) hsealed).2]
  exact hreads

/-- A body that was sealed as one kind is refused as every other, whatever public key is put before
it. -/
theorem refused_as_other_kind {p : t.Packet} {b : Bytes}
    (hb : (t.encode p key header).exec e = (.ok b, e')) :
    ∃ s : Sealed, b = Field.word t.kind.tag ++ t.prologue p ++ s.wire ∧
      ∀ t', t' ≠ t → ∀ prologue, t'.IsPrologue prologue →
        ∀ {τ : Type} (keyFor : t'.Subject → Attempt τ SessionKey) (e₁ : Env τ),
          (∀ s, ∃ e₂, (keyFor s).exec e₁ = (.ok key, e₂)) →
            ∃ err e₂, (t'.decode (Field.word t'.kind.tag ++ prologue ++ s.wire) keyFor).exec e₁ =
              (.error err, e₂) := by
  obtain ⟨hfits, pad, entropy, hd, rfl, -⟩ := exec_encode_eq_ok_iff.1 hb
  refine ⟨key.subkeys.sealWith header.bytes pad (t.body p), rfl, ?_⟩
  intro t' hne prologue hprologue τ keyFor e₁ hkey
  rcases hx : (t'.decode (Field.word t'.kind.tag ++ prologue ++
      (key.subkeys.sealWith header.bytes pad (t.body p)).wire) keyFor).exec e₁ with ⟨err | r, e₂⟩
  · exact ⟨err, e₂, rfl⟩
  · have hreads := reads_of_exec_decode hprologue hkey hx (Entropy.length_of_draw? hd)
    exact absurd hreads (not_reads_of_reads hne (reads_body hfits))

end SealedKind

section
open Sample

/-- A payload that spells the login, the password and the key of an Auth makes no Auth. -/
theorem payload_refused_as_login :
    let p : Data := ⟨salt 1, Field.blob [] ++ Field.blob [] ++ Field.blob (List.replicate 16 97)⟩
    let e : Env Unit := { state := (), entropy := { queued := [1, 2, 3, 4] } }
    ∃ b e', (p.encode key (salt 2)).exec e = (.ok b, e') ∧ ∃ s : Sealed,
      b = Field.word PacketKind.data.tag ++ s.wire ∧
      ∃ err e₂, Fallible.exec (Auth.decode (Field.word PacketKind.auth.tag ++ publicKey.field ++
        s.wire) fun _ => (pure key : Attempt Unit SessionKey)) e = (.error err, e₂) := by
  intro p e
  have hfits : SealedKind.data.Fits p := show p.payload.length ≤ Data.maxPayload by decide
  have hb : (SealedKind.data.encode p key (salt 2)).exec e = _ := SealedKind.exec_encode_eq_ok_iff.2
    ⟨hfits, [1, 2, 3, 4], { queued := [] },
      Entropy.draw?_append (a := [1, 2, 3, 4]) (r := []) rfl, rfl, rfl⟩
  obtain ⟨s, hs, hrefused⟩ := SealedKind.refused_as_other_kind hb
  have hbytes := hs.trans (congrArg (· ++ s.wire) (List.append_nil _))
  have hkey : ∀ k, ∃ e₂, ((fun _ => pure key : PublicKey → Attempt Unit SessionKey) k).exec e =
      (.ok key, e₂) := fun _ => ⟨_, rfl⟩
  have hauth := hrefused .auth (by decide) publicKey.field ⟨publicKey, rfl⟩ _ e hkey
  exact ⟨_, _, hb, s, hbytes, hauth⟩

end

end SealedDatagram
