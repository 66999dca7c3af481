import SealedDatagram.Proofs.Seal
/-!
What writing a packet gives: the tag of the kind, the part in clear, and the body sealed with a pad.
Of the surroundings only the random source changes, and only where a pad was drawn.
-/

namespace SealedDatagram

theorem Salt.length_field (s : Salt) : s.field.length = 12 := by
  rw [field, Field.length_blob, s.length_eq]
  rfl

theorem PublicKey.length_field (k : PublicKey) : k.field.length = 36 := by
  rw [field, Field.length_blob, k.length_eq]
  rfl

theorem Field.blobSize_le {n m : Nat} (h : n ≤ m) : Field.blobSize n ≤ m + 7 := by
  have := Field.padding_lt n
  unfold blobSize
  omega

theorem Olleh.length_body (p : Olleh) : p.body.length = 8 := by
  simp [body, flag, Field.integer]

theorem Olleh.length_body_le (p : Olleh) : p.body.length ≤ Sealed.maxPlaintext := by
  rw [length_body]
  decide

theorem Htua.length_body_le (p : Htua) : p.body.length ≤ Sealed.maxPlaintext := by
  rw [body, p.salt.length_field]
  decide

theorem Data.length_body_le {p : Data} (h : p.payload.length ≤ maxPayload) :
    p.body.length ≤ Sealed.maxPlaintext := by
  have hsize := Field.blobSize_le h
  rw [body, List.length_append, p.salt.length_field, Field.length_blob]
  simp only [maxPayload, Sealed.maxPlaintext] at hsize ⊢
  omega

/-- A login and a password that an Auth may carry. -/
def Credentials.Sendable (c : Credentials) : Prop :=
  c.login.utf8ByteSize ≤ maxSize ∧ c.pass.utf8ByteSize ≤ maxSize

instance (c : Credentials) : Decidable c.Sendable := inferInstanceAs (Decidable (_ ∧ _))

theorem Auth.length_body_le {p : Auth} (h : p.credentials.Sendable) :
    p.body.length ≤ Sealed.maxPlaintext := by
  have hlogin := Field.blobSize_le h.1
  have hpass := Field.blobSize_le h.2
  have hkey := Field.blobSize_le p.sessionKey.le_max
  have hbytes : p.sessionKey.bytes.length = p.sessionKey.text.utf8ByteSize :=
    Bytes.length_ofText p.sessionKey.text
  simp only [body, List.length_append, p.salt.length_field, Field.length_blob, Bytes.length_ofText,
    hbytes, Credentials.maxSize, Sealed.maxPlaintext] at hlogin hpass hkey ⊢
  omega

variable [CipherSuite] {σ : Type}

/-- A packet of a kind, as the pad of its body makes it. -/
def PacketKind.wire (kind : PacketKind) (prologue : Bytes) (key : SessionKey) (header : Salt)
    (pad body : Bytes) : Bytes :=
  Field.word kind.tag ++ prologue ++ (key.subkeys.sealWith header.bytes pad body).wire

def Olleh.wire (p : Olleh) (key : SessionKey) (header : Salt) (pad : Bytes) : Bytes :=
  PacketKind.olleh.wire p.info.publicKey.field key header pad p.body

def Auth.wire (p : Auth) (key : SessionKey) (header : Salt) (pad : Bytes) : Bytes :=
  PacketKind.auth.wire p.publicKey.field key header pad p.body

def Htua.wire (p : Htua) (key : SessionKey) (header : Salt) (pad : Bytes) : Bytes :=
  PacketKind.htua.wire [] key header pad p.body

def Data.wire (p : Data) (key : SessionKey) (header : Salt) (pad : Bytes) : Bytes :=
  PacketKind.data.wire [] key header pad p.body

/-- A written packet tells its pad and its body, to whoever has the key. -/
theorem PacketKind.wire_inj {kind : PacketKind} {prologue pad pad' body body' : Bytes}
    {key : SessionKey} {header : Salt} (hp : pad.length = pad'.length)
    (h : kind.wire prologue key header pad body = kind.wire prologue key header pad' body') :
    pad = pad' ∧ body = body' :=
  Subkeys.sealWith_inj hp (Subkeys.sealWith_eq_of_wire rfl (List.append_cancel_left h))

theorem PacketKind.exec_packet_cases (kind : PacketKind) (prologue : Bytes) {body : Bytes}
    (hb : body.length ≤ Sealed.maxPlaintext) (key : SessionKey) (header : Salt) (e : Env σ) :
    (∃ pad entropy, pad.length = Sealed.padSize ∧
      e.entropy.draw? Sealed.padSize = some (pad, entropy) ∧
      (kind.packet prologue body key header).exec e =
        (.ok (kind.wire prologue key header pad body), { e with entropy })) ∨
    (e.entropy.draw? Sealed.padSize = none ∧
      (kind.packet prologue body key header).exec e = (.error (.cipher .randomSource), e)) := by
  unfold packet
  rw [Fallible.exec_bind, exec_orCipher]
  rcases Sealed.exec_encrypt_cases header key hb e with ⟨pad, entropy, hp, hd, hx⟩ | ⟨hd, hx⟩
  · rw [hx]
    exact .inl ⟨pad, entropy, hp, hd, rfl⟩
  · rw [hx]
    exact .inr ⟨hd, rfl⟩

theorem Olleh.exec_encode_cases (p : Olleh) (key : SessionKey) (header : Salt) (e : Env σ) :
    (∃ pad entropy, pad.length = Sealed.padSize ∧
      e.entropy.draw? Sealed.padSize = some (pad, entropy) ∧
      (p.encode key header).exec e = (.ok (p.wire key header pad), { e with entropy })) ∨
    (e.entropy.draw? Sealed.padSize = none ∧
      (p.encode key header).exec e = (.error (.cipher .randomSource), e)) :=
  PacketKind.exec_packet_cases .olleh p.info.publicKey.field p.length_body_le key header e

theorem Htua.exec_encode_cases (p : Htua) (key : SessionKey) (header : Salt) (e : Env σ) :
    (∃ pad entropy, pad.length = Sealed.padSize ∧
      e.entropy.draw? Sealed.padSize = some (pad, entropy) ∧
      (p.encode key header).exec e = (.ok (p.wire key header pad), { e with entropy })) ∨
    (e.entropy.draw? Sealed.padSize = none ∧
      (p.encode key header).exec e = (.error (.cipher .randomSource), e)) :=
  PacketKind.exec_packet_cases .htua [] p.length_body_le key header e

theorem Data.exec_encode_of_oversized {p : Data} (h : maxPayload < p.payload.length)
    (key : SessionKey) (header : Salt) (e : Env σ) :
    (p.encode key header).exec e = (.error (.codec .oversizedPayload), e) := by
  unfold encode
  rw [if_pos h]
  rfl

theorem Data.exec_encode_cases {p : Data} (h : p.payload.length ≤ maxPayload) (key : SessionKey)
    (header : Salt) (e : Env σ) :
    (∃ pad entropy, pad.length = Sealed.padSize ∧
      e.entropy.draw? Sealed.padSize = some (pad, entropy) ∧
      (p.encode key header).exec e = (.ok (p.wire key header pad), { e with entropy })) ∨
    (e.entropy.draw? Sealed.padSize = none ∧
      (p.encode key header).exec e = (.error (.cipher .randomSource), e)) := by
  unfold encode
  rw [if_neg (Nat.not_lt.2 h)]
  exact PacketKind.exec_packet_cases .data [] (length_body_le h) key header e

theorem Auth.exec_encode_cases {p : Auth} (h : p.credentials.Sendable) (key : SessionKey)
    (header : Salt) (e : Env σ) :
    (∃ pad entropy, pad.length = Sealed.padSize ∧
      e.entropy.draw? Sealed.padSize = some (pad, entropy) ∧
      (p.encode key header).exec e = (.ok (p.wire key header pad), { e with entropy })) ∨
    (e.entropy.draw? Sealed.padSize = none ∧
      (p.encode key header).exec e = (.error (.cipher .randomSource), e)) := by
  unfold encode
  rw [if_neg (not_or.2 ⟨Nat.not_lt.2 h.1, Nat.not_lt.2 h.2⟩)]
  exact PacketKind.exec_packet_cases .auth p.publicKey.field (length_body_le h) key header e

theorem Auth.exec_encode_of_not_sendable {p : Auth} (h : ¬ p.credentials.Sendable)
    (key : SessionKey) (header : Salt) (e : Env σ) :
    (p.encode key header).exec e = (.error (.codec .oversizedPayload), e) := by
  have hlong : Credentials.maxSize < p.credentials.login.utf8ByteSize ∨
      Credentials.maxSize < p.credentials.pass.utf8ByteSize :=
    (Decidable.not_and_iff_not_or_not.1 h).imp Nat.lt_of_not_le Nat.lt_of_not_le
  unfold encode
  rw [if_pos hlong]
  rfl

end SealedDatagram
