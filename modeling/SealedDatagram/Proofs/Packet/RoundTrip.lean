import SealedDatagram.CipherSuite.Standard
import SealedDatagram.Proofs.Packet.SealedKind
import SealedDatagram.Proofs.SessionStore.Run
/-!
Writing and reading undo each other, for every packet, key, header and pad: what is written is read
back, and what is read is written back. The one exception is a flag, which may be any word where it
is read, but is zero or one where it is written.
-/

namespace SealedDatagram

section
variable [CipherSuite]

/-- Every packet is read as it was written. Writing fails for a packet that does not fit and for
want of a pad, and for nothing else. The key is asked for once, by the public key or by the header.
-/
theorem decode_encode :
    (∀ p : Hello, Hello.decode p.encode = .ok p ∧ PacketKind.peek p.encode = .ok .hello) ∧
    ∀ (t : SealedKind) (p : t.Packet) (key : SessionKey) (header : Salt) {σ : Type} (e : Env σ),
      ((t.encode p key header).exec e = (.error (.codec .oversizedPayload), e) ↔ ¬ t.Fits p) ∧
      ((t.encode p key header).exec e = (.error (.cipher .randomSource), e) ↔
        t.Fits p ∧ e.entropy.draw? Sealed.padSize = none) ∧
      (t.Fits p → ∀ pad entropy, e.entropy.draw? Sealed.padSize = some (pad, entropy) →
        ∃ b, (t.encode p key header).exec e = (.ok b, { e with entropy }) ∧
          PacketKind.peek b = .ok t.kind ∧
          ∀ {τ : Type} (keyFor : t.Subject → Attempt τ SessionKey) (e₁ e₂ : Env τ),
            (keyFor (t.subject ⟨header, p⟩)).exec e₁ = (.ok key, e₂) →
              (t.decode b keyFor).exec e₁ = (.ok ⟨header, p⟩, e₂)) := by
  refine ⟨fun p => ⟨Hello.decode_eq_ok_iff.2 rfl, p.peek_encode⟩, ?_⟩
  intro t p key header σ e
  by_cases hfits : t.Fits p
  · rcases SealedKind.exec_encode_cases hfits key header e with
      ⟨pad, entropy, hp, hd, hx⟩ | ⟨hd, hx⟩
    · refine ⟨by simp [hx, hfits], by simp [hx, hd], ?_⟩
      intro _ pad' entropy' hd'
      obtain ⟨rfl, rfl⟩ := Prod.mk.inj (Option.some.inj (hd.symm.trans hd'))
      refine ⟨_, hx, t.kind.peek_wire _ _ _ _ _, ?_⟩
      intro τ keyFor e₁ e₂ hk
      exact SealedKind.exec_decode_eq_ok_iff.2
        ⟨key, hk, t.body p, pad, SealedKind.reads_body hfits, hp, rfl⟩
    · refine ⟨by simp [hx, hfits], by simp [hx, hd, hfits], ?_⟩
      intro _ pad entropy hd'
      rw [hd] at hd'
      cases hd'
  · have hx := SealedKind.exec_encode_of_not_fits hfits key header e
    exact ⟨iff_of_true hx hfits, by simp [hx, hfits], fun h => absurd h hfits⟩

end

namespace Sample

def login : Auth := ⟨publicKey, salt 1, { login := "user", pass := "five padded bytes" }, key⟩

end Sample

section
open Sample

/-- A login is written with the pad that is drawn and read back, and the key for it is asked for by
its public key alone. -/
theorem login_read_back :
    let keyFor : PublicKey → Attempt (List PublicKey) SessionKey := fun k => do
      modifyState (k :: ·)
      return key
    ∃ b, (login.encode key (salt 2)).exec
          { state := (), entropy := { queued := [1, 2, 3, 4] } } =
        (.ok b, { state := (), entropy := { queued := [] } }) ∧
      PacketKind.peek b = .ok .auth ∧
      Fallible.exec (Auth.decode b keyFor) { state := [] } =
        (.ok ⟨salt 2, login⟩, { state := [publicKey] }) := by
  intro keyFor
  have hfits : SealedKind.auth.Fits login :=
    show login.credentials.Sendable from ⟨by decide, by decide⟩
  obtain ⟨b, hwritten, hpeek, hread⟩ :=
    (decode_encode.2 .auth login key (salt 2)
      { state := (), entropy := { queued := [1, 2, 3, 4] } }).2.2 hfits [1, 2, 3, 4]
      { queued := [] } (Entropy.draw?_append (a := [1, 2, 3, 4]) (r := []) rfl)
  exact ⟨b, hwritten, hpeek, hread keyFor { state := [] } _ rfl⟩

end

section
variable [CipherSuite]

/-- Nothing is read but what was written. Whatever a reader takes under a key is written, with one
pad and no other, exactly as it lay there; of an Olleh this holds if its flags are words zero or
one, and only then. -/
theorem encode_decode :
    (∀ (b : Bytes) (p : Hello), Hello.decode b = .ok p → p.encode = b) ∧
    ∀ (t : SealedKind) (b : Bytes) (key : SessionKey) {σ : Type}
      (keyFor : t.Subject → Attempt σ SessionKey) (e e' : Env σ) (r : Received t.Packet),
      (∀ s, ∃ e₁, (keyFor s).exec e = (.ok key, e₁)) → (t.decode b keyFor).exec e = (.ok r, e') →
        (t.FlagsWritten b key ↔ ∃! pad, pad.length = Sealed.padSize ∧
          t.Writes r.packet key r.header pad b) := by
  refine ⟨fun b p h => (Hello.decode_eq_ok_iff.1 h).symm, ?_⟩
  intro t b key σ keyFor e e' r hkey h
  obtain ⟨text, pad, hreads, hp, rfl⟩ := SealedKind.exists_reads_of_exec_decode hkey h
  rw [SealedKind.flagsWritten_iff hreads hp, SealedKind.existsUnique_writes_iff hp]
  exact (and_iff_right (SealedKind.fits_of_reads hreads)).symm

end

section
open Sample

/-- An Olleh that asks for a password, sealed with one pad, is sealed so with no other. -/
theorem olleh_written_with_one_pad :
    let r : Received Olleh := ⟨salt 1, ⟨publicKey, false, true⟩⟩
    let b := r.packet.wire key r.header [1, 2, 3, 4]
    (∀ s, ∃ e₁, ((fun _ => pure key : PublicKey → Attempt Unit SessionKey) s).exec
        { state := () } = (.ok key, e₁)) ∧
      Fallible.exec (Olleh.decode b fun _ => (pure key : Attempt Unit SessionKey)) { state := () } =
        (.ok r, { state := () }) ∧
      SealedKind.olleh.FlagsWritten b key ∧
      ∃! pad, pad.length = Sealed.padSize ∧
        SealedKind.olleh.Writes r.packet key r.header pad b := by
  intro r b
  have hkey : ∀ s, ∃ e₁, ((fun _ => pure key : PublicKey → Attempt Unit SessionKey) s).exec
      { state := () } = (.ok key, e₁) := fun _ => ⟨_, rfl⟩
  have hread : Fallible.exec (Olleh.decode b fun _ => (pure key : Attempt Unit SessionKey))
      { state := () } = (.ok r, { state := () }) := Olleh.exec_decode_wire r.packet rfl rfl
  have hflags : SealedKind.olleh.FlagsWritten b key :=
    (SealedKind.flagsWritten_iff (t := .olleh) (p := r.packet) r.packet.exists_flags_body rfl).2 rfl
  exact ⟨hkey, hread, hflags,
    (encode_decode.2 .olleh b key _ { state := () } { state := () } r hkey hread).1 hflags⟩

end

end SealedDatagram
