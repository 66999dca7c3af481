import SealedDatagram.Proofs.Packet.Fault
import SealedDatagram.Proofs.Server.Policy
/-!
When handling a datagram comes to an end. What the server does itself fails only with errors after
which it goes on; one that ends everything comes out of the derivation of a key or the registration
of a session, which are its owner's.
-/

namespace SealedDatagram

variable {α β σ : Type} {e : Env σ}

/-- No error of a step ends everything. -/
def Fallible.Returns (x : Attempt σ α) (e : Env σ) : Prop :=
  ∀ err, (x.exec e).1 = .error err → err.isFatal = false

namespace Fallible.Returns

theorem bind {x : Attempt σ α} {f : α → Attempt σ β} (hx : Returns x e)
    (hf : ∀ a e₁, x.exec e = (.ok a, e₁) → Returns (f a) e₁) : Returns (x >>= f) e := by
  intro err h
  rw [exec_bind] at h
  rcases hr : x.exec e with ⟨err' | a, e₁⟩ <;> rw [hr] at h
  · obtain rfl := Except.error.inj h
    exact hx err' (congrArg Prod.fst hr)
  · exact hf a e₁ hr err h

theorem pure (a : α) : Returns (Pure.pure a : Attempt σ α) e := fun _ => nofun

theorem throw {err : Error} (h : err.isFatal = false) :
    Returns (MonadExcept.throw err : Attempt σ α) e :=
  fun _ hx => Except.error.inj hx ▸ h

theorem liftExcept {x : Except Error α} (h : ∀ err, x = .error err → err.isFatal = false) :
    Returns (liftM x : Attempt σ α) e := h

theorem liftAction (a : Action σ α) : Returns (liftM a : Attempt σ α) e := fun _ => nofun

theorem count (g : Metrics → Metrics) : Returns (SealedDatagram.count g : Attempt σ Unit) e := by
  intro err h
  cases h

theorem drawSalt : Returns (drawSalt : Attempt σ Salt) e := by
  intro err h
  rcases exec_drawSalt_cases e with ⟨x, entropy, -, hx⟩ | ⟨-, hx⟩ <;> rw [hx] at h
  · cases h
  · exact Except.error.inj h ▸ rfl

theorem packet [CipherSuite] (kind : PacketKind) (prologue : Bytes) {body : Bytes}
    (hb : body.length ≤ Sealed.maxPlaintext) (key : SessionKey) (salt : Salt) :
    Returns (kind.packet prologue body key salt : Attempt σ Bytes) e := by
  intro err h
  rcases PacketKind.exec_packet_cases kind prologue hb key salt e with
    ⟨pad, entropy, -, -, hx⟩ | ⟨-, hx⟩ <;> rw [hx] at h
  · cases h
  · exact Except.error.inj h ▸ rfl

theorem asked {γ : Type} {hook : Option γ} {ask : γ → Action σ Bool} {err : Error}
    (herr : err.isFatal = false) :
    Returns (Hooks.demand hook (fun g => (ask g : Attempt σ Bool)) err) e := by
  unfold Hooks.demand
  cases hook with
  | none => exact pure ()
  | some g =>
    refine bind (liftAction _) fun a e₁ _ => ?_
    split
    · exact throw herr
    · exact pure ()

theorem derive {h : Hooks σ} (ha : ∀ f, h.deriveKey = some f → ∀ k e, Returns (f k) e)
    (k : PublicKey) : Returns (h.derive k) e := by
  unfold Hooks.derive
  split
  · rename_i f hf
    exact ha f hf k e
  · exact throw rfl

theorem advertise (h : Hooks σ) (p : SocketAddress) (k : PublicKey) (i : ServerInfo) :
    Returns (h.advertise p k i) e := by
  unfold Hooks.advertise
  split
  · exact pure i
  · refine bind (liftAction _) fun a e₁ _ => ?_
    split
    split
    · exact pure _
    · exact throw rfl

theorem lookup (h : Hooks σ) (p : SocketAddress) (x : Salt) : Returns (h.lookup p x) e := by
  unfold Hooks.lookup
  split
  · exact throw rfl
  · refine bind (liftAction _) fun key e₁ _ => ?_
    split
    · exact pure _
    · exact throw rfl

end Fallible.Returns

theorem Frame.isFatal_of_read_plain [CipherSuite] {read : Reader α}
    (hread : Reader.FailsIn (·.isFatal = false) read) {f : Frame} {key : SessionKey} {err : Error}
    (h : (do return ⟨f.header, ← read.parse (← f.plain key)⟩ : Except Error (Received α)) =
      .error err) : err.isFatal = false := by
  rcases Frame.read_plain_eq_error h with ⟨c, rfl, -⟩ | ⟨text, hb⟩
  · rfl
  · exact hread.parse hb

namespace Server

open Fallible

variable [CipherSuite] {s : Server σ} {b : Bytes} {p : SocketAddress}

section
variable (hkey : ∀ f, s.hooks.deriveKey = some f → ∀ k e, Fallible.Returns (f k) e)
include hkey

theorem returns_answerHello : Fallible.Returns (s.answerHello b p) e := by
  unfold answerHello
  refine .bind (.liftExcept fun err h => (Reader.FailsIn.hello.parse h).isFatal)
    fun hello _ _ => ?_
  refine .bind (.asked rfl) fun _ _ _ => ?_
  refine .bind (.advertise _ p _ _) fun info _ _ => ?_
  refine .bind (.derive hkey _) fun key _ _ => ?_
  refine .bind .drawSalt fun salt _ _ => ?_
  refine .bind (.packet _ _ (Olleh.length_body_le ⟨info⟩) key salt) fun reply _ _ => ?_
  exact .bind (.count _) fun _ _ _ => .pure reply

theorem returns_propose : Fallible.Returns (s.propose b p) e := by
  unfold propose
  refine .bind ?_ fun received e₁ _ => ?_
  · refine .bind (.liftExcept fun err h => ((Reader.FailsIn.keyedFrame _).parse h).isFatal)
      fun kf _ _ => ?_
    refine .bind (.bind (.asked rfl) fun _ _ _ => .derive hkey _) fun key _ _ => ?_
    exact .liftExcept fun err h => Frame.isFatal_of_read_plain
      (.authBody (fun _ => rfl) (fun _ => rfl) kf.1) h
  · have hrest : ∀ e, Fallible.Returns (do
        s.hooks.checkCredentials p received.packet.credentials
        let ownSalt ← drawSalt
        return { peer := p, publicKey := received.packet.publicKey
                 key := received.packet.sessionKey, peerSalt := received.packet.salt, ownSalt } :
          Attempt σ NewSession) e :=
      fun e => .bind (.asked rfl) fun _ _ _ => .bind .drawSalt fun _ _ _ => .pure _
    dsimp only
    split
    · exact .bind (.throw rfl) fun _ e₂ _ => hrest e₂
    · exact hrest e₁

theorem returns_answerAuth
    (hcreate : ∀ n e₁, (s.propose b p).exec e = (.ok n, e₁) →
      Fallible.Returns (s.hooks.create n) e₁) :
    Fallible.Returns (s.answerAuth b p) e := by
  rw [answerAuth_eq]
  refine .bind (returns_propose hkey) fun n e₁ hn => ?_
  refine .bind (hcreate n e₁ hn) fun _ _ _ => ?_
  refine .bind (.packet _ _ (Htua.length_body_le ⟨n.ownSalt⟩) n.key n.peerSalt)
    fun reply _ _ => ?_
  exact .bind (.count _) fun _ _ _ => .pure reply

end

theorem returns_acceptData : Fallible.Returns (s.acceptData b p) e := by
  have hopen : Fallible.Returns (s.openData b p) e := by
    refine .bind (.liftExcept fun err h => ((Reader.FailsIn.bareFrame _).parse h).isFatal)
      fun f _ _ => ?_
    refine .bind (.lookup _ p _) fun key _ _ => ?_
    exact .liftExcept fun err h => Frame.isFatal_of_read_plain (.dataBody fun _ => rfl) h
  rw [acceptData]
  refine .bind hopen fun r _ _ => ?_
  refine .bind (.asked rfl) fun _ _ _ => ?_
  exact .bind (.liftAction _) fun _ _ _ => .count _

/-- Whoever derives the keys returns, and so does whoever is asked to register what a datagram
proposes. -/
structure OwnerReturns (s : Server σ) (b : Bytes) (p : SocketAddress) (e : Env σ) : Prop where
  derive : ∀ f, s.hooks.deriveKey = some f → ∀ k e, Fallible.Returns (f k) e
  create : ∀ n e₁, (s.propose b p).exec e = (.ok n, e₁) → Fallible.Returns (s.hooks.create n) e₁

/-- Nobody is asked to register anything for a datagram that is not an Auth. -/
theorem OwnerReturns.of_peek_ne
    (hkey : ∀ f, s.hooks.deriveKey = some f → ∀ k e, Fallible.Returns (f k) e)
    (hb : PacketKind.peek b ≠ .ok .auth) : s.OwnerReturns b p e where
  derive := hkey
  create n e₁ hn := by
    unfold propose at hn
    rw [exec_bind_eq_ok] at hn
    obtain ⟨r, e₂, hr, -⟩ := hn
    exact absurd (peek_of_openAuth hr) hb

/-- A server whose owner returns makes something of every datagram. -/
theorem OwnerReturns.process (h : s.OwnerReturns b p e) : Fallible.Returns (s.process b p) e := by
  unfold Server.process
  refine .bind (.liftExcept fun err hb => (Reader.FailsIn.kind.parse hb).isFatal)
    fun kind e₁ hb => ?_
  obtain rfl : e₁ = e := (congrArg Prod.snd hb).symm
  cases kind with
  | hello => exact .bind (returns_answerHello h.derive) fun reply _ _ => .pure (some reply)
  | auth =>
    exact .bind (returns_answerAuth h.derive h.create) fun reply _ _ => .pure (some reply)
  | data => exact .bind returns_acceptData fun _ _ _ => .pure none
  | olleh => exact .throw rfl
  | htua => exact .throw rfl

end Server

end SealedDatagram
