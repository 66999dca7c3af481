import SealedDatagram.Proofs.Packet.Decode
import SealedDatagram.Proofs.SessionStore.Run
import SealedDatagram.Server
/-!
A server that keeps its sessions in a table, seen from the table: handling a datagram is a few calls
of it. A Data packet looks its session up and, once it is open, rolls the session on; an Auth
registers what it proposes.
-/

namespace SealedDatagram

variable {τ α β : Type}

def Hooks.keeping (h : Hooks (SessionStore × τ)) : Hooks (SessionStore × τ) :=
  h.withStore Prod.fst fun s x => (s, x.2)

def Env.store (e : Env (SessionStore × τ)) : Env SessionStore := { e with state := e.state.1 }

def Env.withStore (e : Env (SessionStore × τ)) (t : Env SessionStore) : Env (SessionStore × τ) :=
  { t with state := (t.state, e.state.2) }

@[simp] theorem Env.store_withStore (e : Env (SessionStore × τ)) (t : Env SessionStore) :
    (e.withStore t).store = t := rfl

section
open SessionStore
variable (h : Hooks (SessionStore × τ)) (p : SocketAddress) (e : Env (SessionStore × τ))

theorem exec_lookup_keeping (x : Salt) :
    (h.keeping.lookup p x).exec e =
      ((lookupStep p x e.store).1.elim (.error (.session .unknownSalt)) .ok,
        e.withStore (lookupStep p x e.store).2) := by
  change Fallible.exec (liftM ((lookupStep p x).within Prod.fst fun s x => (s, x.2)) >>= _) e = _
  have hstep : ((lookupStep p x).within Prod.fst fun s x => (s, x.2)) e =
      ((lookupStep p x e.store).1, e.withStore (lookupStep p x e.store).2) := rfl
  rw [Fallible.exec_bind, Fallible.exec_liftAction, hstep]
  dsimp only
  cases (lookupStep p x e.store).1 <;> rfl

theorem exec_demand {σ γ : Type} {hook : γ} {ask : γ → Attempt σ Bool} {err : Error} {e e' : Env σ}
    {x : Except Error Bool} (hx : (ask hook).exec e = (x, e')) :
    (Hooks.demand (some hook) ask err).exec e =
      (x.bind fun agreed => if agreed then .ok () else .error err, e') := by
  unfold Hooks.demand
  dsimp only
  rw [Fallible.exec_bind, hx]
  rcases x with _ | _ | _ <;> rfl

theorem exec_update_keeping (header x : Salt) :
    (h.keeping.update p header x).exec e =
      (if (updateStep p x e.store).1 then .ok () else .error (.session .replayedSalt),
        e.withStore (updateStep p x e.store).2) :=
  exec_demand (x := .ok (updateStep p x e.store).1) rfl

theorem exec_create_keeping (n : NewSession) :
    (h.keeping.create n).exec e =
      (((registerStep n).exec e.store).1.bind fun accepted =>
          if accepted then .ok () else .error (.rejected .session),
        e.withStore ((registerStep n).exec e.store).2) :=
  exec_demand rfl

end

namespace Fallible.Keeps

variable {σ V : Type} {view : Env σ → V} {h : Hooks σ}

theorem demand {γ : Type} {hook : Option γ} {ask : γ → Attempt σ Bool} {err : Error}
    (ha : ∀ g, hook = some g → Keeps view (ask g)) : Keeps view (Hooks.demand hook ask err) := by
  unfold Hooks.demand
  cases hook with
  | none => exact pure ()
  | some g =>
    refine bind (ha g rfl) fun a => ?_
    split
    · exact throw err
    · exact pure ()

theorem derive {k : PublicKey} (ha : ∀ f, h.deriveKey = some f → Keeps view (f k)) :
    Keeps view (h.derive k) := by
  unfold Hooks.derive
  split
  · rename_i f hf
    exact ha f hf
  · exact throw _

theorem advertise {p : SocketAddress} {k : PublicKey} {i : ServerInfo}
    (ha : ∀ f, h.hello = some f → ∀ e, view (f p k i e).2 = view e) :
    Keeps view (h.advertise p k i) := by
  unfold Hooks.advertise
  split
  · exact pure i
  · rename_i f hf
    refine bind (liftAction (ha f hf)) fun a => ?_
    split
    split
    · exact pure _
    · exact throw _

theorem lookup {p : SocketAddress} {x : Salt}
    (ha : ∀ f, h.lookupSession = some f → ∀ e, view (f p x e).2 = view e) :
    Keeps view (h.lookup p x) := by
  unfold Hooks.lookup
  split
  · exact throw _
  · rename_i f hf
    refine bind (liftAction (ha f hf)) fun key => ?_
    split
    · exact pure _
    · exact throw _

theorem deliver {p : SocketAddress} {m : Bytes}
    (ha : ∀ f, h.data = some f → ∀ e, view (f p m e).2 = view e) :
    Keeps view (liftM (h.deliver p m) : Attempt σ Unit) := by
  unfold Hooks.deliver
  cases hf : h.data with
  | none => exact pure ()
  | some f => exact liftAction (ha f hf)

end Fallible.Keeps

/-- A step that changes nothing in the table, whether it succeeds or fails. -/
def Fallible.Spares (x : Attempt (SessionStore × τ) α) : Prop :=
  ∀ e, (x.exec e).2.state.1 = e.state.1

namespace Fallible.Spares

variable {x : Attempt (SessionStore × τ) α} {f : α → Attempt (SessionStore × τ) β}

theorem iff_keeps : Spares x ↔ Keeps (fun e => e.state.1) x := Iff.rfl

theorem bind (hx : Spares x) (hf : ∀ a, Spares (f a)) : Spares (x >>= f) :=
  iff_keeps.2 (Keeps.bind (iff_keeps.1 hx) fun a => iff_keeps.1 (hf a))

theorem pure (a : α) : Spares (Pure.pure a : Attempt (SessionStore × τ) α) := fun _ => rfl

theorem liftExcept (x : Except Error α) : Spares (liftM x : Attempt (SessionStore × τ) α) :=
  fun _ => rfl

theorem drawSalt : Spares (drawSalt : Attempt (SessionStore × τ) Salt) :=
  iff_keeps.2 (Keeps.drawSalt fun _ _ => rfl)

theorem tracks (hx : Spares x) {e : Env (SessionStore × τ)} {cfg : SecurityConfig}
    {past : List Fact} (ht : e.store.state.Tracks cfg past) :
    (x.exec e).2.store.state.Tracks cfg past := by
  change SessionStore.Tracks (x.exec e).2.state.1 cfg past
  rw [hx e]
  exact ht

end Fallible.Spares

/-- Hooks of an application that leaves the table to the server. -/
structure Hooks.Apart (h : Hooks (SessionStore × τ)) : Prop where
  validKey : ∀ f, h.validKey = some f → ∀ k e, (f k e).2.state.1 = e.state.1
  hello : ∀ f, h.hello = some f → ∀ p k i e, (f p k i e).2.state.1 = e.state.1
  validCredentials : ∀ f, h.validCredentials = some f → ∀ p c e, (f p c e).2.state.1 = e.state.1
  deriveKey : ∀ f, h.deriveKey = some f → ∀ k, Fallible.Spares (f k)
  data : ∀ f, h.data = some f → ∀ p m e, (f p m e).2.state.1 = e.state.1

namespace Server

variable [CipherSuite]

/-- What an Auth proposes, with the salt drawn for the answer: all that comes before the
registration. -/
def propose {σ : Type} (s : Server σ) (b : Bytes) (peer : SocketAddress) :
    Attempt σ NewSession := do
  let received ← Auth.decode b fun k => do
    s.hooks.checkKey k
    s.hooks.derive k
  let auth := received.packet
  if lacks s.info auth.credentials then throw (.rejected .credentials)
  s.hooks.checkCredentials peer auth.credentials
  let ownSalt ← drawSalt
  return { peer, publicKey := auth.publicKey, key := auth.sessionKey, peerSalt := auth.salt,
           ownSalt }

theorem answerAuth_eq {σ : Type} (s : Server σ) (b : Bytes) (peer : SocketAddress) :
    s.answerAuth b peer = do
      let n ← s.propose b peer
      s.hooks.create n
      let reply ← (Htua.mk n.ownSalt).encode n.key n.peerSalt
      count Metrics.sessionEstablished
      return reply := by
  unfold answerAuth propose
  simp only [bind_assoc]
  congr 1
  funext received
  split
  · rfl
  · simp only [bind_assoc, pure_bind]

/-- A Data packet that is open, with the key that opened it. -/
structure Opened where
  peer : SocketAddress
  key : SessionKey
  received : Received Data
  deriving DecidableEq

/-- Opens a Data packet with the key of the session that its header names. -/
def openKeyed {σ : Type} (s : Server σ) (b : Bytes) (peer : SocketAddress) :
    Attempt σ Opened := do
  let f ← PacketKind.data.bareFrame.parse b
  let key ← s.hooks.lookup peer f.header
  return ⟨peer, key, ← Data.ofFrame f key⟩

/-- Opening a packet is the same if the key is forgotten once it is open. -/
theorem exec_openData {σ : Type} (s : Server σ) (b : Bytes) (peer : SocketAddress) (e : Env σ) :
    (s.openData b peer).exec e =
      (((s.openKeyed b peer).exec e).1.map Opened.received, ((s.openKeyed b peer).exec e).2) := by
  unfold openData openKeyed
  rw [Data.exec_decode, Fallible.exec_bind, Fallible.exec_liftExcept]
  cases PacketKind.data.bareFrame.parse b with
  | error err => rfl
  | ok f =>
    dsimp only
    rw [Fallible.exec_bind]
    rcases (s.hooks.lookup peer f.header).exec e with ⟨err | key, e₁⟩
    · rfl
    · dsimp only
      rw [Fallible.exec_bind, Fallible.exec_liftExcept]
      cases Data.ofFrame f key <;> rfl

theorem openKeyed_eq_ok {σ : Type} {s : Server σ} {b : Bytes} {peer : SocketAddress}
    {e e' : Env σ} {o : Opened} (hx : (s.openKeyed b peer).exec e = (.ok o, e')) :
    o.peer = peer ∧ (s.hooks.lookup peer o.received.header).exec e = (.ok o.key, e') ∧
      ∃ pad, pad.length = Sealed.padSize ∧
        b = o.received.packet.wire o.key o.received.header pad := by
  unfold openKeyed at hx
  rw [Fallible.exec_bind_eq_ok] at hx
  obtain ⟨f, e₁, hf, hx⟩ := hx
  rw [Fallible.exec_bind_eq_ok] at hx
  obtain ⟨key, e₂, hkey, hx⟩ := hx
  rw [Fallible.exec_bind_eq_ok] at hx
  obtain ⟨r, e₃, hr, hx⟩ := hx
  rw [Fallible.exec_liftExcept, Prod.mk.injEq] at hf hr
  obtain ⟨hf, rfl⟩ := hf
  obtain ⟨hr, rfl⟩ := hr
  cases hx
  obtain ⟨hh, -, pad, hpad, hfr⟩ := Data.ofFrame_eq_ok_iff.1 hr
  refine ⟨rfl, hh ▸ hkey, pad, hpad, ?_⟩
  rw [(PacketKind.bareFrame_eq_ok_iff.1 hf).2, hfr]
  rfl

def keeping (info : ServerInfo) (h : Hooks (SessionStore × τ)) : Server (SessionStore × τ) where
  info := info
  hooks := h.keeping

/-- What opening a datagram brings about in the table. -/
def openFacts (b : Bytes) (peer : SocketAddress) (e : Env (SessionStore × τ)) : List Fact :=
  match PacketKind.data.bareFrame.parse b with
  | .ok f => (SessionStore.Call.lookup peer f.header).facts e.store
  | .error _ => []

def rollFacts (peer : SocketAddress) (r : Received Data) (e : Env (SessionStore × τ)) :
    List Fact := (SessionStore.Call.update peer r.packet.salt).facts e.store

section
variable (info : ServerInfo) (h : Hooks (SessionStore × τ)) (peer : SocketAddress)

theorem store_exec_openData (b : Bytes) (e : Env (SessionStore × τ)) :
    (((keeping info h).openData b peer).exec e).2.store =
      match PacketKind.data.bareFrame.parse b with
      | .ok f => (SessionStore.Call.lookup peer f.header).next e.store
      | .error _ => e.store := by
  unfold openData
  rw [Data.exec_decode]
  cases PacketKind.data.bareFrame.parse b with
  | error err => rfl
  | ok f =>
    dsimp only [keeping]
    rw [exec_lookup_keeping]
    cases (SessionStore.lookupStep peer f.header e.store).1 <;> rfl

omit [CipherSuite] in
theorem exec_roll (r : Received Data) (e : Env (SessionStore × τ)) :
    ((keeping info h).roll peer r).exec e =
      (if (SessionStore.updateStep peer r.packet.salt e.store).1 then .ok ()
        else .error (.session .replayedSalt),
        e.withStore (SessionStore.updateStep peer r.packet.salt e.store).2) :=
  exec_update_keeping h peer e r.header r.packet.salt

/-- Rolling a session on succeeds exactly if the table says that the session was rolled on. -/
theorem rollFacts_eq (r : Received Data) (e : Env (SessionStore × τ)) :
    rollFacts peer r e = if (((keeping info h).roll peer r).exec e).1.isOk
      then [.rolled peer r.packet.salt e.now] else [] := by
  rw [exec_roll]
  simp only [rollFacts, SessionStore.Call.facts]
  cases (SessionStore.updateStep peer r.packet.salt e.store).1 <;> rfl

variable {e : Env (SessionStore × τ)} {cfg : SecurityConfig} {past : List Fact}

theorem tracks_openData (ht : e.store.state.Tracks cfg past) (b : Bytes) :
    (((keeping info h).openData b peer).exec e).2.store.state.Tracks cfg
      (past ++ openFacts b peer e) := by
  rw [store_exec_openData]
  unfold openFacts
  cases PacketKind.data.bareFrame.parse b with
  | error err => simpa using ht
  | ok f => exact ht.step _

theorem tracks_roll (ht : e.store.state.Tracks cfg past) (r : Received Data) :
    (((keeping info h).roll peer r).exec e).2.store.state.Tracks cfg
      (past ++ rollFacts peer r e) := by
  rw [exec_roll]
  exact ht.step (.update peer r.packet.salt)

end

end Server

end SealedDatagram
