import SealedDatagram.Proofs.Client
import SealedDatagram.Proofs.Server.Run
/-!
What a server makes of the packets of its clients. An Auth that is let through has its session
registered, and is answered with an Htua unless that is refused or there is no pad for it. A Data
packet under the key of a live session is delivered if a salt of the session is its header, and
refused if not.
-/

namespace SealedDatagram

variable {τ : Type} [CipherSuite]

theorem Hooks.apart_withKeyPair (pair : KeyPair) :
    (({} : Hooks (SessionStore × τ)).withKeyPair pair).Apart where
  validKey f hf := nomatch hf
  hello f hf := nomatch hf
  validCredentials f hf := nomatch hf
  deriveKey f hf k := by
    obtain rfl := Option.some.inj hf
    exact Fallible.Spares.pure _
  data f hf := nomatch hf

namespace Server

open Fallible SessionStore

theorem exec_propose_wire {σ : Type} {s : Server σ} {auth : Auth} {shared : SessionKey}
    {under ownSalt : Salt} {pad : Bytes} {p : SocketAddress} {e e₁ e₂ : Env σ} {entropy : Entropy}
    (hkey : Fallible.exec (do
      s.hooks.checkKey auth.publicKey
      s.hooks.derive auth.publicKey : Attempt σ SessionKey) e = (.ok shared, e₁))
    (hsend : auth.credentials.Sendable) (hpad : pad.length = Sealed.padSize)
    (hlacks : lacks s.info auth.credentials = false)
    (hcred : (s.hooks.checkCredentials p auth.credentials).exec e₁ = (.ok (), e₂))
    (hd : e₂.entropy.draw? Salt.size = some (ownSalt.bytes, entropy)) :
    (s.propose (auth.wire shared under pad) p).exec e =
      (.ok { peer := p, publicKey := auth.publicKey, key := auth.sessionKey,
             peerSalt := auth.salt, ownSalt }, { e₂ with entropy }) := by
  have hopen : Fallible.exec (Auth.decode (auth.wire shared under pad) fun k => do
      s.hooks.checkKey k
      s.hooks.derive k) e = (.ok ⟨under, auth⟩, e₁) :=
    Auth.exec_decode_eq_ok_iff.2 ⟨shared, hkey, hsend, pad, hpad, rfl⟩
  unfold propose
  rw [exec_bind, hopen]
  dsimp only
  rw [if_neg (by rw [hlacks]; exact Bool.false_ne_true), exec_bind, hcred]
  dsimp only
  rw [exec_bind, exec_drawSalt hd]
  rfl

/-- A server with a key pair that asks nothing else of its clients lets every Auth through that is
sealed with the key derived for its sender. -/
theorem exec_propose_withKeyPair {info : ServerInfo} (hlogin : info.needLogin = false)
    (hpass : info.needPass = false) (pair : KeyPair) {a : Auth}
    (hsend : a.credentials.Sendable) (under : Salt) {ownSalt : Salt} {pad : Bytes}
    (hpad : pad.length = Sealed.padSize) (p : SocketAddress) {e : Env (SessionStore × τ)}
    {entropy : Entropy} (hd : e.entropy.draw? Salt.size = some (ownSalt.bytes, entropy)) :
    ((keeping info (({} : Hooks (SessionStore × τ)).withKeyPair pair)).propose
        (a.wire (pair.sharedKey a.publicKey) under pad) p).exec e =
      (.ok { peer := p, publicKey := a.publicKey, key := a.sessionKey,
             peerSalt := a.salt, ownSalt }, { e with entropy }) :=
  exec_propose_wire rfl hsend hpad
    (by simp only [keeping, lacks, hlogin, hpass, Bool.false_and, Bool.or_self]) rfl hd

section
variable (info : ServerInfo) (h : Hooks (SessionStore × τ)) {b pad : Bytes} {p : SocketAddress}
  {e : Env (SessionStore × τ)}

theorem facts_of_propose {s : Server (SessionStore × τ)} {n : NewSession}
    {e₁ : Env (SessionStore × τ)} (hb : PacketKind.peek b = .ok .auth)
    (hn : (s.propose b p).exec e = (.ok n, e₁)) :
    s.facts b p e = (Call.register n).facts e₁.store := by
  unfold facts
  rw [hb, hn]

theorem exec_process_auth_cases (hb : PacketKind.peek b = .ok .auth) :
    (∃ err e₁, ((keeping info h).propose b p).exec e = (.error err, e₁) ∧
      ((keeping info h).process b p).exec e = (.error err, e₁)) ∨
    ∃ n e₁, ((keeping info h).propose b p).exec e = (.ok n, e₁) ∧
      let r := (registerStep n).exec e₁.store
      let e₂ := e₁.withStore r.2
      (r.1 = .ok false ∧
        ((keeping info h).process b p).exec e = (.error (.rejected .session), e₂)) ∨
      (∃ err, r.1 = .error err ∧ ((keeping info h).process b p).exec e = (.error err, e₂)) ∨
      (r.1 = .ok true ∧
        ((∃ pad entropy, pad.length = Sealed.padSize ∧
          e₂.entropy.draw? Sealed.padSize = some (pad, entropy) ∧
          ((keeping info h).process b p).exec e =
            (.ok (some ((Htua.mk n.ownSalt).wire n.key n.peerSalt pad)),
              { e₂ with entropy, metrics := e₂.metrics.sessionEstablished })) ∨
        (e₂.entropy.draw? Sealed.padSize = none ∧
          ((keeping info h).process b p).exec e = (.error (.cipher .randomSource), e₂)))) := by
  rw [exec_process, hb]
  dsimp only
  rw [answerAuth_eq, exec_bind]
  rcases hn : ((keeping info h).propose b p).exec e with ⟨err | n, e₁⟩
  · exact .inl ⟨err, e₁, rfl, rfl⟩
  · refine .inr ⟨n, e₁, rfl, ?_⟩
    have hcreate : Fallible.exec ((keeping info h).hooks.create n) e₁ = _ :=
      exec_create_keeping h e₁ n
    dsimp only
    rw [exec_bind, hcreate]
    rcases hreg : (registerStep n).exec e₁.store with ⟨err | _ | _, t⟩
    · exact .inr (.inl ⟨err, rfl, rfl⟩)
    · exact .inl ⟨rfl, rfl⟩
    · refine .inr (.inr ⟨rfl, ?_⟩)
      dsimp only [Except.bind]
      rw [if_pos rfl]
      dsimp only
      rw [exec_bind]
      rcases Htua.exec_encode_cases ⟨n.ownSalt⟩ n.key n.peerSalt (e₁.withStore t) with
        ⟨pad, entropy, hp, hd, hw⟩ | ⟨hd, hw⟩
      · rw [hw]
        exact .inl ⟨pad, entropy, hp, hd, rfl⟩
      · rw [hw]
        exact .inr ⟨hd, rfl⟩

theorem exec_process_auth {n : NewSession} {e₁ : Env (SessionStore × τ)} {pad : Bytes}
    {entropy : Entropy} (hb : PacketKind.peek b = .ok .auth)
    (hn : ((keeping info h).propose b p).exec e = (.ok n, e₁))
    (hreg : ((registerStep n).exec e₁.store).1 = .ok true)
    (hd : e₁.entropy.draw? Sealed.padSize = some (pad, entropy)) :
    ((keeping info h).process b p).exec e =
      (.ok (some ((Htua.mk n.ownSalt).wire n.key n.peerSalt pad)),
        { e₁.withStore ((registerStep n).exec e₁.store).2 with
          entropy
          metrics := ((registerStep n).exec e₁.store).2.metrics.sessionEstablished }) := by
  have hsource : (e₁.withStore ((registerStep n).exec e₁.store).2).entropy = e₁.entropy := by
    obtain ⟨metrics, heq⟩ := exec_registerStep n e₁.store
    rw [heq]
    rfl
  rcases exec_process_auth_cases info h (e := e) (p := p) hb with ⟨err, e₂, hn', -⟩ |
    ⟨n', e₂, hn', ⟨hreg', -⟩ | ⟨err, hreg', -⟩ | ⟨-, ⟨pad', entropy', -, hd', hx⟩ | ⟨hd', -⟩⟩⟩
  · rw [hn] at hn'
    cases hn'
  · rw [hn] at hn'
    cases hn'
    rw [hreg] at hreg'
    cases hreg'
  · rw [hn] at hn'
    cases hn'
    rw [hreg] at hreg'
    cases hreg'
  · rw [hn] at hn'
    cases hn'
    rw [hsource, hd] at hd'
    cases hd'
    exact hx
  · rw [hn] at hn'
    cases hn'
    rw [hsource, hd] at hd'
    cases hd'

theorem exec_process_auth_of_error {n : NewSession} {e₁ : Env (SessionStore × τ)}
    {t : Env SessionStore} {err : Error} (hb : PacketKind.peek b = .ok .auth)
    (hn : ((keeping info h).propose b p).exec e = (.ok n, e₁))
    (hreg : (registerStep n).exec e₁.store = (.error err, t)) :
    ((keeping info h).process b p).exec e = (.error err, e₁.withStore t) := by
  rcases exec_process_auth_cases info h (e := e) (p := p) hb with ⟨err, e₂, hn', -⟩ |
    ⟨n', e₂, hn', ⟨hreg', -⟩ | ⟨err', hreg', hx⟩ | ⟨hreg', -⟩⟩ <;>
    rw [hn] at hn' <;> cases hn' <;> rw [hreg] at hreg'
  · cases hreg'
  · rw [hx, hreg, Except.error.inj hreg']
  · cases hreg'

theorem exists_process_hello (pair : KeyPair) (k : PublicKey) (hb : e.entropy.budget = none) :
    ∃ header pad entropy, pad.length = Sealed.padSize ∧ entropy.budget = none ∧
      ((keeping info (({} : Hooks (SessionStore × τ)).withKeyPair pair)).process
          (Hello.mk k).encode p).exec e =
        (.ok (some ((Olleh.mk info).wire (pair.sharedKey k) header pad)),
          { e with entropy, metrics := e.metrics.helloAnswered }) := by
  let s := keeping info (({} : Hooks (SessionStore × τ)).withKeyPair pair)
  have hanswer : (s.answerHello (Hello.mk k).encode p).exec e = Fallible.exec (do
      let salt ← drawSalt
      let reply ← (Olleh.mk info).encode (pair.sharedKey k) salt
      count Metrics.helloAnswered
      return reply : Attempt (SessionStore × τ) Bytes) e := by
    unfold answerHello
    rw [exec_bind, exec_liftExcept, Hello.decode_eq_ok_iff.2 rfl]
    rfl
  rw [exec_process, Hello.peek_encode]
  dsimp only
  rw [hanswer, exec_bind]
  rcases exec_drawSalt_cases e with ⟨header, entropy, hd, hx⟩ | ⟨hd, -⟩
  · have hb₁ : entropy.budget = none := Entropy.budget_eq_none_of_draw? hd hb
    rw [hx]
    dsimp only
    rw [exec_bind]
    rcases Olleh.exec_encode_cases ⟨info⟩ (pair.sharedKey k) header { e with entropy } with
      ⟨pad, entropy', hp, hdp, hw⟩ | ⟨hdp, -⟩
    · rw [hw]
      exact ⟨header, pad, entropy', hp, Entropy.budget_eq_none_of_draw? hdp hb₁, rfl⟩
    · exact absurd hb₁ (Entropy.budget_ne_none_of_draw? hdp)
  · exact absurd hb (Entropy.budget_ne_none_of_draw? hd)

theorem exists_propose (pair : KeyPair) {a : Auth} (hsend : a.credentials.Sendable)
    (hlacks : lacks info a.credentials = false) (under : Salt) (hpad : pad.length = Sealed.padSize)
    (hb : e.entropy.budget = none) :
    ∃ ownSalt entropy, entropy.budget = none ∧
      ((keeping info (({} : Hooks (SessionStore × τ)).withKeyPair pair)).propose
          (a.wire (pair.sharedKey a.publicKey) under pad) p).exec e =
        (.ok { peer := p, publicKey := a.publicKey, key := a.sessionKey, peerSalt := a.salt,
               ownSalt }, { e with entropy }) := by
  obtain ⟨salt, entropy, hd, hlen, hb₁⟩ := Entropy.exists_draw? Salt.size hb
  exact ⟨⟨salt, hlen⟩, entropy, hb₁, exec_propose_wire rfl hsend hpad hlacks rfl hd⟩

/-- An Auth that is let through is answered if it brings a new salt to a table with room for its
session and memory for the window. The session is registered then. -/
theorem exists_process_auth (pair : KeyPair) {a : Auth} (hsend : a.credentials.Sendable)
    (hlacks : lacks info a.credentials = false) (under : Salt) (hpad : pad.length = Sealed.padSize)
    (hb : e.entropy.budget = none) (hroom : e.state.1.HasRoom e.now p)
    (hwindow : e.state.1.HasWindow e.memory e.now p) (hx : e.state.1.Unseen e.now p a.salt) :
    ∃ ownSalt pad' window e', pad'.length = Sealed.padSize ∧
      ((keeping info (({} : Hooks (SessionStore × τ)).withKeyPair pair)).process
          (a.wire (pair.sharedKey a.publicKey) under pad) p).exec e =
        (.ok (some ((Htua.mk ownSalt).wire a.sessionKey a.salt pad')), e') ∧
      e'.state.1 = (e.state.1.sweep e.now).establish e.now
        { peer := p, publicKey := a.publicKey, key := a.sessionKey, peerSalt := a.salt, ownSalt }
        window ∧
      e'.now = e.now ∧ e'.halted = e.halted := by
  obtain ⟨ownSalt, entropy, hb₁, hpropose⟩ :=
    exists_propose info (e := e) (p := p) pair hsend hlacks under hpad hb
  obtain ⟨pad', entropy', hdp, hpad', -⟩ := Entropy.exists_draw? Sealed.padSize hb₁
  let n : NewSession :=
    { peer := p, publicKey := a.publicKey, key := a.sessionKey, peerSalt := a.salt, ownSalt }
  let e₁ : Env (SessionStore × τ) := { e with entropy }
  obtain ⟨window, hreg⟩ := register_of_room (n := n) hroom hwindow hx
  obtain ⟨metrics, heq⟩ := exec_registerStep n e₁.store
  rw [show e₁.store.state.register e₁.store.memory e₁.store.now n = _ from hreg] at heq
  refine ⟨ownSalt, pad', window, _, hpad', exec_process_auth info _ (Auth.peek_wire _ _ _ _)
    hpropose ?_ hdp, ?_, ?_, ?_⟩
  · rw [heq]
    rfl
  · change ((registerStep n).exec e₁.store).2.state = _
    rw [heq]
  · change ((registerStep n).exec e₁.store).2.now = _
    rw [heq]
    rfl
  · change ((registerStep n).exec e₁.store).2.halted = _
    rw [heq]
    exact Bool.or_false _

/-- An Auth that is let through stops everything if there is room for its session and no memory for
the window. No session is registered then. -/
theorem exists_process_auth_of_no_memory (pair : KeyPair) {a : Auth}
    (hsend : a.credentials.Sendable) (hlacks : lacks info a.credentials = false) (under : Salt)
    (hpad : pad.length = Sealed.padSize) (hb : e.entropy.budget = none)
    (hroom : e.state.1.HasRoom e.now p) (hwindow : ¬ e.state.1.HasWindow e.memory e.now p) :
    ∃ e', ((keeping info (({} : Hooks (SessionStore × τ)).withKeyPair pair)).process
          (a.wire (pair.sharedKey a.publicKey) under pad) p).exec e = (.error .outOfMemory, e') ∧
      e'.state.1 = e.state.1.sweep e.now ∧ e'.halted = true := by
  obtain ⟨ownSalt, entropy, hb₁, hpropose⟩ :=
    exists_propose info (e := e) (p := p) pair hsend hlacks under hpad hb
  let n : NewSession :=
    { peer := p, publicKey := a.publicKey, key := a.sessionKey, peerSalt := a.salt, ownSalt }
  let e₁ : Env (SessionStore × τ) := { e with entropy }
  obtain ⟨metrics, heq⟩ := exec_registerStep n e₁.store
  have hreg : e₁.store.state.register e₁.store.memory e₁.store.now n = _ :=
    register_of_no_memory (n := n) hroom hwindow
  rw [hreg] at heq
  exact ⟨_, exec_process_auth_of_error info _ (Auth.peek_wire _ _ _ _) hpropose heq, rfl,
    Bool.or_true _⟩

/-- A datagram is handled, and this payload handed on. -/
def Delivers {σ : Type} (s : Server σ) (b : Bytes) (p : SocketAddress) (e : Env σ) (m : Bytes) :
    Prop :=
  ∃ e₂, (s.process b p).exec e = (.ok none, { (s.hooks.deliver p m e₂).2 with
    metrics := (s.hooks.deliver p m e₂).2.metrics.delivered })

variable {key : SessionKey} {under x : Salt} {m : Bytes} {d : Session}

/-- What a look-up answers for the header of a Data packet, which is all that is known of the packet
before. -/
theorem openFacts_wire (p : SocketAddress) (e : Env (SessionStore × τ)) (a : Data) :
    openFacts (a.wire key under pad) p e = (Call.lookup p under).facts e.store := by
  unfold openFacts
  rw [Data.wire, PacketKind.bareFrame_wire]
  rfl

theorem process_wire {σ : Type} (s : Server σ) (a : Data) (e : Env σ) :
    (s.process (a.wire key under pad) p).exec e =
      (((s.acceptData (a.wire key under pad) p).exec e).1.map fun _ => none,
        ((s.acceptData (a.wire key under pad) p).exec e).2) := by
  rw [exec_process, Data.peek_wire]

theorem process_of_unnamed (hsalt : e.store.state.bySalt.get? under ≠ some p) (a : Data) :
    ((keeping info h).process (a.wire key under pad) p).exec e =
        (.error (.session .unknownSalt), e) ∧
      (keeping info h).facts (a.wire key under pad) p e = [] := by
  have hlook : e.store.state.lookup e.store.now p under = (none, e.store.state) := if_neg hsalt
  have hkey : ((keeping info h).hooks.lookup p under).exec e =
      (.error (.session .unknownSalt), e) := by
    change (h.keeping.lookup p under).exec e = _
    rw [exec_lookup_keeping, lookupStep_eq, hlook]
    rfl
  have hopen : ((keeping info h).openData (a.wire key under pad) p).exec e = _ :=
    Data.exec_decode_wire_of_refused hkey
  constructor
  · rw [process_wire, acceptData, exec_bind, hopen]
    rfl
  · unfold facts
    rw [hopen, Data.peek_wire]
    dsimp only
    rw [openFacts_wire, Call.facts, lookupStep_eq, hlook]
    dsimp only
    rw [if_neg fun h => hsalt h.1]
    rfl

theorem dropped_of_expired (hd : e.store.state.sessions.get? p = some d)
    (hsalt : e.store.state.bySalt.get? under = some p)
    (hold : d.expired e.store.state.ttl e.store.now = true) (a : Data) :
    .dropped p (.expired e.now) ∈ (keeping info h).facts (a.wire key under pad) p e := by
  unfold facts
  rw [Data.peek_wire]
  dsimp only
  rw [openFacts_wire, Call.facts, lookupStep_eq, lookup_of_expired hsalt hd hold]
  dsimp only
  rw [if_pos ⟨hsalt, mem_expiredPeers.2 ⟨d, hd, hold⟩⟩]
  exact List.mem_append_left _ (List.mem_singleton_self _)

/-- A Data packet sealed with the key of a live session under a salt that the session is named by
opens, and the session is marked as seen. -/
theorem exec_openKeyed_of_live (hd : e.store.state.sessions.get? p = some d)
    (hsalt : e.store.state.bySalt.get? under = some p)
    (hlive : d.expired e.store.state.ttl e.store.now = false) (hm : m.length ≤ Data.maxPayload)
    (hpad : pad.length = Sealed.padSize) :
    ((keeping info h).openKeyed ((Data.mk x m).wire d.key under pad) p).exec e =
      (.ok ⟨p, d.key, ⟨under, ⟨x, m⟩⟩⟩, e.withStore (lookupStep p under e.store).2) := by
  have hkey : ((keeping info h).hooks.lookup p under).exec e =
      (.ok d.key, e.withStore (lookupStep p under e.store).2) := by
    change (h.keeping.lookup p under).exec e = _
    rw [exec_lookup_keeping, show (lookupStep p under e.store).1 = some d.key by
      rw [lookupStep_eq, lookup_of_live hsalt hd hlive]]
    rfl
  have hopen : Data.ofFrame (d.key.frame under pad (Data.mk x m).body) d.key =
      .ok ⟨under, ⟨x, m⟩⟩ := Data.ofFrame_eq_ok_iff.2 ⟨rfl, hm, pad, hpad, rfl⟩
  unfold openKeyed
  rw [exec_bind, exec_liftExcept, Data.wire, PacketKind.bareFrame_wire]
  dsimp only
  rw [exec_bind, show (d.key.frame under pad (Data.mk x m).body).header = under from rfl, hkey]
  dsimp only
  rw [exec_bind, exec_liftExcept, hopen]
  rfl

/-- A Data packet sealed with the key of a live session under a salt that the session is named by
opens, and the session accepts the salt in it if that is fresh. -/
theorem stages_of_live (hd : e.store.state.sessions.get? p = some d)
    (hsalt : e.store.state.bySalt.get? under = some p)
    (hlive : d.expired e.store.state.ttl e.store.now = false) (hx : (d.window.accept x).1 = true)
    (hm : m.length ≤ Data.maxPayload) (hpad : pad.length = Sealed.padSize) :
    let e₁ := e.withStore (lookupStep p under e.store).2
    let e₂ := e₁.withStore (updateStep p x e₁.store).2
    ((keeping info h).openData ((Data.mk x m).wire d.key under pad) p).exec e =
        (.ok ⟨under, ⟨x, m⟩⟩, e₁) ∧
      ((keeping info h).roll p ⟨under, ⟨x, m⟩⟩).exec e₁ = (.ok (), e₂) := by
  intro e₁ e₂
  constructor
  · rw [exec_openData, exec_openKeyed_of_live info h hd hsalt hlive hm hpad]
    rfl
  · have hd₁ : e₁.store.state.sessions.get? p = some { d with lastSeen := e.now } := by
      change (lookupStep p under e.store).2.state.sessions.get? p = _
      rw [lookupStep_eq, lookup_of_live hsalt hd hlive]
      exact (Table.get?_insert _ _ _ _).trans (if_pos rfl)
    have hup : (updateStep p x e₁.store).1 = true := by
      obtain ⟨metrics, heq⟩ := updateStep_eq p x e₁.store
      rw [heq, update_of_fresh hd₁ hx]
      rfl
    rw [exec_roll, hup, if_pos rfl]

theorem process_of_live (hd : e.store.state.sessions.get? p = some d)
    (hsalt : e.store.state.bySalt.get? under = some p)
    (hlive : d.expired e.store.state.ttl e.store.now = false) (hx : (d.window.accept x).1 = true)
    (hm : m.length ≤ Data.maxPayload) (hpad : pad.length = Sealed.padSize) :
    (keeping info h).Delivers ((Data.mk x m).wire d.key under pad) p e m ∧
      (keeping info h).facts ((Data.mk x m).wire d.key under pad) p e =
        [.found p e.now, .rolled p x e.now] := by
  let e₁ := e.withStore (lookupStep p under e.store).2
  obtain ⟨hopen, hroll⟩ := stages_of_live info h hd hsalt hlive hx hm hpad
  constructor
  · refine ⟨e₁.withStore (updateStep p x e₁.store).2, ?_⟩
    rw [process_wire, acceptData, exec_bind, hopen]
    dsimp only
    rw [exec_bind, hroll]
    rfl
  · have hrolled := rollFacts_eq info h p ⟨under, ⟨x, m⟩⟩ e₁
    rw [hroll] at hrolled
    unfold facts
    rw [hopen, Data.peek_wire]
    dsimp only
    rw [hrolled, openFacts_wire, Call.facts, lookupStep_eq, lookup_of_live hsalt hd hlive]
    rfl

end

end Server

namespace Sample

def pair : KeyPair := .ofSecret (List.replicate 32 7)

def otherKey : SessionKey := ⟨"another sixteen!", by decide, by decide⟩

def pad : Bytes := List.replicate 4 0

def info : ServerInfo := ⟨pair.publicKey, false, false⟩

def hooks : Hooks (SessionStore × Unit) := ({} : Hooks (SessionStore × Unit)).withKeyPair pair

def auth (peerSalt : Salt) (k : SessionKey) : Auth := ⟨publicKey, peerSalt, {}, k⟩

def request (peerSalt : Salt) (k : SessionKey) : Bytes :=
  (auth peerSalt k).wire (pair.sharedKey publicKey) (salt 9) pad

def requested (peerSalt ownSalt : Salt) (k : SessionKey) : NewSession :=
  { session peerSalt ownSalt with key := k }

def server (queued : Bytes) : Env (SessionStore × Unit) where
  state := (.ofConfig config, ())
  entropy := { queued }

def client (queued : Bytes) : Env Client where
  state :=
    { keyPair := ⟨[], publicKey⟩
      phase := .keyExchanged
      sharedKey := some (pair.sharedKey publicKey)
      peerSalt := some (salt 9) }
  entropy := { queued }

def left {σ : Type} (e : Env σ) (queued : Bytes) : Env σ := { e with entropy := { queued } }

def registered (e : Env (SessionStore × Unit)) (n : NewSession) (rest : Bytes) :
    Env (SessionStore × Unit) :=
  let t := ((SessionStore.registerStep n).exec (left e (pad ++ rest)).store).2
  { e.withStore t with entropy := { queued := rest }, metrics := t.metrics.sessionEstablished }

theorem apart_hooks : hooks.Apart := Hooks.apart_withKeyPair pair

theorem peek_request (x : Salt) (k : SessionKey) : PacketKind.peek (request x k) = .ok .auth :=
  Auth.peek_wire _ _ _ _

omit [CipherSuite] in
theorem sendable_auth (x : Salt) (k : SessionKey) : (auth x k).credentials.Sendable := by
  change Credentials.Sendable {}
  decide

theorem exec_propose (x y : Salt) (k : SessionKey) (rest : Bytes)
    {e : Env (SessionStore × Unit)} (he : e.entropy = { queued := y.bytes ++ (pad ++ rest) }) :
    ((Server.keeping info hooks).propose (request x k) peer).exec e =
      (.ok (requested x y k), left e (pad ++ rest)) :=
  Server.exec_propose_withKeyPair rfl rfl pair (sendable_auth x k) (salt 9) rfl peer
    (by rw [he]; exact Entropy.draw?_append y.length_eq)

theorem exec_process (x y : Salt) (k : SessionKey) (rest : Bytes)
    {e : Env (SessionStore × Unit)} (he : e.entropy = { queued := y.bytes ++ (pad ++ rest) })
    (h : ((SessionStore.registerStep (requested x y k)).exec (left e (pad ++ rest)).store).1 =
      .ok true) :
    ((Server.keeping info hooks).process (request x k) peer).exec e =
      (.ok (some ((Htua.mk y).wire k x pad)), registered e (requested x y k) rest) :=
  Server.exec_process_auth info hooks (peek_request x k) (exec_propose x y k rest he) h
    (Entropy.draw?_append rfl)

def established : Env (SessionStore × Unit) :=
  registered (server ((salt 2).bytes ++ (pad ++ []))) (requested (salt 1) (salt 2) key) []

theorem after_request (events : List Event) :
    (Server.keeping info hooks).recorder.after (server ((salt 2).bytes ++ (pad ++ [])))
      (.datagram (request (salt 1) key) peer :: events) =
    (Server.keeping info hooks).recorder.after established events := by
  rw [Recorder.after_cons, Server.next_datagram,
    exec_process (salt 1) (salt 2) key [] rfl (by decide +kernel)]
  rfl

theorem exec_clientPropose (x : Salt) (k : SessionKey) (rest : Bytes) {e : Env Client}
    (he : e.entropy = { queued := x.bytes ++ (pad ++ rest) })
    (hphase : e.state.phase = .keyExchanged)
    (hs : e.state.sharedKey = some (pair.sharedKey publicKey))
    (hu : e.state.peerSalt = some (salt 9)) (hk : e.state.keyPair.publicKey = publicKey) :
    (Client.propose {} (some k)).exec e =
      (.ok (request x k), left { e with state := e.state.proposed k x } rest) := by
  have hx := Client.exec_authWithKey (e := e) (c := {}) (k := k) hphase hs hu (by decide)
    (by rw [he]; exact Entropy.draw?_append x.length_eq) (Entropy.draw?_append rfl) (by rw [he])
  rw [hk] at hx
  exact hx

end Sample

end SealedDatagram
