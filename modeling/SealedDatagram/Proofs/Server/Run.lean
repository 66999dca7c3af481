import SealedDatagram.Proofs.Server.Stages
/-!
Runs of a server that keeps its sessions in a table: datagrams are handled one after the other, and
in between the table is called and time passes. Whatever the application's own hooks do, the table
follows the history of what the server made of the datagrams.
-/

namespace SealedDatagram

variable {τ : Type}

namespace Hooks.Apart

open Fallible

variable {h : Hooks (SessionStore × τ)} (hh : h.Apart)

include hh

theorem checkKey (k : PublicKey) : Spares (h.keeping.checkKey k) :=
  Spares.iff_keeps.2 (Keeps.demand fun f hf => Keeps.liftAction (hh.validKey f hf k))

theorem checkCredentials (p : SocketAddress) (c : Credentials) :
    Spares (h.keeping.checkCredentials p c) :=
  Spares.iff_keeps.2 (Keeps.demand fun f hf => Keeps.liftAction (hh.validCredentials f hf p c))

theorem derive (k : PublicKey) : Spares (h.keeping.derive k) :=
  Spares.iff_keeps.2 (Keeps.derive fun f hf => Spares.iff_keeps.1 (hh.deriveKey f hf k))

theorem advertise (p : SocketAddress) (k : PublicKey) (i : ServerInfo) :
    Spares (h.keeping.advertise p k i) :=
  Spares.iff_keeps.2 (Keeps.advertise fun f hf => hh.hello f hf p k i)

theorem deliver (p : SocketAddress) (m : Bytes) :
    Spares (liftM (h.keeping.deliver p m) : Attempt (SessionStore × τ) Unit) :=
  Spares.iff_keeps.2 (Keeps.deliver fun f hf => hh.data f hf p m)

end Hooks.Apart

variable [CipherSuite]

theorem Fallible.Keeps.packet {σ V : Type} {view : Env σ → V}
    (hview : ∀ e entropy, view { e with entropy } = view e) (kind : PacketKind) (prologue : Bytes)
    {body : Bytes} (hb : body.length ≤ Sealed.maxPlaintext) (key : SessionKey) (salt : Salt) :
    Keeps view (kind.packet prologue body key salt) := by
  intro e
  rcases PacketKind.exec_packet_cases kind prologue hb key salt e with
    ⟨pad, entropy, -, -, hx⟩ | ⟨-, hx⟩ <;> rw [hx]
  exact hview e entropy

theorem Fallible.Spares.packet (kind : PacketKind) (prologue : Bytes) {body : Bytes}
    (hb : body.length ≤ Sealed.maxPlaintext) (key : SessionKey) (salt : Salt) :
    Spares (kind.packet prologue body key salt : Attempt (SessionStore × τ) Bytes) :=
  Spares.iff_keeps.2 (Keeps.packet (fun _ _ => rfl) kind prologue hb key salt)

namespace Server

open Fallible SessionStore

variable (info : ServerInfo) {h : Hooks (SessionStore × τ)}

theorem spares_answerHello (hh : h.Apart) (b : Bytes) (p : SocketAddress) :
    Spares ((keeping info h).answerHello b p) := by
  unfold answerHello
  refine Spares.bind (Spares.liftExcept _) fun hello => ?_
  refine Spares.bind (hh.checkKey _) fun _ => ?_
  refine Spares.bind (hh.advertise p _ _) fun info => ?_
  refine Spares.bind (hh.derive _) fun key => ?_
  refine Spares.bind Spares.drawSalt fun salt => ?_
  refine Spares.bind (Spares.packet _ _ (Olleh.length_body_le ⟨info⟩) key salt) fun reply => ?_
  exact Spares.bind (fun _ => rfl) fun _ => Spares.pure reply

/-- Opening an Auth and asking about its credentials leave alone what the questions and the random
source leave alone. -/
theorem keeps_propose {σ V : Type} {view : Env σ → V} {s : Server σ}
    (hview : ∀ e entropy, view { e with entropy } = view e)
    (hkey : ∀ k, Keeps view (s.hooks.checkKey k)) (hderive : ∀ k, Keeps view (s.hooks.derive k))
    {p : SocketAddress} (hcredentials : ∀ c, Keeps view (s.hooks.checkCredentials p c))
    (b : Bytes) :
    Keeps view (s.propose b p) := by
  have hshared : ∀ k, Keeps view (do s.hooks.checkKey k; s.hooks.derive k) :=
    fun k => Keeps.bind (hkey k) fun _ => hderive k
  unfold propose
  refine Keeps.bind ?_ fun received => ?_
  · refine Keeps.bind (Keeps.liftExcept _) fun kf => ?_
    exact Keeps.bind (hshared kf.1) fun key => Keeps.liftExcept _
  · have hrest : Keeps view (do
        s.hooks.checkCredentials p received.packet.credentials
        let ownSalt ← drawSalt
        return { peer := p, publicKey := received.packet.publicKey
                 key := received.packet.sessionKey, peerSalt := received.packet.salt, ownSalt } :
          Attempt σ NewSession) :=
      Keeps.bind (hcredentials _) fun _ =>
        Keeps.bind (Keeps.drawSalt hview) fun ownSalt => Keeps.pure _
    dsimp only
    split
    · exact Keeps.bind (Keeps.throw _) fun _ => hrest
    · exact hrest

theorem spares_propose (hh : h.Apart) (b : Bytes) (p : SocketAddress) :
    Spares ((keeping info h).propose b p) :=
  Spares.iff_keeps.2 (keeps_propose (fun _ _ => rfl) (fun k => Spares.iff_keeps.1 (hh.checkKey k))
    (fun k => Spares.iff_keeps.1 (hh.derive k))
    (fun c => Spares.iff_keeps.1 (hh.checkCredentials p c)) b)

theorem proposed {s : Server (SessionStore × τ)} {b : Bytes} {p : SocketAddress}
    {e e₁ : Env (SessionStore × τ)} {n : NewSession} (hx : (s.propose b p).exec e = (.ok n, e₁)) :
    ∃ (auth : Auth) (shared : SessionKey) (header : Salt) (pad : Bytes),
      pad.length = Sealed.padSize ∧ b = auth.wire shared header pad ∧ n.peer = p ∧
        n.publicKey = auth.publicKey ∧ n.key = auth.sessionKey ∧ n.peerSalt = auth.salt := by
  unfold propose at hx
  rw [exec_bind_eq_ok] at hx
  obtain ⟨r, e₂, hr, hx⟩ := hx
  obtain ⟨shared, -, -, pad, hpad, hb⟩ := Auth.exec_decode_eq_ok_iff.1 hr
  refine ⟨r.packet, shared, r.header, pad, hpad, hb, ?_⟩
  dsimp only at hx
  split at hx
  · cases hx
  · rw [exec_bind_eq_ok] at hx
    obtain ⟨-, e₃, -, hx⟩ := hx
    rw [exec_bind_eq_ok] at hx
    obtain ⟨ownSalt, e₄, -, hx⟩ := hx
    rw [exec_pure, Prod.mk.injEq, Except.ok.injEq] at hx
    obtain ⟨rfl, -⟩ := hx
    exact ⟨rfl, rfl, rfl, rfl⟩

/-- What handling a datagram brings about in the table. -/
def facts (s : Server (SessionStore × τ)) (b : Bytes) (p : SocketAddress)
    (e : Env (SessionStore × τ)) : List Fact :=
  match PacketKind.peek b with
  | .ok .auth =>
    match (s.propose b p).exec e with
    | (.ok n, e₁) => (Call.register n).facts e₁.store
    | (.error _, _) => []
  | .ok .data =>
    openFacts b p e ++
      match (s.openData b p).exec e with
      | (.ok r, e₁) => rollFacts p r e₁
      | (.error _, _) => []
  | _ => []

theorem tracks_answerAuth (hh : h.Apart) {e : Env (SessionStore × τ)} {cfg : SecurityConfig}
    {past : List Fact} (ht : e.store.state.Tracks cfg past) (b : Bytes) (p : SocketAddress) :
    (((keeping info h).answerAuth b p).exec e).2.store.state.Tracks cfg
      (past ++ match ((keeping info h).propose b p).exec e with
        | (.ok n, e₁) => (Call.register n).facts e₁.store
        | (.error _, _) => []) := by
  rw [answerAuth_eq, exec_bind]
  have ht₁ := (spares_propose info hh b p).tracks ht
  rcases hn : ((keeping info h).propose b p).exec e with ⟨err | n, e₁⟩
  · rw [hn] at ht₁
    dsimp only
    rwa [List.append_nil]
  · rw [hn] at ht₁
    have hreg := ht₁.step (.register n)
    have hcreate : Fallible.exec ((keeping info h).hooks.create n) e₁ = _ :=
      exec_create_keeping h e₁ n
    have hrest : Spares (do
        let reply ← (Htua.mk n.ownSalt).encode n.key n.peerSalt
        count Metrics.sessionEstablished
        return reply : Attempt (SessionStore × τ) Bytes) :=
      Spares.bind (Spares.packet _ _ (Htua.length_body_le ⟨n.ownSalt⟩) n.key n.peerSalt)
        fun reply => Spares.bind (fun _ => rfl) fun _ => Spares.pure reply
    dsimp only
    rw [exec_bind, hcreate]
    rcases ((registerStep n).exec e₁.store).1 with err | _ | _
    · exact hreg
    · exact hreg
    · exact hrest.tracks (e := e₁.withStore ((registerStep n).exec e₁.store).2) hreg

omit [CipherSuite] in
theorem spares_handOn (hh : h.Apart) (p : SocketAddress) (d : Data) :
    Spares ((keeping info h).handOn p d) :=
  Spares.bind (hh.deliver p d.payload) fun _ => fun _ => rfl

theorem tracks_acceptData (hh : h.Apart) {e : Env (SessionStore × τ)} {cfg : SecurityConfig}
    {past : List Fact} (ht : e.store.state.Tracks cfg past) (b : Bytes) (p : SocketAddress) :
    (((keeping info h).acceptData b p).exec e).2.store.state.Tracks cfg
      (past ++ (openFacts b p e ++ match ((keeping info h).openData b p).exec e with
        | (.ok r, e₁) => rollFacts p r e₁
        | (.error _, _) => [])) := by
  rw [acceptData, exec_bind]
  have hopen := tracks_openData info h p ht b
  rcases hx : ((keeping info h).openData b p).exec e with ⟨err | r, e₁⟩
  · rw [hx] at hopen
    dsimp only
    rwa [List.append_nil]
  · rw [hx] at hopen
    have hroll := tracks_roll info h p hopen r
    dsimp only
    rw [← List.append_assoc, exec_bind]
    rcases hy : ((keeping info h).roll p r).exec e₁ with ⟨err | u, e₂⟩
    · rwa [hy] at hroll
    · rw [hy] at hroll
      exact (spares_handOn info hh p r.packet).tracks hroll

theorem exec_process {σ : Type} (s : Server σ) (b : Bytes) (p : SocketAddress) (e : Env σ) :
    (s.process b p).exec e = match PacketKind.peek b with
      | .ok .hello =>
        (((s.answerHello b p).exec e).1.map some, ((s.answerHello b p).exec e).2)
      | .ok .auth => (((s.answerAuth b p).exec e).1.map some, ((s.answerAuth b p).exec e).2)
      | .ok .data =>
        (((s.acceptData b p).exec e).1.map fun _ => none, ((s.acceptData b p).exec e).2)
      | .ok kind => (.error (.packetType kind.tag), e)
      | .error err => (.error err, e) := by
  unfold process
  rw [exec_bind, exec_liftExcept]
  cases PacketKind.peek b with
  | error err => rfl
  | ok kind =>
    cases kind with
    | hello =>
      dsimp only
      rw [exec_bind]
      rcases (s.answerHello b p).exec e with ⟨_ | _, _⟩ <;> rfl
    | auth =>
      dsimp only
      rw [exec_bind]
      rcases (s.answerAuth b p).exec e with ⟨_ | _, _⟩ <;> rfl
    | data =>
      dsimp only
      rw [exec_bind]
      rcases (s.acceptData b p).exec e with ⟨_ | _, _⟩ <;> rfl
    | olleh => rfl
    | htua => rfl

theorem tracks_process (hh : h.Apart) {e : Env (SessionStore × τ)} {cfg : SecurityConfig}
    {past : List Fact} (ht : e.store.state.Tracks cfg past) (b : Bytes) (p : SocketAddress) :
    (((keeping info h).process b p).exec e).2.store.state.Tracks cfg
      (past ++ (keeping info h).facts b p e) := by
  rw [exec_process]
  unfold facts
  cases PacketKind.peek b with
  | error err => simpa using ht
  | ok kind =>
    cases kind with
    | hello => simpa using (spares_answerHello info hh b p).tracks ht
    | auth => exact tracks_answerAuth info hh ht b p
    | data => exact tracks_acceptData info hh ht b p
    | olleh => simpa using ht
    | htua => simpa using ht

end Server

/-- A call that opens no session and handles no packet of a peer. -/
def SessionStore.Call.Quiet : SessionStore.Call → Prop
  | register _ | lookup _ _ | update _ _ => False
  | _ => True

/-- What happens to a server: a datagram is handled, or the table is called, or time passes. -/
inductive Event where
  | datagram (b : Bytes) (peer : SocketAddress)
  | call (c : SessionStore.Call) (quiet : c.Quiet)

namespace Server

open SessionStore

variable (s : Server (SessionStore × τ))

def next : Event → Env (SessionStore × τ) → Env (SessionStore × τ)
  | .datagram b p, e => ((s.process b p).exec e).2
  | .call c _, e => e.withStore (c.next e.store)

def eventFacts : Event → Env (SessionStore × τ) → List Fact
  | .datagram b p, e => s.facts b p e
  | .call c _, e => c.facts e.store

def recorder : Recorder (Env (SessionStore × τ)) Event Fact := ⟨s.next, s.eventFacts⟩

theorem next_datagram (b : Bytes) (p : SocketAddress) (e : Env (SessionStore × τ)) :
    s.recorder.next (.datagram b p) e = ((s.process b p).exec e).2 := rfl

/-- A table that starts empty has the history of the events since. -/
theorem tracks_record (info : ServerInfo) {h : Hooks (SessionStore × τ)} (hh : h.Apart)
    {e : Env (SessionStore × τ)} {cfg : SecurityConfig} (he : e.state.1 = .ofConfig cfg)
    (events : List Event) :
    ((keeping info h).recorder.after e events).store.state.Tracks cfg
      ((keeping info h).recorder.record e events) := by
  refine (keeping info h).recorder.keeps (P := fun e l => e.store.state.Tracks cfg l) ?_ (h := [])
    ?_ events
  · intro e l ev ht
    cases ev with
    | datagram b p => exact tracks_process info hh ht b p
    | call c quiet => exact ht.step c
  · change SessionStore.Tracks e.state.1 cfg []
    rw [he]
    exact tracks_ofConfig cfg

theorem rolled_of_eventFacts {ev : Event} {e : Env (SessionStore × τ)} {p : SocketAddress}
    {x : Salt} {now : Nat} (h : .rolled p x now ∈ s.eventFacts ev e) :
    ∃ b, ev = .datagram b p ∧ PacketKind.peek b = .ok .data := by
  cases ev with
  | call c quiet =>
    obtain rfl := rolled_of_facts h
    exact quiet.elim
  | datagram b q =>
    simp only [eventFacts, facts] at h
    split at h
    · split at h
      · cases rolled_of_facts h
      · cases h
    · rename_i hpeek
      rcases List.mem_append.1 h with h | h
      · unfold openFacts at h
        split at h
        · cases rolled_of_facts h
        · cases h
      · split at h
        · obtain ⟨rfl, -⟩ := Call.update.inj (rolled_of_facts h)
          exact ⟨b, rfl, hpeek⟩
        · cases h
    · cases h

/-- Handling a datagram comes as far as having a session registered, at some time. -/
def Registers (b : Bytes) (p : SocketAddress) (e : Env (SessionStore × τ)) (n : NewSession)
    (now : Nat) : Prop :=
  PacketKind.peek b = .ok .auth ∧ ∃ e₁, (s.propose b p).exec e = (.ok n, e₁) ∧
    ((registerStep n).exec e₁.store).1 = .ok true ∧ now = e₁.now

theorem registers_of_facts {ev : Event} {e : Env (SessionStore × τ)} {u v : List Fact}
    {n : NewSession} {now : Nat} (h : s.eventFacts ev e = u ++ .registered n now :: v) :
    ∃ b p, ev = .datagram b p ∧ s.Registers b p e n now ∧ v = [] := by
  cases ev with
  | call c quiet =>
    obtain ⟨rfl, -⟩ := registered_of_facts h
    exact quiet.elim
  | datagram b p =>
    simp only [eventFacts, facts] at h
    split at h
    · rename_i hpeek
      split at h
      · rename_i m e₁ hm
        obtain ⟨heq, hr, rfl, rfl⟩ := registered_of_facts h
        obtain rfl := Call.register.inj heq
        exact ⟨b, p, rfl, ⟨hpeek, e₁, hm, hr, rfl⟩, rfl⟩
      · simp at h
    · have hmem : ∀ {c : Call} {e : Env SessionStore}, Fact.registered n now ∈ c.facts e →
          c = .register n := by
        intro c e hf
        obtain ⟨u, v, huv⟩ := List.append_of_mem hf
        exact (registered_of_facts huv).1
      have hf : Fact.registered n now ∈ u ++ .registered n now :: v := by simp
      rw [← h, List.mem_append] at hf
      rcases hf with hf | hf
      · unfold openFacts at hf
        split at hf
        · cases hmem hf
        · cases hf
      · split at hf
        · cases hmem hf
        · cases hf
    · simp at h

end Server

end SealedDatagram
