import SealedDatagram.CipherSuite.Standard
import SealedDatagram.Proofs.Server.Answer
/-!
An honest handshake. A fresh client and a server that agree on the key they share go through all
four packets, whatever is in the table of the server, as long as that has room for the client, the
memory for its window is granted, and it has not seen the salt that the client proposes its key
with. Both sides then hold the same session.
-/

namespace SealedDatagram

/-- What both sides bring to a handshake. -/
structure Handshake (τ : Type) where
  client : Env Client
  server : Env (SessionStore × τ)
  /-- The keys of the server. -/
  pair : KeyPair
  config : SecurityConfig
  peer : SocketAddress
  credentials : Credentials
  /-- The session key to propose, if the client does not make one. -/
  key? : Option SessionKey

namespace Handshake

variable [CipherSuite] {τ : Type}

/-- The server derives keys and keeps its sessions, and asks nothing else of anyone. -/
def handler (h : Handshake τ) : Server (SessionStore × τ) :=
  .ofConfig h.pair.publicKey h.config
    (({} : Hooks (SessionStore × τ)).withKeyPair h.pair).keeping

/-- Both sides are honest, and nothing but the table can be in their way. -/
structure Ready (h : Handshake τ) : Prop where
  fresh : ∃ keyPair pinned capacity,
    h.client.state = { keyPair, pinned, window := .ofCapacity capacity }
  pin : ∀ k, h.client.state.pinned = some k → k.same h.pair.publicKey = true
  agree : h.client.state.keyPair.sharedKey h.pair.publicKey =
    h.pair.sharedKey h.client.state.keyPair.publicKey
  sendable : h.credentials.Sendable
  login : h.config.needLogin = true → h.credentials.login ≠ ""
  pass : h.config.needPass = true → h.credentials.pass ≠ ""
  clientSource : h.client.entropy.budget = none
  serverSource : h.server.entropy.budget = none

def shared (h : Handshake τ) : SessionKey := h.pair.sharedKey h.client.state.keyPair.publicKey

def exchanged (h : Handshake τ) (under : Salt) : Env Client :=
  { h.client with state := h.client.state.exchanged h.handler.info h.shared under }

/-- The first packets up to the Auth, with the salt in it. -/
def Proposes (h : Handshake τ) (auth : Bytes) (x : Salt) (client : Env Client)
    (server : Env (SessionStore × τ)) : Prop :=
  ∃ hello olleh exchanged,
    Client.hello.exec h.client = (.ok hello, h.client) ∧
    (h.handler.process hello h.peer).exec h.server = (.ok (some olleh), server) ∧
    (Client.takeOlleh olleh).exec h.client = (.ok h.handler.info, exchanged) ∧
    (Client.propose h.credentials h.key?).exec exchanged = (.ok auth, client) ∧
    client.state.issued = [x]

/-- The Auth is answered, and the client takes the answer in. -/
def Confirms (h : Handshake τ) (auth : Bytes) (client client' : Env Client)
    (server server' : Env (SessionStore × τ)) : Prop :=
  ∃ htua, (h.handler.process auth h.peer).exec server = (.ok (some htua), server') ∧
    (Client.takeHtua htua).exec client = (.ok (), client')

/-- Both sides hold the same session. -/
structure Completed (h : Handshake τ) (x : Salt) (client : Env Client)
    (server : Env (SessionStore × τ)) : Prop where
  phase : client.state.phase = .authenticated
  info : client.state.server = some h.handler.info
  key : ∃ key under, client.state.sessionKey = some key ∧ (∀ k ∈ h.key?, key = k) ∧
    client.state.peerSalt = some under ∧
    (SessionStore.lookupStep h.peer under server.store).1 = some key
  salt : (server.state.1.sessions.get? h.peer).map Session.peerSalt = some x

namespace Ready

variable {h : Handshake τ}

theorem lacks_eq_false (hr : h.Ready) :
    Server.lacks h.handler.info h.credentials = false := by
  have hempty : ∀ {need : Bool} {s : String}, (need = true → s ≠ "") →
      (need && s.isEmpty) = false := by
    intro need s hs
    cases need with
    | false => rfl
    | true =>
      rw [Bool.true_and, ← Bool.not_eq_true, String.isEmpty_iff]
      exact hs rfl
  show (h.config.needLogin && h.credentials.login.isEmpty ||
    h.config.needPass && h.credentials.pass.isEmpty) = false
  rw [hempty hr.login, hempty hr.pass]
  rfl

theorem pinHolds (hr : h.Ready) : h.client.state.pinHolds h.pair.publicKey = true := by
  unfold Client.pinHolds
  split
  · rename_i k hk
    exact hr.pin k hk
  · rfl

theorem exists_exchange (hr : h.Ready) :
    ∃ under pad entropy metrics, pad.length = Sealed.padSize ∧ entropy.budget = none ∧
      let olleh := (Olleh.mk h.handler.info).wire h.shared under pad
      Client.hello.exec h.client =
        (.ok (Hello.mk h.client.state.keyPair.publicKey).encode, h.client) ∧
      (h.handler.process (Hello.mk h.client.state.keyPair.publicKey).encode h.peer).exec h.server =
        (.ok (some olleh), { h.server with entropy, metrics }) ∧
      (Client.takeOlleh olleh).exec h.client = (.ok h.handler.info, h.exchanged under) := by
  obtain ⟨keyPair, pinned, capacity, hstate⟩ := hr.fresh
  have hphase : h.client.state.phase = .unauthenticated := by rw [hstate]
  obtain ⟨under, pad, entropy, hpad, hb, holleh⟩ :=
    Server.exists_process_hello h.handler.info (p := h.peer) h.pair
      h.client.state.keyPair.publicKey hr.serverSource
  have htake : (Client.takeOlleh ((Olleh.mk h.handler.info).wire
      (h.client.state.keyPair.sharedKey h.pair.publicKey) under pad)).exec h.client = _ :=
    Client.exec_takeOlleh_wire hphase hr.pinHolds hpad
  rw [show h.handler.info.publicKey = h.pair.publicKey from rfl, hr.agree] at htake
  exact ⟨under, pad, entropy, _, hpad, hb, Client.exec_hello hphase, holleh, htake⟩

theorem exists_proposal (hr : h.Ready) :
    ∃ key x under pad client entropy metrics,
      pad.length = Sealed.padSize ∧ (∀ k ∈ h.key?, key = k) ∧ entropy.budget = none ∧
      h.Proposes ((Auth.mk h.client.state.keyPair.publicKey x h.credentials key).wire h.shared
        under pad) x client { h.server with entropy, metrics } ∧
      client.state.phase = .keyExchanged ∧ client.state.server = some h.handler.info ∧
      client.state.sessionKey = some key ∧ x ∈ client.state.issued ∧
      client.state.window = h.client.state.window ∧ client.halted = h.client.halted := by
  obtain ⟨under, pad, entropy, metrics, hpad, hb, hhello, holleh, htake⟩ := hr.exists_exchange
  obtain ⟨key, x, pad', entropy', hkey, hpad', hauth⟩ :=
    Client.exists_propose h.key? (e := h.exchanged under) rfl rfl rfl hr.sendable hr.clientSource
  obtain ⟨keyPair, pinned, capacity, hstate⟩ := hr.fresh
  have hissued : ((h.exchanged under).state.proposed key x).issued = [x] := by
    unfold exchanged
    rw [hstate]
    rfl
  exact ⟨key, x, under, pad', _, entropy, metrics, hpad', hkey, hb,
    ⟨_, _, _, hhello, holleh, htake, hauth, hissued⟩, rfl, rfl, rfl, by
      rw [hissued]; exact List.mem_singleton_self x, rfl, rfl⟩

theorem accept_fresh (hr : h.Ready) (x : Salt) :
    (h.client.state.window.accept x).1 = true := by
  obtain ⟨keyPair, pinned, capacity, hstate⟩ := hr.fresh
  rw [hstate]
  exact SaltWindow.accept_of_not_contains rfl

/-- The first packets come as far as the Auth. If there is room for the session then, memory for its
window decides how it goes on: the handshake completes, or everything stops and no session is
registered. -/
theorem proceeds (hr : h.Ready) :
    ∃ auth x client server, h.Proposes auth x client server ∧
      (h.server.state.1.HasRoom h.server.now h.peer →
        (h.server.state.1.Unseen h.server.now h.peer x →
          h.server.state.1.HasWindow h.server.memory h.server.now h.peer →
          ∃ client' server', h.Confirms auth client client' server server' ∧
            h.Completed x client' server' ∧
            client'.halted = h.client.halted ∧ server'.halted = h.server.halted) ∧
        (¬ h.server.state.1.HasWindow h.server.memory h.server.now h.peer →
          ∃ server', (h.handler.process auth h.peer).exec server = (.error .outOfMemory, server') ∧
            server'.state.1 = h.server.state.1.sweep h.server.now ∧ server'.halted = true)) := by
  obtain ⟨key, x, under, pad, client, entropy, metrics, hpad, hkey, hb, hproposes, hphase, hinfo,
    hsession, hissued, hwindow, hhalted⟩ := hr.exists_proposal
  let a : Auth := ⟨h.client.state.keyPair.publicKey, x, h.credentials, key⟩
  refine ⟨_, x, client, _, hproposes, fun hroom => ⟨fun hx hmemory => ?_, fun hmemory => ?_⟩⟩
  · obtain ⟨y, pad', window, server', hpad', hhtua, hstate, hnow, hserver⟩ :=
      Server.exists_process_auth h.handler.info (e := { h.server with entropy, metrics })
        (p := h.peer) h.pair (a := a) hr.sendable hr.lacks_eq_false under hpad hb hroom hmemory hx
    have htake := Client.exec_takeHtua_wire hphase hsession hpad' hissued
      (by rw [hwindow]; exact hr.accept_fresh y)
    refine ⟨_, server', ⟨_, hhtua, htake⟩, ?_, hhalted, hserver⟩
    refine ⟨rfl, hinfo, ⟨key, y, hsession, hkey, rfl, ?_⟩, ?_⟩
    · rw [SessionStore.lookupStep_eq]
      show ((server'.state.1.lookup server'.now h.peer y).1 = some key)
      rw [hstate, hnow]
      exact SessionStore.lookup_establish _ _
        { peer := h.peer, publicKey := h.client.state.keyPair.publicKey, key := key, peerSalt := x,
          ownSalt := y } window
    · rw [hstate, SessionStore.sessions_establish, if_pos rfl]
      rfl
  · exact Server.exists_process_auth_of_no_memory h.handler.info
      (e := { h.server with entropy, metrics }) (p := h.peer) h.pair (a := a) hr.sendable
      hr.lacks_eq_false under hpad hb hroom hmemory

end Ready

/-- An honest handshake completes. The table may hold whatever it has come to hold; if it has no
session of the client yet, there has to be room for one, and the memory for its window. -/
theorem completes (h : Handshake τ) (hr : h.Ready) :
    ∃ auth x client server, h.Proposes auth x client server ∧
      (h.server.state.1.HasRoom h.server.now h.peer →
        h.server.state.1.Unseen h.server.now h.peer x →
        h.server.state.1.HasWindow h.server.memory h.server.now h.peer →
        ∃ client' server', h.Confirms auth client client' server server' ∧
          h.Completed x client' server' ∧
          client'.halted = h.client.halted ∧ server'.halted = h.server.halted) := by
  obtain ⟨auth, x, client, server, hproposes, hrest⟩ := hr.proceeds
  exact ⟨auth, x, client, server, hproposes, fun hroom => (hrest hroom).1⟩

end Handshake

namespace Sample

def handshake (c : SecurityConfig) : Handshake Unit where
  client := { state := { keyPair := .ofSecret (List.replicate 32 3) } }
  server := { state := (.ofConfig c, ()) }
  pair := pair
  config := c
  peer := peer
  credentials := { login := "user" }
  key? := some key

theorem agree_handshake (c : SecurityConfig) :
    (handshake c).client.state.keyPair.sharedKey pair.publicKey =
      pair.sharedKey (handshake c).client.state.keyPair.publicKey := by
  have hpoint : X25519.exchange (List.replicate 32 3) (X25519.publicKey (List.replicate 32 7)) =
      X25519.exchange (List.replicate 32 7) (X25519.publicKey (List.replicate 32 3)) := by
    decide +kernel
  change SessionKey.ofRaw (Sha256.digest (X25519.exchange (List.replicate 32 3)
      (X25519.publicKey (List.replicate 32 7)))) (Sha256.length_digest _) =
    SessionKey.ofRaw (Sha256.digest (X25519.exchange (List.replicate 32 7)
      (X25519.publicKey (List.replicate 32 3)))) (Sha256.length_digest _)
  simp only [hpoint]

theorem ready_handshake {c : SecurityConfig} (hpass : c.needPass = false) :
    (handshake c).Ready where
  fresh := ⟨_, _, 64, rfl⟩
  pin _ hk := nomatch hk
  agree := agree_handshake c
  sendable := show Credentials.Sendable { login := "user" } by decide
  login _ := show "user" ≠ "" by decide
  pass hneed := by
    change c.needPass = true at hneed
    rw [hpass] at hneed
    cases hneed
  clientSource := rfl
  serverSource := rfl

theorem unseen_handshake (c : SecurityConfig) (x : Salt) :
    (handshake c).server.state.1.Unseen 0 peer x := by
  intro d hd
  cases hd

end Sample

section
open Sample

theorem completes_with_login :
    let h := handshake { needLogin := true }
    ∃ auth x client client' server server', h.Proposes auth x client server ∧
      h.Confirms auth client client' server server' ∧ h.Completed x client' server' ∧
      server'.halted = false := by
  intro h
  obtain ⟨auth, x, client, server, hproposes, hrest⟩ := Handshake.completes h (ready_handshake rfl)
  obtain ⟨client', server', hconfirms, hcompleted, -, hserver⟩ :=
    hrest (.inr (by decide +kernel)) (unseen_handshake _ x) (.inr (by decide +kernel))
  exact ⟨auth, x, client, client', server, server', hproposes, hconfirms, hcompleted, hserver⟩

/-- With a window that is too large for any memory everything stops at the Auth, although the table
is empty and both sides are honest, and no session is registered. -/
theorem stops_without_memory :
    let h := handshake { replayWindow := 0xffffffffffffffff }
    h.Ready ∧ h.server.halted = false ∧ h.server.state.1 = .ofConfig h.config ∧
      h.server.state.1.HasRoom h.server.now h.peer ∧
      ∃ auth x client server server', h.Proposes auth x client server ∧
        h.server.state.1.Unseen h.server.now h.peer x ∧
        (h.handler.process auth h.peer).exec server = (.error .outOfMemory, server') ∧
        server'.state.1.contains h.peer = false ∧ server'.halted = true := by
  intro h
  have hr : h.Ready := ready_handshake rfl
  have hroom : h.server.state.1.HasRoom h.server.now h.peer := .inr (by decide +kernel)
  have hmemory : ¬ h.server.state.1.HasWindow h.server.memory h.server.now h.peer := by
    rintro (hc | hfits)
    · cases hc
    · rw [SaltWindow.fits_eq_false (by decide +kernel)] at hfits
      cases hfits
  obtain ⟨auth, x, client, server, hproposes, hrest⟩ := hr.proceeds
  obtain ⟨server', hx, hstate, hhalted⟩ := (hrest hroom).2 hmemory
  refine ⟨hr, rfl, rfl, hroom, auth, x, client, server, server', hproposes,
    unseen_handshake _ x, hx, ?_, hhalted⟩
  rw [hstate]
  decide +kernel

end

end SealedDatagram
