import SealedDatagram.CipherSuite.Standard
import SealedDatagram.Proofs.Server.Answer
/-!
What a server delivers is authentic. A payload that is handed on was sealed with the key that its
peer proposed last, in a session that is still there and has not been idle for too long, under one
of the last salts the peer was told, and together with a salt that the session did not remember.
-/

namespace SealedDatagram

namespace Server

open Fallible SessionStore

section
variable {τ : Type} [CipherSuite]

theorem delivered_of_process {σ : Type} {s : Server σ} {b : Bytes} {p : SocketAddress}
    {e e' : Env σ} (hx : (s.process b p).exec e = (.ok none, e')) :
    ∃ r e₁ e₂, (s.openData b p).exec e = (.ok r, e₁) ∧ (s.roll p r).exec e₁ = (.ok (), e₂) ∧
      e' = { (s.hooks.deliver p r.packet.payload e₂).2 with
        metrics := (s.hooks.deliver p r.packet.payload e₂).2.metrics.delivered } := by
  have hdata : (s.acceptData b p).exec e = (.ok (), e') := by
    rw [exec_process] at hx
    split at hx
    · rcases hy : (s.answerHello b p).exec e with ⟨_ | _, _⟩ <;> rw [hy] at hx <;> cases hx
    · rcases hy : (s.answerAuth b p).exec e with ⟨_ | _, _⟩ <;> rw [hy] at hx <;> cases hx
    · rcases hy : (s.acceptData b p).exec e with ⟨_ | _, _⟩ <;> rw [hy] at hx <;> cases hx
      rfl
    · cases hx
    · cases hx
  rw [acceptData, exec_bind_eq_ok] at hdata
  obtain ⟨r, e₁, hopen, hdata⟩ := hdata
  rw [exec_bind_eq_ok] at hdata
  obtain ⟨u, e₂, hroll, hdata⟩ := hdata
  refine ⟨r, e₁, e₂, hopen, hroll, ?_⟩
  cases hdata
  rfl

section
variable (info : ServerInfo) (h : Hooks (SessionStore × τ)) {b : Bytes} {p : SocketAddress}
  {e e₁ : Env (SessionStore × τ)} {r : Received Data}

/-- A datagram is opened with the key of a live session that its header names. -/
theorem session_of_openKeyed {o : Opened}
    (hx : ((keeping info h).openKeyed b p).exec e = (.ok o, e₁)) :
    ∃ d, e.store.state.sessions.get? p = some d ∧
      e.store.state.bySalt.get? o.received.header = some p ∧
      d.expired e.store.state.ttl e.now = false ∧ d.key = o.key ∧
      e₁ = e.withStore { e.store with
        state := { e.store.state with
          sessions := e.store.state.sessions.insert p { d with lastSeen := e.now } } } := by
  obtain ⟨-, hlook, -⟩ := openKeyed_eq_ok hx
  change (h.keeping.lookup p o.received.header).exec e = (.ok o.key, e₁) at hlook
  rw [exec_lookup_keeping, lookupStep_eq] at hlook
  rcases lookup_cases e.store.state e.store.now p o.received.header with
    ⟨d, hsalt, hd, hl, ht⟩ | ⟨d, -, -, -, ht⟩ | ⟨-, ht⟩
  · rw [ht] at hlook
    obtain ⟨hk, rfl⟩ := Prod.mk.inj hlook
    exact ⟨d, hd, hsalt, hl, Except.ok.inj hk, rfl⟩
  · rw [ht] at hlook
    cases hlook
  · rw [ht] at hlook
    cases hlook

theorem openData_eq_ok (hx : ((keeping info h).openData b p).exec e = (.ok r, e₁)) :
    ∃ d pad, e.store.state.sessions.get? p = some d ∧ e.store.state.bySalt.get? r.header = some p ∧
      d.expired e.store.state.ttl e.now = false ∧ pad.length = Sealed.padSize ∧
      b = r.packet.wire d.key r.header pad ∧
      e₁ = e.withStore { e.store with
        state := { e.store.state with
          sessions := e.store.state.sessions.insert p { d with lastSeen := e.now } } } := by
  rw [exec_openData] at hx
  rcases ho : ((keeping info h).openKeyed b p).exec e with ⟨err | o, e₂⟩
  · rw [ho] at hx
    cases hx
  · rw [ho] at hx
    cases hx
    obtain ⟨d, hd, hsalt, hl, hkey, he₁⟩ := session_of_openKeyed info h ho
    obtain ⟨-, -, pad, hpad, hb⟩ := openKeyed_eq_ok ho
    exact ⟨d, pad, hd, hsalt, hl, hpad, hkey ▸ hb, he₁⟩

omit [CipherSuite] in
theorem roll_eq_ok {e₂ : Env (SessionStore × τ)}
    (hx : ((keeping info h).roll p r).exec e = (.ok (), e₂)) :
    ∃ d, e.store.state.sessions.get? p = some d ∧ (d.window.accept r.packet.salt).1 = true ∧
      e₂.store.state.sessions.get? p = some { d with
        window := (d.window.accept r.packet.salt).2, peerSalt := r.packet.salt
        lastSeen := e.now } := by
  rw [exec_roll] at hx
  obtain ⟨metrics, heq⟩ := updateStep_eq p r.packet.salt e.store
  rw [heq] at hx
  rcases update_cases e.store.state e.store.now p r.packet.salt with
    ⟨-, ht⟩ | ⟨d, -, -, ht⟩ | ⟨d, hd, ha, ht⟩
  · rw [ht] at hx
    cases hx
  · rw [ht] at hx
    cases hx
  · rw [ht] at hx
    obtain ⟨-, rfl⟩ := Prod.mk.inj hx
    exact ⟨d, hd, ha, (Table.get?_insert _ _ _ _).trans (if_pos rfl)⟩

end

/-- Every session in the table was registered by an Auth, and is what came of it since. -/
theorem exists_auth_of_session {c : SecurityConfig} (info : ServerInfo)
    {h : Hooks (SessionStore × τ)} (hh : h.Apart) {e₀ : Env (SessionStore × τ)}
    (he₀ : e₀.state.1 = .ofConfig c) (events : List Event) {p : SocketAddress} {d : Session} :
    let s := keeping info h
    (s.recorder.after e₀ events).store.state.sessions.get? p = some d →
    ∃ before auth since n now, events = before ++ .datagram auth p :: since ∧
      s.Registers auth p (s.recorder.after e₀ before) n now ∧
      (∃ (a : Auth) (shared : SessionKey) (under : Salt) (pad : Bytes),
        pad.length = Sealed.padSize ∧ auth = a.wire shared under pad ∧ n.key = a.sessionKey) ∧
      let facts := s.recorder.record (s.recorder.after e₀ (before ++ [.datagram auth p])) since
      (∀ f ∈ facts, ¬ f.ends p) ∧ d.key = n.key ∧
      d.issued = (n.ownSalt :: facts.filterMap (·.issued? p)).rtake issuedHistory ∧
      d.lastSeen = (facts.filterMap (·.seen? p)).getLastD now := by
  intro s hd
  obtain ⟨a, ha, hf⟩ := (tracks_record info hh he₀ events).of_session hd
  obtain ⟨h₁, now, h₂, hrec, hp, hends⟩ := exists_latest_of_account ha
  obtain ⟨before, ev, since, u, v, hev, hfacts, -, hv⟩ := s.recorder.exists_input_of_record hrec
  obtain ⟨auth, q, rfl, hreg, rfl⟩ := s.registers_of_facts hfacts
  obtain ⟨hpeek, e₁, hprop, hreg⟩ := hreg
  obtain ⟨proposal, shared, under, pad, hpad, hauth, hpeer, -, hkey, -⟩ := proposed hprop
  obtain rfl : q = p := hpeer.symm.trans hp
  rw [List.nil_append] at hv
  have ha' : account q (h₁ ++ .registered a.latest now :: h₂) = _ := account_registered hp hends
  rw [← hrec, ha] at ha'
  refine ⟨before, auth, since, a.latest, now, hev, ⟨hpeek, e₁, hprop, hreg⟩,
    ⟨proposal, shared, under, pad, hpad, hauth, hkey⟩, ?_⟩
  rw [← hv]
  refine ⟨hends, hf.key, ?_, ?_⟩
  · rw [hf.issued, Option.some.inj ha']
  · rw [hf.lastSeen, Option.some.inj ha']

/-- Whatever came before, a payload that a server delivers is authentic. -/
theorem delivered_authentic {c : SecurityConfig} {info : ServerInfo}
    {h : Hooks (SessionStore × τ)} (hh : h.Apart) {e₀ : Env (SessionStore × τ)}
    (he₀ : e₀.state.1 = .ofConfig c) (events : List Event) {b : Bytes} {p : SocketAddress}
    {e' : Env (SessionStore × τ)} :
    let s := keeping info h
    let e := s.recorder.after e₀ events
    (s.process b p).exec e = (.ok none, e') →
    ∃ before auth since n now,
      -- the Auth whose registration was accepted last, and the facts since
      events = before ++ .datagram auth p :: since ∧
      s.Registers auth p (s.recorder.after e₀ before) n now ∧
      (∃ (a : Auth) (shared : SessionKey) (under : Salt) (pad : Bytes),
        pad.length = Sealed.padSize ∧ auth = a.wire shared under pad ∧ n.key = a.sessionKey) ∧
      let facts := s.recorder.record (s.recorder.after e₀ (before ++ [.datagram auth p])) since
      (∀ f ∈ facts, ¬ f.ends p) ∧
      -- the datagram
      ∃ x m under pad d e₂, pad.length = Sealed.padSize ∧
        b = (Data.mk x m).wire n.key under pad ∧
        e.state.1.sessions.get? p = some d ∧ d.window.contains x = false ∧
        under ∈ (n.ownSalt :: facts.filterMap (·.issued? p)).rtake issuedHistory ∧
        e.now ≤ (facts.filterMap (·.seen? p)).getLastD now + c.sessionTtl.nanos ∧
        -- what is handed on
        e' = { (s.hooks.deliver p m e₂).2 with
          metrics := (s.hooks.deliver p m e₂).2.metrics.delivered } := by
  intro s e hx
  obtain ⟨r, e₁, e₂, hopen, hroll, he'⟩ := delivered_of_process hx
  obtain ⟨d, pad, hd, hsalt, hlive, hpad, hb, he₁⟩ := openData_eq_ok info h hopen
  obtain ⟨d', hd', hfresh, -⟩ := roll_eq_ok info h hroll
  have ht := tracks_record info hh he₀ events
  obtain ⟨a, -, hf⟩ := ht.of_session hd
  have hnew : d.window.contains r.packet.salt = false := by
    subst he₁
    have hd'' : (e.store.state.sessions.insert p { d with lastSeen := e.now }).get? p = some d' :=
      hd'
    rw [Table.get?_insert, if_pos rfl] at hd''
    obtain rfl := Option.some.inj hd''
    rw [← Bool.not_eq_true, hf.window.contains_iff]
    exact hf.window.accept_eq_true_iff.1 hfresh
  have hknown : r.header ∈ d.issued := by
    obtain ⟨d₀, hd₀, hm⟩ := ht.coherent r.header p hsalt
    obtain rfl := Option.some.inj (hd.symm.trans hd₀)
    exact hm
  have hidle : e.now - d.lastSeen ≤ e.store.state.ttl :=
    Nat.not_lt.1 (of_decide_eq_false hlive)
  obtain ⟨before, auth, since, n, now, hev, hreg, hauth, hends, hkey, hissued, hseen⟩ :=
    exists_auth_of_session info hh he₀ events hd
  refine ⟨before, auth, since, n, now, hev, hreg, hauth, hends, r.packet.salt, r.packet.payload,
    r.header, pad, d, e₂, hpad, ?_, hd, hnew, hissued ▸ hknown, ?_, he'⟩
  · rw [hb, hkey]
  · rw [← hseen, ← ht.ttl_eq]
    exact Nat.sub_le_iff_le_add'.1 hidle

end

end Server

section
open Sample Fallible SessionStore

/-- The first Data packet of a client, under the salt of the Htua. -/
theorem delivered_authentic_after_auth :
    let s := Server.keeping info hooks
    let e₀ := Sample.server ((salt 2).bytes ++ (Sample.pad ++ []))
    let a := request (salt 1) key
    let b := (Data.mk (salt 3) [1, 2]).wire key (salt 2) Sample.pad
    ∃ e', (s.process b peer).exec (s.recorder.after e₀ [.datagram a peer]) = (.ok none, e') ∧
      ∃ n now x m under pad, s.Registers a peer e₀ n now ∧ pad.length = Sealed.padSize ∧
        b = (Data.mk x m).wire n.key under pad ∧ under ∈ [n.ownSalt].rtake issuedHistory := by
  intro s e₀ a b
  have he : s.recorder.after e₀ [.datagram a peer] = established := after_request []
  have hd : (s.recorder.after e₀ [.datagram a peer]).store.state.sessions.get? peer =
      some ((requested (salt 1) (salt 2) key).opened
        ((SaltWindow.ofCapacity 1).accept (salt 1)).2 0) := by
    rw [he]
    decide +kernel
  obtain ⟨e₂, hdeliver⟩ : s.Delivers b peer (s.recorder.after e₀ [.datagram a peer]) [1, 2] :=
    (Server.process_of_live info hooks hd (by rw [he]; decide +kernel)
      (by rw [he]; decide +kernel) (by decide +kernel) (by decide) rfl).1
  refine ⟨_, hdeliver, ?_⟩
  obtain ⟨before, auth, since, n, now, hev, hreg, -, hfacts⟩ :=
    Server.delivered_authentic (c := config) (Hooks.apart_withKeyPair pair) rfl
      [.datagram a peer] hdeliver
  obtain ⟨-, x, m, under, pad, d, -, hpad, hb, -, -, hunder, -⟩ := hfacts
  rcases List.singleton_eq_append_iff.1 hev with ⟨rfl, h⟩ | ⟨-, h⟩
  · obtain ⟨hev, rfl⟩ := List.cons_eq_cons.1 h.symm
    cases hev
    exact ⟨n, now, x, m, under, pad, hreg, hpad, hb, hunder⟩
  · cases h

end

end SealedDatagram
