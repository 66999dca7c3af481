import SealedDatagram.CipherSuite.Standard
import SealedDatagram.Proofs.Server.Crew
import SealedDatagram.Proofs.SessionStore.Bounds
/-!
What a refused Auth leaves behind. A session is registered before the Htua for it is sealed, and the
seal needs random bytes of its own: where these fail the Auth is refused with its session in the
table, in the place of the one the peer had. An Auth that is refused for any other reason leaves all
sessions but the expired ones as they were.
-/

namespace SealedDatagram

namespace SessionStore

variable {s : SessionStore} {m : Memory} {now : Nat}

/-- A table that is another without some of the sessions that have expired, and the salts that name
those. -/
structure Sheds (s : SessionStore) (now : Nat) (t : SessionStore) : Prop where
  limits : t.limits = s.limits
  kept : ∀ q d, t.sessions.get? q = some d → s.sessions.get? q = some d
  live : ∀ q d, s.sessions.get? q = some d → d.expired s.ttl now = false →
    t.sessions.get? q = some d
  named : ∀ x q, t.bySalt.get? x = some q ↔ s.bySalt.get? x = some q ∧ t.contains q = true

theorem Coherent.contains_of_named (hs : s.Coherent) {x : Salt} {q : SocketAddress}
    (hx : s.bySalt.get? x = some q) : s.contains q = true := by
  obtain ⟨d, hd, -⟩ := hs x q hx
  exact contains_of_session hd

theorem Coherent.sheds_refl (hs : s.Coherent) (now : Nat) : s.Sheds now s where
  limits := rfl
  kept _ _ hd := hd
  live _ _ hd _ := hd
  named _ _ := ⟨fun hx => ⟨hx, hs.contains_of_named hx⟩, And.left⟩

theorem Coherent.sheds_sweep (hs : s.Coherent) (now : Nat) : s.Sheds now (s.sweep now) where
  limits := sweep_limits hs
  kept q d hd := by
    rw [sessions_sweep hs] at hd
    exact (Option.ite_none_left_eq_some.1 hd).2
  live q d hd hl := by
    rw [sessions_sweep hs, if_neg, hd]
    intro hq
    obtain ⟨d', hd', hold⟩ := mem_expiredPeers.1 hq
    obtain rfl := Option.some.inj (hd.symm.trans hd')
    rw [hl] at hold
    cases hold
  named x q := by
    rw [bySalt_sweep hs, contains, Table.contains, sessions_sweep hs]
    refine and_congr_right fun hx => ?_
    have hq : (s.sessions.get? q).isSome = true := hs.contains_of_named hx
    by_cases hold : q ∈ s.expiredPeers now
    · simp [hold]
    · simp [hold, hq]

theorem session_of_register {n : NewSession} (hr : (s.register m now n).1 = .accepted) :
    ∃ window, (s.register m now n).2.sessions.get? n.peer = some (n.opened window now) ∧
      ∀ d, (s.sweep now).sessions.get? n.peer = some d → d.authSalt ≠ n.peerSalt := by
  rcases register_cases s m now n with ⟨_, _, _, h'⟩ | ⟨d, hd, hne, -, h'⟩ | ⟨_, _, h'⟩ |
    ⟨hnone, -, -, h'⟩ | ⟨_, _, _, h'⟩
  · rw [h'] at hr
    cases hr
  · refine ⟨_, by rw [h', sessions_establish, if_pos rfl], fun d' hd' => ?_⟩
    obtain rfl := Option.some.inj (hd.symm.trans hd')
    exact hne
  · rw [h'] at hr
    cases hr
  · refine ⟨_, by rw [h', sessions_establish, if_pos rfl], fun d' hd' => ?_⟩
    rw [hnone] at hd'
    cases hd'
  · rw [h'] at hr
    cases hr

theorem Coherent.sheds_register_iff (hs : s.Coherent) (n : NewSession) :
    s.Sheds now (s.register m now n).2 ↔ (s.register m now n).1 ≠ .accepted := by
  constructor
  · intro hsheds hr
    obtain ⟨window, hnew, hne⟩ := session_of_register hr
    have hfresh : (n.opened window now).expired s.ttl now = false := by
      simp [Session.expired, NewSession.opened]
    -- a session that was there before would have been registered with the same salt
    have hold := (hs.sheds_sweep now).live n.peer _ (hsheds.kept n.peer _ hnew) hfresh
    exact hne _ hold rfl
  · intro hr
    rw [register_of_refused hr]
    exact hs.sheds_sweep now

section
variable (n : NewSession) (e : Env SessionStore)

@[simp] theorem state_registerStep :
    ((registerStep n).exec e).2.state = (e.state.register e.memory e.now n).2 := by
  obtain ⟨metrics, heq⟩ := exec_registerStep n e
  rw [heq]

@[simp] theorem now_registerStep : ((registerStep n).exec e).2.now = e.now := by
  obtain ⟨metrics, heq⟩ := exec_registerStep n e
  rw [heq]

@[simp] theorem entropy_registerStep : ((registerStep n).exec e).2.entropy = e.entropy := by
  obtain ⟨metrics, heq⟩ := exec_registerStep n e
  rw [heq]

theorem sheds_registerStep_iff (hs : e.state.Coherent) :
    e.state.Sheds ((registerStep n).exec e).2.now ((registerStep n).exec e).2.state ↔
      ((registerStep n).exec e).1 ≠ .ok true := by
  rw [state_registerStep, now_registerStep, hs.sheds_register_iff, ne_eq, ne_eq,
    registerStep_eq_ok_true_iff]

end

end SessionStore

namespace Server

open Fallible SessionStore

variable [CipherSuite] {τ : Type} (info : ServerInfo) {h : Hooks (SessionStore × τ)} {b : Bytes}
  {p : SocketAddress} {n : NewSession} {e e₁ e' : Env (SessionStore × τ)} {err : Error}

theorem registers_iff {s : Server (SessionStore × τ)} (hb : PacketKind.peek b = .ok .auth)
    (hn : (s.propose b p).exec e = (.ok n, e₁)) {m : NewSession} {now : Nat} :
    s.Registers b p e m now ↔
      m = n ∧ now = e₁.now ∧ ((registerStep n).exec e₁.store).1 = .ok true := by
  constructor
  · rintro ⟨-, e₂, hm, hr, rfl⟩
    cases hn.symm.trans hm
    exact ⟨rfl, rfl, hr⟩
  · rintro ⟨rfl, rfl, hr⟩
    exact ⟨hb, e₁, hn, hr, rfl⟩

theorem not_registers_of_error {s : Server (SessionStore × τ)}
    (hn : (s.propose b p).exec e = (.error err, e₁)) (m : NewSession) (now : Nat) :
    ¬ s.Registers b p e m now := by
  rintro ⟨-, e₂, hm, -⟩
  cases hn.symm.trans hm

/-- Handling a datagram has a session registered and then finds no pad for the Htua. -/
structure Starves (s : Server (SessionStore × τ)) (b : Bytes) (p : SocketAddress)
    (e : Env (SessionStore × τ)) (n : NewSession) (now : Nat) : Prop where
  registers : s.Registers b p e n now
  noPad : ∃ e₁, (s.propose b p).exec e = (.ok n, e₁) ∧ e₁.entropy.draw? Sealed.padSize = none

/-- A refused Auth leaves all sessions but the expired ones as they were, or its own session. -/
theorem refusal_cases (hh : h.Apart) (hs : e.state.1.Coherent)
    (hb : PacketKind.peek b = .ok .auth)
    (hx : ((keeping info h).process b p).exec e = (.error err, e')) :
    (∀ n now, ¬ (keeping info h).Registers b p e n now) ∧ e.state.1.Sheds e'.now e'.state.1 ∨
    ∃ n now, (keeping info h).Starves b p e n now ∧ err = .cipher .randomSource ∧
      ¬ e.state.1.Sheds e'.now e'.state.1 ∧
      ∃ window, e'.state.1.sessions.get? p = some (n.opened window now) := by
  have hspares := spares_propose info hh b p e
  rcases exec_process_auth_cases info h (e := e) (p := p) hb with ⟨err', e₁, hn, hx'⟩ |
    ⟨n, e₁, hn, hcases⟩
  · rw [hn] at hspares
    cases hx.symm.trans hx'
    exact .inl ⟨not_registers_of_error hn, hspares ▸ hs.sheds_refl e'.now⟩
  · rw [hn] at hspares
    have htable : e₁.store.state = e.state.1 := hspares
    have hsheds := sheds_registerStep_iff n e₁.store (htable ▸ hs)
    rw [htable] at hsheds
    have hfailed : ((registerStep n).exec e₁.store).1 ≠ .ok true →
        e' = e₁.withStore ((registerStep n).exec e₁.store).2 →
        (∀ n now, ¬ (keeping info h).Registers b p e n now) ∧
          e.state.1.Sheds e'.now e'.state.1 := by
      rintro hr rfl
      exact ⟨fun m now hm => hr ((registers_iff hb hn).1 hm).2.2, hsheds.2 hr⟩
    rcases hcases with ⟨hr, hx'⟩ | ⟨err', hr, hx'⟩ | ⟨hr, ⟨pad, entropy, -, -, hx'⟩ | ⟨hd, hx'⟩⟩
    · cases hx.symm.trans hx'
      exact .inl (hfailed (by rw [hr]; nofun) rfl)
    · cases hx.symm.trans hx'
      exact .inl (hfailed (by rw [hr]; nofun) rfl)
    · cases hx.symm.trans hx'
    · cases hx.symm.trans hx'
      obtain ⟨window, hnew, -⟩ := session_of_register (registerStep_eq_ok_true_iff.1 hr)
      obtain ⟨-, -, -, -, -, -, hpeer, -⟩ := proposed hn
      have hnoPad : e₁.entropy.draw? Sealed.padSize = none :=
        entropy_registerStep n e₁.store ▸ hd
      refine .inr ⟨n, e₁.now, ⟨(registers_iff hb hn).2 ⟨rfl, rfl, hr⟩, e₁, hn, hnoPad⟩, rfl,
        fun hkept => ?_, window, ?_⟩
      · exact hsheds.1 hkept hr
      · change ((registerStep n).exec e₁.store).2.state.sessions.get? p = _
        rw [state_registerStep, ← hpeer]
        exact hnew

section
variable (h)

theorem exec_process_of_unregistered (hb : PacketKind.peek b = .ok .auth)
    (hn : ((keeping info h).propose b p).exec e = (.ok n, e₁))
    (hr : ((registerStep n).exec e₁.store).1 = .ok false) :
    ((keeping info h).process b p).exec e =
      (.error (.rejected .session), e₁.withStore ((registerStep n).exec e₁.store).2) := by
  rcases exec_process_auth_cases info h (e := e) (p := p) hb with ⟨err, e₂, hn', -⟩ |
    ⟨m, e₂, hn', ⟨-, hx⟩ | ⟨err, hr', -⟩ | ⟨hr', -⟩⟩
  · cases hn.symm.trans hn'
  · cases hn.symm.trans hn'
    exact hx
  · cases hn.symm.trans hn'
    cases hr.symm.trans hr'
  · cases hn.symm.trans hn'
    cases hr.symm.trans hr'

theorem exec_process_of_starved (hb : PacketKind.peek b = .ok .auth)
    (hn : ((keeping info h).propose b p).exec e = (.ok n, e₁))
    (hr : ((registerStep n).exec e₁.store).1 = .ok true)
    (hd : e₁.entropy.draw? Sealed.padSize = none) :
    ((keeping info h).process b p).exec e =
      (.error (.cipher .randomSource), e₁.withStore ((registerStep n).exec e₁.store).2) := by
  have hsource :
      (e₁.withStore ((registerStep n).exec e₁.store).2).entropy.draw? Sealed.padSize = none :=
    (congrArg _ (entropy_registerStep n e₁.store)).trans hd
  rcases exec_process_auth_cases info h (e := e) (p := p) hb with ⟨err, e₂, hn', -⟩ |
    ⟨m, e₂, hn', ⟨hr', -⟩ | ⟨err, hr', -⟩ | ⟨-, ⟨pad, entropy, -, hd', -⟩ | ⟨-, hx⟩⟩⟩
  · cases hn.symm.trans hn'
  · cases hn.symm.trans hn'
    cases hr.symm.trans hr'
  · cases hn.symm.trans hn'
    cases hr.symm.trans hr'
  · cases hn.symm.trans hn'
    cases hsource.symm.trans hd'
  · cases hn.symm.trans hn'
    exact hx

end

end Server

namespace Crew

open Fallible SessionStore Server

variable [CipherSuite] {τ : Type} (info : ServerInfo) {h : Hooks (SessionStore × τ)}

/-- Whatever came before, an Auth that is refused leaves all sessions but the expired ones as they
were, exactly if its own session was not registered. If it was, then the random source had no pad
for the Htua, and the session stays. -/
theorem refusal_sheds_iff (hh : h.Apart) {c : SecurityConfig} {w₀ : Crew τ}
    (hw₀ : w₀.env.state.1 = .ofConfig c) (moves : List Move) {b : Bytes} {p : SocketAddress}
    {err : Error} {e' : Env (SessionStore × τ)} :
    let s := keeping info h
    let e := ((recorder s).after w₀ moves).env
    PacketKind.peek b = .ok .auth → (s.process b p).exec e = (.error err, e') →
    (e.state.1.Sheds e'.now e'.state.1 ↔ ¬ ∃ n now, s.Registers b p e n now) ∧
    ∀ n now, s.Registers b p e n now →
      s.Starves b p e n now ∧ err = .cipher .randomSource ∧
      ∃ window, e'.state.1.sessions.get? p = some (n.opened window now) := by
  intro s e hb hx
  have hcoherent : e.state.1.Coherent := (tracks_record info hh hw₀ moves).coherent
  rcases refusal_cases info hh hcoherent hb hx with ⟨hnot, hsheds⟩ |
    ⟨n, now, hstarves, herr, hstays, hnew⟩
  · exact ⟨iff_of_true hsheds fun ⟨n, now, hreg⟩ => hnot n now hreg,
      fun n now hreg => absurd hreg (hnot n now)⟩
  · refine ⟨iff_of_false hstays fun hnot => hnot ⟨n, now, hstarves.registers⟩, ?_⟩
    intro m t hreg
    obtain ⟨-, e₁, hn, -⟩ := hstarves.registers
    obtain ⟨rfl, rfl, -⟩ := (registers_iff hb hn).1 hreg
    obtain ⟨-, rfl, -⟩ := (registers_iff hb hn).1 hstarves.registers
    exact ⟨hstarves, herr, hnew⟩

end Crew

section
open Sample Server

/-- An Auth whose salt the session has from an Auth before it is refused, and no session changes. -/
theorem sheds_on_replayed_auth :
    let s := keeping info hooks
    let w : Crew Unit := { env := server ((salt 5).bytes ++ (pad ++ [])) }
    let e := ((Crew.recorder s).after w [.call (.register (session (salt 1) (salt 2)))]).env
    ∃ e', (s.process (request (salt 1) key) peer).exec e = (.error (.rejected .session), e') ∧
      e.state.1.Sheds e'.now e'.state.1 := by
  intro s w e
  have hw : w.env.state.1 = .ofConfig config := rfl
  have hx := exec_process_of_unregistered (e := e) info hooks (peek_request (salt 1) key)
    (exec_propose (salt 1) (salt 5) key [] (by decide +kernel)) (by decide +kernel)
  obtain ⟨hiff, hstarves⟩ := Crew.refusal_sheds_iff info apart_hooks hw
    [.call (.register (session (salt 1) (salt 2)))] (peek_request (salt 1) key) hx
  refine ⟨_, hx, hiff.2 ?_⟩
  rintro ⟨n, now, hreg⟩
  cases (hstarves n now hreg).2.1

/-- Random bytes for the salt of the Htua but none for its pad: the Auth is refused, and a live
session is gone for the one it proposed. -/
theorem replaced_by_refused_auth :
    let s := keeping info hooks
    let w : Crew Unit :=
      { env := { server [] with entropy := { queued := (salt 5).bytes, budget := some 8 } } }
    let e := ((Crew.recorder s).after w [.call (.register (session (salt 1) (salt 2)))]).env
    ∃ e' d d', (s.process (request (salt 4) otherKey) peer).exec e =
        (.error (.cipher .randomSource), e') ∧
      e.state.1.sessions.get? peer = some d ∧ d.key = key ∧
      d.expired e.state.1.ttl e'.now = false ∧
      e'.state.1.sessions.get? peer = some d' ∧ d'.key = otherKey := by
  intro s w e
  let e₁ : Env (SessionStore × Unit) := { e with entropy := { budget := some 0 } }
  let n := requested (salt 4) (salt 5) otherKey
  have hn : (s.propose (request (salt 4) otherKey) peer).exec e = (.ok n, e₁) :=
    exec_propose_withKeyPair rfl rfl pair (sendable_auth (salt 4) otherKey) (salt 9) rfl peer
      (by decide +kernel)
  have hx := exec_process_of_starved info hooks (peek_request (salt 4) otherKey) hn
    (by decide +kernel) rfl
  let e' := e₁.withStore ((SessionStore.registerStep n).exec e₁.store).2
  have hbefore : (e.state.1.sessions.get? peer).map
      (fun d => (d.key, d.expired e.state.1.ttl e'.now)) = some (key, false) := by decide +kernel
  have hafter : (e'.state.1.sessions.get? peer).map Session.key = some otherKey := by
    decide +kernel
  obtain ⟨d, hd, hlive⟩ := Option.map_eq_some_iff.1 hbefore
  obtain ⟨d', hd', hkey'⟩ := Option.map_eq_some_iff.1 hafter
  obtain ⟨hkey, hlive⟩ := Prod.mk.inj hlive
  exact ⟨e', d, d', hx, hd, hkey, hlive, hd', hkey'⟩

end

end SealedDatagram
