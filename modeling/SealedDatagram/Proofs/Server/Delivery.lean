import SealedDatagram.Proofs.Server.Authentic
import SealedDatagram.Proofs.SessionStore.Bounds
import SealedDatagram.Proofs.Table
/-!
Handling a Data packet is all or nothing. Either its payload is handed on, once and last of all, and
the session of its peer has been rolled on; or nothing is handed on, and no session is another but
for when it was seen. The look-up that comes first may find that the session has expired: that one
is gone then, also if nothing comes of the packet.
-/

namespace SealedDatagram

def Session.rolled (d : Session) (x : Salt) (now : Nat) : Session :=
  { d with window := (d.window.accept x).2, peerSalt := x, lastSeen := now }

namespace SessionStore

variable {s t : SessionStore} {p q : SocketAddress} {x : Salt} {now : Nat}

/-- The table with this session for a peer. -/
def put (s : SessionStore) (p : SocketAddress) (d : Session) : SessionStore :=
  { s with sessions := s.sessions.insert p d }

theorem sessions_put (s : SessionStore) (p : SocketAddress) (d : Session) :
    (s.put p d).sessions.get? q = if q = p then some d else s.sessions.get? q :=
  Table.get?_insert _ _ _ _

theorem put_put (s : SessionStore) (p : SocketAddress) (d d' : Session) :
    (s.put p d).put p d' = s.put p d' := by
  simp only [put, Table.insert_insert]

/-- A table that is another but for when the session of a peer was seen, or without that session if
it has expired. -/
structure Touches (s : SessionStore) (now : Nat) (p : SocketAddress) (t : SessionStore) : Prop where
  limits : t.limits = s.limits
  others : ∀ q, q ≠ p → t.sessions.get? q = s.sessions.get? q
  own : t.sessions.get? p = s.sessions.get? p ∨
    (∃ d, s.sessions.get? p = some d ∧ d.expired s.ttl now = false ∧
      t.sessions.get? p = some { d with lastSeen := now }) ∨
    ∃ d, s.sessions.get? p = some d ∧ d.expired s.ttl now = true ∧ t.sessions.get? p = none
  named : ∀ y q, t.bySalt.get? y = some q ↔ s.bySalt.get? y = some q ∧ t.contains q = true

theorem Coherent.touches_refl (hs : s.Coherent) (now : Nat) (p : SocketAddress) :
    s.Touches now p s where
  limits := rfl
  others _ _ := rfl
  own := .inl rfl
  named y q := by
    refine ⟨fun hy => ⟨hy, ?_⟩, And.left⟩
    obtain ⟨d, hd, -⟩ := hs y q hy
    exact contains_of_session hd

theorem Coherent.touches_put (hs : s.Coherent) {d : Session} (hd : s.sessions.get? p = some d)
    (hl : d.expired s.ttl now = false) : s.Touches now p (s.put p { d with lastSeen := now }) where
  limits := rfl
  others q hq := by rw [sessions_put, if_neg hq]
  own := .inr (.inl ⟨d, hd, hl, by rw [sessions_put, if_pos rfl]⟩)
  named y q := by
    refine ⟨fun hy => ⟨hy, ?_⟩, And.left⟩
    obtain ⟨d', hd', -⟩ := hs y q hy
    rw [contains, Table.contains, sessions_put]
    split
    · rfl
    · rw [hd']
      rfl

theorem Coherent.touches_forget (hs : s.Coherent) {d : Session}
    (hd : s.sessions.get? p = some d) (hold : d.expired s.ttl now = true) :
    s.Touches now p (s.forget p) where
  limits := limits_forget s p
  others q hq := by rw [sessions_forget, if_neg hq]
  own := .inr (.inr ⟨d, hd, hold, by rw [sessions_forget, if_pos rfl]⟩)
  named y q := by
    rw [bySalt_forget hs]
    refine and_congr_right fun hy => ?_
    obtain ⟨d', hd', -⟩ := hs y q hy
    rw [contains, Table.contains, sessions_forget]
    by_cases hq : q = p
    · simp [hq]
    · simp [hq, hd']

theorem Coherent.touches_lookup (hs : s.Coherent) (now : Nat) (p : SocketAddress) (x : Salt) :
    s.Touches now p (s.lookup now p x).2 := by
  rcases lookup_cases s now p x with ⟨d, -, hd, hl, ht⟩ | ⟨d, -, hd, hold, ht⟩ | ⟨-, ht⟩
  · rw [ht]
    exact hs.touches_put hd hl
  · rw [ht]
    exact hs.touches_forget hd hold
  · rw [ht]
    exact hs.touches_refl now p

/-- An accepted salt is new to its session, unless that remembers none. It goes to the end of the
window, and the oldest makes room for it. -/
theorem Tracks.window_rolled {c : SecurityConfig} {facts : List Fact} (ht : t.Tracks c facts)
    {d : Session} (hd : t.sessions.get? p = some d) (hx : (d.window.accept x).1 = true)
    (now : Nat) :
    (0 < c.replayWindow.toNat → d.window.contains x = false) ∧
    (d.rolled x now).window.order = (d.window.order ++ [x]).rtake c.replayWindow.toNat ∧
    ∀ y, (d.rolled x now).window.contains y = true ↔ y ∈ (d.rolled x now).window.order := by
  obtain ⟨a, -, hf⟩ := ht.of_session hd
  have hcap : d.window.capacity = c.replayWindow.toNat :=
    (ht.capacity p d hd).trans ht.replayWindow_eq
  refine ⟨fun hc => ?_, ?_, fun y => ?_⟩
  · rcases (d.window.accept_eq_true_iff _).1 hx with hzero | hfresh
    · omega
    · exact hfresh
  · rw [Session.rolled, hf.window.order_accept hx, hcap]
  · rw [SaltWindow.contains, List.contains_iff_mem]
    exact (hf.window.accept hx).seen.mem_iff

theorem update_of_replayed {d : Session} (hd : s.sessions.get? p = some d)
    (hx : (d.window.accept x).1 = false) : s.update now p x = (.replayed, s) := by
  obtain ⟨window, hw⟩ : ∃ window, d.window.accept x = (false, window) := ⟨_, Prod.ext hx rfl⟩
  unfold update
  simp only [hd, hw]

theorem updateStep_apply (p : SocketAddress) (x : Salt) (e : Env SessionStore) :
    updateStep p x e =
      let r := e.state.update e.now p x
      (decide (r.1 = .accepted), { e with
        state := r.2
        metrics := if r.1 = .replayed then e.metrics.replayRejected else e.metrics }) := by
  unfold updateStep
  simp only [Action.bind_apply]
  split
  · rename_i hr
    rw [if_pos (show (e.state.update e.now p x).1 = .replayed from hr)]
    rfl
  · rename_i hr
    rw [if_neg (show ¬ (e.state.update e.now p x).1 = .replayed from hr)]
    rfl

theorem updateStep_of_replayed {e : Env SessionStore} {d : Session}
    (hd : e.state.sessions.get? p = some d) (hx : (d.window.accept x).1 = false) :
    updateStep p x e = (false, { e with metrics := e.metrics.replayRejected }) := by
  rw [updateStep_apply, update_of_replayed hd hx]
  rfl

theorem updateStep_of_fresh {e : Env SessionStore} {d : Session}
    (hd : e.state.sessions.get? p = some d) (hx : (d.window.accept x).1 = true) :
    updateStep p x e = (true, { e with state := e.state.put p (d.rolled x e.now) }) := by
  rw [updateStep_apply, update_of_fresh hd hx]
  rfl

end SessionStore

namespace Server

open Fallible SessionStore

variable {σ τ : Type}

/-- The same server with another receiver of what it delivers. -/
def delivering (s : Server σ) (f : Option (SocketAddress → Bytes → Action σ Unit)) : Server σ :=
  { s with hooks := { s.hooks with data := f } }

variable [CipherSuite]

theorem openData_delivering (s : Server σ)
    (f : Option (SocketAddress → Bytes → Action σ Unit)) (b : Bytes) (p : SocketAddress) :
    (s.delivering f).openData b p = s.openData b p := rfl

omit [CipherSuite] in
theorem roll_delivering (s : Server σ) (f : Option (SocketAddress → Bytes → Action σ Unit))
    (p : SocketAddress) (r : Received Data) : (s.delivering f).roll p r = s.roll p r := rfl

/-- A Data packet is opened and its session rolled on; if that succeeds, its payload is handed on
and counted. -/
theorem exec_process_data {b : Bytes} (hb : PacketKind.peek b = .ok .data) (s : Server σ)
    (p : SocketAddress) (e : Env σ) :
    (s.process b p).exec e = match (s.openData b p).exec e with
      | (.error err, e₁) => (.error err, e₁)
      | (.ok r, e₁) => match (s.roll p r).exec e₁ with
        | (.error err, e₂) => (.error err, e₂)
        | (.ok _, e₂) => (.ok none, { (s.hooks.deliver p r.packet.payload e₂).2 with
            metrics := (s.hooks.deliver p r.packet.payload e₂).2.metrics.delivered }) := by
  rw [exec_process, hb]
  dsimp only
  rw [acceptData, exec_bind]
  rcases (s.openData b p).exec e with ⟨err | r, e₁⟩
  · rfl
  · dsimp only
    rw [exec_bind]
    rcases (s.roll p r).exec e₁ with ⟨err | u, e₂⟩ <;> rfl

section
variable (info : ServerInfo) (h : Hooks (SessionStore × τ)) (p : SocketAddress)
  {e e₁ : Env (SessionStore × τ)} {err : Error}

theorem openData_eq_error {b : Bytes}
    (hx : ((keeping info h).openData b p).exec e = (.error err, e₁)) :
    e₁ = e ∨ ∃ x, e₁ = e.withStore (lookupStep p x e.store).2 := by
  unfold openData at hx
  rw [Data.exec_decode] at hx
  cases hf : PacketKind.data.bareFrame.parse b with
  | error err' =>
    rw [hf] at hx
    exact .inl (Prod.mk.inj hx).2.symm
  | ok f =>
    rw [hf] at hx
    dsimp only [keeping] at hx
    rw [exec_lookup_keeping] at hx
    refine .inr ⟨f.header, ?_⟩
    cases hk : (lookupStep p f.header e.store).1 with
    | none =>
      rw [hk] at hx
      exact (Prod.mk.inj hx).2.symm
    | some k =>
      rw [hk] at hx
      exact (Prod.mk.inj hx).2.symm

omit [CipherSuite] in
theorem exec_roll_of_replayed {r : Received Data} {d : Session}
    (hd : e.state.1.sessions.get? p = some d) (hx : (d.window.accept r.packet.salt).1 = false) :
    ((keeping info h).roll p r).exec e =
      (.error (.session .replayedSalt), { e with metrics := e.metrics.replayRejected }) := by
  rw [exec_roll, updateStep_of_replayed hd hx]
  rfl

omit [CipherSuite] in
theorem exec_roll_of_fresh {r : Received Data} {d : Session}
    (hd : e.state.1.sessions.get? p = some d) (hx : (d.window.accept r.packet.salt).1 = true) :
    ((keeping info h).roll p r).exec e =
      (.ok (), { e with
        state := (e.state.1.put p (d.rolled r.packet.salt e.now), e.state.2) }) := by
  rw [exec_roll, updateStep_of_fresh hd hx]
  rfl

/-- Data processing either succeeds, whoever receives the payload, or fails and hands nothing on. -/
theorem data_all_or_nothing {c : SecurityConfig} {e₀ : Env SessionStore}
    (he₀ : e₀.state = .ofConfig c) (calls : List Call) {b : Bytes}
    (he : e.state.1 = (SessionStore.recorder.after e₀ calls).state)
    (hb : PacketKind.peek b = .ok .data) :
    let s := keeping info h
    let t := e.state.1
    (∃ (m : Data) (under : Salt) (pad : Bytes) (d d' : Session) (e₁ : Env (SessionStore × τ)),
      t.sessions.get? p = some d ∧ d' = d.rolled m.salt e.now ∧
      pad.length = Sealed.padSize ∧ b = m.wire d.key under pad ∧
      (0 < c.replayWindow.toNat → d.window.contains m.salt = false) ∧
      d'.window.order = (d.window.order ++ [m.salt]).rtake c.replayWindow.toNat ∧
      (∀ y, d'.window.contains y = true ↔ y ∈ d'.window.order) ∧
      e₁ = { e with state := (t.put p d', e.state.2) } ∧
      ∀ f, ((s.delivering f).process b p).exec e =
        (.ok none, { ((s.delivering f).hooks.deliver p m.payload e₁).2 with
          metrics := ((s.delivering f).hooks.deliver p m.payload e₁).2.metrics.delivered })) ∨
    ∃ err metrics t', t.Touches e.now p t' ∧
      ∀ f, ((s.delivering f).process b p).exec e =
        (.error err, { e with state := (t', e.state.2), metrics }) := by
  intro s t
  have ht : t.Tracks c (SessionStore.recorder.record e₀ calls) := by
    rw [show t = _ from he]
    exact SessionStore.tracks_record he₀ calls
  have hs := ht.coherent
  rcases ho : (s.openData b p).exec e with ⟨err | r, e₁⟩
  · have hfail : ∃ t', t.Touches e.now p t' ∧ e₁ = { e with state := (t', e.state.2) } := by
      rcases openData_eq_error info h p ho with rfl | ⟨x, rfl⟩
      · exact ⟨t, hs.touches_refl e₁.now p, rfl⟩
      · exact ⟨_, hs.touches_lookup e.now p x, rfl⟩
    obtain ⟨t', htouches, rfl⟩ := hfail
    refine .inr ⟨err, e.metrics, t', htouches, fun f => ?_⟩
    rw [exec_process_data hb, openData_delivering, ho]
  · obtain ⟨d, pad, hd, -, hlive, hpad, hbytes, rfl⟩ := openData_eq_ok info h ho
    let d₁ : Session := { d with lastSeen := e.now }
    let e₁ : Env (SessionStore × τ) := { e with state := (t.put p d₁, e.state.2) }
    have hd₁ : e₁.state.1.sessions.get? p = some d₁ := by rw [sessions_put, if_pos rfl]
    have hopen : (s.openData b p).exec e = (.ok r, e₁) := ho
    cases ha : (d.window.accept r.packet.salt).1 with
    | false =>
      refine .inr ⟨.session .replayedSalt, e.metrics.replayRejected, t.put p d₁,
        hs.touches_put hd hlive, fun f => ?_⟩
      rw [exec_process_data hb, openData_delivering, hopen]
      dsimp only
      rw [roll_delivering, exec_roll_of_replayed info h p hd₁ ha]
    | true =>
      obtain ⟨hnew, horder, hmem⟩ := ht.window_rolled hd ha e.now
      refine .inl ⟨r.packet, r.header, pad, d, _, _, hd, rfl, hpad, hbytes, hnew, horder, hmem, rfl,
        fun f => ?_⟩
      have hput : e₁.state.1.put p (d₁.rolled r.packet.salt e₁.now) =
          t.put p (d.rolled r.packet.salt e.now) := put_put t p d₁ _
      rw [exec_process_data hb, openData_delivering, hopen]
      dsimp only
      rw [roll_delivering, exec_roll_of_fresh info h p hd₁ ha, hput]

end

end Server

section
open Sample Fallible SessionStore

/-- A Data packet is delivered if it comes from the peer whose session it is sealed for, and the
same packet is not if it comes from another address. -/
theorem data_all_or_nothing_from_two_addresses :
    let f : SocketAddress → Bytes → Action (SessionStore × List (SocketAddress × Bytes)) Unit :=
      fun p m => modifyState fun x => (x.1, x.2 ++ [(p, m)])
    let s := (Server.keeping info {}).delivering (some f)
    let e₀ : Env SessionStore := { state := .ofConfig config }
    let calls : List Call := [.register (session (salt 1) (salt 2))]
    let e : Env (SessionStore × List (SocketAddress × Bytes)) :=
      { state := ((recorder.after e₀ calls).state, []) }
    let b := (Data.mk (salt 3) [1, 2]).wire key (salt 2) Sample.pad
    (∃ e', (s.process b peer).exec e = (.ok none, e') ∧ e'.state.2 = [(peer, [1, 2])]) ∧
      ∃ err e', (s.process b (.v4 0x7f000001 4001)).exec e = (.error err, e') ∧
        e'.state.2 = [] := by
  intro f s e₀ calls e b
  have hpeek : PacketKind.peek b = .ok .data := Data.peek_wire _ _ _ _
  constructor
  · obtain ⟨e₂, hdeliver⟩ : s.Delivers b peer e [1, 2] :=
      (Server.process_of_live info { data := some f } (d := (session (salt 1) (salt 2)).opened
        ((SaltWindow.ofCapacity 1).accept (salt 1)).2 0) (by decide +kernel) (by decide +kernel)
        (by decide +kernel) (by decide +kernel) (by decide) rfl).1
    rcases Server.data_all_or_nothing info {} peer (e := e) (c := config) rfl calls rfl hpeek with
      ⟨m, _, _, _, _, _, _, _, _, _, _, _, _, rfl, hf⟩ | ⟨err, metrics, t', -, hf⟩
    · refine ⟨_, hf (some f), ?_⟩
      have hlog : e₂.state.2 ++ [(peer, [1, 2])] = [] ++ [(peer, m.payload)] :=
        congrArg (·.2.state.2) (hdeliver.symm.trans (hf (some f)))
      obtain ⟨-, hm⟩ := List.append_inj' hlog rfl
      exact hm.symm
    · cases hdeliver.symm.trans (hf (some f))
  · rcases Server.data_all_or_nothing info {} (.v4 0x7f000001 4001) (e := e) (c := config) rfl calls
      rfl hpeek with ⟨-, -, -, d, -, -, hd, -⟩ | ⟨err, metrics, t', -, hf⟩
    · have hnone : e.state.1.sessions.get? (.v4 0x7f000001 4001) = none := by decide +kernel
      rw [hnone] at hd
      cases hd
    · exact ⟨err, _, hf (some f), rfl⟩

end

end SealedDatagram
