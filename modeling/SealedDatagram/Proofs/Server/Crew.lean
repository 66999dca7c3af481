import SealedDatagram.CipherSuite.Standard
import SealedDatagram.Proofs.Server.Authentic
/-!
Workers that share a table. A worker opens a Data packet with the key that the table has for it,
comes back to the table to have the salt in the packet accepted, and then hands the packet on. In
between the others go on, and a session that one of them registers for the peer takes what was
opened with the key of the session before it.
-/

namespace SealedDatagram

def Fact.key? (p : SocketAddress) : Fact → Option SessionKey
  | registered n _ => if n.peer = p then some n.key else none
  | _ => none

theorem Fact.key?_eq_none {p : SocketAddress} {f : Fact} (hf : ¬ f.ends p) : f.key? p = none := by
  cases f with
  | registered n now => exact if_neg hf
  | found | rolled | issued | dropped => rfl

/-- The key of a session is that of the registration accepted last, also if one was dropped in
between. -/
theorem key_of_account_append {p : SocketAddress} {h l : List Fact} {a b : Account}
    (ha : account p h = some a) (hb : account p (h ++ l) = some b) :
    b.latest.key = (l.filterMap (·.key? p)).getLastD a.latest.key := by
  induction l using List.reverseRecOn generalizing b with
  | nil =>
    rw [List.append_nil, ha] at hb
    obtain rfl := Option.some.inj hb
    rfl
  | append_singleton l f ih =>
    rw [← List.append_assoc] at hb
    rw [List.filterMap_append]
    by_cases hf : f.ends p
    · obtain ⟨hp, now, rfl⟩ := registered_of_account_concat hb hf
      simp [Fact.key?, hp]
    · obtain ⟨b', hb', hlatest⟩ := exists_of_account_concat hb hf
      rw [hlatest, ih hb']
      simp [Fact.key?_eq_none hf]

/-- Workers, with the Data packets that they hold. -/
structure Crew (τ : Type) where
  env : Env (SessionStore × τ)
  /-- Open, with salts that the table has not seen. -/
  opened : List Server.Opened := []
  /-- With salts that the table has accepted, and not yet handed on. -/
  accepted : List Server.Opened := []

/-- What one of the workers does next, with at most one call of the table, so that the moves of
several workers come in any order. -/
inductive Crew.Move where
  /-- A datagram is taken: a Data packet is opened, any other is handled whole. -/
  | arriving (b : Bytes) (peer : SocketAddress)
  /-- The table is asked to accept the salt of the `i`-th packet that is open. -/
  | rolling (i : Nat)
  /-- The `i`-th packet whose salt was accepted is handed on. -/
  | delivering (i : Nat)
  | call (c : SessionStore.Call)

namespace Crew

open Fallible SessionStore Server

variable [CipherSuite] {τ : Type}

section
variable (s : Server (SessionStore × τ))

def next : Move → Crew τ → Crew τ
  | .arriving b p, w =>
    match PacketKind.peek b with
    | .ok .data =>
      match (s.openKeyed b p).exec w.env with
      | (.ok o, env) => { w with env, opened := w.opened ++ [o] }
      | (.error _, env) => { w with env }
    | _ => { w with env := ((s.process b p).exec w.env).2 }
  | .rolling i, w =>
    match w.opened[i]? with
    | some o =>
      match (s.roll o.peer o.received).exec w.env with
      | (.ok (), env) => { env, opened := w.opened.eraseIdx i, accepted := w.accepted ++ [o] }
      | (.error _, env) => { w with env, opened := w.opened.eraseIdx i }
    | none => w
  | .delivering i, w =>
    match w.accepted[i]? with
    | some o =>
      { w with
        env := ((s.handOn o.peer o.received.packet).exec w.env).2
        accepted := w.accepted.eraseIdx i }
    | none => w
  | .call c, w => { w with env := w.env.withStore (c.next w.env.store) }

/-- What a move brings about in the table. -/
def facts : Move → Crew τ → List Fact
  | .arriving b p, w =>
    match PacketKind.peek b with
    | .ok .data => openFacts b p w.env
    | _ => s.facts b p w.env
  | .rolling i, w =>
    match w.opened[i]? with
    | some o => rollFacts o.peer o.received w.env
    | none => []
  | .delivering _, _ => []
  | .call c, w => c.facts w.env.store

def recorder : Recorder (Crew τ) Move Fact := ⟨next s, facts s⟩

theorem next_recorder (m : Move) (w : Crew τ) : (recorder s).next m w = next s m w := rfl

section
variable {s} {b : Bytes} {p : SocketAddress} {w : Crew τ} {o : Opened}
  {env : Env (SessionStore × τ)}

theorem next_arriving_data (hx : (s.openKeyed b p).exec w.env = (.ok o, env)) :
    next s (.arriving b p) w = { w with env, opened := w.opened ++ [o] } := by
  obtain ⟨-, -, pad, -, hb⟩ := openKeyed_eq_ok hx
  have hpeek : PacketKind.peek b = .ok .data := hb ▸ Data.peek_wire _ _ _ _
  rw [next, hpeek]
  dsimp only
  rw [hx]

theorem next_rolling {i : Nat} (hi : w.opened[i]? = some o)
    (hx : (s.roll o.peer o.received).exec w.env = (.ok (), env)) :
    next s (.rolling i) w =
      { env, opened := w.opened.eraseIdx i, accepted := w.accepted ++ [o] } := by
  rw [next, hi]
  dsimp only
  rw [hx]

/-- A worker that makes its moves in a row does what the server does with a datagram. -/
theorem after_process (hb : PacketKind.peek b = .ok .data) (p : SocketAddress) (w : Crew τ) :
    (recorder s).after w
        [.arriving b p, .rolling w.opened.length, .delivering w.accepted.length] =
      { w with env := ((s.process b p).exec w.env).2 } := by
  simp only [Recorder.after_cons, Recorder.after_nil, next_recorder]
  rw [exec_process, hb]
  dsimp only
  rw [acceptData, exec_bind, exec_openData]
  rcases hx : (s.openKeyed b p).exec w.env with ⟨err | o, env⟩
  · have harr : next s (.arriving b p) w = { w with env } := by
      rw [next, hb]
      dsimp only
      rw [hx]
    rw [harr]
    simp only [next, List.getElem?_length]
    rfl
  · obtain ⟨rfl, -⟩ := openKeyed_eq_ok hx
    rw [next_arriving_data hx]
    dsimp only [Except.map]
    rw [exec_bind]
    rcases hy : (s.roll o.peer o.received).exec env with ⟨err | u, env'⟩
    · have hroll : next s (.rolling w.opened.length) { w with env, opened := w.opened ++ [o] } =
          { w with env := env' } := by
        simp only [next, List.getElem?_concat_length, hy, List.eraseIdx_append_of_length_le,
          le_refl, Nat.sub_self, List.eraseIdx_cons_zero, List.append_nil]
      rw [hroll]
      simp only [next, List.getElem?_length]
    · rw [next_rolling (o := o) List.getElem?_concat_length hy]
      simp only [next, List.getElem?_concat_length, List.eraseIdx_append_of_length_le,
        le_refl, Nat.sub_self, List.eraseIdx_cons_zero, List.append_nil]

end

theorem opened_of_next {m : Move} {w : Crew τ} {o : Opened} (ho : o ∈ (next s m w).opened) :
    o ∈ w.opened ∨
      ∃ b env, m = .arriving b o.peer ∧ (s.openKeyed b o.peer).exec w.env = (.ok o, env) := by
  cases m with
  | arriving b p =>
    rw [next] at ho
    split at ho
    · rcases hx : (s.openKeyed b p).exec w.env with ⟨err | o', env⟩
      · rw [hx] at ho
        exact .inl ho
      · rw [hx] at ho
        rcases List.mem_append.1 ho with ho | ho
        · exact .inl ho
        · obtain rfl := List.mem_singleton.1 ho
          obtain ⟨rfl, -⟩ := openKeyed_eq_ok hx
          exact .inr ⟨b, env, rfl, hx⟩
    · exact .inl ho
  | rolling i =>
    rw [next] at ho
    split at ho
    · split at ho <;> exact .inl (List.mem_of_mem_eraseIdx ho)
    · exact .inl ho
  | delivering i =>
    rw [next] at ho
    split at ho <;> exact .inl ho
  | call c => exact .inl ho

theorem accepted_of_next {m : Move} {w : Crew τ} {o : Opened} (ho : o ∈ (next s m w).accepted) :
    o ∈ w.accepted ∨ ∃ i env, m = .rolling i ∧ w.opened[i]? = some o ∧
      (s.roll o.peer o.received).exec w.env = (.ok (), env) := by
  cases m with
  | arriving b p =>
    rw [next] at ho
    split at ho
    · split at ho <;> exact .inl ho
    · exact .inl ho
  | rolling i =>
    cases hi : w.opened[i]? with
    | none =>
      rw [next, hi] at ho
      exact .inl ho
    | some o' =>
      rcases hx : (s.roll o'.peer o'.received).exec w.env with ⟨err | u, env⟩
      · rw [next, hi] at ho
        dsimp only at ho
        rw [hx] at ho
        exact .inl ho
      · rw [next_rolling hi hx] at ho
        rcases List.mem_append.1 ho with ho | ho
        · exact .inl ho
        · obtain rfl := List.mem_singleton.1 ho
          exact .inr ⟨i, env, rfl, hi, hx⟩
  | delivering i =>
    rw [next] at ho
    split at ho
    · exact .inl (List.mem_of_mem_eraseIdx ho)
    · exact .inl ho
  | call c => exact .inl ho

theorem arrival_of_opened {w₀ : Crew τ} (hw₀ : w₀.opened = []) (moves : List Move) {o : Opened}
    (ho : o ∈ ((recorder s).after w₀ moves).opened) :
    ∃ before b since env, moves = before ++ .arriving b o.peer :: since ∧
      (s.openKeyed b o.peer).exec ((recorder s).after w₀ before).env = (.ok o, env) := by
  induction moves using List.reverseRecOn with
  | nil =>
    rw [Recorder.after_nil, hw₀] at ho
    cases ho
  | append_singleton moves m ih =>
    rw [Recorder.after_concat] at ho
    rcases opened_of_next s ho with ho | ⟨b, env, rfl, hx⟩
    · obtain ⟨before, b, since, env, rfl, hx⟩ := ih ho
      exact ⟨before, b, since ++ [m], env, by simp, hx⟩
    · exact ⟨moves, b, [], env, rfl, hx⟩

theorem rolling_of_accepted {w₀ : Crew τ} (hw₀ : w₀.accepted = []) (moves : List Move) {o : Opened}
    (ho : o ∈ ((recorder s).after w₀ moves).accepted) :
    ∃ before i since env, moves = before ++ .rolling i :: since ∧
      ((recorder s).after w₀ before).opened[i]? = some o ∧
      (s.roll o.peer o.received).exec ((recorder s).after w₀ before).env = (.ok (), env) := by
  induction moves using List.reverseRecOn with
  | nil =>
    rw [Recorder.after_nil, hw₀] at ho
    cases ho
  | append_singleton moves m ih =>
    rw [Recorder.after_concat] at ho
    rcases accepted_of_next s ho with ho | ⟨i, env, rfl, hi, hx⟩
    · obtain ⟨before, i, since, env, rfl, hi, hx⟩ := ih ho
      exact ⟨before, i, since ++ [m], env, by simp, hi, hx⟩
    · exact ⟨moves, i, [], env, rfl, hi, hx⟩

end

variable (info : ServerInfo) {h : Hooks (SessionStore × τ)}

theorem tracks_next (hh : h.Apart) {w : Crew τ} {c : SecurityConfig} {past : List Fact}
    (ht : w.env.store.state.Tracks c past) (m : Move) :
    (next (keeping info h) m w).env.store.state.Tracks c (past ++ facts (keeping info h) m w) := by
  cases m with
  | arriving b p =>
    rw [next, facts]
    split
    · have hopen := tracks_openData info h p ht b
      rw [exec_openData] at hopen
      rcases hx : ((keeping info h).openKeyed b p).exec w.env with ⟨err | o, env⟩
      · rwa [hx] at hopen
      · rwa [hx] at hopen
    · exact tracks_process info hh ht b p
  | rolling i =>
    rw [next, facts]
    cases w.opened[i]? with
    | none => simpa using ht
    | some o =>
      have hroll := tracks_roll info h o.peer ht o.received
      dsimp only
      rcases hx : ((keeping info h).roll o.peer o.received).exec w.env with ⟨err | u, env⟩
      · rwa [hx] at hroll
      · rwa [hx] at hroll
  | delivering i =>
    rw [next, facts, List.append_nil]
    cases w.accepted[i]? with
    | none => exact ht
    | some o => exact (spares_handOn info hh o.peer o.received.packet).tracks ht
  | call c => exact ht.step c

theorem tracks_record (hh : h.Apart) {w₀ : Crew τ} {c : SecurityConfig}
    (hw₀ : w₀.env.state.1 = .ofConfig c) (moves : List Move) :
    ((recorder (keeping info h)).after w₀ moves).env.store.state.Tracks c
      ((recorder (keeping info h)).record w₀ moves) := by
  refine (recorder (keeping info h)).keeps (P := fun w l => w.env.store.state.Tracks c l)
    (fun _ _ m ht => tracks_next info hh ht m) (h := []) ?_ moves
  change SessionStore.Tracks w₀.env.state.1 c []
  rw [hw₀]
  exact tracks_ofConfig c

/-- Whatever came before, a packet that is handed on is one whose salt was accepted. It was opened
with the key that the session of its peer had when it arrived, and is accepted by a session with the
key registered last since then. So the keys are one if no session was registered for the peer in
between, or the last of them has the same key; and the salt of the packet becomes that of the
session that accepts it. -/
theorem key_of_delivery (hh : h.Apart) {c : SecurityConfig} {w₀ : Crew τ}
    (hw₀ : w₀.env.state.1 = .ofConfig c) (hopened : w₀.opened = []) (haccepted : w₀.accepted = [])
    (moves : List Move) :
    let s := keeping info h
    let w := (recorder s).after w₀ moves
    (∀ o ∈ w.accepted, ∃ before i since e', moves = before ++ .rolling i :: since ∧
      ((recorder s).after w₀ before).opened[i]? = some o ∧
      (s.roll o.peer o.received).exec ((recorder s).after w₀ before).env = (.ok (), e')) ∧
    ∀ (i : Nat) (o : Opened) (e' : Env (SessionStore × τ)),
    w.opened[i]? = some o → (s.roll o.peer o.received).exec w.env = (.ok (), e') →
    ∃ before b since, moves = before ++ .arriving b o.peer :: since ∧
      -- the packet, and the session when it arrived
      (∃ pad, pad.length = Sealed.padSize ∧
        b = o.received.packet.wire o.key o.received.header pad) ∧
      (∃ d, ((recorder s).after w₀ before).env.state.1.sessions.get? o.peer = some d ∧
        d.key = o.key) ∧
      -- the session that accepts its salt
      let facts := (recorder s).record
        ((recorder s).after w₀ (before ++ [.arriving b o.peer])) since
      ∃ d d', w.env.state.1.sessions.get? o.peer = some d ∧
        d.key = (facts.filterMap (·.key? o.peer)).getLastD o.key ∧
        e'.state.1.sessions.get? o.peer = some d' ∧ d'.key = d.key ∧
        d'.peerSalt = o.received.packet.salt := by
  intro s w
  refine ⟨fun o ho => rolling_of_accepted s haccepted moves ho, fun i o e' hi hx => ?_⟩
  obtain ⟨before, b, since, env, hmoves, harr⟩ :=
    arrival_of_opened s hopened moves (List.mem_of_getElem? hi)
  obtain ⟨-, -, pad, hpad, hb⟩ := openKeyed_eq_ok harr
  obtain ⟨d₁, hd₁, -, -, hkey, henv⟩ := session_of_openKeyed info h harr
  obtain ⟨d, hd, -, hd'⟩ := roll_eq_ok info h hx
  refine ⟨before, b, since, hmoves, ⟨pad, hpad, hb⟩, ⟨d₁, hd₁, hkey⟩, d, _, hd, ?_, hd', rfl, rfl⟩
  let w₁ := (recorder s).after w₀ (before ++ [.arriving b o.peer])
  have hw₁ : w₁.env = env := by
    simp only [w₁, Recorder.after_concat]
    rw [next_recorder, next_arriving_data harr]
  have ht₁ := tracks_record info hh hw₀ (before ++ [.arriving b o.peer])
  have hmid : w₁.env.store.state.sessions.get? o.peer =
      some { d₁ with lastSeen := ((recorder s).after w₀ before).env.now } := by
    rw [hw₁, henv]
    exact (Table.get?_insert _ _ _ _).trans (if_pos rfl)
  obtain ⟨a₁, ha₁, hf₁⟩ := ht₁.of_session hmid
  obtain ⟨a, ha, hf⟩ := (tracks_record info hh hw₀ moves).of_session hd
  rw [hmoves, List.append_cons, Recorder.record_append] at ha
  rw [hf.key, key_of_account_append ha₁ ha, ← hf₁.key, hkey]

end Crew

namespace Sample

/-- Workers at a server that has the random bytes for two Htuas. -/
def crew : Crew Unit where
  env := server ((salt 2).bytes ++ (pad ++ ((salt 5).bytes ++ (pad ++ []))))

def packet : Server.Opened := ⟨peer, key, ⟨salt 2, ⟨salt 3, [1, 2]⟩⟩⟩

def datagram : Bytes := (Data.mk (salt 3) [1, 2]).wire key (salt 2) pad

def arrivals : List Crew.Move :=
  [.arriving (request (salt 1) key) peer, .arriving datagram peer]

def holding : Crew Unit :=
  let e := registered crew.env (requested (salt 1) (salt 2) key) ((salt 5).bytes ++ (pad ++ []))
  { env := e.withStore (SessionStore.lookupStep peer (salt 2) e.store).2, opened := [packet] }

theorem next_request (x y : Salt) (k : SessionKey) (rest : Bytes) {w : Crew Unit}
    (he : w.env.entropy = { queued := y.bytes ++ (pad ++ rest) })
    (h : ((SessionStore.registerStep (requested x y k)).exec
      (left w.env (pad ++ rest)).store).1 = .ok true) :
    Crew.next (Server.keeping info hooks) (.arriving (request x k) peer) w =
      { w with env := registered w.env (requested x y k) rest } := by
  rw [Crew.next, peek_request]
  dsimp only
  rw [exec_process x y k rest he h]

theorem next_rolling {w : Crew Unit} {env : Env (SessionStore × Unit)}
    (ho : w.opened = [packet]) (ha : w.accepted = [])
    (hx : ((Server.keeping info hooks).roll packet.peer packet.received).exec w.env =
      (.ok (), env)) :
    Crew.next (Server.keeping info hooks) (.rolling 0) w = { env, accepted := [packet] } := by
  rw [Crew.next_rolling (by rw [ho]; rfl) hx, ho, ha]
  rfl

theorem after_arrivals :
    (Crew.recorder (Server.keeping info hooks)).after crew arrivals = holding := by
  have hfirst : Crew.next (Server.keeping info hooks) (.arriving (request (salt 1) key) peer) crew =
      _ := next_request (salt 1) (salt 2) key _ rfl (by decide +kernel)
  let n := requested (salt 1) (salt 2) key
  let d := n.opened ((SaltWindow.ofCapacity 1).accept (salt 1)).2 0
  let e := registered crew.env n ((salt 5).bytes ++ (pad ++ []))
  have hopen : ((Server.keeping info hooks).openKeyed
      ((Data.mk (salt 3) [1, 2]).wire d.key (salt 2) pad) peer).exec e = _ :=
    Server.exec_openKeyed_of_live info hooks (by decide +kernel) (by decide +kernel)
      (by decide +kernel) (by decide) rfl
  rw [arrivals, Recorder.after_cons, Recorder.after_cons, Recorder.after_nil, Crew.next_recorder,
    Crew.next_recorder, hfirst]
  exact Crew.next_arriving_data hopen

end Sample

section
open Sample

theorem key_of_delivery_right_after_arrival :
    let s := Server.keeping info hooks
    let m := Crew.recorder s
    ∃ e', (m.after crew arrivals).opened[0]? = some packet ∧
      (s.roll packet.peer packet.received).exec (m.after crew arrivals).env = (.ok (), e') ∧
      (∃ before b since, arrivals = before ++ .arriving b packet.peer :: since ∧
        ∃ d d', (m.after crew arrivals).env.state.1.sessions.get? packet.peer = some d ∧
          d.key = ((m.record (m.after crew (before ++ [.arriving b packet.peer])) since).filterMap
            (·.key? packet.peer)).getLastD packet.key ∧
          e'.state.1.sessions.get? packet.peer = some d' ∧
          d'.peerSalt = packet.received.packet.salt) ∧
      ∃ before i since, arrivals ++ [.rolling 0] = before ++ .rolling i :: since ∧
        (m.after crew before).opened[i]? = some packet := by
  dsimp only
  have hok : (((Server.keeping info hooks).roll packet.peer packet.received).exec holding.env).1 =
      .ok () := by decide +kernel
  obtain ⟨e', hx⟩ : ∃ e', ((Server.keeping info hooks).roll packet.peer packet.received).exec
      ((Crew.recorder (Server.keeping info hooks)).after crew arrivals).env = (.ok (), e') := by
    rw [after_arrivals]
    exact ⟨_, Prod.ext hok rfl⟩
  have hopened : ((Crew.recorder (Server.keeping info hooks)).after crew arrivals).opened[0]? =
      some packet := by
    rw [after_arrivals]
    rfl
  have haccepted : packet ∈ ((Crew.recorder (Server.keeping info hooks)).after crew
      (arrivals ++ [.rolling 0])).accepted := by
    rw [Recorder.after_concat, Crew.next_recorder, Crew.next_rolling hopened hx]
    exact List.mem_concat_self
  have htable : crew.env.state.1 = .ofConfig config := rfl
  obtain ⟨before, b, since, hmoves, -, -, d, d', hd, hkey, hd', -, hpeer⟩ :=
    (Crew.key_of_delivery info apart_hooks htable rfl rfl arrivals).2 0 packet e' hopened hx
  have hkeys := Crew.key_of_delivery info apart_hooks htable rfl rfl (arrivals ++ [.rolling 0])
  obtain ⟨before', i, since', -, hmoves', hi, -⟩ := hkeys.1 packet haccepted
  exact ⟨e', hopened, hx, ⟨before, b, since, hmoves, d, d', hd, hkey, hd', hpeer⟩,
    before', i, since', hmoves', hi⟩

/-- What was opened with the key of the first session is to be handed on although the second has
another, and the second goes on with the salt of it. -/
theorem delivered_across_replacement :
    let s := Server.keeping info hooks
    let m := Crew.recorder s
    let moves := arrivals ++ [.arriving (request (salt 4) otherKey) peer]
    let w := m.after crew moves
    let w' := m.after crew (moves ++ [.rolling 0])
    ∃ d d', w.opened = [packet] ∧ w'.accepted = [packet] ∧
      w.env.state.1.sessions.get? packet.peer = some d ∧ d.key ≠ packet.key ∧
      w'.env.state.1.sessions.get? packet.peer = some d' ∧ d'.key = d.key ∧
      d'.authSalt = salt 4 ∧ d'.peerSalt = packet.received.packet.salt := by
  intro s m moves w w'
  obtain ⟨e, he⟩ : ∃ e, e = registered holding.env (requested (salt 4) (salt 5) otherKey) [] :=
    ⟨_, rfl⟩
  have hsecond : Crew.next s (.arriving (request (salt 4) otherKey) peer) holding =
      { holding with env := e } := by
    rw [he]
    exact next_request (salt 4) (salt 5) otherKey [] rfl (by decide +kernel)
  have hsession : (e.state.1.sessions.get? peer).map Session.key = some otherKey := by
    rw [he]
    decide +kernel
  have hok : ((s.roll packet.peer packet.received).exec e).1 = .ok () := by
    rw [he]
    decide +kernel
  obtain ⟨e', hx, hrolled⟩ : ∃ e', (s.roll packet.peer packet.received).exec e = (.ok (), e') ∧
      (e'.state.1.sessions.get? peer).map (fun d => (d.key, d.authSalt, d.peerSalt)) =
        some (otherKey, salt 4, salt 3) := ⟨_, Prod.ext hok rfl, by rw [he]; decide +kernel⟩
  have hw : w = { holding with env := e } := by
    have hafter := m.after_concat crew arrivals (.arriving (request (salt 4) otherKey) peer)
    rw [after_arrivals, Crew.next_recorder, hsecond] at hafter
    exact hafter
  have hw' : w' = { env := e', accepted := [packet] } := by
    have hafter := m.after_concat crew moves (.rolling 0)
    rw [show m.after crew moves = _ from hw, Crew.next_recorder, next_rolling rfl rfl hx] at hafter
    exact hafter
  obtain ⟨d, hd, hkey⟩ := Option.map_eq_some_iff.1 hsession
  obtain ⟨d', hd', hsalts⟩ := Option.map_eq_some_iff.1 hrolled
  simp only [Prod.mk.injEq] at hsalts
  obtain ⟨hkey', hauth, hpeer⟩ := hsalts
  rw [hw, hw']
  exact ⟨d, d', rfl, rfl, hd, by rw [hkey]; decide, hd', by rw [hkey', hkey], hauth, hpeer⟩

end

end SealedDatagram
