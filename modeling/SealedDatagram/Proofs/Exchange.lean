import SealedDatagram.CipherSuite.Standard
import SealedDatagram.Proofs.Client
import SealedDatagram.Proofs.Server.Answer
/-!
The handshake of a client with a server over a network that loses, copies and reorders what it
carries. The client may go on proposing until it takes an Htua, and the server registers what
arrives. They agree on a session if the Htua that the client took confirms the session registered
last; where another Auth was registered after that one they do not.
-/

namespace SealedDatagram

variable {τ : Type}

namespace SessionStore

/-- All that a peer was told of its session is the salt of the registration, which leads to it. -/
def Named (s : SessionStore) (p : SocketAddress) (h : List Fact) : Prop :=
  ∀ a, account p h = some a →
    a.issued = [a.latest.ownSalt] ∧ s.bySalt.get? a.latest.ownSalt = some p

theorem Named.register {e : Env SessionStore} {cfg : SecurityConfig} {h : List Fact}
    {p : SocketAddress} {n : NewSession} (hs : e.state.Tracks cfg h) (hnamed : e.state.Named p h)
    (hn : n.peer = p) :
    ((Call.register n).next e).state.Named p (h ++ (Call.register n).facts e) := by
  intro a ha
  obtain ⟨metrics, heq⟩ := exec_registerStep n e
  simp only [Call.next, Call.facts, registerStep_eq_ok_true_iff] at ha ⊢
  rw [heq]
  by_cases hr : (e.state.register e.memory e.now n).1 = .accepted
  · rw [if_pos hr, ← List.append_assoc, account_concat, Account.next, if_pos hn] at ha
    obtain rfl := Option.some.inj ha
    refine ⟨rfl, ?_⟩
    rcases register_cases e.state e.memory e.now n with ⟨_, _, _, ht⟩ | ⟨d, _, _, _, ht⟩ |
      ⟨_, _, ht⟩ | ⟨_, _, _, ht⟩ | ⟨_, _, _, ht⟩
    · rw [ht] at hr
      cases hr
    · rw [ht]
      exact (bySalt_establish e.now n _ hs.coherent.sweep).2 (.inl ⟨rfl, hn.symm⟩)
    · rw [ht] at hr
      cases hr
    · rw [ht]
      exact (bySalt_establish e.now n _ hs.coherent.sweep).2 (.inl ⟨rfl, hn.symm⟩)
    · rw [ht] at hr
      cases hr
  · -- the sweep has not forgotten the session of the account
    rw [if_neg hr, List.append_nil, account_append_dropped] at ha
    split at ha
    · cases ha
    · rename_i hlive
      obtain ⟨hissued, hb⟩ := hnamed a ha
      refine ⟨hissued, ?_⟩
      dsimp only
      rw [register_of_refused hr, bySalt_sweep hs.coherent]
      exact ⟨hb, hlive⟩

end SessionStore

structure Confirmation where
  session : NewSession
  htua : Bytes

structure Exchange (τ : Type) where
  client : Env Client
  server : Env (SessionStore × τ)
  /-- The Auth packets on their way. -/
  auths : List Bytes := []
  /-- What the server has answered. The network may bring each of these any number of times. -/
  answers : List Confirmation := []
  taken : Option NewSession := none

namespace Exchange

open SessionStore

inductive Input where
  /-- The client proposes a given key, or a fresh one. -/
  | propose (credentials : Credentials) (key : Option SessionKey)
  /-- An Auth arrives at the server. -/
  | arrive (i : Nat)
  | copy (i : Nat)
  | lose (i : Nat)
  /-- An Htua arrives at the client. -/
  | take (i : Nat)
  | wait (d : Duration)

section
variable [CipherSuite] (s : Server (SessionStore × τ)) (p : SocketAddress)

def confirmations (b : Bytes) (e : Env (SessionStore × τ)) : List Confirmation :=
  match (s.propose b p).exec e, (s.process b p).exec e with
  | (.ok n, _), (.ok (some htua), _) => [⟨n, htua⟩]
  | _, _ => []

def next : Input → Exchange τ → Exchange τ
  | .propose credentials key, x =>
    match (Client.propose credentials key).exec x.client with
    | (.ok b, client) => { x with client, auths := x.auths ++ [b] }
    | (.error _, client) => { x with client }
  | .arrive i, x =>
    match x.auths[i]? with
    | some b => { x with
        auths := x.auths.eraseIdx i
        server := ((s.process b p).exec x.server).2
        answers := x.answers ++ confirmations s p b x.server }
    | none => x
  | .copy i, x => { x with auths := x.auths ++ x.auths[i]?.toList }
  | .lose i, x => { x with auths := x.auths.eraseIdx i }
  | .take i, x =>
    match x.answers[i]? with
    | some r =>
      match (Client.takeHtua r.htua).exec x.client with
      | (.ok (), client) => { x with client, taken := some r.session }
      | (.error _, client) => { x with client }
    | none => x
  | .wait d, x => { x with client := x.client.advance d, server := x.server.advance d }

def facts : Input → Exchange τ → List Fact
  | .arrive i, x =>
    match x.auths[i]? with
    | some b => s.facts b p x.server
    | none => []
  | _, _ => []

def recorder : Recorder (Exchange τ) Input Fact := ⟨next s p, facts s p⟩

section
variable {s p} {x : Exchange τ} {i : Nat} {b htua : Bytes} {client : Env Client}

theorem next_propose {credentials : Credentials} {key : Option SessionKey}
    (hc : (Client.propose credentials key).exec x.client = (.ok b, client)) :
    (recorder s p).next (.propose credentials key) x =
      { x with client, auths := x.auths ++ [b] } := by
  simp only [recorder, next, hc]

theorem next_arrive {n : NewSession} {e₁ server : Env (SessionStore × τ)}
    (hi : x.auths[i]? = some b) (hn : (s.propose b p).exec x.server = (.ok n, e₁))
    (hs : (s.process b p).exec x.server = (.ok (some htua), server)) :
    (recorder s p).next (.arrive i) x = { x with
      auths := x.auths.eraseIdx i, server, answers := x.answers ++ [⟨n, htua⟩] } := by
  simp only [recorder, next, hi, confirmations, hn, hs]

theorem facts_arrive (hi : x.auths[i]? = some b) :
    (recorder s p).facts (.arrive i) x = s.facts b p x.server := by
  simp only [recorder, facts, hi]

theorem next_take {r : Confirmation} (hi : x.answers[i]? = some r)
    (hc : (Client.takeHtua r.htua).exec x.client = (.ok (), client)) :
    (recorder s p).next (.take i) x = { x with client, taken := some r.session } := by
  simp only [recorder, next, hi, hc]

end

end

/-- The table holds the client's key for it, and is led to it by the salt that the client will seal
its next packet under. -/
def Agree (x : Exchange τ) (p : SocketAddress) : Prop :=
  ∃ d key y, x.server.store.state.sessions.get? p = some d ∧
    x.client.state.sessionKey = some key ∧ d.key = key ∧
    x.client.state.peerSalt = some y ∧ x.server.store.state.bySalt.get? y = some p

/-- The client took the Htua of the session registered last, which has the key it proposed last. -/
def Confirmed (x : Exchange τ) (p : SocketAddress) (h : List Fact) : Prop :=
  ∃ a, account p h = some a ∧ x.taken = some a.latest ∧
    x.client.state.sessionKey = some a.latest.key

variable [CipherSuite]

/-- No Htua opens under the client's key that was sealed with another. -/
def ToldApart (x : Exchange τ) : Prop :=
  ∀ r ∈ x.answers, ∀ key, x.client.state.sessionKey = some key →
    (Htua.decode r.htua key).isOk → r.session.key = key

/-- The next Data packet of the client is delivered, unless its session has been idle for too long
or its salt is remembered from another packet. -/
def Accepts (x : Exchange τ) (s : Server (SessionStore × τ)) (p : SocketAddress) : Prop :=
  ∀ payload d, payload.length ≤ Data.maxPayload → x.client.entropy.budget = none →
    x.server.store.state.sessions.get? p = some d →
    d.expired x.server.store.state.ttl x.server.store.now = false →
    ∃ b client salt, (Client.sealData payload).exec x.client = (.ok b, client) ∧
      client.state = x.client.state.streamed salt ∧
      ((d.window.accept salt).1 = true → s.Delivers b p x.server payload)

/-- An answer is the written form of what it confirms, which the table has registered. -/
def Answers (p : SocketAddress) (h : List Fact) (r : Confirmation) : Prop :=
  r.session.peer = p ∧ (∃ now, .registered r.session now ∈ h) ∧
    ∃ pad, pad.length = Sealed.padSize ∧
      r.htua = (Htua.mk r.session.ownSalt).wire r.session.key r.session.peerSalt pad

/-- The client has taken an answer, and goes on with the salt in it; or it has taken none yet. -/
def Took (x : Exchange τ) : Prop :=
  match x.taken with
  | none => x.client.state.phase = .keyExchanged
  | some n => x.client.state.phase = .authenticated ∧ ∃ r ∈ x.answers, r.session = n ∧
      ∃ key header y, x.client.state.sessionKey = some key ∧
        x.client.state.peerSalt = some y ∧ Htua.decode r.htua key = .ok ⟨header, ⟨y⟩⟩

structure Sound (cfg : SecurityConfig) (p : SocketAddress) (h : List Fact) (x : Exchange τ) :
    Prop where
  tracks : x.server.store.state.Tracks cfg h
  named : x.server.store.state.Named p h
  auths : ∀ b ∈ x.auths, PacketKind.peek b = .ok .auth
  answers : ∀ r ∈ x.answers, Answers p h r
  took : x.Took

variable {info : ServerInfo} {h : Hooks (SessionStore × τ)} {cfg : SecurityConfig}
  {p : SocketAddress} {past : List Fact} {x : Exchange τ}

theorem Answers.mono {r : Confirmation} (hr : Answers p past r) (l : List Fact) :
    Answers p (past ++ l) r := by
  obtain ⟨hp, ⟨now, hm⟩, hw⟩ := hr
  exact ⟨hp, ⟨now, List.mem_append_left l hm⟩, hw⟩

theorem auth_arrives (info : ServerInfo) (hh : h.Apart) {b : Bytes}
    (hb : PacketKind.peek b = .ok .auth) {e : Env (SessionStore × τ)}
    (ht : e.store.state.Tracks cfg past)
    (hn : e.store.state.Named p past) :
    let s := Server.keeping info h
    (((s.process b p).exec e).2.store.state.Named p (past ++ s.facts b p e)) ∧
      ∀ r ∈ confirmations s p b e, Answers p (past ++ s.facts b p e) r := by
  intro s
  have hspare := Server.spares_propose info hh b p e
  unfold Server.facts confirmations
  rw [hb]
  dsimp only
  rcases Server.exec_process_auth_cases info h (e := e) (p := p) hb with
    ⟨err, e₁, hprop, hx⟩ | ⟨n, e₁, hprop, hcases⟩
  · rw [show (s.propose b p).exec e = _ from hprop, show (s.process b p).exec e = _ from hx]
    rw [hprop] at hspare
    refine ⟨?_, nofun⟩
    rw [List.append_nil]
    change SessionStore.Named e₁.state.1 p past
    rw [hspare]
    exact hn
  · obtain ⟨-, -, -, -, -, -, hpeer, -⟩ := Server.proposed hprop
    rw [show (s.propose b p).exec e = _ from hprop]
    rw [hprop] at hspare
    have hstate : e₁.store.state = e.store.state := hspare
    have hreg : ((Call.register n).next e₁.store).state.Named p
        (past ++ (Call.register n).facts e₁.store) :=
      Named.register (hstate ▸ ht) (hstate ▸ hn) hpeer
    rcases hcases with ⟨-, hx⟩ | ⟨err, -, hx⟩ | ⟨hok, ⟨pad, entropy, hpad, -, hx⟩ | ⟨-, hx⟩⟩
    · rw [show (s.process b p).exec e = _ from hx]
      exact ⟨hreg, nofun⟩
    · rw [show (s.process b p).exec e = _ from hx]
      exact ⟨hreg, nofun⟩
    · rw [show (s.process b p).exec e = _ from hx]
      refine ⟨hreg, fun r hr => ?_⟩
      obtain rfl := List.mem_singleton.1 hr
      refine ⟨hpeer, ⟨e₁.now, ?_⟩, pad, hpad, rfl⟩
      refine List.mem_append_right _ (List.mem_append_right _ ?_)
      rw [if_pos hok]
      exact List.mem_singleton_self _
    · rw [show (s.process b p).exec e = _ from hx]
      exact ⟨hreg, nofun⟩

theorem Took.of_client {x' : Exchange τ} (hx : x.Took) (htaken : x'.taken = x.taken)
    (hclient : x'.client.state = x.client.state) (hanswers : ∀ r ∈ x.answers, r ∈ x'.answers) :
    x'.Took := by
  unfold Took at hx ⊢
  rw [htaken, hclient]
  cases ht : x.taken with
  | none =>
    rw [ht] at hx
    exact hx
  | some n =>
    rw [ht] at hx
    obtain ⟨hphase, r, hr, hrest⟩ := hx
    exact ⟨hphase, r, hanswers r hr, hrest⟩

theorem Sound.propose (hx : x.Sound cfg p past) (s : Server (SessionStore × τ))
    (credentials : Credentials) (key : Option SessionKey) :
    (next s p (.propose credentials key) x).Sound cfg p past := by
  have hprop := Client.proposal_propose credentials key x.client
  simp only [next]
  rcases hc : (Client.propose credentials key).exec x.client with ⟨err | b, client⟩
  · rw [hc] at hprop
    exact { hx with took := hx.took.of_client rfl hprop fun _ hr => hr }
  · rw [hc] at hprop
    obtain ⟨shared, under, key, salt, pad, hphase, -, -, -, rfl, hclient⟩ := hprop
    refine { hx with auths := fun b hb => ?_, took := ?_ }
    · rcases List.mem_append.1 hb with hb | hb
      · exact hx.auths b hb
      · rw [List.mem_singleton.1 hb]
        exact Auth.peek_wire _ shared under pad
    · have htook := hx.took
      unfold Took at htook ⊢
      dsimp only
      cases ht : x.taken with
      | none =>
        change client.state.phase = .keyExchanged
        rw [hclient]
        exact hphase
      | some n =>
        rw [ht, hphase] at htook
        cases htook.1

theorem Sound.arrive (info : ServerInfo) (hh : h.Apart) (hx : x.Sound cfg p past) (i : Nat) :
    (next (Server.keeping info h) p (.arrive i) x).Sound cfg p
      (past ++ facts (Server.keeping info h) p (.arrive i) x) := by
  simp only [next, facts]
  cases hi : x.auths[i]? with
  | none => simpa using hx
  | some b =>
    have hb := hx.auths b (List.mem_of_getElem? hi)
    obtain ⟨hnamed, hanswers⟩ := auth_arrives info hh hb hx.tracks hx.named
    refine {
      tracks := Server.tracks_process info hh hx.tracks b p
      named := hnamed
      auths := fun b' hb' => hx.auths b' (List.mem_of_mem_eraseIdx hb')
      answers := ?_
      took := hx.took.of_client rfl rfl fun _ hr => List.mem_append_left _ hr }
    intro r hr
    rcases List.mem_append.1 hr with hr | hr
    · exact (hx.answers r hr).mono _
    · exact hanswers r hr

theorem Sound.take (hx : x.Sound cfg p past) (s : Server (SessionStore × τ)) (i : Nat) :
    (next s p (.take i) x).Sound cfg p past := by
  simp only [next]
  cases hi : x.answers[i]? with
  | none => exact hx
  | some r =>
    have hr := List.mem_of_getElem? hi
    dsimp only
    rcases Client.exec_takeHtua_cases r.htua x.client with
      ⟨key, header, y, pad, -, hkey, hpad, hwire, -, -, hc⟩ | ⟨err, hc⟩
    · rw [hc]
      refine { hx with took := ⟨rfl, r, hr, rfl, key, header, y, hkey, rfl, ?_⟩ }
      exact Htua.decode_eq_ok_iff.2 ⟨pad, hpad, hwire⟩
    · rw [hc]
      exact { hx with }

theorem Sound.step (hh : h.Apart) (hx : x.Sound cfg p past) (i : Input) :
    (next (Server.keeping info h) p i x).Sound cfg p
      (past ++ facts (Server.keeping info h) p i x) := by
  cases i with
  | propose credentials key =>
    rw [show facts _ p (.propose credentials key) x = [] from rfl, List.append_nil]
    exact hx.propose (Server.keeping info h) credentials key
  | arrive i => exact hx.arrive info hh i
  | copy i =>
    simp only [next, facts, List.append_nil]
    refine { hx with auths := fun b hb => ?_ }
    rcases List.mem_append.1 hb with hb | hb
    · exact hx.auths b hb
    · exact hx.auths b (List.mem_of_getElem? (Option.mem_toList.1 hb))
  | lose i =>
    simp only [next, facts, List.append_nil]
    exact { hx with auths := fun b hb => hx.auths b (List.mem_of_mem_eraseIdx hb) }
  | take i =>
    rw [show facts _ p (.take i) x = [] from rfl, List.append_nil]
    exact hx.take (Server.keeping info h) i
  | wait d =>
    simp only [next, facts, List.append_nil]
    exact { hx with }

/-- A client that is to make its first proposal, and a server that has no session for it. -/
structure Begins (x : Exchange τ) (cfg : SecurityConfig) (p : SocketAddress) (past : List Fact) :
    Prop where
  tracks : x.server.store.state.Tracks cfg past
  unknown : account p past = none
  phase : x.client.state.phase = .keyExchanged
  auths : x.auths = []
  answers : x.answers = []
  taken : x.taken = none

theorem Begins.sound (hx : x.Begins cfg p past) : x.Sound cfg p past where
  tracks := hx.tracks
  named a ha := by
    rw [hx.unknown] at ha
    cases ha
  auths b hb := by
    rw [hx.auths] at hb
    cases hb
  answers r hr := by
    rw [hx.answers] at hr
    cases hr
  took := by
    unfold Took
    rw [hx.taken]
    exact hx.phase

theorem Begins.sound_after (hh : h.Apart) (hx : x.Begins cfg p past) (inputs : List Input) :
    let m := recorder (Server.keeping info h) p
    (m.after x inputs).Sound cfg p (past ++ m.record x inputs) :=
  (recorder (Server.keeping info h) p).keeps (P := fun x l => x.Sound cfg p l)
    (fun _ _ i hs => hs.step hh i) hx.sound inputs

theorem Answers.decode {r : Confirmation} (hr : Answers p past r) :
    Htua.decode r.htua r.session.key = .ok ⟨r.session.peerSalt, ⟨r.session.ownSalt⟩⟩ := by
  obtain ⟨-, -, pad, hpad, hw⟩ := hr
  exact Htua.decode_eq_ok_iff.2 ⟨pad, hpad, hw⟩

theorem Sound.agree (hx : x.Sound cfg p past) (hc : x.Confirmed p past) : x.Agree p := by
  obtain ⟨a, ha, htaken, hkey⟩ := hc
  obtain ⟨d, hd, hf⟩ := hx.tracks.of_account ha
  have htook := hx.took
  unfold Took at htook
  rw [htaken] at htook
  obtain ⟨-, r, hr, hn, key, header, y, hkey', hy, hdecode⟩ := htook
  obtain rfl := Option.some.inj (hkey.symm.trans hkey')
  have hsame := (hx.answers r hr).decode
  rw [hn, hdecode] at hsame
  obtain rfl : y = a.latest.ownSalt :=
    congrArg (·.packet.salt) (Except.ok.inj hsame)
  exact ⟨d, _, _, hd, hkey, hf.key, hy, (hx.named a ha).2⟩

/-- What client and server agree on is what the client took, unless keys or salts collide. -/
theorem Sound.confirmed (hx : x.Sound cfg p past) (hphase : x.client.state.phase = .authenticated)
    (hnodup : (issuedSalts past).Nodup) (happart : x.ToldApart) (hagree : x.Agree p) :
    x.Confirmed p past := by
  obtain ⟨d, key, y, hd, hkey, hdkey, hy, hsalt⟩ := hagree
  obtain ⟨a, ha, hf⟩ := hx.tracks.of_session hd
  obtain ⟨d', hd', hmem⟩ := hx.tracks.coherent y p hsalt
  obtain rfl := Option.some.inj (hd.symm.trans hd')
  obtain rfl : y = a.latest.ownSalt := by
    rw [hf.issued, (hx.named a ha).1] at hmem
    exact List.mem_singleton.1 hmem
  have htook := hx.took
  unfold Took at htook
  cases htaken : x.taken with
  | none =>
    rw [htaken, hphase] at htook
    cases htook
  | some n =>
    rw [htaken] at htook
    obtain ⟨-, r, hr, rfl, key', header, y', hkey', hy', hdecode⟩ := htook
    obtain rfl := Option.some.inj (hkey.symm.trans hkey')
    obtain rfl := Option.some.inj (hy.symm.trans hy')
    -- the answer was sealed with the client's key, so it brings the salt of its session
    have hrkey : r.session.key = d.key := by
      rw [hdkey]
      exact happart r hr key hkey (by rw [hdecode]; rfl)
    have hsame := (hx.answers r hr).decode
    rw [hrkey, hdkey, hdecode] at hsame
    have hown : a.latest.ownSalt = r.session.ownSalt :=
      congrArg (·.packet.salt) (Except.ok.inj hsame)
    obtain ⟨-, ⟨now, hreg⟩, -⟩ := hx.answers r hr
    obtain ⟨h₁, now', h₂, hpast, -⟩ := exists_latest_of_account ha
    have hlatest : Fact.registered a.latest now' ∈ past := by simp [hpast]
    have heq := eq_of_salt? hnodup hlatest hreg rfl (by rw [hown]; rfl)
    obtain ⟨hn, -⟩ := Fact.registered.inj heq
    exact ⟨a, ha, by rw [htaken, hn], by rw [hkey, ← hdkey, hf.key]⟩

theorem Agree.accepts (hagree : x.Agree p) (hphase : x.client.state.phase = .authenticated) :
    x.Accepts (Server.keeping info h) p := by
  intro payload d hlen hbudget hd hlive
  obtain ⟨d', key, y, hd', hkey, hdkey, hy, hsalt⟩ := hagree
  obtain rfl := Option.some.inj (hd.symm.trans hd')
  have hin : x.client.state.phase ∈ [Phase.authenticated, .streaming] := by rw [hphase]; decide
  rcases Client.exec_sealData_cases payload x.client with
    ⟨key', under, salt, pad, _, _, -, hkey', hy', -, -, hpad, -, hc⟩ | ⟨err, _, -, hn⟩
  · obtain rfl := Option.some.inj (hkey.symm.trans hkey')
    obtain rfl := Option.some.inj (hy.symm.trans hy')
    refine ⟨_, _, salt, hc, rfl, fun hfresh => ?_⟩
    subst hdkey
    exact (Server.process_of_live info h hd hsalt hlive hfresh hlen hpad).1
  · rcases hn hbudget hlen hin with hk | hs
    · rw [hkey] at hk
      cases hk
    · rw [hy] at hs
      cases hs

/-- Client and server agree, and the client's next packet is delivered, if the Htua that the client
took confirms the session registered last; and they agree in no other case. -/
theorem agreement (info : ServerInfo) (hh : h.Apart) (hx : x.Begins cfg p past)
    (inputs : List Input) :
    let s := Server.keeping info h
    let m := recorder s p
    let x' := m.after x inputs
    let facts := past ++ m.record x inputs
    x'.client.state.phase = .authenticated →
      (x'.Confirmed p facts → x'.Agree p ∧ x'.Accepts s p) ∧
      ((issuedSalts facts).Nodup → x'.ToldApart → x'.Agree p → x'.Confirmed p facts) := by
  intro s m x' facts hphase
  have hs : x'.Sound cfg p facts := hx.sound_after hh inputs
  refine ⟨fun hc => ?_, fun hnodup happart hagree => hs.confirmed hphase hnodup happart hagree⟩
  have hagree := hs.agree hc
  exact ⟨hagree, hagree.accepts hphase⟩

end Exchange

section
open Sample SessionStore Exchange

/-- A client that proposes once, whose Auth and Htua arrive. -/
theorem agreement_on_one_proposal :
    let x : Exchange Unit :=
      { client := Sample.client ((salt 1).bytes ++ (Sample.pad ++ []))
        server := Sample.server ((salt 2).bytes ++ (Sample.pad ++ [])) }
    let inputs := [Input.propose {} (some key), .arrive 0, .take 0]
    let x' := (recorder (Server.keeping info hooks) peer).after x inputs
    let facts := [] ++ (recorder (Server.keeping info hooks) peer).record x inputs
    x.Begins config peer [] ∧ x'.client.state.phase = .authenticated ∧
      (x'.Agree peer ∧ x'.Accepts (Server.keeping info hooks) peer) ∧
      (issuedSalts facts).Nodup ∧ x'.ToldApart ∧ x'.Confirmed peer facts := by
  intro x inputs
  let x₁ : Exchange Unit := { x with
    client := left { x.client with state := x.client.state.proposed key (salt 1) } []
    auths := [request (salt 1) key] }
  have h₁ : (recorder (Server.keeping info hooks) peer).next (.propose {} (some key)) x = x₁ :=
    next_propose (exec_clientPropose (salt 1) key [] rfl rfl rfl rfl rfl)
  let n := requested (salt 1) (salt 2) key
  let r : Confirmation := ⟨n, (Htua.mk (salt 2)).wire key (salt 1) Sample.pad⟩
  let x₂ : Exchange Unit :=
    { x₁ with auths := [], server := registered x₁.server n [], answers := [r] }
  have hn := exec_propose (salt 1) (salt 2) key [] (show x₁.server.entropy = _ from rfl)
  have h₂ : (recorder (Server.keeping info hooks) peer).next (.arrive 0) x₁ = x₂ :=
    next_arrive rfl hn (exec_process (salt 1) (salt 2) key [] rfl (by decide +kernel))
  let x₃ : Exchange Unit := { x₂ with
    client := { x₂.client with state := x₂.client.state.accepted .authenticated (salt 2) }
    taken := some n }
  have htake : (Client.takeHtua ((Htua.mk (salt 2)).wire key (salt 1) Sample.pad)).exec
      x₂.client = (.ok (), x₃.client) :=
    Client.exec_takeHtua_wire rfl rfl rfl (by decide +kernel) (by decide +kernel)
  have h₃ : (recorder (Server.keeping info hooks) peer).next (.take 0) x₂ = x₃ :=
    next_take (r := r) rfl htake
  have hx' : (recorder (Server.keeping info hooks) peer).after x inputs = x₃ := by
    rw [Recorder.after_cons, h₁, Recorder.after_cons, h₂, Recorder.after_cons, h₃,
      Recorder.after_nil]
  have hregistered : (Server.keeping info hooks).facts (request (salt 1) key) peer x₁.server =
      [.registered n 0] := by
    rw [Server.facts_of_propose (peek_request _ _) hn]
    decide +kernel
  have hfacts : [] ++ (recorder (Server.keeping info hooks) peer).record x inputs =
      [.registered n 0] := by
    rw [Recorder.record_cons, h₁, Recorder.record_cons, h₂, Recorder.record_cons, h₃,
      facts_arrive rfl, hregistered]
    rfl
  have hbegins : x.Begins config peer [] := ⟨tracks_ofConfig config, rfl, rfl, rfl, rfl, rfl⟩
  have hall := agreement info apart_hooks hbegins inputs
  dsimp only at hall ⊢
  rw [hfacts, hx'] at hall ⊢
  have hconfirmed : x₃.Confirmed peer [.registered n 0] :=
    ⟨⟨n, [salt 1], [salt 2], 0⟩, rfl, rfl, rfl⟩
  have hapart : x₃.ToldApart := by
    intro q hq k hk _
    rw [List.mem_singleton.1 hq]
    exact Option.some.inj hk
  obtain ⟨hagree, hexact⟩ := hall rfl
  have hboth := hagree hconfirmed
  exact ⟨hbegins, rfl, hboth, by decide, hapart, hexact (by decide) hapart hboth.1⟩

/-- An older proposal that arrives after the newest one takes its place, while the client goes on
with the Htua of the newest: client and server are left with different keys. -/
theorem agreement_fails_after_reordering :
    let s := Server.keeping info hooks
    let x : Exchange Unit :=
      { client := Sample.client
          ((salt 1).bytes ++ (Sample.pad ++ ((salt 2).bytes ++ (Sample.pad ++ []))))
        server := Sample.server
          ((salt 3).bytes ++ (Sample.pad ++ ((salt 4).bytes ++ (Sample.pad ++ [])))) }
    let x' := (recorder s peer).after x
      [.propose {} (some key), .propose {} (some otherKey), .arrive 1, .arrive 0, .take 0]
    x.Begins config peer [] ∧ x'.client.state.phase = .authenticated ∧ x'.auths = [] ∧
      ¬ x'.Agree peer := by
  intro s x x'
  let x₁ : Exchange Unit := { x with
    client := left { x.client with state := x.client.state.proposed key (salt 1) }
      ((salt 2).bytes ++ (Sample.pad ++ []))
    auths := [request (salt 1) key] }
  have h₁ : (recorder s peer).next (.propose {} (some key)) x = x₁ :=
    next_propose (exec_clientPropose (salt 1) key _ rfl rfl rfl rfl rfl)
  let x₂ : Exchange Unit := { x₁ with
    client := left { x₁.client with state := x₁.client.state.proposed otherKey (salt 2) } []
    auths := [request (salt 1) key, request (salt 2) otherKey] }
  have h₂ : (recorder s peer).next (.propose {} (some otherKey)) x₁ = x₂ :=
    next_propose (exec_clientPropose (salt 2) otherKey [] rfl rfl rfl rfl rfl)
  let n₂ := requested (salt 2) (salt 3) otherKey
  let r₂ : Confirmation := ⟨n₂, (Htua.mk (salt 3)).wire otherKey (salt 2) Sample.pad⟩
  let x₃ : Exchange Unit := { x₂ with
    auths := [request (salt 1) key]
    server := registered x₂.server n₂ ((salt 4).bytes ++ (Sample.pad ++ []))
    answers := [r₂] }
  have h₃ : (recorder s peer).next (.arrive 1) x₂ = x₃ :=
    next_arrive rfl (exec_propose (salt 2) (salt 3) otherKey _ rfl)
      (exec_process (salt 2) (salt 3) otherKey _ rfl (by decide +kernel))
  let n₁ := requested (salt 1) (salt 4) key
  let r₁ : Confirmation := ⟨n₁, (Htua.mk (salt 4)).wire key (salt 1) Sample.pad⟩
  let x₄ : Exchange Unit := { x₃ with
    auths := [], server := registered x₃.server n₁ [], answers := [r₂, r₁] }
  have h₄ : (recorder s peer).next (.arrive 0) x₃ = x₄ :=
    next_arrive rfl (exec_propose (salt 1) (salt 4) key [] rfl)
      (exec_process (salt 1) (salt 4) key [] rfl (by decide +kernel))
  let x₅ : Exchange Unit := { x₄ with
    client := { x₄.client with state := x₄.client.state.accepted .authenticated (salt 3) }
    taken := some n₂ }
  have htake : (Client.takeHtua ((Htua.mk (salt 3)).wire otherKey (salt 2) Sample.pad)).exec
      x₄.client = (.ok (), x₅.client) :=
    Client.exec_takeHtua_wire rfl rfl rfl (by decide +kernel) (by decide +kernel)
  have h₅ : (recorder s peer).next (.take 0) x₄ = x₅ := next_take (r := r₂) rfl htake
  have hx' : x' = x₅ := by
    change (recorder s peer).after x _ = x₅
    rw [Recorder.after_cons, h₁, Recorder.after_cons, h₂, Recorder.after_cons, h₃,
      Recorder.after_cons, h₄, Recorder.after_cons, h₅, Recorder.after_nil]
  rw [hx']
  refine ⟨⟨tracks_ofConfig config, rfl, rfl, rfl, rfl, rfl⟩, rfl, rfl, ?_⟩
  rintro ⟨d, k, y, hd, hk, hdk, -, -⟩
  have hkey : (x₅.server.store.state.sessions.get? peer).map (·.key) = some key := by
    decide +kernel
  rw [hd] at hkey
  have hdkey : d.key = key := Option.some.inj hkey
  have hother : otherKey = k := Option.some.inj hk
  exact absurd (hother.trans (hdk.symm.trans hdkey)) (by decide)

end

end SealedDatagram
