import SealedDatagram.Proofs.Packet.Encode
import SealedDatagram.Proofs.SessionStore.History
/-!
Runs of a session table: any calls with any arguments, one after the other, with time passing in
between. Every call is one step, so a run is also what any number of workers do to a table they
share. What a run brings about is read off the answers of its calls, and a session is lost where a
call asks for that or the clock says that it has expired.
-/

namespace SealedDatagram

namespace SessionStore

def Registration.outcome : Registration → Except Error Bool
  | .accepted => .ok true
  | .replayed | .full => .ok false
  | .outOfMemory => .error .outOfMemory

namespace Registration

variable {r : Registration}

theorem outcome_eq_ok_true_iff : r.outcome = .ok true ↔ r = .accepted := by
  cases r <;> simp [outcome]

theorem outcome_eq_error_iff : r.outcome = .error .outOfMemory ↔ r = .outOfMemory := by
  cases r <;> simp [outcome]

theorem outcome_eq_ok (hr : r ≠ .outOfMemory) : r.outcome = .ok (decide (r = .accepted)) := by
  cases r with
  | outOfMemory => exact absurd rfl hr
  | accepted | replayed | full => rfl

end Registration

theorem exec_registerStep (n : NewSession) (e : Env SessionStore) :
    let r := e.state.register e.memory e.now n
    ∃ metrics, (registerStep n).exec e =
      (r.1.outcome, { e with
        state := r.2, metrics, halted := e.halted || decide (r.1 = .outOfMemory) }) := by
  intro r
  have hmemory : (getMemory : Attempt SessionStore Memory).exec e = (.ok e.memory, e) := rfl
  have hnow : (getNow : Attempt SessionStore Nat).exec e = (.ok e.now, e) := rfl
  have hstate : (setState r.2 : Attempt SessionStore Unit).exec e =
      (.ok (), { e with state := r.2 }) := rfl
  unfold registerStep
  simp only [Fallible.exec_bind, Fallible.exec_getState, hmemory, hnow, hstate, r]
  cases (e.state.register e.memory e.now n).1 with
  | accepted | full =>
    simp only [reduceCtorEq, decide_false, Bool.or_false]
    exact ⟨e.metrics, rfl⟩
  | replayed =>
    simp only [reduceCtorEq, decide_false, Bool.or_false]
    exact ⟨e.metrics.replayRejected, rfl⟩
  | outOfMemory => exact ⟨e.metrics, rfl⟩

theorem registerStep_eq_ok_true_iff {n : NewSession} {e : Env SessionStore} :
    ((registerStep n).exec e).1 = .ok true ↔
      (e.state.register e.memory e.now n).1 = .accepted := by
  obtain ⟨metrics, heq⟩ := exec_registerStep n e
  rw [heq]
  exact Registration.outcome_eq_ok_true_iff

theorem lookupStep_eq (p : SocketAddress) (x : Salt) (e : Env SessionStore) :
    lookupStep p x e =
      ((e.state.lookup e.now p x).1, { e with state := (e.state.lookup e.now p x).2 }) := rfl

theorem updateStep_eq (p : SocketAddress) (x : Salt) (e : Env SessionStore) :
    ∃ metrics, updateStep p x e =
      (decide ((e.state.update e.now p x).1 = .accepted),
        { e with state := (e.state.update e.now p x).2, metrics }) := by
  unfold updateStep
  simp only [Action.bind_apply]
  split
  · exact ⟨_, rfl⟩
  · exact ⟨_, rfl⟩

variable [CipherSuite]

theorem exec_sealData_cases (p : SocketAddress) (payload : Bytes) (e : Env SessionStore) :
    (∃ x entropy d pad entropy', drawSalt.exec e = (.ok x, { e with entropy }) ∧
      e.state.sessions.get? p = some d ∧ payload.length ≤ Data.maxPayload ∧
      pad.length = Sealed.padSize ∧ entropy.draw? Sealed.padSize = some (pad, entropy') ∧
      (sealData p payload).exec e = (.ok ((Data.mk x payload).wire d.key d.peerSalt pad),
        { e with state := e.state.issue p x, entropy := entropy' })) ∨
    (∃ err entropy, (sealData p payload).exec e = (.error err, { e with entropy }) ∧
      (e.entropy.budget = none → payload.length ≤ Data.maxPayload →
        e.state.sessions.get? p = none)) := by
  unfold sealData
  rw [Fallible.exec_bind]
  rcases exec_drawSalt_cases e with ⟨x, entropy, hd, hx⟩ | ⟨hd, hx⟩
  · rw [hx]
    dsimp only
    rw [Fallible.exec_bind, Fallible.exec_getState]
    dsimp only
    cases he : e.state.sessions.get? p with
    | none => exact .inr ⟨_, entropy, rfl, fun _ _ => rfl⟩
    | some d =>
      dsimp only
      rw [Fallible.exec_bind]
      by_cases hlen : payload.length ≤ Data.maxPayload
      · rcases Data.exec_encode_cases (p := ⟨x, payload⟩) hlen d.key d.peerSalt
          { e with entropy } with ⟨pad, entropy', hp, hdp, hw⟩ | ⟨hdp, hw⟩
        · rw [hw]
          exact .inl ⟨x, entropy, d, pad, entropy', rfl, rfl, hlen, hp, hdp, rfl⟩
        · rw [hw]
          exact .inr ⟨_, entropy, rfl, fun hb _ => absurd
            (Entropy.budget_eq_none_of_draw? hd hb) (Entropy.budget_ne_none_of_draw? hdp)⟩
      · rw [Data.exec_encode_of_oversized (p := ⟨x, payload⟩) (Nat.lt_of_not_le hlen)]
        exact .inr ⟨_, entropy, rfl, fun _ hl => absurd hl hlen⟩
  · rw [hx]
    exact .inr ⟨_, e.entropy, rfl, fun hb _ => absurd hb (Entropy.budget_ne_none_of_draw? hd)⟩

theorem exec_sealData {p : SocketAddress} {payload pad : Bytes} {e : Env SessionStore} {d : Session}
    {x : Salt} {entropy entropy' : Entropy} (he : e.state.sessions.get? p = some d)
    (hlen : payload.length ≤ Data.maxPayload)
    (hd : e.entropy.draw? Salt.size = some (x.bytes, entropy))
    (hdp : entropy.draw? Sealed.padSize = some (pad, entropy')) (hb : e.entropy.budget = none) :
    (sealData p payload).exec e = (.ok ((Data.mk x payload).wire d.key d.peerSalt pad),
      { e with state := e.state.issue p x, entropy := entropy' }) := by
  rcases exec_sealData_cases p payload e with
    ⟨y, ent, d', pad', ent', hdraw, he', -, -, hdp', heq⟩ | ⟨err, _, -, hn⟩
  · obtain rfl := Option.some.inj (he.symm.trans he')
    rw [exec_drawSalt hd] at hdraw
    cases hdraw
    rw [hdp] at hdp'
    cases hdp'
    exact heq
  · rw [he] at hn
    cases hn hb hlen

/-- A call of a session table, or time that passes. -/
inductive Call where
  | register (n : NewSession)
  | lookup (peer : SocketAddress) (header : Salt)
  | update (peer : SocketAddress) (next : Salt)
  | sealData (peer : SocketAddress) (payload : Bytes)
  | remove (peer : SocketAddress)
  | clear
  | purge
  | advance (d : Duration)

namespace Call

def next : Call → Env SessionStore → Env SessionStore
  | register n, e => ((registerStep n).exec e).2
  | lookup p x, e => (lookupStep p x e).2
  | update p x, e => (updateStep p x e).2
  | sealData p payload, e => ((SessionStore.sealData p payload).exec e).2
  | remove p, e => { e with state := (e.state.remove p).2 }
  | clear, e => { e with state := e.state.clear }
  | purge, e => { e with state := (e.state.purge e.now).2 }
  | advance d, e => e.advance d

/-- What a call brings about. A session is dropped on demand, and where it has expired: registering
and purging look at every session, a look-up at the one that its salt names. -/
def facts (c : Call) (e : Env SessionStore) : List Fact :=
  match c with
  | register n =>
    (e.state.expiredPeers e.now).map (.dropped · (.expired e.now)) ++
      if ((registerStep n).exec e).1 = .ok true then [.registered n e.now] else []
  | lookup p x =>
    match lookupStep p x e with
    | (some _, _) => [.found p e.now]
    | (none, _) =>
      if e.state.bySalt.get? x = some p ∧ p ∈ e.state.expiredPeers e.now then
        [.dropped p (.expired e.now)]
      else []
  | update p x => if (updateStep p x e).1 then [.rolled p x e.now] else []
  | sealData p payload =>
    match (SessionStore.sealData p payload).exec e, drawSalt.exec e with
    | (.ok _, _), (.ok x, _) => [.issued p x]
    | _, _ => []
  | remove p => if e.state.contains p then [.dropped p .removed] else []
  | clear => e.state.peers.map (.dropped · .cleared)
  | purge => (e.state.expiredPeers e.now).map (.dropped · (.expired e.now))
  | advance _ => []

/-- The calls that may drop the session of a peer for a cause. -/
def Drops (p : SocketAddress) : Call → Cause → Prop
  | remove q, .removed => q = p
  | clear, .cleared => True
  | register _, .expired _ | purge, .expired _ => True
  | lookup q _, .expired _ => q = p
  | _, _ => False

end Call

variable {e : Env SessionStore} {cfg : SecurityConfig} {h : List Fact}

theorem Tracks.step (hs : e.state.Tracks cfg h) (c : Call) :
    (c.next e).state.Tracks cfg (h ++ c.facts e) := by
  cases c with
  | register n =>
    obtain ⟨metrics, heq⟩ := exec_registerStep n e
    simp only [Call.next, Call.facts, registerStep_eq_ok_true_iff]
    rw [heq]
    by_cases hr : (e.state.register e.memory e.now n).1 = .accepted
    · rw [if_pos hr, ← List.append_assoc]
      exact hs.register hr
    · rw [if_neg hr, List.append_nil]
      dsimp only
      rw [register_of_refused hr]
      exact hs.sweep e.now
  | lookup p x =>
    simp only [Call.next, Call.facts]
    rw [lookupStep_eq]
    rcases lookup_cases e.state e.now p x with ⟨d, -, hd, -, ht⟩ | ⟨d, hx, hd, hold, ht⟩ | ⟨hn, ht⟩
    · rw [ht]
      exact hs.found hd
    · rw [ht]
      dsimp only
      rw [if_pos ⟨hx, mem_expiredPeers.2 ⟨d, hd, hold⟩⟩]
      refine hs.forget fun now hnow => ?_
      obtain rfl := Cause.expired.inj hnow
      exact ⟨d, hd, hold⟩
    · rw [ht]
      dsimp only
      rw [if_neg, List.append_nil]
      · exact hs
      · rintro ⟨hx, hp⟩
        obtain ⟨d, hd, -⟩ := mem_expiredPeers.1 hp
        rw [hn hx] at hd
        cases hd
  | update p x =>
    obtain ⟨metrics, heq⟩ := updateStep_eq p x e
    simp only [Call.next, Call.facts, heq]
    rcases update_cases e.state e.now p x with ⟨-, ht⟩ | ⟨d, -, -, ht⟩ | ⟨d, hd, hx, ht⟩
    · rw [ht]
      simpa using hs
    · rw [ht]
      simpa using hs
    · rw [ht]
      exact hs.rolled hd hx
  | sealData p payload =>
    simp only [Call.next, Call.facts]
    rcases exec_sealData_cases p payload e with
      ⟨x, entropy, d, pad, entropy', hx, hd, -, -, -, heq⟩ | ⟨err, entropy, heq, -⟩
    · rw [heq, hx]
      exact hs.issue hd
    · rw [heq]
      simpa using hs
  | remove p =>
    simp only [Call.facts]
    split
    · refine hs.forget fun now hnow => ?_
      cases hnow
    · rename_i hp
      rw [List.append_nil]
      change (e.state.forget p).Tracks cfg h
      rwa [forget_of_not_contains (Bool.not_eq_true _ ▸ hp)]
  | clear => exact hs.clear
  | purge => exact hs.sweep e.now
  | advance d =>
    simp only [Call.facts, Call.next, Env.advance, Env.haltUnless]
    simpa using hs

theorem registered_mem_facts {n : NewSession}
    (hr : (e.state.register e.memory e.now n).1 = .accepted) :
    .registered n e.now ∈ (Call.register n).facts e := by
  simp only [Call.facts, if_pos (registerStep_eq_ok_true_iff.2 hr)]
  exact List.mem_append_right _ (List.mem_singleton_self _)

theorem registered_of_facts {c : Call} {u v : List Fact} {n : NewSession} {now : Nat}
    (h : c.facts e = u ++ .registered n now :: v) :
    c = .register n ∧ ((registerStep n).exec e).1 = .ok true ∧ now = e.now ∧ v = [] := by
  have hmem : Fact.registered n now ∈ c.facts e := by simp [h]
  have hdrops : ∀ (l : List SocketAddress) cause,
      Fact.registered n now ∉ l.map (.dropped · cause) := by simp
  cases c with
  | register m =>
    simp only [Call.facts] at h
    by_cases hr : ((registerStep m).exec e).1 = .ok true
    case neg =>
      simp only [Call.facts, if_neg hr, List.append_nil] at hmem
      exact absurd hmem (hdrops _ _)
    case pos =>
      rw [if_pos hr] at h
      rcases List.eq_nil_or_concat v with rfl | ⟨v', g, rfl⟩
      · obtain ⟨-, hf⟩ := List.append_inj' h rfl
        obtain ⟨rfl, rfl⟩ := Fact.registered.inj (List.singleton_inj.1 hf)
        exact ⟨rfl, hr, rfl, rfl⟩
      · rw [List.concat_eq_append, ← List.cons_append, ← List.append_assoc] at h
        obtain ⟨hd, -⟩ := List.append_inj' h rfl
        exact absurd (hd ▸ List.mem_append_right u List.mem_cons_self) (hdrops _ _)
  | lookup p x =>
    simp only [Call.facts] at hmem
    repeat' split at hmem
    all_goals simp at hmem
  | update p x =>
    simp only [Call.facts] at hmem
    split at hmem <;> simp at hmem
  | sealData p payload =>
    simp only [Call.facts] at hmem
    split at hmem <;> simp at hmem
  | remove p =>
    simp only [Call.facts] at hmem
    split at hmem <;> simp at hmem
  | clear | purge => exact absurd hmem (hdrops _ _)
  | advance d => cases hmem

theorem rolled_of_facts {c : Call} {p : SocketAddress} {x : Salt} {now : Nat}
    (h : .rolled p x now ∈ c.facts e) : c = .update p x := by
  cases c with
  | update q y =>
    simp only [Call.facts] at h
    split at h
    · obtain ⟨rfl, rfl, -⟩ := Fact.rolled.inj (List.mem_singleton.1 h)
      rfl
    · cases h
  | register n =>
    simp only [Call.facts] at h
    split at h <;> simp at h
  | lookup q y =>
    simp only [Call.facts] at h
    repeat' split at h
    all_goals simp at h
  | sealData q payload =>
    simp only [Call.facts] at h
    split at h <;> simp at h
  | remove q =>
    simp only [Call.facts] at h
    split at h <;> simp at h
  | clear | purge | advance => simp [Call.facts] at h

theorem drops_of_facts {c : Call} {p : SocketAddress} {cause : Cause}
    (h : .dropped p cause ∈ c.facts e) :
    c.Drops p cause ∧ e.state.contains p = true ∧ ∀ now, cause = .expired now → now = e.now := by
  have hexpired : Fact.dropped p cause ∈
      (e.state.expiredPeers e.now).map (.dropped · (.expired e.now)) →
      cause = .expired e.now ∧ e.state.contains p = true := by
    intro hm
    obtain ⟨q, hq, hf⟩ := List.mem_map.1 hm
    obtain ⟨rfl, rfl⟩ := Fact.dropped.inj hf
    obtain ⟨d, hd, -⟩ := mem_expiredPeers.1 hq
    exact ⟨rfl, Option.isSome_iff_exists.2 ⟨d, hd⟩⟩
  cases c with
  | register n =>
    rcases List.mem_append.1 h with h | h
    · obtain ⟨rfl, hp⟩ := hexpired h
      exact ⟨trivial, hp, fun now hnow => (Cause.expired.inj hnow).symm⟩
    · split at h <;> simp at h
  | lookup q x =>
    simp only [Call.facts] at h
    split at h
    · simp at h
    · split at h
      · rename_i hq
        obtain ⟨rfl, rfl⟩ := Fact.dropped.inj (List.mem_singleton.1 h)
        obtain ⟨d, hd, -⟩ := mem_expiredPeers.1 hq.2
        exact ⟨rfl, Option.isSome_iff_exists.2 ⟨d, hd⟩,
          fun now hnow => (Cause.expired.inj hnow).symm⟩
      · cases h
  | update q x =>
    simp only [Call.facts] at h
    split at h <;> simp at h
  | sealData q payload =>
    simp only [Call.facts] at h
    split at h <;> simp at h
  | remove q =>
    simp only [Call.facts] at h
    split at h
    · rename_i hq
      obtain ⟨rfl, rfl⟩ := Fact.dropped.inj (List.mem_singleton.1 h)
      exact ⟨rfl, hq, fun now hnow => Cause.noConfusion hnow⟩
    · cases h
  | clear =>
    obtain ⟨q, hq, hf⟩ := List.mem_map.1 h
    obtain ⟨rfl, rfl⟩ := Fact.dropped.inj hf
    exact ⟨trivial, mem_peers.1 hq, fun now hnow => Cause.noConfusion hnow⟩
  | purge =>
    obtain ⟨rfl, hp⟩ := hexpired h
    exact ⟨trivial, hp, fun now hnow => (Cause.expired.inj hnow).symm⟩
  | advance d => cases h

def recorder : Recorder (Env SessionStore) Call Fact := ⟨Call.next, Call.facts⟩

theorem tracks_record (he : e.state = ofConfig cfg) (calls : List Call) :
    (recorder.after e calls).state.Tracks cfg (recorder.record e calls) :=
  recorder.keeps (P := fun e h => e.state.Tracks cfg h) (fun _ _ c hs => hs.step c) (h := [])
    (he ▸ tracks_ofConfig cfg) calls

end SessionStore

namespace Sample

def peer : SocketAddress := .v4 0x7f000001 4000

def salt (n : UInt8) : Salt := ⟨List.replicate 8 n, rfl⟩

def key : SessionKey := ⟨"sixteen letters!", by decide, by decide⟩

/-- A table with room for the replay of one salt once another was accepted. -/
def config : SecurityConfig := { replayWindow := 1 }

def publicKey : PublicKey := ⟨List.replicate 32 9, rfl⟩

def session (peerSalt ownSalt : Salt) : NewSession where
  peer := peer
  publicKey := publicKey
  key := key
  peerSalt := peerSalt
  ownSalt := ownSalt

end Sample

end SealedDatagram
