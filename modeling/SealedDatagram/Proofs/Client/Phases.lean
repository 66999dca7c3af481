import SealedDatagram.CipherSuite.Standard
import SealedDatagram.Proofs.Client.Run
import SealedDatagram.Proofs.Packet.Fault
import SealedDatagram.Proofs.Server.Answer
/-!
The phases of a client and what it knows in each of them. A session goes forward one phase at a
time; what a phase needs is there once it is reached, so that no step of a client ever fails for
want of a key or a salt.
-/

namespace SealedDatagram

namespace Client

open Fallible

/-- What a client knows in its phase, and what is on record of it. -/
structure Orderly (c : Client) (pin : Option PublicKey) (l : List Fact) : Prop where
  sharedKey : c.sharedKey.isSome ↔ c.phase ≠ .unauthenticated
  server : c.server.isSome ↔ c.phase ≠ .unauthenticated
  peerSalt : c.peerSalt.isSome ↔ c.phase ≠ .unauthenticated
  sessionKey : c.phase ∈ [Phase.authenticated, .streaming] → c.sessionKey.isSome
  issued : c.issued = (l.filterMap Fact.issued?).rtake issuedHistory
  pinned : c.pinned = pin
  same : ∀ k info, pin = some k → c.server = some info → k.same info.publicKey = true

theorem orderly_fresh (keyPair : KeyPair) (pin : Option PublicKey) (capacity : Nat) :
    (fresh keyPair pin capacity).Orderly pin [] where
  sharedKey := by simp [fresh]
  server := by simp [fresh]
  peerSalt := by simp [fresh]
  sessionKey := by simp [fresh]
  issued := rfl
  pinned := rfl
  same _ _ _ h := nomatch h

theorem ne_unauthenticated {c : Client} (h : c.phase ∈ [Phase.authenticated, .streaming]) :
    c.phase ≠ .unauthenticated := by
  intro hphase
  rw [hphase] at h
  exact absurd h (by decide)

section
variable [CipherSuite] {c : Client} {pin : Option PublicKey} {l : List Fact} {f : Fact}
  {e e' : Env Client} {err : Error}

theorem Fact.phase_next (hf : f.Fits c) :
    (f.next c).phase = c.phase ∨ (f.next c).phase.rank = c.phase.rank + 1 := by
  have hstream (hphase : c.phase ∈ [Phase.authenticated, .streaming]) :
      Phase.streaming = c.phase ∨ Phase.streaming.rank = c.phase.rank + 1 := by
    rcases List.mem_pair.1 hphase with h | h
    · right
      rw [h]
      rfl
    · exact .inl h.symm
  cases f with
  | exchanged info header =>
    right
    rw [hf.1]
    rfl
  | proposed key x => exact .inl rfl
  | confirmed header x =>
    right
    rw [hf.1]
    rfl
  | sent x => exact hstream hf
  | opened header x => exact hstream hf.1

omit [CipherSuite] in
/-- What was accepted brings a client on if it knew all that the exchange of keys gives. -/
theorem Orderly.accepted (hc : c.Orderly pin l) (hphase : c.phase ≠ .unauthenticated)
    (hk : c.sessionKey.isSome) {phase : Phase} (hnext : phase ≠ .unauthenticated) (x : Salt)
    (hissued : c.issued = ((l ++ [f]).filterMap Fact.issued?).rtake issuedHistory) :
    (c.accepted phase x).Orderly pin (l ++ [f]) where
  sharedKey := iff_of_true (hc.sharedKey.2 hphase) hnext
  server := iff_of_true (hc.server.2 hphase) hnext
  peerSalt := iff_of_true rfl hnext
  sessionKey _ := hk
  issued := hissued
  pinned := hc.pinned
  same := hc.same

theorem Orderly.next (hc : c.Orderly pin l) (hf : f.Fits c) :
    (f.next c).Orderly pin (l ++ [f]) := by
  have hissued : (f.next c).issued = ((l ++ [f]).filterMap Fact.issued?).rtake issuedHistory := by
    rw [List.filterMap_append]
    cases f with
    | proposed key x => exact issued_issue (c := { c with sessionKey := some key }) hc.issued x
    | sent x => exact issued_issue hc.issued x
    | exchanged | confirmed | opened =>
      change c.issued = (l.filterMap Fact.issued? ++ []).rtake issuedHistory
      rw [List.append_nil]
      exact hc.issued
  cases f with
  | exchanged info header =>
    have hphase : Phase.keyExchanged ≠ .unauthenticated := by decide
    refine ⟨iff_of_true rfl hphase, iff_of_true rfl hphase, iff_of_true rfl hphase, ?_, hissued,
      hc.pinned, ?_⟩
    · intro h
      exact absurd (show Phase.keyExchanged ∈ _ from h) (by decide)
    · intro k info' hk hinfo
      obtain rfl := Option.some.inj hinfo
      have hpin := hf.2
      unfold pinHolds at hpin
      rwa [hc.pinned, hk] at hpin
  | proposed key x =>
    exact ⟨hc.sharedKey, hc.server, hc.peerSalt, fun _ => rfl, hissued, hc.pinned, hc.same⟩
  | confirmed header x =>
    obtain ⟨hphase, hk, -, -⟩ := hf
    exact hc.accepted (by rw [hphase]; decide) hk (by decide) x hissued
  | sent x =>
    have hphase := ne_unauthenticated hf
    exact ⟨iff_of_true (hc.sharedKey.2 hphase) nofun, iff_of_true (hc.server.2 hphase) nofun,
      iff_of_true (hc.peerSalt.2 hphase) nofun, fun _ => hc.sessionKey hf, hissued, hc.pinned,
      hc.same⟩
  | opened header x =>
    exact hc.accepted (ne_unauthenticated hf.1) (hc.sessionKey hf.1) (by decide) x hissued

theorem not_ofSession_of_seal {t : SealedKind} {p : Salt → t.Packet} {key : SessionKey}
    {under : Salt} {left : Salt → Client → Client}
    (h : Fallible.exec (do
      let salt ← drawSalt
      let b ← t.encode (p salt) key under
      modifyState (left salt)
      return b) e = (.error err, e')) : ¬ err.OfSession := by
  rcases exec_bind_eq_error.1 h with hd | ⟨salt, e₁, -, h⟩
  · exact not_ofSession_of_drawSalt hd
  rcases exec_bind_eq_error.1 h with hw | ⟨b, e₂, -, h⟩
  · exact SealedKind.not_ofSession_of_encode hw
  · cases h

theorem not_ofSession_of_authWithKey {credentials : Credentials} {key : SessionKey}
    (hphase : e.state.phase = .keyExchanged) (hs : e.state.sharedKey.isSome)
    (hu : e.state.peerSalt.isSome)
    (h : (authWithKey credentials key).exec e = (.error err, e')) : ¬ err.OfSession := by
  obtain ⟨shared, hs⟩ := Option.isSome_iff_exists.1 hs
  obtain ⟨under, hu⟩ := Option.isSome_iff_exists.1 hu
  unfold authWithKey at h
  rw [exec_bind, exec_require, if_pos (List.mem_singleton.2 hphase)] at h
  dsimp only at h
  rw [exec_bind, exec_getState] at h
  dsimp only at h
  rw [hs, hu] at h
  dsimp only [sealing] at h
  rw [pure_bind] at h
  exact not_ofSession_of_seal (t := .auth) h

theorem not_ofSession_of_sealData {payload : Bytes}
    (hphase : e.state.phase ∈ [Phase.authenticated, .streaming]) (hk : e.state.sessionKey.isSome)
    (hu : e.state.peerSalt.isSome) (h : (sealData payload).exec e = (.error err, e')) :
    ¬ err.OfSession := by
  obtain ⟨key, hk⟩ := Option.isSome_iff_exists.1 hk
  obtain ⟨under, hu⟩ := Option.isSome_iff_exists.1 hu
  unfold sealData at h
  rw [exec_bind, exec_require, if_pos hphase] at h
  dsimp only at h
  rw [exec_bind, exec_getState] at h
  dsimp only at h
  rw [hk, hu] at h
  dsimp only [sealing] at h
  rw [pure_bind] at h
  exact not_ofSession_of_seal (t := .data) h

/-- A client that has a key refuses a packet for the state of the session only if its salts are
wrong. -/
theorem salt_of_openData {b : Bytes} {fault : SessionFault}
    (hphase : e.state.phase ∈ [Phase.authenticated, .streaming]) (hk : e.state.sessionKey.isSome)
    (h : (openData b).exec e = (.error (.session fault), e')) :
    fault = .unknownSalt ∨ fault = .replayedSalt := by
  obtain ⟨key, hk⟩ := Option.isSome_iff_exists.1 hk
  unfold openData at h
  rw [exec_bind, exec_require, if_pos hphase] at h
  dsimp only at h
  rw [exec_bind, exec_getState] at h
  dsimp only at h
  rw [hk] at h
  dsimp only at h
  rcases exec_bind_eq_error.1 h with hd | ⟨r, e₁, -, h⟩
  · obtain ⟨header, hkey⟩ := Data.ofSession_of_exec_decode hd ⟨fault, rfl⟩
    rw [exec_keyFor] at hkey
    split at hkey
    · cases hkey
    · cases hkey
      exact .inl rfl
  · cases ha : (e.state.window.accept r.packet.salt).1 with
    | false =>
      rw [ha] at h
      cases h
      exact .inr rfl
    | true =>
      rw [ha] at h
      cases h

/-- In every run a client goes forward one phase at a time, it knows what its phase needs, and it
never fails for want of that. -/
theorem orderly_after (keyPair : KeyPair) (pin : Option PublicKey) (capacity : Nat)
    (e : Env Client) (inputs : List Input) :
    let start := { e with state := fresh keyPair pin capacity }
    let x := recorder.after start inputs
    let l := recorder.record start inputs
    x.state.Orderly pin l ∧
    (∀ i, (next i x).state.phase = x.state.phase ∨
      (next i x).state.phase.rank = x.state.phase.rank + 1) ∧
    (∀ (r : Request) b, r ≠ .hello → (r.run.exec x).1 = .ok (.packet b) →
      ∃ y, (r.facts x).filterMap Fact.issued? = [y]) ∧
    (∀ credentials key, x.state.phase = .keyExchanged →
      ((authWithKey credentials key).exec x).1 ≠ .error (.session .wrongState)) ∧
    (∀ payload, ((sealData payload).exec x).1 ≠ .error (.session .emptySessionKey)) ∧
    ∀ b, ((openData b).exec x).1 ≠ .error (.session .emptySessionKey) := by
  intro start x l
  have horderly : x.state.Orderly pin l :=
    keeps (P := fun c l => c.Orderly pin l) (fun _ _ _ hc hf => hc.next hf)
      (orderly_fresh keyPair pin capacity) inputs
  refine ⟨horderly, ?_, fun r b hr hx => Request.issued_of_packet hr hx, ?_, ?_, ?_⟩
  · intro i
    cases i with
    | supply entropy => exact .inl rfl
    | request r =>
      change (r.run.exec x).2.state.phase = _ ∨ (r.run.exec x).2.state.phase.rank = _
      rcases r.facts_cases x with ⟨f, -, hfits, hstate⟩ | ⟨-, hstate, -⟩
      · rw [hstate]
        exact Fact.phase_next hfits
      · rw [hstate]
        exact .inl rfl
  · intro credentials key hphase hx
    have hknown : x.state.phase ≠ .unauthenticated := by rw [hphase]; decide
    exact not_ofSession_of_authWithKey hphase (horderly.sharedKey.2 hknown)
      (horderly.peerSalt.2 hknown) (Prod.ext hx rfl) ⟨_, rfl⟩
  · intro payload hx
    by_cases hphase : x.state.phase ∈ [Phase.authenticated, .streaming]
    · exact not_ofSession_of_sealData hphase (horderly.sessionKey hphase)
        (horderly.peerSalt.2 (ne_unauthenticated hphase)) (Prod.ext hx rfl) ⟨_, rfl⟩
    · rw [exec_sealData_of_early hphase] at hx
      cases hx
  · intro b hx
    by_cases hphase : x.state.phase ∈ [Phase.authenticated, .streaming]
    · rcases salt_of_openData hphase (horderly.sessionKey hphase) (Prod.ext hx rfl) with h | h <;>
        cases h
    · rw [exec_openData_of_early hphase] at hx
      cases hx

end

namespace Sample
open SealedDatagram.Sample

def idle (capacity : Nat) : Env Client :=
  { left (client []) ((salt 1).bytes ++ (SealedDatagram.Sample.pad ++ [])) with
    state := fresh (client []).state.keyPair (some info.publicKey) capacity }

theorem idle_fresh (capacity : Nat) : { idle capacity with
    state := fresh (client []).state.keyPair (some info.publicKey) capacity } = idle capacity := rfl

def proposal : List Input :=
  let shared := (client []).state.keyPair.sharedKey info.publicKey
  [.request (.takeOlleh ((Olleh.mk info).wire shared (salt 9) SealedDatagram.Sample.pad)),
    .request (.authWithKey {} key)]

def waiting (capacity : Nat) : Env Client :=
  let shared := (client []).state.keyPair.sharedKey info.publicKey
  { idle capacity with
    state := ((idle capacity).state.exchanged info shared (salt 9)).proposed key (salt 1)
    entropy := {} }

theorem run_proposal (capacity : Nat) (inputs : List Input) :
    recorder.record (idle capacity) (proposal ++ inputs) =
      .exchanged info (salt 9) :: .proposed key (salt 1) ::
        recorder.record (waiting capacity) inputs ∧
    recorder.after (idle capacity) (proposal ++ inputs) =
      recorder.after (waiting capacity) inputs := by
  let start := idle capacity
  let shared := start.state.keyPair.sharedKey info.publicKey
  let x₁ : Env Client := { start with state := start.state.exchanged info shared (salt 9) }
  let x₂ : Env Client := { x₁ with state := x₁.state.proposed key (salt 1), entropy := {} }
  have hpin : start.state.pinHolds info.publicKey = true := by
    simp only [start, idle, fresh, pinHolds, PublicKey.same, beq_self_eq_true]
  let olleh := (Olleh.mk info).wire shared (salt 9) SealedDatagram.Sample.pad
  have h₁ : (takeOlleh olleh).exec start = (.ok info, x₁) := exec_takeOlleh_wire rfl hpin rfl
  let auth := (Auth.mk publicKey (salt 1) {} key).wire shared (salt 9) SealedDatagram.Sample.pad
  have h₂ : (authWithKey {} key).exec x₁ = (.ok auth, x₂) :=
    exec_authWithKey rfl rfl rfl (by decide) (Entropy.draw?_append (salt 1).length_eq)
      (Entropy.draw?_append rfl) rfl
  have hrun₁ : (Request.takeOlleh olleh).run.exec start = (.ok (.server info), x₁) :=
    exec_reply h₁ .server
  have hrun₂ : (Request.authWithKey {} key).run.exec x₁ = (.ok (.packet auth), x₂) :=
    exec_reply h₂ .packet
  have hread₁ : Request.read (.takeOlleh olleh) x₁.state (.server info) =
      [.exchanged info (salt 9)] := taken_olleh_wire rfl rfl
  have hread₂ : Request.read (.authWithKey {} key) x₂.state (.packet auth) =
      [.proposed key (salt 1)] := made_auth rfl (by decide) rfl
  change recorder.record start (.request (.takeOlleh olleh) :: .request (.authWithKey {} key) ::
    inputs) = _ ∧ recorder.after start (.request (.takeOlleh olleh) ::
      .request (.authWithKey {} key) :: inputs) = _
  rw [Recorder.record_cons, facts_of_exec hrun₁, next_of_exec hrun₁, Recorder.record_cons,
    facts_of_exec hrun₂, next_of_exec hrun₂, hread₁, hread₂, Recorder.after_cons,
    next_of_exec hrun₁, Recorder.after_cons, next_of_exec hrun₂]
  exact ⟨rfl, rfl⟩

end Sample

section
open SealedDatagram.Sample

/-- A client that pins the server's key takes its Olleh and proposes a key. -/
theorem orderly_after_proposal :
    let x := recorder.after (Sample.idle 64) Sample.proposal
    let l := [Fact.exchanged info (salt 9), .proposed key (salt 1)]
    recorder.record (Sample.idle 64) Sample.proposal = l ∧ x.state.Orderly (some info.publicKey) l ∧
      x.state.phase = .keyExchanged ∧
      ((authWithKey {} otherKey).exec x).1 ≠ .error (.session .wrongState) := by
  obtain ⟨hrecord, hafter⟩ := Sample.run_proposal 64 []
  rw [List.append_nil, Recorder.record] at hrecord
  rw [List.append_nil, Recorder.after_nil] at hafter
  have hall := orderly_after (client []).state.keyPair (some info.publicKey) 64 (Sample.idle 64)
    Sample.proposal
  have hstart := Sample.idle_fresh 64
  dsimp only at hall hstart ⊢
  rw [hstart, hafter, hrecord] at hall
  rw [hafter, hrecord]
  obtain ⟨horderly, -, -, hwrong, -⟩ := hall
  exact ⟨rfl, horderly, rfl, hwrong {} otherKey rfl⟩

end

end Client

end SealedDatagram
