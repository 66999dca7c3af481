import SealedDatagram.Client
import SealedDatagram.Proofs.Packet.Decode
import SealedDatagram.Proofs.SaltWindow
/-!
What the steps of a client do. A step that fails leaves the session as it was; a step that succeeds
was allowed in its phase, and the packet it made or took in is the written form of what it says.
-/

namespace SealedDatagram

namespace Client

open Fallible

variable {c : Client} {e : Env Client}

theorem issued_issue {all : List Salt} (h : c.issued = all.rtake issuedHistory) (x : Salt) :
    (c.issue x).issued = (all ++ [x]).rtake issuedHistory := by
  rw [rtake_eq_drop_rtake_succ, List.rtake_concat_succ, ← h]
  rfl

def proposed (c : Client) (key : SessionKey) (salt : Salt) : Client :=
  { c with sessionKey := some key }.issue salt

def exchanged (c : Client) (info : ServerInfo) (key : SessionKey) (header : Salt) : Client :=
  { c with
    sharedKey := some key, server := some info, peerSalt := some header, phase := .keyExchanged }

def accepted (c : Client) (phase : Phase) (x : Salt) : Client :=
  { c with window := (c.window.accept x).2, peerSalt := some x, phase }

def streamed (c : Client) (salt : Salt) : Client := { c.issue salt with phase := .streaming }

theorem exec_require (allowed : List Phase) (e : Env Client) :
    (require allowed).exec e =
      (if e.state.phase ∈ allowed then .ok () else .error (.session .wrongState), e) := by
  unfold require
  rw [exec_bind, exec_getState]
  dsimp only
  split <;> rfl

theorem exec_checkIssued (x : Salt) (e : Env Client) :
    (checkIssued x).exec e =
      (if x ∈ e.state.issued then .ok () else .error (.session .unknownSalt), e) := by
  unfold checkIssued
  rw [exec_bind, exec_getState]
  dsimp only
  split <;> rfl

theorem exec_hello (h : e.state.phase = .unauthenticated) :
    hello.exec e = (.ok (Hello.mk e.state.keyPair.publicKey).encode, e) := by
  unfold hello
  rw [exec_bind, exec_require, if_pos (List.mem_singleton.2 h)]
  rfl

variable [CipherSuite]

theorem exec_takeOlleh_wire {info : ServerInfo} {header : Salt} {pad : Bytes}
    (hphase : e.state.phase = .unauthenticated) (hpin : e.state.pinHolds info.publicKey = true)
    (hp : pad.length = Sealed.padSize) :
    let key := e.state.keyPair.sharedKey info.publicKey
    (takeOlleh ((Olleh.mk info).wire key header pad)).exec e =
      (.ok info, { e with state := e.state.exchanged info key header }) := by
  intro key
  have hkey : Fallible.exec (do
      let c : Client ← getState
      if c.pinHolds info.publicKey then return c.keyPair.sharedKey info.publicKey
      else throw (.session .serverKeyMismatch) : Attempt Client SessionKey) e = (.ok key, e) := by
    rw [exec_bind, exec_getState]
    dsimp only
    rw [if_pos hpin]
    rfl
  unfold takeOlleh
  rw [exec_bind, exec_require, if_pos (List.mem_singleton.2 hphase)]
  dsimp only
  rw [exec_bind, Olleh.exec_decode_wire ⟨info⟩ hp hkey]
  rfl

/-- An Olleh that is taken in comes from a server whose key is not ruled out, and was sealed with
the key shared with it. -/
theorem exec_takeOlleh_cases (b : Bytes) (e : Env Client) :
    (∃ (info : ServerInfo) (header : Salt) (x y : UInt32) (pad : Bytes),
      e.state.phase = .unauthenticated ∧ e.state.pinHolds info.publicKey = true ∧
      (Olleh.mk info).Flags x y ∧ pad.length = Sealed.padSize ∧
      b = PacketKind.olleh.wire info.publicKey.field (e.state.keyPair.sharedKey info.publicKey)
        header pad (Field.word x ++ Field.word y) ∧
      (takeOlleh b).exec e = (.ok info, { e with
        state := e.state.exchanged info (e.state.keyPair.sharedKey info.publicKey) header })) ∨
    (∃ err, (takeOlleh b).exec e = (.error err, e)) := by
  have hkeyFor : ∀ k, Fallible.exec (do
      let c : Client ← getState
      if c.pinHolds k then return c.keyPair.sharedKey k
      else throw (.session .serverKeyMismatch) : Attempt Client SessionKey) e =
        (if e.state.pinHolds k = true then .ok (e.state.keyPair.sharedKey k)
          else .error (.session .serverKeyMismatch), e) := by
    intro k
    rw [exec_bind, exec_getState]
    dsimp only
    split <;> rfl
  unfold takeOlleh
  rw [exec_bind, exec_require]
  by_cases hphase : e.state.phase ∈ [.unauthenticated]
  · rw [if_pos hphase]
    dsimp only
    rw [exec_bind]
    generalize hd : Fallible.exec (Olleh.decode b _) e = outcome
    obtain ⟨err | r, e'⟩ := outcome
    · obtain rfl : e' = e := by
        have hsame := Olleh.exec_decode_snd (fun k => by rw [hkeyFor k]) b
        rwa [hd] at hsame
      exact .inr ⟨err, rfl⟩
    · obtain ⟨key, hkey, x, y, hflags, pad, hpad, hb⟩ := Olleh.exec_decode_eq_ok_iff.1 hd
      rw [hkeyFor] at hkey
      by_cases hpin : e.state.pinHolds r.packet.info.publicKey = true
      · rw [if_pos hpin] at hkey
        obtain ⟨hshared, rfl⟩ := Prod.mk.inj hkey
        obtain rfl := Except.ok.inj hshared
        exact .inl ⟨r.packet.info, r.header, x, y, pad, List.mem_singleton.1 hphase, hpin, hflags,
          hpad, hb, rfl⟩
      · rw [if_neg hpin] at hkey
        cases hkey
  · rw [if_neg hphase]
    exact .inr ⟨_, rfl⟩

theorem exec_authWithKey_cases (credentials : Credentials) (key : SessionKey) (e : Env Client) :
    (∃ shared under salt pad entropy entropy', e.state.phase = .keyExchanged ∧
      e.state.sharedKey = some shared ∧ e.state.peerSalt = some under ∧ credentials.Sendable ∧
      e.entropy.draw? Salt.size = some (salt.bytes, entropy) ∧
      entropy.draw? Sealed.padSize = some (pad, entropy') ∧ pad.length = Sealed.padSize ∧
      (authWithKey credentials key).exec e =
        (.ok ((Auth.mk e.state.keyPair.publicKey salt credentials key).wire shared under pad),
          { e with state := e.state.proposed key salt, entropy := entropy' })) ∨
    (∃ err entropy, (authWithKey credentials key).exec e = (.error err, { e with entropy }) ∧
      (e.entropy.budget = none → credentials.Sendable → e.state.phase = .keyExchanged →
        e.state.sharedKey = none ∨ e.state.peerSalt = none)) := by
  unfold authWithKey
  rw [exec_bind, exec_require]
  by_cases hphase : e.state.phase ∈ [.keyExchanged]
  · rw [if_pos hphase]
    dsimp only
    rw [exec_bind, exec_getState]
    dsimp only
    cases hs : e.state.sharedKey with
    | none => exact .inr ⟨_, e.entropy, rfl, fun _ _ _ => .inl rfl⟩
    | some shared =>
      cases hu : e.state.peerSalt with
      | none => exact .inr ⟨_, e.entropy, rfl, fun _ _ _ => .inr rfl⟩
      | some under =>
        dsimp only [sealing]
        rw [pure_bind, exec_bind]
        rcases exec_drawSalt_cases e with ⟨salt, entropy, hd, hx⟩ | ⟨hd, hx⟩
        · rw [hx]
          dsimp only
          rw [exec_bind]
          by_cases hc : credentials.Sendable
          · rcases Auth.exec_encode_cases
              (p := ⟨e.state.keyPair.publicKey, salt, credentials, key⟩) hc shared under
              { e with entropy } with ⟨pad, entropy', hp, hdp, hw⟩ | ⟨hdp, hw⟩
            · rw [hw]
              exact .inl ⟨shared, under, salt, pad, entropy, entropy', List.mem_singleton.1 hphase,
                rfl, rfl, hc, hd, hdp, hp, rfl⟩
            · rw [hw]
              exact .inr ⟨_, entropy, rfl, fun hb _ _ => absurd
                (Entropy.budget_eq_none_of_draw? hd hb) (Entropy.budget_ne_none_of_draw? hdp)⟩
          · rw [Auth.exec_encode_of_not_sendable
              (p := ⟨e.state.keyPair.publicKey, salt, credentials, key⟩) hc]
            exact .inr ⟨_, entropy, rfl, fun _ h _ => absurd h hc⟩
        · rw [hx]
          exact .inr ⟨_, e.entropy, rfl, fun hb _ _ => absurd hb
            (Entropy.budget_ne_none_of_draw? hd)⟩
  · rw [if_neg hphase]
    exact .inr ⟨_, e.entropy, rfl, fun _ _ h => absurd (List.mem_singleton.2 h) hphase⟩

theorem exists_authWithKey {credentials : Credentials} (key : SessionKey) {shared : SessionKey}
    {under : Salt} (hphase : e.state.phase = .keyExchanged) (hs : e.state.sharedKey = some shared)
    (hu : e.state.peerSalt = some under) (hc : credentials.Sendable)
    (hb : e.entropy.budget = none) :
    ∃ salt pad entropy entropy', e.entropy.draw? Salt.size = some (salt.bytes, entropy) ∧
      entropy.draw? Sealed.padSize = some (pad, entropy') ∧ pad.length = Sealed.padSize ∧
      (authWithKey credentials key).exec e =
        (.ok ((Auth.mk e.state.keyPair.publicKey salt credentials key).wire shared under pad),
          { e with state := e.state.proposed key salt, entropy := entropy' }) := by
  rcases exec_authWithKey_cases credentials key e with
    ⟨shared', under', salt, pad, entropy, entropy', -, hs', hu', -, hd, hdp, hp, hx⟩ |
    ⟨err, _, -, hn⟩
  · obtain rfl := Option.some.inj (hs.symm.trans hs')
    obtain rfl := Option.some.inj (hu.symm.trans hu')
    exact ⟨salt, pad, entropy, entropy', hd, hdp, hp, hx⟩
  · rcases hn hb hc hphase with h | h
    · rw [hs] at h
      cases h
    · rw [hu] at h
      cases h

theorem exec_authWithKey {c : Credentials} {k shared : SessionKey} {under salt : Salt}
    {pad : Bytes} {entropy entropy' : Entropy} (hphase : e.state.phase = .keyExchanged)
    (hs : e.state.sharedKey = some shared) (hu : e.state.peerSalt = some under)
    (hc : c.Sendable) (hd : e.entropy.draw? Salt.size = some (salt.bytes, entropy))
    (hdp : entropy.draw? Sealed.padSize = some (pad, entropy')) (hb : e.entropy.budget = none) :
    (authWithKey c k).exec e =
      (.ok ((Auth.mk e.state.keyPair.publicKey salt c k).wire shared under pad),
        { e with state := e.state.proposed k salt, entropy := entropy' }) := by
  obtain ⟨salt', pad', ent, ent', hd', hdp', -, hx⟩ := exists_authWithKey k hphase hs hu hc hb
  rw [hd] at hd'
  obtain ⟨hsalt, rfl⟩ := Prod.mk.inj (Option.some.inj hd')
  rw [hdp] at hdp'
  obtain ⟨rfl, rfl⟩ := Prod.mk.inj (Option.some.inj hdp')
  rw [Salt.ext hsalt]
  exact hx

/-- An Auth that proposes a given key, or a fresh one. -/
def propose (credentials : Credentials) : Option SessionKey → Attempt Client Bytes
  | some key => authWithKey credentials key
  | none => auth credentials

theorem exists_propose {credentials : Credentials} (key? : Option SessionKey) {shared : SessionKey}
    {under : Salt} (hphase : e.state.phase = .keyExchanged) (hs : e.state.sharedKey = some shared)
    (hu : e.state.peerSalt = some under) (hc : credentials.Sendable)
    (hb : e.entropy.budget = none) :
    ∃ key salt pad entropy, (∀ k ∈ key?, key = k) ∧ pad.length = Sealed.padSize ∧
      (propose credentials key?).exec e =
        (.ok ((Auth.mk e.state.keyPair.publicKey salt credentials key).wire shared under pad),
          { e with state := e.state.proposed key salt, entropy }) := by
  cases key? with
  | some key =>
    obtain ⟨salt, pad, _, entropy, -, -, hp, hx⟩ := exists_authWithKey key hphase hs hu hc hb
    refine ⟨key, salt, pad, entropy, ?_, hp, hx⟩
    intro k hk
    exact Option.some.inj hk
  | none =>
    unfold propose auth
    rw [exec_bind]
    rcases exec_generate_cases e with ⟨_, key, entropy, hd, hx⟩ | ⟨err, e', hd, -, -⟩
    · rw [hx]
      have hb' : entropy.budget = none := Entropy.budget_eq_none_of_draw? hd hb
      obtain ⟨salt, pad, _, entropy', -, -, hp, hx'⟩ :=
        exists_authWithKey (e := { e with entropy }) key hphase hs hu hc hb'
      exact ⟨key, salt, pad, entropy', nofun, hp, hx'⟩
    · exact absurd hb (Entropy.budget_ne_none_of_draw? hd)

theorem exec_propose_cases (credentials : Credentials) (key? : Option SessionKey)
    (e : Env Client) :
    (∃ (shared : SessionKey) (under : Salt) (key : SessionKey) (salt : Salt) (pad : Bytes)
      (entropy : Entropy), e.state.phase = .keyExchanged ∧ e.state.sharedKey = some shared ∧
      e.state.peerSalt = some under ∧ credentials.Sendable ∧ pad.length = Sealed.padSize ∧
      (propose credentials key?).exec e =
        (.ok ((Auth.mk e.state.keyPair.publicKey salt credentials key).wire shared under pad),
          { e with state := e.state.proposed key salt, entropy })) ∨
    (∃ err e', (propose credentials key?).exec e = (.error err, e') ∧ e'.state = e.state) := by
  cases key? with
  | some key =>
    rcases exec_authWithKey_cases credentials key e with
      ⟨shared, under, salt, pad, _, entropy, hphase, hs, hu, hc, -, -, hp, hx⟩ | ⟨err, _, hx, -⟩
    · exact .inl ⟨shared, under, key, salt, pad, entropy, hphase, hs, hu, hc, hp, hx⟩
    · exact .inr ⟨err, _, hx, rfl⟩
  | none =>
    unfold propose auth
    rw [exec_bind]
    rcases exec_generate_cases e with ⟨-, key, ent, -, hg⟩ | ⟨err, e', -, hg, he⟩
    · rw [hg]
      rcases exec_authWithKey_cases credentials key { e with entropy := ent } with
        ⟨shared, under, salt, pad, _, entropy, hphase, hs, hu, hc, -, -, hp, hx⟩ | ⟨err, _, hx, -⟩
      · exact .inl ⟨shared, under, key, salt, pad, entropy, hphase, hs, hu, hc, hp, hx⟩
      · exact .inr ⟨err, _, hx, rfl⟩
    · rw [hg]
      exact .inr ⟨err, e', rfl, he⟩

/-- What a proposal may come to: of the session it changes only what it says, and not even that if
it fails. -/
def Proposal (credentials : Credentials) (c : Client) : Except Error Bytes × Env Client → Prop
  | (.ok b, e) => ∃ shared under key salt pad, c.phase = .keyExchanged ∧
      c.sharedKey = some shared ∧ c.peerSalt = some under ∧ pad.length = Sealed.padSize ∧
      b = (Auth.mk c.keyPair.publicKey salt credentials key).wire shared under pad ∧
      e.state = c.proposed key salt
  | (.error _, e) => e.state = c

theorem proposal_propose (credentials : Credentials) (key? : Option SessionKey)
    (e : Env Client) : Proposal credentials e.state ((propose credentials key?).exec e) := by
  rcases exec_propose_cases credentials key? e with
    ⟨shared, under, key, salt, pad, _, hphase, hs, hu, -, hp, hx⟩ | ⟨err, e', hx, he⟩
  · rw [hx]
    exact ⟨shared, under, key, salt, pad, hphase, hs, hu, hp, rfl, rfl⟩
  · rw [hx]
    exact he

/-- An Htua that is taken in was sealed with the key proposed last, under a salt that is remembered
as issued, and brings a salt that the window accepts. -/
theorem exec_takeHtua_cases (b : Bytes) (e : Env Client) :
    (∃ key header x pad, e.state.phase = .keyExchanged ∧ e.state.sessionKey = some key ∧
      pad.length = Sealed.padSize ∧ b = (Htua.mk x).wire key header pad ∧
      header ∈ e.state.issued ∧ (e.state.window.accept x).1 = true ∧
      (takeHtua b).exec e =
        (.ok (), { e with state := e.state.accepted .authenticated x })) ∨
    (∃ err, (takeHtua b).exec e = (.error err, e)) := by
  unfold takeHtua
  rw [exec_bind, exec_require]
  by_cases hphase : e.state.phase ∈ [.keyExchanged]
  · rw [if_pos hphase]
    dsimp only
    rw [exec_bind, exec_getState]
    dsimp only
    cases hk : e.state.sessionKey with
    | none => exact .inr ⟨_, rfl⟩
    | some key =>
      dsimp only
      rw [exec_bind, exec_liftExcept]
      cases hd : Htua.decode b key with
      | error err => exact .inr ⟨_, rfl⟩
      | ok r =>
        obtain ⟨header, ⟨x⟩⟩ := r
        obtain ⟨pad, hpad, hb⟩ := Htua.decode_eq_ok_iff.1 hd
        dsimp only
        rw [exec_bind, exec_checkIssued]
        by_cases hi : header ∈ e.state.issued
        · rw [if_pos hi]
          dsimp only
          cases ha : (e.state.window.accept x).1 with
          | false => exact .inr ⟨_, rfl⟩
          | true =>
            exact .inl ⟨key, header, x, pad, List.mem_singleton.1 hphase, rfl, hpad, hb, hi, ha,
              rfl⟩
        · rw [if_neg hi]
          exact .inr ⟨_, rfl⟩
  · rw [if_neg hphase]
    exact .inr ⟨_, rfl⟩

theorem exec_takeHtua_wire {key : SessionKey} {header x : Salt} {pad : Bytes}
    (hphase : e.state.phase = .keyExchanged) (hk : e.state.sessionKey = some key)
    (hp : pad.length = Sealed.padSize) (hi : header ∈ e.state.issued)
    (ha : (e.state.window.accept x).1 = true) :
    (takeHtua ((Htua.mk x).wire key header pad)).exec e =
      (.ok (), { e with state := e.state.accepted .authenticated x }) := by
  have hopen : Htua.decode ((Htua.mk x).wire key header pad) key = .ok ⟨header, ⟨x⟩⟩ :=
    Htua.decode_eq_ok_iff.2 ⟨pad, hp, rfl⟩
  unfold takeHtua
  rw [exec_bind, exec_require, if_pos (List.mem_singleton.2 hphase)]
  dsimp only
  rw [exec_bind, exec_getState]
  dsimp only
  rw [hk]
  dsimp only
  rw [exec_bind, exec_liftExcept, hopen]
  dsimp only
  rw [exec_bind, exec_checkIssued, if_pos hi]
  dsimp only
  rw [ha]
  rfl

theorem exec_sealData_cases (payload : Bytes) (e : Env Client) :
    (∃ key under salt pad entropy entropy', e.state.phase ∈ [Phase.authenticated, .streaming] ∧
      e.state.sessionKey = some key ∧ e.state.peerSalt = some under ∧
      e.entropy.draw? Salt.size = some (salt.bytes, entropy) ∧
      payload.length ≤ Data.maxPayload ∧ pad.length = Sealed.padSize ∧
      entropy.draw? Sealed.padSize = some (pad, entropy') ∧
      (sealData payload).exec e = (.ok ((Data.mk salt payload).wire key under pad),
        { e with state := e.state.streamed salt, entropy := entropy' })) ∨
    (∃ err entropy, (sealData payload).exec e = (.error err, { e with entropy }) ∧
      (e.entropy.budget = none → payload.length ≤ Data.maxPayload →
        e.state.phase ∈ [Phase.authenticated, .streaming] →
          e.state.sessionKey = none ∨ e.state.peerSalt = none)) := by
  unfold sealData
  rw [exec_bind, exec_require]
  by_cases hphase : e.state.phase ∈ [Phase.authenticated, .streaming]
  · rw [if_pos hphase]
    dsimp only
    rw [exec_bind, exec_getState]
    dsimp only
    cases hk : e.state.sessionKey with
    | none => exact .inr ⟨_, e.entropy, rfl, fun _ _ _ => .inl rfl⟩
    | some key =>
      cases hu : e.state.peerSalt with
      | none => exact .inr ⟨_, e.entropy, rfl, fun _ _ _ => .inr rfl⟩
      | some under =>
        dsimp only [sealing]
        rw [pure_bind, exec_bind]
        rcases exec_drawSalt_cases e with ⟨salt, entropy, hd, hx⟩ | ⟨hd, hx⟩
        · rw [hx]
          dsimp only
          rw [exec_bind]
          by_cases hlen : payload.length ≤ Data.maxPayload
          · rcases Data.exec_encode_cases (p := ⟨salt, payload⟩) hlen key under
              { e with entropy } with ⟨pad, entropy', hp, hdp, hw⟩ | ⟨hdp, hw⟩
            · rw [hw]
              exact .inl ⟨key, under, salt, pad, entropy, entropy', hphase, rfl, rfl, hd, hlen, hp,
                hdp, rfl⟩
            · rw [hw]
              exact .inr ⟨_, entropy, rfl, fun hb _ _ => absurd
                (Entropy.budget_eq_none_of_draw? hd hb) (Entropy.budget_ne_none_of_draw? hdp)⟩
          · rw [Data.exec_encode_of_oversized (p := ⟨salt, payload⟩) (Nat.lt_of_not_le hlen)]
            exact .inr ⟨_, entropy, rfl, fun _ hl => absurd hl hlen⟩
        · rw [hx]
          exact .inr ⟨_, e.entropy, rfl, fun hb _ _ => absurd hb
            (Entropy.budget_ne_none_of_draw? hd)⟩
  · rw [if_neg hphase]
    exact .inr ⟨_, e.entropy, rfl, fun _ _ h => absurd h hphase⟩

theorem exec_sealData {payload pad : Bytes} {key : SessionKey} {under salt : Salt}
    {entropy entropy' : Entropy} (hphase : e.state.phase ∈ [Phase.authenticated, .streaming])
    (hk : e.state.sessionKey = some key) (hu : e.state.peerSalt = some under)
    (hlen : payload.length ≤ Data.maxPayload)
    (hd : e.entropy.draw? Salt.size = some (salt.bytes, entropy))
    (hdp : entropy.draw? Sealed.padSize = some (pad, entropy')) (hb : e.entropy.budget = none) :
    (sealData payload).exec e = (.ok ((Data.mk salt payload).wire key under pad),
      { e with state := e.state.streamed salt, entropy := entropy' }) := by
  rcases exec_sealData_cases payload e with
    ⟨key', under', salt', pad', ent, ent', -, hk', hu', hd', -, -, hdp', hx⟩ | ⟨err, _, -, hn⟩
  · obtain rfl := Option.some.inj (hk.symm.trans hk')
    obtain rfl := Option.some.inj (hu.symm.trans hu')
    rw [hd] at hd'
    obtain ⟨hsalt, rfl⟩ := Prod.mk.inj (Option.some.inj hd')
    rw [hdp] at hdp'
    obtain ⟨rfl, rfl⟩ := Prod.mk.inj (Option.some.inj hdp')
    rw [Salt.ext hsalt]
    exact hx
  · rcases hn hb hlen hphase with h | h
    · rw [hk] at h
      cases h
    · rw [hu] at h
      cases h

omit [CipherSuite] in
theorem exec_keyFor (key : SessionKey) (header : Salt) (e : Env Client) :
    Fallible.exec (do checkIssued header; return key : Attempt Client SessionKey) e =
      (if header ∈ e.state.issued then .ok key else .error (.session .unknownSalt), e) := by
  rw [exec_bind, exec_checkIssued]
  by_cases hi : header ∈ e.state.issued
  · rw [if_pos hi, if_pos hi]
    rfl
  · rw [if_neg hi, if_neg hi]

theorem exec_openData_wire {key : SessionKey} {under : Salt} {pad : Bytes} {d : Data}
    (hphase : e.state.phase ∈ [Phase.authenticated, .streaming])
    (hk : e.state.sessionKey = some key) (hp : pad.length = Sealed.padSize)
    (hd : d.payload.length ≤ Data.maxPayload) :
    (openData (d.wire key under pad)).exec e =
      if under ∈ e.state.issued then
        if (e.state.window.accept d.salt).1 then
          (.ok d.payload, { e with state := e.state.accepted .streaming d.salt })
        else (.error (.session .replayedSalt), { e with metrics := e.metrics.replayRejected })
      else (.error (.session .unknownSalt), e) := by
  have hkeyFor := exec_keyFor key under e
  unfold openData
  rw [exec_bind, exec_require, if_pos hphase]
  dsimp only
  rw [exec_bind, exec_getState]
  dsimp only
  rw [hk]
  dsimp only
  rw [exec_bind]
  by_cases hi : under ∈ e.state.issued
  · rw [if_pos hi] at hkeyFor ⊢
    have hopen : Fallible.exec (Data.decode (d.wire key under pad) fun header => do
        checkIssued header
        return key) e = (.ok ⟨under, d⟩, e) :=
      Data.exec_decode_eq_ok_iff.2 ⟨key, hkeyFor, hd, pad, hp, rfl⟩
    rw [hopen]
    dsimp only
    cases ha : (e.state.window.accept d.salt).1 <;> rfl
  · rw [if_neg hi] at hkeyFor ⊢
    rw [Data.exec_decode_wire_of_refused hkeyFor]

/-- A Data packet that is taken in was sealed with the session key, under a salt that is remembered
as issued, and brings a salt that the window accepts. One that is refused is at most counted. -/
theorem exec_openData_cases (b : Bytes) (e : Env Client) :
    (∃ (key : SessionKey) (header : Salt) (d : Data) (pad : Bytes),
      e.state.phase ∈ [Phase.authenticated, .streaming] ∧ e.state.sessionKey = some key ∧
      d.payload.length ≤ Data.maxPayload ∧ pad.length = Sealed.padSize ∧
      b = d.wire key header pad ∧ header ∈ e.state.issued ∧
      (e.state.window.accept d.salt).1 = true ∧
      (openData b).exec e =
        (.ok d.payload, { e with state := e.state.accepted .streaming d.salt })) ∨
    (∃ err metrics, (openData b).exec e = (.error err, { e with metrics })) := by
  unfold openData
  rw [exec_bind, exec_require]
  by_cases hphase : e.state.phase ∈ [Phase.authenticated, .streaming]
  · rw [if_pos hphase]
    dsimp only
    rw [exec_bind, exec_getState]
    dsimp only
    cases hk : e.state.sessionKey with
    | none => exact .inr ⟨_, e.metrics, rfl⟩
    | some key =>
      dsimp only
      rw [exec_bind]
      rcases hd : Fallible.exec (Data.decode b fun header => do
          checkIssued header
          return key) e with ⟨err | r, e'⟩
      · obtain rfl : e' = e := by
          have hsame := Data.exec_decode_snd (fun header => by rw [exec_keyFor key header e]) b
          rwa [hd] at hsame
        exact .inr ⟨err, e'.metrics, rfl⟩
      · obtain ⟨key', hkey', hlen, pad, hpad, hb⟩ := Data.exec_decode_eq_ok_iff.1 hd
        rw [exec_keyFor] at hkey'
        by_cases hi : r.header ∈ e.state.issued
        · rw [if_pos hi] at hkey'
          obtain ⟨hkey, rfl⟩ := Prod.mk.inj hkey'
          obtain rfl := Except.ok.inj hkey
          dsimp only
          cases ha : (e.state.window.accept r.packet.salt).1 with
          | false => exact .inr ⟨_, _, rfl⟩
          | true =>
            exact .inl ⟨key, r.header, r.packet, pad, hphase, rfl, hlen, hpad, hb, hi, ha, rfl⟩
        · rw [if_neg hi] at hkey'
          cases hkey'
  · rw [if_neg hphase]
    exact .inr ⟨_, e.metrics, rfl⟩

theorem exec_sealData_of_early {payload : Bytes}
    (hphase : e.state.phase ∉ [Phase.authenticated, .streaming]) :
    (sealData payload).exec e = (.error (.session .wrongState), e) := by
  unfold sealData
  rw [exec_bind, exec_require, if_neg hphase]

theorem exec_openData_of_early {b : Bytes}
    (hphase : e.state.phase ∉ [Phase.authenticated, .streaming]) :
    (openData b).exec e = (.error (.session .wrongState), e) := by
  unfold openData
  rw [exec_bind, exec_require, if_neg hphase]

end Client

end SealedDatagram
