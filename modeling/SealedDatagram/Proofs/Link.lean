import SealedDatagram.CipherSuite.Standard
import SealedDatagram.Proofs.Client
import SealedDatagram.Proofs.Parcel
import SealedDatagram.Proofs.Server.Answer
/-!
A client and a server that hold a session, and a network between them that delays, reorders and
loses what it carries. Every packet is sealed under the salt received last, so it opens as long as
that salt is one of the last eight that its receiver has issued. What both sides have issued and
accepted and what is on its way stay in step, whatever the schedule.
-/

namespace SealedDatagram

variable {τ : Type}

structure Link (τ : Type) where
  client : Env Client
  server : Env (SessionStore × τ)
  /-- All the salts that the client has issued, oldest first. -/
  told : List Salt
  htua : Bytes
  /-- The Data packets on their way to the server. -/
  up : List Parcel := []
  /-- The Data packets on their way to the client. -/
  down : List Parcel := []

/-- What a server does besides taking in the Data packets of a peer. -/
def Event.Elsewhere (p : SocketAddress) : Event → Prop
  | .datagram b q => q = p → PacketKind.peek b ≠ .ok .data
  | .call _ _ => True

namespace Link

open SessionStore

/-- A packet that never arrives is lost. -/
inductive Input (p : SocketAddress) where
  /-- The client proposes its key once more. -/
  | propose (credentials : Credentials)
  | take
  | send (payload : Bytes)
  | reply (payload : Bytes)
  /-- A Data packet arrives at the server. -/
  | rise (i : Nat)
  /-- A Data packet arrives at the client. -/
  | fall (i : Nat)
  | elsewhere (ev : Event) (h : ev.Elsewhere p)
  | wait (d : Duration)

variable [CipherSuite]

def proposed (credentials : Credentials) (key : SessionKey) (e : Env Client) : List Salt :=
  match (Client.authWithKey credentials key).exec e, drawSalt.exec e with
  | (.ok _, _), (.ok salt, _) => [salt]
  | _, _ => []

def sent (payload : Bytes) (e : Env Client) : List Parcel :=
  match (Client.sealData payload).exec e, drawSalt.exec e, e.state.peerSalt with
  | (.ok bytes, _), (.ok salt, _), some under => [⟨bytes, ⟨salt, payload⟩, under⟩]
  | _, _, _ => []

def replied (p : SocketAddress) (payload : Bytes) (e : Env SessionStore) : List Parcel :=
  match (SessionStore.sealData p payload).exec e, drawSalt.exec e, e.state.sessions.get? p with
  | (.ok bytes, _), (.ok salt, _), some d => [⟨bytes, ⟨salt, payload⟩, d.peerSalt⟩]
  | _, _, _ => []

section
variable (s : Server (SessionStore × τ)) (p : SocketAddress)

def next : Input p → Link τ → Link τ
  | .propose credentials, x =>
    match x.client.state.sessionKey with
    | some key => { x with
        client := ((Client.authWithKey credentials key).exec x.client).2
        told := x.told ++ proposed credentials key x.client }
    | none => x
  | .take, x => { x with client := ((Client.takeHtua x.htua).exec x.client).2 }
  | .send payload, x => { x with
      client := ((Client.sealData payload).exec x.client).2
      told := x.told ++ (sent payload x.client).map (·.data.salt)
      up := x.up ++ sent payload x.client }
  | .reply payload, x => { x with
      server := x.server.withStore ((Call.sealData p payload).next x.server.store)
      down := x.down ++ replied p payload x.server.store }
  | .rise i, x =>
    match x.up[i]? with
    | some c => { x with
        up := x.up.eraseIdx i
        server := ((s.process c.bytes p).exec x.server).2 }
    | none => x
  | .fall i, x =>
    match x.down[i]? with
    | some c => { x with
        down := x.down.eraseIdx i
        client := ((Client.openData c.bytes).exec x.client).2 }
    | none => x
  | .elsewhere ev _, x => { x with server := s.next ev x.server }
  | .wait d, x => { x with client := x.client.advance d, server := x.server.advance d }

def facts : Input p → Link τ → List Fact
  | .reply payload, x => (Call.sealData p payload).facts x.server.store
  | .rise i, x =>
    match x.up[i]? with
    | some c => s.facts c.bytes p x.server
    | none => []
  | .elsewhere ev _, x => s.eventFacts ev x.server
  | _, _ => []

def recorder : Recorder (Link τ) (Input p) Fact := ⟨next s p, facts s p⟩

section
variable {s p} {x : Link τ} {payload bytes : Bytes} {y : Salt}

theorem next_take {client : Env Client}
    (hc : (Client.takeHtua x.htua).exec x.client = (.ok (), client)) :
    next s p .take x = { x with client } := by
  simp only [next, hc]

theorem next_send {client client' : Env Client} {under : Salt}
    (hc : (Client.sealData payload).exec x.client = (.ok bytes, client))
    (hd : drawSalt.exec x.client = (.ok y, client')) (hu : x.client.state.peerSalt = some under) :
    next s p (.send payload) x = { x with
      client, told := x.told ++ [y], up := x.up ++ [⟨bytes, ⟨y, payload⟩, under⟩] } := by
  simp only [next, sent, hc, hd, hu, List.map_cons, List.map_nil]

section
variable {store store' : Env SessionStore}
  (hc : (SessionStore.sealData p payload).exec x.server.store = (.ok bytes, store))
  (hd : drawSalt.exec x.server.store = (.ok y, store'))

include hc hd

theorem next_reply {d : Session} (he : x.server.store.state.sessions.get? p = some d) :
    next s p (.reply payload) x = { x with
      server := x.server.withStore store
      down := x.down ++ [⟨bytes, ⟨y, payload⟩, d.peerSalt⟩] } := by
  simp only [next, Call.next, replied, hc, hd, he]

theorem facts_reply : facts s p (.reply payload) x = [.issued p y] := by
  simp only [facts, Call.facts, hc, hd]

end

end

end

end Link

/-- What a client knows of its session: `told` is what it has issued, `known` what the server has,
and `got` what it has accepted of that. -/
structure Client.Holds (c : Client) (key : SessionKey) (told known got : List Salt) : Prop where
  issued : c.issued = told.rtake Client.issuedHistory
  key : c.sessionKey = some key
  window : c.window.Remembers got
  got : got ⊆ known
  peerSalt : c.phase ∈ [Phase.authenticated, .streaming] → ∃ y ∈ known, c.peerSalt = some y

/-- A client whose last proposal has not been answered yet, and what it has issued. -/
structure Client.Awaits (c : Client) (key : SessionKey) (told : List Salt) : Prop where
  phase : c.phase = .keyExchanged
  key : c.sessionKey = some key
  issued : c.issued = told.rtake Client.issuedHistory
  window : ∃ n, c.window = .ofCapacity n

theorem Client.Awaits.holds {c : Client} {key : SessionKey} {told : List Salt}
    (hc : c.Awaits key told) (known : List Salt) : c.Holds key told known [] where
  issued := hc.issued
  key := hc.key
  window := by
    obtain ⟨n, hn⟩ := hc.window
    exact hn ▸ SaltWindow.remembers_ofCapacity n
  got := List.nil_subset known
  peerSalt h := by
    rw [hc.phase] at h
    exact absurd h (by decide)

namespace Client.Holds

variable {c : Client} {key : SessionKey} {told known known' got : List Salt} {y : Salt}

theorem mono (hc : c.Holds key told known got) (h : known ⊆ known') :
    c.Holds key told known' got where
  issued := hc.issued
  key := hc.key
  window := hc.window
  got := fun _ hy => h (hc.got hy)
  peerSalt hphase := by
    obtain ⟨y, hy, hp⟩ := hc.peerSalt hphase
    exact ⟨y, h hy, hp⟩

theorem proposed (hc : c.Holds key told known got) (hphase : c.phase = .keyExchanged) :
    (c.proposed key y).Holds key (told ++ [y]) known got where
  issued := Client.issued_issue (c := { c with sessionKey := some key }) hc.issued y
  key := rfl
  window := hc.window
  got := hc.got
  peerSalt h := by
    change c.phase ∈ _ at h
    rw [hphase] at h
    exact absurd h (by decide)

theorem streamed (hc : c.Holds key told known got)
    (hphase : c.phase ∈ [Phase.authenticated, .streaming]) :
    (c.streamed y).Holds key (told ++ [y]) known got where
  issued := Client.issued_issue hc.issued y
  key := hc.key
  window := hc.window
  got := hc.got
  peerSalt _ := hc.peerSalt hphase

theorem accepted (hc : c.Holds key told known got) (hy : y ∈ known)
    (ha : (c.window.accept y).1 = true) (phase : Phase) :
    (c.accepted phase y).Holds key told known (got ++ [y]) where
  issued := hc.issued
  key := hc.key
  window := hc.window.accept ha
  got := List.append_subset.2 ⟨hc.got, List.cons_subset.2 ⟨hy, List.nil_subset _⟩⟩
  peerSalt _ := ⟨y, hy, rfl⟩

theorem accepts (hc : c.Holds key told known got) (hy : y ∉ got) :
    (c.window.accept y).1 = true :=
  hc.window.accept_eq_true_iff.2 fun hm => hy ((rtake_sublist _ _).subset hm)

end Client.Holds

/-- What a history says of a session that goes on: its window held `base` when it was registered
and has accepted `rolled` since, all of which the client told. -/
structure Account.Goes (a : Account) (p : SocketAddress) (n : NewSession) (h : List Fact)
    (told base rolled : List Salt) : Prop where
  account : account p h = some a
  latest : a.latest = n
  first : a.issued.head? = some n.ownSalt
  accepted : a.accepted = base ++ rolled
  answered : ∀ y, a.accepted.getLast? = some y → y ∈ told
  rolled : rolled ⊆ told

namespace Account.Goes

variable {a : Account} {p : SocketAddress} {n : NewSession} {h : List Fact}
  {told told' base rolled : List Salt}

theorem mono (ha : a.Goes p n h told base rolled) (ht : told ⊆ told') :
    a.Goes p n h told' base rolled :=
  { ha with
    answered := fun y hy => ht (ha.answered y hy)
    rolled := fun _ hy => ht (ha.rolled hy) }

theorem first_mem (ha : a.Goes p n h told base rolled) : n.ownSalt ∈ a.issued :=
  List.mem_of_head? ha.first

theorem append (ha : a.Goes p n h told base rolled) {l : List Fact} (hl : ∀ f ∈ l, ¬ f.ends p)
    (ht : l.filterMap (·.accepted? p) ⊆ told) :
    ∃ a' : Account, a'.Goes p n (h ++ l) told base (rolled ++ l.filterMap (·.accepted? p)) ∧
      a'.issued = a.issued ++ l.filterMap (·.issued? p) := by
  refine ⟨_, ⟨account_append_of_not_ends ha.account hl, ha.latest, ?_, ?_, ?_, ?_⟩, rfl⟩
  · rw [List.head?_append, ha.first]
    rfl
  · rw [ha.accepted, List.append_assoc]
  · intro y hy
    rw [List.getLast?_append] at hy
    rcases Option.or_eq_some_iff.1 hy with hy | ⟨-, hy⟩
    · exact ht (List.mem_of_getLast? hy)
    · exact ha.answered y hy
  · exact List.append_subset.2 ⟨ha.rolled, ht⟩

end Account.Goes

namespace Server

open SessionStore

variable [CipherSuite] (info : ServerInfo) (h : Hooks (SessionStore × τ)) {cfg : SecurityConfig}
  {p : SocketAddress} {e : Env (SessionStore × τ)} {past : List Fact} {a : Account} {c : Parcel}
  (ht : e.store.state.Tracks cfg past) (hn : (issuedSalts past).Nodup)
  (ha : account p past = some a) (hw : c.Written a.latest.key)

include ht hn ha hw

theorem process_of_outdated (hu : c.under ∉ a.issued.rtake issuedHistory) :
    ((keeping info h).process c.bytes p).exec e = (.error (.session .unknownSalt), e) ∧
      (keeping info h).facts c.bytes p e = [] := by
  obtain ⟨-, pad, -, hb⟩ := hw
  rw [hb]
  exact process_of_unnamed info h (fun hs => hu ((ht.named_iff hn ha).1 hs)) c.data

/-- A packet under one of the last salts is delivered if its own salt is new to the window. -/
theorem process_of_recent (hu : c.under ∈ a.issued.rtake issuedHistory)
    (hfresh : c.data.salt ∉ a.accepted.rtake cfg.replayWindow.toNat)
    (hlive : ∀ d, e.store.state.sessions.get? p = some d →
      d.expired e.store.state.ttl e.store.now = false) :
    (keeping info h).Delivers c.bytes p e c.data.payload ∧
      (keeping info h).facts c.bytes p e = [.found p e.now, .rolled p c.data.salt e.now] := by
  obtain ⟨d, hd, hf⟩ := ht.of_account ha
  obtain ⟨hlen, pad, hpad, hb⟩ := hw
  have haccept : (d.window.accept c.data.salt).1 = true := by
    rw [hf.window.accept_eq_true_iff, ht.capacity p d hd, ht.replayWindow_eq]
    exact hfresh
  rw [hb, ← hf.key]
  exact process_of_live info h hd ((ht.named_iff hn ha).2 hu) (hlive d hd) haccept hlen hpad

/-- A packet under one of the last salts does not find a session that has been idle for too long
without ending it. -/
theorem live_of_facts (hu : c.under ∈ a.issued.rtake issuedHistory)
    (hlasts : ∀ f ∈ (keeping info h).facts c.bytes p e, ¬ f.ends p) (d : Session)
    (hd : e.store.state.sessions.get? p = some d) :
    d.expired e.store.state.ttl e.store.now = false := by
  obtain ⟨-, pad, -, hb⟩ := hw
  rw [hb] at hlasts
  by_contra hold
  rw [Bool.not_eq_false] at hold
  exact hlasts _ (dropped_of_expired info h hd ((ht.named_iff hn ha).2 hu) hold c.data) rfl

end Server

namespace Link

open SessionStore

/-- A session has just been registered, with the key that the client proposed last, and the Htua is
on its way. -/
structure Met [CipherSuite] (x : Link τ) (cfg : SecurityConfig) (p : SocketAddress)
    (n : NewSession) (past : List Fact) : Prop where
  tracks : x.server.store.state.Tracks cfg past
  registered : ∃ earlier now, past = earlier ++ [.registered n now]
  peer : n.peer = p
  client : x.client.state.Awaits n.key x.told
  told : n.peerSalt ∈ x.told
  htua : ∃ pad, pad.length = Sealed.padSize ∧
    x.htua = (Htua.mk n.ownSalt).wire n.key n.peerSalt pad
  up : x.up = []
  down : x.down = []

/-- The session goes on from one state to another, and no salt of either side comes twice or was
in the window before. -/
structure Undisturbed (start x : Link τ) (p : SocketAddress) (past l : List Fact) : Prop where
  lasts : ∀ f ∈ l, ¬ f.ends p
  issued : (issuedSalts (past ++ l)).Nodup
  told : x.told.Nodup
  fresh : ∀ d, start.server.store.state.sessions.get? p = some d →
    ∀ y ∈ x.told, y ∉ start.told → d.window.contains y = false

theorem Undisturbed.notMem_base {start x : Link τ} {cfg : SecurityConfig} {p : SocketAddress}
    {past l : List Fact} {a : Account} (hu : Undisturbed start x p past l)
    (ht : start.server.store.state.Tracks cfg past) (ha : account p past = some a) {y : Salt}
    (hy : y ∈ x.told) (hnew : y ∉ start.told) : y ∉ a.accepted.rtake cfg.replayWindow.toNat := by
  obtain ⟨d, hd, hf⟩ := ht.of_account ha
  rw [← ht.replayWindow_eq, ← ht.capacity p d hd, ← hf.window.contains_iff]
  exact Bool.not_eq_true _ ▸ hu.fresh d hd y hy hnew

/-- What a run keeps: each side follows the session, and its receiver has seen nothing of what is on
its way. -/
structure InStep [CipherSuite] (start x : Link τ) (p : SocketAddress) (n : NewSession)
    (h : List Fact) (base : List Salt) (a : Account) (rolled got : List Salt) : Prop where
  server : a.Goes p n h x.told base rolled
  client : x.client.state.Holds n.key x.told a.issued got
  htua : x.htua = start.htua
  told : start.told ⊆ x.told
  up : Stream n.key a.issued x.told (start.told ++ rolled) x.up
  down : Stream n.key x.told a.issued (n.ownSalt :: got) x.down

variable [CipherSuite] {info : ServerInfo} {h : Hooks (SessionStore × τ)} {cfg : SecurityConfig}
  {p : SocketAddress} {n : NewSession} {past l : List Fact} {start x : Link τ} {a : Account}
  {base rolled got : List Salt}

theorem told_next (s : Server (SessionStore × τ)) (i : Input p) (x : Link τ) :
    ∃ more, (next s p i x).told = x.told ++ more := by
  cases i with
  | propose credentials =>
    simp only [next]
    split
    · exact ⟨_, rfl⟩
    · exact ⟨[], (List.append_nil _).symm⟩
  | send payload => exact ⟨_, rfl⟩
  | rise i =>
    simp only [next]
    split <;> exact ⟨[], (List.append_nil _).symm⟩
  | fall i =>
    simp only [next]
    split <;> exact ⟨[], (List.append_nil _).symm⟩
  | take | reply | elsewhere | wait => exact ⟨[], (List.append_nil _).symm⟩

theorem Undisturbed.before {s : Server (SessionStore × τ)} {i : Input p} {l' : List Fact}
    (hu : Undisturbed start (next s p i x) p past (l ++ l')) : Undisturbed start x p past l := by
  obtain ⟨more, hmore⟩ := told_next s i x
  have hsub : x.told.Sublist (next s p i x).told := hmore ▸ List.sublist_append_left _ _
  refine ⟨fun f hf => hu.lasts f (List.mem_append_left _ hf), ?_, hu.told.sublist hsub,
    fun d hd y hy => hu.fresh d hd y (hsub.subset hy)⟩
  have hissued := hu.issued
  rw [← List.append_assoc, issuedSalts, List.filterMap_append] at hissued
  exact hissued.sublist (List.sublist_append_left _ _)

theorem tracks_next (hh : h.Apart) (ht : x.server.store.state.Tracks cfg past) (i : Input p) :
    (next (Server.keeping info h) p i x).server.store.state.Tracks cfg
      (past ++ facts (Server.keeping info h) p i x) := by
  cases i with
  | propose credentials =>
    simp only [next, facts, List.append_nil]
    split <;> exact ht
  | take | send =>
    simp only [next, facts, List.append_nil]
    exact ht
  | reply payload => exact ht.step (.sealData p payload)
  | rise i =>
    simp only [next, facts]
    split
    · exact Server.tracks_process info hh ht _ p
    · rw [List.append_nil]
      exact ht
  | fall i =>
    simp only [next, facts, List.append_nil]
    split <;> exact ht
  | elsewhere ev helse =>
    cases ev with
    | datagram b q => exact Server.tracks_process info hh ht b q
    | call c quiet => exact ht.step c
  | wait d =>
    simp only [next, facts, List.append_nil]
    exact ht

theorem InStep.propose (hx : InStep start x p n past base a rolled got)
    (s : Server (SessionStore × τ)) (credentials : Credentials) :
    InStep start (next s p (.propose credentials) x) p n past base a rolled got := by
  simp only [next, hx.client.key]
  rcases Client.exec_authWithKey_cases credentials n.key x.client with
    ⟨_, _, y, _, _, _, hphase, -, -, -, hd, -, -, hc⟩ | ⟨err, _, hc, -⟩
  · have hp : proposed credentials n.key x.client = [y] := by
      simp only [proposed, hc, exec_drawSalt hd]
    have hmore : x.told ⊆ x.told ++ [y] := List.subset_append_left _ _
    rw [hp, hc]
    exact {
      server := hx.server.mono hmore
      client := hx.client.proposed hphase
      htua := hx.htua
      told := fun _ hz => hmore (hx.told hz)
      up := hx.up.mono (List.Subset.refl _) hmore (List.Subset.refl _)
      down := hx.down.mono hmore (List.Subset.refl _) (List.Subset.refl _) }
  · have hp : proposed credentials n.key x.client = [] := by simp only [proposed, hc]
    rw [hp, hc, List.append_nil]
    exact { hx with }

theorem InStep.take (hx : InStep start x p n past base a rolled got)
    (hhtua : ∃ pad, pad.length = Sealed.padSize ∧
      start.htua = (Htua.mk n.ownSalt).wire n.key n.peerSalt pad)
    (s : Server (SessionStore × τ)) :
    ∃ got', InStep start (next s p .take x) p n past base a rolled got' := by
  simp only [next]
  rcases Client.exec_takeHtua_cases x.htua x.client with
    ⟨key, header, y, pad, -, hkey, hpad, hb, -, ha, hc⟩ | ⟨err, hc⟩
  · obtain ⟨pad', hpad', hb'⟩ := hhtua
    obtain rfl := Option.some.inj (hx.client.key.symm.trans hkey)
    have hread : Htua.decode x.htua n.key = .ok ⟨header, ⟨y⟩⟩ :=
      Htua.decode_eq_ok_iff.2 ⟨pad, hpad, hb⟩
    have hown : Htua.decode start.htua n.key = .ok ⟨n.peerSalt, ⟨n.ownSalt⟩⟩ :=
      Htua.decode_eq_ok_iff.2 ⟨pad', hpad', hb'⟩
    rw [hx.htua, hown] at hread
    obtain rfl : n.ownSalt = y := congrArg (·.packet.salt) (Except.ok.inj hread)
    rw [hc]
    refine ⟨got ++ [n.ownSalt], { hx with
      client := hx.client.accepted hx.server.first_mem ha _
      down := hx.down.mono (List.Subset.refl _) (List.Subset.refl _) ?_ }⟩
    rw [← List.cons_append]
    exact List.append_subset.2 ⟨List.Subset.refl _,
      List.cons_subset.2 ⟨List.mem_cons_self, List.nil_subset _⟩⟩
  · rw [hc]
    exact ⟨got, { hx with }⟩

theorem InStep.send (hx : InStep start x p n past base a rolled got) {s : Server (SessionStore × τ)}
    {payload : Bytes} (hn : (next s p (.send payload) x).told.Nodup) :
    InStep start (next s p (.send payload) x) p n past base a rolled got := by
  rcases Client.exec_sealData_cases payload x.client with
    ⟨key, under, y, pad, _, _, hphase, hkey, hunder, hd, hlen, hpad, -, hc⟩ | ⟨err, _, hc, -⟩
  · obtain rfl := Option.some.inj (hx.client.key.symm.trans hkey)
    have hmore : x.told ⊆ x.told ++ [y] := List.subset_append_left _ _
    have hknown : under ∈ a.issued := by
      obtain ⟨z, hz, hp⟩ := hx.client.peerSalt hphase
      obtain rfl := Option.some.inj (hunder.symm.trans hp)
      exact hz
    let c : Parcel := ⟨(Data.mk y payload).wire n.key under pad, ⟨y, payload⟩, under⟩
    have hw : c.Written n.key := ⟨hlen, pad, hpad, rfl⟩
    rw [next_send hc (exec_drawSalt hd) hunder] at hn ⊢
    exact {
      server := hx.server.mono hmore
      client := hx.client.streamed hphase
      htua := hx.htua
      told := fun _ hz => hmore (hx.told hz)
      up := hx.up.send hw hknown hn (List.append_subset.2 ⟨hx.told, hx.server.rolled⟩)
      down := hx.down.mono hmore (List.Subset.refl _) (List.Subset.refl _) }
  · have hs : sent payload x.client = [] := by simp only [sent, hc]
    simp only [next]
    rw [hs, hc, List.map_nil, List.append_nil, List.append_nil]
    exact { hx with }

theorem InStep.exec_openData (hx : InStep start x p n past base a rolled got)
    (hphase : x.client.state.phase ∈ [Phase.authenticated, .streaming]) {c : Parcel}
    (hc : c ∈ x.down) :
    (Client.openData c.bytes).exec x.client =
      if c.under ∈ x.told.rtake Client.issuedHistory then (.ok c.data.payload,
        { x.client with state := x.client.state.accepted .streaming c.data.salt })
      else (.error (.session .unknownSalt), x.client) := by
  obtain ⟨hlen, pad, hpad, hb⟩ := hx.down.written c hc
  have ha := hx.client.accepts fun hm => hx.down.unseen c hc (List.mem_cons_of_mem _ hm)
  rw [hb, Client.exec_openData_wire hphase hx.client.key hpad hlen, hx.client.issued, if_pos ha]

theorem InStep.fall (hx : InStep start x p n past base a rolled got) (s : Server (SessionStore × τ))
    (i : Nat) : ∃ got', InStep start (next s p (.fall i) x) p n past base a rolled got' := by
  simp only [next]
  cases hi : x.down[i]? with
  | none => exact ⟨got, hx⟩
  | some c =>
    have hc := List.mem_of_getElem? hi
    by_cases hphase : x.client.state.phase ∈ [Phase.authenticated, .streaming]
    · dsimp only
      rw [hx.exec_openData hphase hc]
      split
      · have ha := hx.client.accepts fun hm => hx.down.unseen c hc (List.mem_cons_of_mem _ hm)
        exact ⟨got ++ [c.data.salt], { hx with
          client := hx.client.accepted (hx.down.own c hc) ha _
          down := hx.down.receive hi }⟩
      · exact ⟨got, { hx with down := hx.down.lose i }⟩
    · dsimp only
      rw [Client.exec_openData_of_early hphase]
      exact ⟨got, { hx with down := hx.down.lose i }⟩

theorem InStep.reply (hx : InStep start x p n (past ++ l) base a rolled got)
    (ht : x.server.store.state.Tracks cfg (past ++ l)) {s : Server (SessionStore × τ)}
    {payload : Bytes} (hu : Undisturbed start (next s p (.reply payload) x) p past
      (l ++ facts s p (.reply payload) x)) :
    ∃ a', InStep start (next s p (.reply payload) x) p n
      (past ++ (l ++ facts s p (.reply payload) x)) base a' rolled got := by
  have hissued := hu.issued
  rw [← List.append_assoc] at hissued ⊢
  rcases exec_sealData_cases p payload x.server.store with
    ⟨y, _, d, pad, _, hdraw, hd, hlen, hpad, -, hc⟩ | ⟨err, _, hc, -⟩
  · obtain ⟨d', hd', hf⟩ := ht.of_account hx.server.account
    obtain rfl := Option.some.inj (hd.symm.trans hd')
    have hkey : d.key = n.key := by rw [hf.key, hx.server.latest]
    let c : Parcel := ⟨(Data.mk y payload).wire d.key d.peerSalt pad, ⟨y, payload⟩, d.peerSalt⟩
    have hw : c.Written n.key := ⟨hlen, pad, hpad, by rw [← hkey]⟩
    rw [facts_reply hc hdraw] at hissued ⊢
    rw [next_reply hc hdraw hd]
    obtain ⟨a', ha', hmore⟩ := hx.server.append (l := [.issued p y])
      (fun f hf => by rw [List.mem_singleton.1 hf]; exact id) (List.nil_subset _)
    rw [show [Fact.issued p y].filterMap (·.accepted? p) = [] from rfl, List.append_nil] at ha'
    rw [List.filterMap_cons_some (show (Fact.issued p y).issued? p = some y from if_pos rfl),
      List.filterMap_nil] at hmore
    have hn : (a.issued ++ [y]).Nodup :=
      hmore ▸ hissued.sublist (issued_sublist_issuedSalts ha'.account)
    have hsub : a.issued ⊆ a'.issued := hmore ▸ List.subset_append_left _ _
    refine ⟨a', { hx with
      server := ha'
      client := hx.client.mono hsub
      up := hx.up.mono hsub (List.Subset.refl _) (List.Subset.refl _)
      down := ?_ }⟩
    rw [hmore]
    exact hx.down.send hw (hx.server.answered _ hf.peerSalt) hn
      (List.cons_subset.2 ⟨hx.server.first_mem, hx.client.got⟩)
  · have hr : replied p payload x.server.store = [] := by simp only [replied, hc]
    have hfacts : (Call.sealData p payload).facts x.server.store = [] := by
      simp only [Call.facts, hc]
    simp only [next, facts]
    rw [hr, hfacts, List.append_nil, List.append_nil]
    exact ⟨a, { hx with }⟩

theorem InStep.elsewhere (hx : InStep start x p n (past ++ l) base a rolled got)
    {s : Server (SessionStore × τ)} {ev : Event} (hev : ev.Elsewhere p)
    (hu : Undisturbed start (next s p (.elsewhere ev hev) x) p past
      (l ++ facts s p (.elsewhere ev hev) x)) :
    ∃ a', InStep start (next s p (.elsewhere ev hev) x) p n
      (past ++ (l ++ facts s p (.elsewhere ev hev) x)) base a' rolled got := by
  have hlasts : ∀ f ∈ s.eventFacts ev x.server, ¬ f.ends p := fun f hf =>
    hu.lasts f (List.mem_append_right _ hf)
  have hnone : (s.eventFacts ev x.server).filterMap (·.accepted? p) = [] := by
    rw [List.filterMap_eq_nil_iff]
    intro f hf
    refine Fact.accepted?_eq_none (hlasts f hf) ?_
    rintro y now rfl
    obtain ⟨b, rfl, hb⟩ := Server.rolled_of_eventFacts s hf
    exact hev rfl hb
  obtain ⟨a', ha', hmore⟩ := hx.server.append hlasts (hnone ▸ List.nil_subset _)
  have hsub : a.issued ⊆ a'.issued := hmore ▸ List.subset_append_left _ _
  rw [hnone, List.append_nil] at ha'
  rw [← List.append_assoc]
  exact ⟨a', { hx with
    server := ha'
    client := hx.client.mono hsub
    up := hx.up.mono hsub (List.Subset.refl _) (List.Subset.refl _)
    down := hx.down.mono (List.Subset.refl _) hsub (List.Subset.refl _) }⟩

theorem InStep.fresh (hx : InStep start x p n past base a rolled got) {w : Nat}
    (hbase : ∀ y ∈ x.told, y ∉ start.told → y ∉ base.rtake w) {c : Parcel} (hc : c ∈ x.up) :
    c.data.salt ∉ a.accepted.rtake w := by
  have hunseen := hx.up.unseen c hc
  rw [List.mem_append, not_or] at hunseen
  rw [hx.server.accepted]
  intro hm
  rcases mem_or_mem_rtake_of_append hm with hm | hm
  · exact hbase _ (hx.up.own c hc) hunseen.1 hm
  · exact hunseen.2 hm

theorem InStep.rise (info : ServerInfo) (hx : InStep start x p n (past ++ l) base a rolled got)
    (ht : x.server.store.state.Tracks cfg (past ++ l)) (i : Nat)
    (hbase : ∀ y ∈ x.told, y ∉ start.told → y ∉ base.rtake cfg.replayWindow.toNat)
    (hn : (issuedSalts (past ++ l)).Nodup)
    (hlasts : ∀ f ∈ facts (Server.keeping info h) p (.rise i) x, ¬ f.ends p) :
    ∃ a' rolled', InStep start (next (Server.keeping info h) p (.rise i) x) p n
      (past ++ (l ++ facts (Server.keeping info h) p (.rise i) x)) base a' rolled' got := by
  rw [← List.append_assoc]
  simp only [next, facts] at hlasts ⊢
  cases hi : x.up[i]? with
  | none =>
    dsimp only
    rw [List.append_nil]
    exact ⟨a, rolled, hx⟩
  | some c =>
    rw [hi] at hlasts
    have hc := List.mem_of_getElem? hi
    have hw : c.Written a.latest.key := hx.server.latest ▸ hx.up.written c hc
    dsimp only at hlasts ⊢
    by_cases hrecent : c.under ∈ a.issued.rtake issuedHistory
    · have hlive := Server.live_of_facts info h ht hn hx.server.account hw hrecent hlasts
      obtain ⟨-, hfacts⟩ := Server.process_of_recent info h ht hn hx.server.account hw hrecent
        (hx.fresh hbase hc) hlive
      rw [hfacts] at hlasts ⊢
      have haccepted : [Fact.found p x.server.now, .rolled p c.data.salt x.server.now].filterMap
          (·.accepted? p) = [c.data.salt] := by
        simp [Fact.accepted?]
      have hissued : [Fact.found p x.server.now, .rolled p c.data.salt x.server.now].filterMap
          (·.issued? p) = [] := rfl
      have htold : [c.data.salt] ⊆ x.told :=
        List.cons_subset.2 ⟨hx.up.own c hc, List.nil_subset _⟩
      obtain ⟨a', ha', hsame⟩ := hx.server.append hlasts (haccepted ▸ htold)
      rw [haccepted] at ha'
      rw [hissued, List.append_nil] at hsame
      refine ⟨a', rolled ++ [c.data.salt], {
        server := ha'
        client := hsame ▸ hx.client
        htua := hx.htua
        told := hx.told
        up := ?_
        down := hsame ▸ hx.down }⟩
      rw [hsame, ← List.append_assoc]
      exact hx.up.receive hi
    · obtain ⟨-, hfacts⟩ := Server.process_of_outdated info h ht hn hx.server.account hw hrecent
      rw [hfacts, List.append_nil]
      exact ⟨a, rolled, { hx with up := hx.up.lose i }⟩

theorem met_of_answer (hh : h.Apart) {e e₁ e' : Env (SessionStore × τ)} {b htua : Bytes}
    {client : Env Client} {told : List Salt} (ht : e.store.state.Tracks cfg past)
    (hb : PacketKind.peek b = .ok .auth)
    (hn : ((Server.keeping info h).propose b p).exec e = (.ok n, e₁))
    (hx : ((Server.keeping info h).process b p).exec e = (.ok (some htua), e'))
    (hclient : client.state.Awaits n.key told) (htold : n.peerSalt ∈ told) :
    Met ⟨client, e', told, htua, [], []⟩ cfg p n
      (past ++ (Server.keeping info h).facts b p e) := by
  have htracks := Server.tracks_process info hh ht b p
  rw [hx] at htracks
  obtain ⟨-, -, -, -, -, -, hpeer, -⟩ := Server.proposed hn
  rcases Server.exec_process_auth_cases info h (e := e) (p := p) hb with ⟨err, e₂, -, hx'⟩ |
    ⟨n', e₂, hn', ⟨-, hx'⟩ | ⟨err, -, hx'⟩ | ⟨hok, ⟨pad, _, hpad, -, hx'⟩ | ⟨-, hx'⟩⟩⟩
  · rw [hx] at hx'
    cases hx'
  · rw [hx] at hx'
    cases hx'
  · rw [hx] at hx'
    cases hx'
  · rw [hn] at hn'
    cases hn'
    rw [hx] at hx'
    refine ⟨htracks, ?_, hpeer, hclient, htold, ⟨pad, hpad, ?_⟩, rfl, rfl⟩
    · rw [Server.facts_of_propose hb hn]
      refine ⟨past ++ (e₁.store.state.expiredPeers e₁.now).map (.dropped · (.expired e₁.now)),
        e₁.now, ?_⟩
      rw [Call.facts, if_pos hok, List.append_assoc]
      rfl
    · exact Option.some.inj (Except.ok.inj (congrArg Prod.fst hx'))
  · rw [hx] at hx'
    cases hx'

theorem Met.exists_account (hx : x.Met cfg p n past) : ∃ a, account p past = some a ∧
    a.latest = n ∧ a.issued = [n.ownSalt] ∧ a.accepted.getLast? = some n.peerSalt := by
  obtain ⟨earlier, now, rfl⟩ := hx.registered
  rw [account_registered hx.peer (l := []) nofun]
  exact ⟨_, rfl, rfl, rfl, List.getLast?_concat⟩

theorem Met.inStep (hx : x.Met cfg p n past) (ha : account p past = some a) :
    InStep x x p n past a.accepted a [] [] := by
  obtain ⟨a', ha', hlatest, hissued, hlast⟩ := hx.exists_account
  obtain rfl := Option.some.inj (ha.symm.trans ha')
  refine ⟨⟨ha, hlatest, ?_, (List.append_nil _).symm, ?_, List.nil_subset _⟩,
    hx.client.holds a.issued, rfl, List.Subset.refl _, ?_, ?_⟩
  · rw [hissued]
    rfl
  · intro y hy
    rw [hlast] at hy
    exact Option.some.inj hy ▸ hx.told
  · rw [hx.up]
    exact .nil
  · rw [hx.down]
    exact .nil

theorem InStep.step (ht₀ : start.Met cfg p n past) {a₀ : Account} (ha₀ : account p past = some a₀)
    (hx : InStep start x p n (past ++ l) a₀.accepted a rolled got)
    (ht : x.server.store.state.Tracks cfg (past ++ l)) (i : Input p)
    (hu : Undisturbed start (next (Server.keeping info h) p i x) p past
      (l ++ facts (Server.keeping info h) p i x)) :
    ∃ a' rolled' got', InStep start (next (Server.keeping info h) p i x) p n
      (past ++ (l ++ facts (Server.keeping info h) p i x)) a₀.accepted a' rolled' got' := by
  cases i with
  | propose credentials =>
    rw [show facts (Server.keeping info h) p (.propose credentials) x = [] from rfl,
      List.append_nil]
    exact ⟨a, rolled, got, hx.propose _ credentials⟩
  | take =>
    rw [show facts (Server.keeping info h) p .take x = [] from rfl, List.append_nil]
    obtain ⟨got', hx'⟩ := hx.take ht₀.htua (Server.keeping info h)
    exact ⟨a, rolled, got', hx'⟩
  | send payload =>
    rw [show facts (Server.keeping info h) p (.send payload) x = [] from rfl, List.append_nil]
    exact ⟨a, rolled, got, hx.send hu.told⟩
  | reply payload =>
    obtain ⟨a', hx'⟩ := hx.reply ht hu
    exact ⟨a', rolled, got, hx'⟩
  | rise i =>
    obtain ⟨a', rolled', hx'⟩ := hx.rise info ht i
      (fun _ hy hnew => hu.before.notMem_base ht₀.tracks ha₀ hy hnew) hu.before.issued
      fun f hf => hu.lasts f (List.mem_append_right _ hf)
    exact ⟨a', rolled', got, hx'⟩
  | fall i =>
    rw [show facts (Server.keeping info h) p (.fall i) x = [] from rfl, List.append_nil]
    obtain ⟨got', hx'⟩ := hx.fall (Server.keeping info h) i
    exact ⟨a, rolled, got', hx'⟩
  | elsewhere ev hev =>
    obtain ⟨a', hx'⟩ := hx.elsewhere hev hu
    exact ⟨a', rolled, got, hx'⟩
  | wait d =>
    rw [show facts (Server.keeping info h) p (.wait d) x = [] from rfl, List.append_nil]
    exact ⟨a, rolled, got, { hx with }⟩

theorem Met.inStep_after (info : ServerInfo) (hh : h.Apart) (hx : start.Met cfg p n past)
    {a₀ : Account} (ha₀ : account p past = some a₀) (inputs : List (Input p)) :
    let m := recorder (Server.keeping info h) p
    (m.after start inputs).server.store.state.Tracks cfg (past ++ m.record start inputs) ∧
      (Undisturbed start (m.after start inputs) p past (m.record start inputs) →
        ∃ a rolled got, InStep start (m.after start inputs) p n (past ++ m.record start inputs)
          a₀.accepted a rolled got) := by
  refine (recorder (Server.keeping info h) p).keeps (h := [])
    (P := fun x l => x.server.store.state.Tracks cfg (past ++ l) ∧
      (Undisturbed start x p past l →
        ∃ a rolled got, InStep start x p n (past ++ l) a₀.accepted a rolled got))
    ?_ ?_ inputs
  · rintro x l i ⟨ht, hstep⟩
    refine ⟨?_, fun hu => ?_⟩
    · rw [← List.append_assoc]
      exact tracks_next hh ht i
    · obtain ⟨a, rolled, got, hin⟩ := hstep hu.before
      exact hin.step hx ha₀ ht i hu
  · rw [List.append_nil]
    exact ⟨hx.tracks, fun _ => ⟨a₀, [], [], hx.inStep ha₀⟩⟩

/-- The session of a peer has not been idle for too long. -/
def Live (x : Link τ) (p : SocketAddress) : Prop :=
  ∀ d, x.server.store.state.sessions.get? p = some d →
    d.expired x.server.store.state.ttl x.server.store.now = false

/-- A packet that arrives at the server is delivered if no more than seven salts were issued after
the one that it is sealed under, and refused if more were. -/
def Rises (x : Link τ) (s : Server (SessionStore × τ)) (p : SocketAddress) (a : Account)
    (c : Parcel) : Prop :=
  ∃ j, a.issued[j]? = some c.under ∧
    if a.issued.length - (j + 1) ≤ 7 then x.Live p → s.Delivers c.bytes p x.server c.data.payload
    else (s.process c.bytes p).exec x.server = (.error (.session .unknownSalt), x.server)

/-- The same of a packet that arrives at the client. -/
def Falls (x : Link τ) (c : Parcel) : Prop :=
  ∃ i, x.told[i]? = some c.under ∧
    if x.told.length - (i + 1) ≤ 7 then
      ∃ client, (Client.openData c.bytes).exec x.client = (.ok c.data.payload, client)
    else (Client.openData c.bytes).exec x.client = (.error (.session .unknownSalt), x.client)

/-- Either side can send a payload, which goes under the salt that it received last. -/
def Seals (x : Link τ) (s : Server (SessionStore × τ)) (p : SocketAddress) : Prop :=
  ∀ payload : Bytes, payload.length ≤ Data.maxPayload →
    (x.client.entropy.budget = none → x.client.state.phase ∈ [Phase.authenticated, .streaming] →
      ∃ c, (next s p (.send payload) x).up = x.up ++ [c] ∧ c.data.payload = payload ∧
        x.client.state.peerSalt = some c.under) ∧
    (x.server.entropy.budget = none →
      ∃ c d, (next s p (.reply payload) x).down = x.down ++ [c] ∧ c.data.payload = payload ∧
        x.server.store.state.sessions.get? p = some d ∧ d.peerSalt = c.under)

theorem InStep.rises (hx : InStep start x p n past base a rolled got)
    (ht : x.server.store.state.Tracks cfg past) (hn : (issuedSalts past).Nodup)
    (hbase : ∀ y ∈ x.told, y ∉ start.told → y ∉ base.rtake cfg.replayWindow.toNat) {c : Parcel}
    (hc : c ∈ x.up) : x.Rises (Server.keeping info h) p a c := by
  have ha := hx.server.account
  have hw : c.Written a.latest.key := hx.server.latest ▸ hx.up.written c hc
  obtain ⟨j, hj, hrecent⟩ :=
    exists_place (hn.sublist (issued_sublist_issuedSalts ha)) (hx.up.under c hc) 7
  refine ⟨j, hj, ?_⟩
  split
  · rename_i hle
    intro hlive
    exact (Server.process_of_recent info h ht hn ha hw (hrecent.2 hle) (hx.fresh hbase hc)
      hlive).1
  · rename_i hgt
    exact (Server.process_of_outdated info h ht hn ha hw fun hm => hgt (hrecent.1 hm)).1

theorem InStep.falls (hx : InStep start x p n past base a rolled got) (hn : x.told.Nodup)
    (hphase : x.client.state.phase ∈ [Phase.authenticated, .streaming]) {c : Parcel}
    (hc : c ∈ x.down) : x.Falls c := by
  obtain ⟨i, hi, hrecent⟩ := exists_place hn (hx.down.under c hc) 7
  change c.under ∈ x.told.rtake Client.issuedHistory ↔ _ at hrecent
  refine ⟨i, hi, ?_⟩
  rw [hx.exec_openData hphase hc]
  split
  · rename_i hle
    exact ⟨_, by rw [if_pos (hrecent.2 hle)]⟩
  · rename_i hgt
    rw [if_neg fun hm => hgt (hrecent.1 hm)]

theorem InStep.seals (hx : InStep start x p n past base a rolled got)
    (ht : x.server.store.state.Tracks cfg past) (s : Server (SessionStore × τ)) : x.Seals s p := by
  intro payload hlen
  constructor
  · intro hb hphase
    rcases Client.exec_sealData_cases payload x.client with
      ⟨key, under, y, pad, _, _, -, -, hunder, hd, -, -, -, hc⟩ | ⟨err, _, -, hn⟩
    · exact ⟨_, congrArg Link.up (next_send hc (exec_drawSalt hd) hunder), rfl, hunder⟩
    · obtain ⟨y, -, hy⟩ := hx.client.peerSalt hphase
      rcases hn hb hlen hphase with hk | hu
      · rw [hx.client.key] at hk
        cases hk
      · rw [hy] at hu
        cases hu
  · intro hb
    obtain ⟨d, hd, -⟩ := ht.of_account hx.server.account
    rcases exec_sealData_cases p payload x.server.store with
      ⟨y, _, d', pad, _, hdraw, hd', -, -, -, hc⟩ | ⟨err, _, -, hn⟩
    · exact ⟨_, d', congrArg Link.down (next_reply hc hdraw hd'), rfl, hd', rfl⟩
    · rw [hd] at hn
      cases hn hb hlen

/-- While a session goes on, each packet under way opens to its payload if no more than seven salts
were issued after the one that it is sealed under, and is refused if more were. -/
theorem synchronised (info : ServerInfo) (hh : h.Apart) (hx : x.Met cfg p n past)
    (inputs : List (Input p)) :
    let s := Server.keeping info h
    let m := recorder s p
    let x' := m.after x inputs
    x.Undisturbed x' p past (m.record x inputs) →
      ∃ a, account p (past ++ m.record x inputs) = some a ∧ a.latest = n ∧
        a.issued.head? = some n.ownSalt ∧ (∀ c ∈ x'.up, x'.Rises s p a c) ∧
        (x'.client.state.phase ∈ [Phase.authenticated, .streaming] → ∀ c ∈ x'.down, x'.Falls c) ∧
        x'.Seals s p := by
  intro s m x' hu
  obtain ⟨a₀, ha₀, -⟩ := hx.exists_account
  obtain ⟨ht, hstep⟩ := hx.inStep_after info hh ha₀ inputs
  obtain ⟨a, rolled, got, hin⟩ := hstep hu
  have hbase : ∀ y ∈ x'.told, y ∉ x.told → y ∉ a₀.accepted.rtake cfg.replayWindow.toNat :=
    fun y hy hnew => hu.notMem_base hx.tracks ha₀ hy hnew
  exact ⟨a, hin.server.account, hin.server.latest, hin.server.first,
    fun c hc => hin.rises ht hu.issued hbase hc,
    fun hphase c hc => hin.falls hu.told hphase hc, hin.seals ht s⟩

end Link

namespace Sample

open SessionStore

def link : Link Unit where
  client := left { client [] with state := (client []).state.proposed key (salt 1) }
    ((salt 3).bytes ++ (pad ++ []))
  server := registered (server ((salt 2).bytes ++ (pad ++ ((salt 4).bytes ++ (pad ++ [])))))
    (requested (salt 1) (salt 2) key) ((salt 4).bytes ++ (pad ++ []))
  told := [salt 1]
  htua := (Htua.mk (salt 2)).wire key (salt 1) pad

theorem met_link : link.Met config peer (requested (salt 1) (salt 2) key)
    [.registered (requested (salt 1) (salt 2) key) 0] := by
  let rest := (salt 4).bytes ++ (pad ++ [])
  let answering := server ((salt 2).bytes ++ (pad ++ rest))
  have hpropose := exec_propose (salt 1) (salt 2) key rest (show answering.entropy = _ from rfl)
  have hanswer := exec_process (salt 1) (salt 2) key rest (show answering.entropy = _ from rfl)
    (by decide +kernel)
  have hfacts : (Server.keeping info hooks).facts (request (salt 1) key) peer answering =
      [.registered (requested (salt 1) (salt 2) key) 0] := by
    rw [Server.facts_of_propose (peek_request _ _) hpropose]
    decide +kernel
  have hclient : link.client.state.Awaits key [salt 1] := ⟨rfl, rfl, rfl, 64, rfl⟩
  have hfirst : answering.store.state.Tracks config [] := tracks_ofConfig config
  have hmet := Link.met_of_answer apart_hooks hfirst (peek_request _ _) hpropose hanswer hclient
    (List.mem_singleton_self _)
  rwa [hfacts] at hmet

end Sample

section
open Sample SessionStore Link

/-- The client takes the Htua, and then a packet is on its way in each direction. -/
theorem synchronised_on_one_packet_each :
    let n := requested (salt 1) (salt 2) key
    let inputs := [Input.take, .send [1], .reply [2, 3]]
    let x' := (recorder (Server.keeping info hooks) peer).after link inputs
    let facts := (recorder (Server.keeping info hooks) peer).record link inputs
    link.Met config peer n [.registered n 0] ∧ link.Undisturbed x' peer [.registered n 0] facts ∧
      x'.up.map (·.data.payload) = [[1]] ∧ x'.down.map (·.data.payload) = [[2, 3]] ∧
      ∃ a, account peer ([.registered n 0] ++ facts) = some a ∧ a.latest = n ∧
        a.issued.head? = some (salt 2) ∧
        (∀ c ∈ x'.up, x'.Rises (Server.keeping info hooks) peer a c) ∧
        (∀ c ∈ x'.down, x'.Falls c) ∧ x'.Seals (Server.keeping info hooks) peer := by
  intro n inputs
  let x₁ : Link Unit := { link with
    client := { link.client with state := link.client.state.accepted .authenticated (salt 2) } }
  have h₁ : (recorder (Server.keeping info hooks) peer).next .take link = x₁ :=
    next_take (s := Server.keeping info hooks) (p := peer)
      (Client.exec_takeHtua_wire rfl rfl rfl (by decide +kernel) (by decide +kernel))
  let x₂ : Link Unit := { x₁ with
    client := left { x₁.client with state := x₁.client.state.streamed (salt 3) } []
    told := [salt 1, salt 3]
    up := [⟨(Data.mk (salt 3) [1]).wire key (salt 2) Sample.pad, ⟨salt 3, [1]⟩, salt 2⟩] }
  have hd₂ : x₁.client.entropy.draw? Salt.size =
      some ((salt 3).bytes, { queued := Sample.pad ++ [] }) :=
    Entropy.draw?_append (salt 3).length_eq
  have h₂ : (recorder (Server.keeping info hooks) peer).next (.send [1]) x₁ = x₂ :=
    next_send (s := Server.keeping info hooks) (p := peer)
      (Client.exec_sealData (by decide) rfl rfl (by decide) hd₂ (Entropy.draw?_append rfl) rfl)
      (exec_drawSalt hd₂) rfl
  obtain ⟨a₀, ha₀, -⟩ := met_link.exists_account
  obtain ⟨d, hd, -⟩ := met_link.tracks.of_account ha₀
  have hd₃ : x₂.server.store.entropy.draw? Salt.size =
      some ((salt 4).bytes, { queued := Sample.pad ++ [] }) :=
    Entropy.draw?_append (salt 4).length_eq
  have hreply := exec_sealData (e := x₂.server.store) hd
    (show ([2, 3] : Bytes).length ≤ Data.maxPayload by decide) hd₃ (Entropy.draw?_append rfl) rfl
  let x₃ : Link Unit := { x₂ with
    server := x₂.server.withStore
      { x₂.server.store with state := x₂.server.store.state.issue peer (salt 4), entropy := {} }
    down := [⟨(Data.mk (salt 4) [2, 3]).wire d.key d.peerSalt Sample.pad, ⟨salt 4, [2, 3]⟩,
      d.peerSalt⟩] }
  have h₃ : (recorder (Server.keeping info hooks) peer).next (.reply [2, 3]) x₂ = x₃ :=
    next_reply (s := Server.keeping info hooks) hreply (exec_drawSalt hd₃) hd
  have hx' : (recorder (Server.keeping info hooks) peer).after link inputs = x₃ := by
    rw [Recorder.after_cons, h₁, Recorder.after_cons, h₂, Recorder.after_cons, h₃,
      Recorder.after_nil]
  have hfacts : (recorder (Server.keeping info hooks) peer).record link inputs =
      [.issued peer (salt 4)] := by
    rw [Recorder.record_cons, h₁, Recorder.record_cons, h₂, Recorder.record_cons,
      show (recorder (Server.keeping info hooks) peer).facts (.reply [2, 3]) x₂ = _ from
        facts_reply (s := Server.keeping info hooks) hreply (exec_drawSalt hd₃)]
    rfl
  have hunseen : (link.server.store.state.sessions.get? peer).map (·.window.contains (salt 3)) =
      some false := by decide +kernel
  have hu : link.Undisturbed x₃ peer [.registered n 0] [.issued peer (salt 4)] := by
    refine ⟨?_, by decide, show ([salt 1, salt 3] : List Salt).Nodup by decide, ?_⟩
    · intro f hf
      rw [List.mem_singleton.1 hf]
      exact id
    · intro d' hd' y hy hnew
      obtain rfl : y = salt 3 := by
        rcases List.mem_cons.1 hy with rfl | hy
        · exact absurd (List.mem_singleton_self _) hnew
        · exact List.mem_singleton.1 hy
      rw [hd'] at hunseen
      exact Option.some.inj hunseen
  have hall := synchronised info apart_hooks met_link inputs
  dsimp only at hall ⊢
  rw [hfacts, hx'] at hall ⊢
  obtain ⟨a, ha, hlatest, hfirst, hrise, hfall, hseals⟩ := hall hu
  exact ⟨met_link, hu, rfl, rfl, a, ha, hlatest, hfirst, hrise,
    hfall (show Phase.streaming ∈ _ by decide), hseals⟩

end

end SealedDatagram
