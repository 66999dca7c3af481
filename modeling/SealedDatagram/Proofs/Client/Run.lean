import SealedDatagram.Proofs.Client
import SealedDatagram.Proofs.Packet.SealedKind
import SealedDatagram.Proofs.Recorder
/-!
Runs of a client: anything may be asked of it, anything may arrive, and the random source may go on
in any way. What comes about is on record as facts, read from the packets that the client made or
took in. A request that is refused changes nothing of the session, and any other brings about one
fact, from which it can be told what becomes of the session; a greeting alone brings about nothing.
-/

namespace SealedDatagram

namespace Client

open Fallible

inductive Request where
  | hello
  | auth (credentials : Credentials)
  | authWithKey (credentials : Credentials) (key : SessionKey)
  | sealData (payload : Bytes)
  | takeOlleh (b : Bytes)
  | takeHtua (b : Bytes)
  | openData (b : Bytes)
  | receive (b : Bytes)

inductive Reply where
  /-- A packet to send. -/
  | packet (b : Bytes)
  | server (info : ServerInfo)
  | payload (payload : Option Bytes)
  deriving DecidableEq

namespace Request

def datagram : Request → Bytes
  | .takeOlleh b | .takeHtua b | .openData b | .receive b => b
  | _ => []

def run [CipherSuite] : Request → Attempt Client Reply
  | .hello => return .packet (← Client.hello)
  | .auth credentials => return .packet (← Client.auth credentials)
  | .authWithKey credentials key => return .packet (← Client.authWithKey credentials key)
  | .sealData payload => return .packet (← Client.sealData payload)
  | .takeOlleh b => return .server (← Client.takeOlleh b)
  | .takeHtua b => do
    Client.takeHtua b
    return .payload none
  | .openData b => return .payload (some (← Client.openData b))
  | .receive b => return .payload (← Client.receive b)

end Request

inductive Fact where
  /-- An Olleh was taken in. -/
  | exchanged (info : ServerInfo) (header : Salt)
  /-- An Auth was made. -/
  | proposed (key : SessionKey) (salt : Salt)
  /-- An Htua was taken in. -/
  | confirmed (header salt : Salt)
  /-- A Data packet was made. -/
  | sent (salt : Salt)
  /-- A Data packet was taken in. -/
  | opened (header salt : Salt)
  deriving DecidableEq

namespace Fact

def issued? : Fact → Option Salt
  | .proposed _ x | .sent x => some x
  | _ => none

def accepted? : Fact → Option Salt
  | .confirmed _ x | .opened _ x => some x
  | _ => none

def confirms : Fact → Bool
  | .confirmed _ _ => true
  | _ => false

/-- When a fact can come about. -/
def Fits (c : Client) : Fact → Prop
  | .exchanged info _ => c.phase = .unauthenticated ∧ c.pinHolds info.publicKey = true
  | .proposed _ _ => c.phase = .keyExchanged
  | .confirmed header x => c.phase = .keyExchanged ∧ c.sessionKey.isSome ∧ header ∈ c.issued ∧
      (c.window.accept x).1 = true
  | .sent _ => c.phase ∈ [Phase.authenticated, .streaming]
  | .opened header x => c.phase ∈ [Phase.authenticated, .streaming] ∧ header ∈ c.issued ∧
      (c.window.accept x).1 = true

/-- What becomes of a session by a fact. -/
def next [CipherSuite] (c : Client) : Fact → Client
  | .exchanged info header => c.exchanged info (c.keyPair.sharedKey info.publicKey) header
  | .proposed key x => c.proposed key x
  | .confirmed _ x => c.accepted .authenticated x
  | .sent x => c.streamed x
  | .opened _ x => c.accepted .streaming x

end Fact

section
variable [CipherSuite] {c : Client} {e : Env Client} {b : Bytes}

/-- What a packet says to whoever holds a key, as a fact. -/
def noted (t : SealedKind) (b : Bytes) (key : Option SessionKey)
    (note : Received t.Packet → Fact) : List Fact :=
  match key.map (t.opened b) with
  | some (.ok r) => [note r]
  | _ => []

/-- What a client that has made a packet says in it. -/
def made (c : Client) (b : Bytes) : List Fact :=
  match PacketKind.peek b with
  | .ok .auth => noted .auth b c.sharedKey fun r => .proposed r.packet.sessionKey r.packet.salt
  | .ok .data => noted .data b c.sessionKey fun r => .sent r.packet.salt
  | _ => []

/-- What is said in a packet that a client has taken in. -/
def taken (c : Client) (b : Bytes) : List Fact :=
  match PacketKind.peek b with
  | .ok .olleh => noted .olleh b c.sharedKey fun r => .exchanged r.packet.info r.header
  | .ok .htua => noted .htua b c.sessionKey fun r => .confirmed r.header r.packet.salt
  | .ok .data => noted .data b c.sessionKey fun r => .opened r.header r.packet.salt
  | _ => []

/-- What can be read from the answer to a request. -/
def Request.read (r : Request) (c : Client) : Reply → List Fact
  | .packet b => made c b
  | _ => taken c r.datagram

def Request.facts (r : Request) (e : Env Client) : List Fact :=
  match r.run.exec e with
  | (.ok reply, e') => r.read e'.state reply
  | (.error _, _) => []

theorem noted_eq {t : SealedKind} {key : Option SessionKey} {k : SessionKey}
    {r : Received t.Packet} (hk : key = some k) (hr : t.opened b k = .ok r)
    (note : Received t.Packet → Fact) : noted t b key note = [note r] := by
  unfold noted
  rw [hk, Option.map_some, hr]

theorem exists_of_mem_noted {t : SealedKind} {key : Option SessionKey}
    {note : Received t.Packet → Fact} {f : Fact} (hf : f ∈ noted t b key note) :
    ∃ k r, key = some k ∧ t.opened b k = .ok r ∧ f = note r := by
  unfold noted at hf
  split at hf
  · rename_i r hr
    obtain ⟨k, hk, ho⟩ := Option.map_eq_some_iff.1 hr
    exact ⟨k, r, hk, ho, List.mem_singleton.1 hf⟩
  · cases hf

theorem exists_issued_of_made {f : Fact} (hf : f ∈ made c b) : ∃ x, f.issued? = some x := by
  unfold made at hf
  split at hf
  · obtain ⟨_, r, -, -, rfl⟩ := exists_of_mem_noted hf
    exact ⟨_, rfl⟩
  · obtain ⟨_, r, -, -, rfl⟩ := exists_of_mem_noted hf
    exact ⟨_, rfl⟩
  · cases hf

theorem made_hello (c : Client) (p : Hello) : made c p.encode = [] := by
  unfold made
  rw [Hello.peek_encode]

theorem made_auth {a : Auth} {key : SessionKey} {header : Salt} {pad : Bytes}
    (hk : c.sharedKey = some key) (ha : a.credentials.Sendable) (hp : pad.length = Sealed.padSize) :
    made c (a.wire key header pad) = [.proposed a.sessionKey a.salt] := by
  unfold made
  rw [Auth.peek_wire]
  exact noted_eq hk (SealedKind.opened_wire (t := .auth) ha hp) _

theorem made_data {d : Data} {key : SessionKey} {header : Salt} {pad : Bytes}
    (hk : c.sessionKey = some key) (hd : d.payload.length ≤ Data.maxPayload)
    (hp : pad.length = Sealed.padSize) : made c (d.wire key header pad) = [.sent d.salt] := by
  unfold made
  rw [Data.peek_wire]
  exact noted_eq hk (SealedKind.opened_wire (t := .data) hd hp) _

theorem taken_olleh {info : ServerInfo} {key : SessionKey} {header : Salt} {pad : Bytes}
    {x y : UInt32} (hk : c.sharedKey = some key) (hf : (Olleh.mk info).Flags x y)
    (hp : pad.length = Sealed.padSize) :
    taken c (PacketKind.olleh.wire info.publicKey.field key header pad
      (Field.word x ++ Field.word y)) = [.exchanged info header] := by
  unfold taken
  rw [PacketKind.peek_wire]
  exact noted_eq hk (SealedKind.opened_eq_ok_iff (t := .olleh) (r := ⟨header, ⟨info⟩⟩).2
    ⟨_, pad, ⟨x, y, hf, rfl⟩, hp, rfl⟩) _

theorem taken_olleh_wire {info : ServerInfo} {key : SessionKey} {header : Salt} {pad : Bytes}
    (hk : c.sharedKey = some key) (hp : pad.length = Sealed.padSize) :
    taken c ((Olleh.mk info).wire key header pad) = [.exchanged info header] := by
  obtain ⟨x, y, hflags, hbody⟩ := (Olleh.mk info).exists_flags_body
  rw [Olleh.wire, hbody]
  exact taken_olleh hk hflags hp

theorem taken_htua {x header : Salt} {key : SessionKey} {pad : Bytes}
    (hk : c.sessionKey = some key) (hp : pad.length = Sealed.padSize) :
    taken c ((Htua.mk x).wire key header pad) = [.confirmed header x] := by
  unfold taken
  rw [Htua.wire, PacketKind.peek_wire]
  exact noted_eq hk (SealedKind.opened_wire (t := .htua) (p := ⟨x⟩) trivial hp) _

theorem taken_data {d : Data} {header : Salt} {key : SessionKey} {pad : Bytes}
    (hk : c.sessionKey = some key) (hd : d.payload.length ≤ Data.maxPayload)
    (hp : pad.length = Sealed.padSize) :
    taken c (d.wire key header pad) = [.opened header d.salt] := by
  unfold taken
  rw [Data.peek_wire]
  exact noted_eq hk (SealedKind.opened_wire (t := .data) hd hp) _

/-- What a step may come to: it brings about the fact that is read from its answer, or it fails and
changes nothing. -/
def Brings {α : Type} (read : Client → α → List Fact) (c : Client) :
    Except Error α × Env Client → Prop
  | (.ok a, e') => ∃ f : Fact, f.Fits c ∧ e'.state = f.next c ∧ read e'.state a = [f]
  | (.error _, e') => e'.state = c

theorem Brings.reply {α β : Type} {x : Attempt Client α} {g : α → β}
    {read : Client → α → List Fact} {read' : Client → β → List Fact}
    (hx : Brings read e.state (x.exec e)) (hread : ∀ c a, read' c (g a) = read c a) :
    Brings read' e.state (Fallible.exec (do return g (← x)) e) := by
  rw [exec_bind]
  rcases hxe : x.exec e with ⟨err | a, e'⟩
  · rw [hxe] at hx
    exact hx
  · rw [hxe] at hx
    obtain ⟨f, hfits, hstate, hf⟩ := hx
    exact ⟨f, hfits, hstate, (hread e'.state a).trans hf⟩

theorem brings_propose (credentials : Credentials) (key? : Option SessionKey) (e : Env Client) :
    Brings made e.state ((propose credentials key?).exec e) := by
  rcases exec_propose_cases credentials key? e with
    ⟨shared, under, key, salt, pad, entropy, hphase, hs, -, hc, hp, hx⟩ | ⟨err, e', hx, he⟩
  · rw [hx]
    exact ⟨.proposed key salt, hphase, rfl, made_auth hs hc hp⟩
  · rw [hx]
    exact he

theorem brings_sealData (payload : Bytes) (e : Env Client) :
    Brings made e.state ((sealData payload).exec e) := by
  rcases exec_sealData_cases payload e with
    ⟨key, under, salt, pad, _, entropy, hphase, hk, -, -, hlen, hp, -, hx⟩ | ⟨err, _, hx, -⟩
  · rw [hx]
    exact ⟨.sent salt, hphase, rfl, made_data hk hlen hp⟩
  · rw [hx]
    exact rfl

theorem brings_takeOlleh (b : Bytes) (e : Env Client) :
    Brings (fun c _ => taken c b) e.state ((takeOlleh b).exec e) := by
  rcases exec_takeOlleh_cases b e with
    ⟨info, header, x, y, pad, hphase, hpin, hflags, hp, rfl, hx⟩ | ⟨err, hx⟩
  · rw [hx]
    exact ⟨.exchanged info header, ⟨hphase, hpin⟩, rfl, taken_olleh rfl hflags hp⟩
  · rw [hx]
    exact rfl

theorem brings_takeHtua (b : Bytes) (e : Env Client) :
    Brings (fun c _ => taken c b) e.state ((takeHtua b).exec e) := by
  rcases exec_takeHtua_cases b e with
    ⟨key, header, x, pad, hphase, hk, hp, rfl, hi, ha, hx⟩ | ⟨err, hx⟩
  · rw [hx]
    have hsome : e.state.sessionKey.isSome := by rw [hk, Option.isSome_some]
    exact ⟨.confirmed header x, ⟨hphase, hsome, hi, ha⟩, rfl, taken_htua hk hp⟩
  · rw [hx]
    exact rfl

theorem brings_openData (b : Bytes) (e : Env Client) :
    Brings (fun c _ => taken c b) e.state ((openData b).exec e) := by
  rcases exec_openData_cases b e with
    ⟨key, header, d, pad, hphase, hk, hlen, hp, rfl, hi, ha, hx⟩ | ⟨err, _, hx⟩
  · rw [hx]
    exact ⟨.opened header d.salt, ⟨hphase, hi, ha⟩, rfl, taken_data hk hlen hp⟩
  · rw [hx]
    exact rfl

theorem brings_receive (b : Bytes) (e : Env Client) :
    Brings (fun c _ => taken c b) e.state ((receive b).exec e) := by
  unfold receive
  rw [exec_bind, exec_liftExcept]
  cases hb : PacketKind.peek b with
  | error err => exact rfl
  | ok kind =>
    dsimp only
    cases kind with
    | olleh => exact (brings_takeOlleh b e).reply fun _ _ => rfl
    | htua => exact (brings_takeHtua b e).reply fun _ _ => rfl
    | data => exact (brings_openData b e).reply fun _ _ => rfl
    | hello => exact rfl
    | auth => exact rfl

/-- Every request but a greeting brings about a fact or is refused. -/
theorem Request.brings {r : Request} (hr : r ≠ .hello) (e : Env Client) :
    Brings r.read e.state (r.run.exec e) := by
  cases r with
  | hello => exact absurd rfl hr
  | auth credentials => exact (brings_propose credentials none e).reply fun _ _ => rfl
  | authWithKey credentials key =>
    exact (brings_propose credentials (some key) e).reply fun _ _ => rfl
  | sealData payload => exact (brings_sealData payload e).reply fun _ _ => rfl
  | takeOlleh b => exact (brings_takeOlleh b e).reply fun _ _ => rfl
  | takeHtua b => exact (brings_takeHtua b e).reply fun _ _ => rfl
  | openData b => exact (brings_openData b e).reply fun _ _ => rfl
  | receive b => exact (brings_receive b e).reply fun _ _ => rfl

theorem Request.facts_hello (e : Env Client) : Request.hello.facts e = [] ∧
    (Request.hello.run.exec e).2 = e := by
  unfold facts run
  rw [exec_bind]
  by_cases h : e.state.phase = .unauthenticated
  · rw [exec_hello h]
    exact ⟨made_hello e.state ⟨e.state.keyPair.publicKey⟩, rfl⟩
  · have hx : Client.hello.exec e = (.error (.session .wrongState), e) := by
      unfold Client.hello
      rw [exec_bind, exec_require, if_neg fun hm => h (List.mem_singleton.1 hm)]
    rw [hx]
    exact ⟨rfl, rfl⟩

/-- What a request leaves on record, and what becomes of the session. -/
theorem Request.facts_cases (r : Request) (e : Env Client) :
    (∃ f : Fact, r.facts e = [f] ∧ f.Fits e.state ∧ (r.run.exec e).2.state = f.next e.state) ∨
    (r.facts e = [] ∧ (r.run.exec e).2.state = e.state ∧
      ((r.run.exec e).1.isOk → r = .hello)) := by
  by_cases hr : r = .hello
  · subst hr
    obtain ⟨hf, he⟩ := facts_hello e
    exact .inr ⟨hf, congrArg Env.state he, fun _ => rfl⟩
  · have hx := brings hr e
    unfold facts
    rcases hxe : r.run.exec e with ⟨err | reply, e'⟩
    · rw [hxe] at hx
      exact .inr ⟨rfl, hx, nofun⟩
    · rw [hxe] at hx
      obtain ⟨f, hfits, hstate, hf⟩ := hx
      exact .inl ⟨f, hf, hfits, hstate⟩

theorem Request.issued_of_packet {r : Request} (hr : r ≠ .hello)
    (hx : (r.run.exec e).1 = .ok (.packet b)) :
    ∃ x, (r.facts e).filterMap Fact.issued? = [x] := by
  have hb := brings hr e
  unfold facts
  rcases hxe : r.run.exec e with ⟨err | reply, e'⟩
  · rw [hxe] at hx
    cases hx
  · rw [hxe] at hx hb
    obtain rfl := Except.ok.inj hx
    obtain ⟨f, -, -, hf⟩ := hb
    have hmem : f ∈ r.read e'.state (.packet b) := by
      rw [hf]
      exact List.mem_singleton_self f
    obtain ⟨x, hx⟩ := exists_issued_of_made hmem
    dsimp only
    rw [hf]
    exact ⟨x, by rw [List.filterMap_cons, hx, List.filterMap_nil]⟩

theorem Request.state_of_refused {r : Request} {e e' : Env Client} {err : Error}
    (hx : r.run.exec e = (.error err, e')) : e'.state = e.state := by
  by_cases hr : r = .hello
  · subst hr
    have he := (facts_hello e).2
    rw [hx] at he
    exact congrArg Env.state he
  · have hb := brings hr e
    rw [hx] at hb
    exact hb

/-- What happens to a client next. -/
inductive Input where
  | request (r : Request)
  /-- From now on the random source is this one. -/
  | supply (entropy : Entropy)

def next : Input → Env Client → Env Client
  | .request r, e => (r.run.exec e).2
  | .supply entropy, e => { e with entropy }

def facts : Input → Env Client → List Fact
  | .request r, e => r.facts e
  | .supply _, _ => []

def recorder : Recorder (Env Client) Input Fact := ⟨next, facts⟩

def fresh (keyPair : KeyPair) (pinned : Option PublicKey) (capacity : Nat) : Client :=
  { keyPair, pinned, window := .ofCapacity capacity }

omit [CipherSuite] in
theorem exec_reply {α : Type} {x : Attempt Client α} {a : α} {e' : Env Client}
    (hx : x.exec e = (.ok a, e')) (g : α → Reply) :
    Fallible.exec (do return g (← x)) e = (.ok (g a), e') := by
  rw [exec_bind, hx]
  rfl

omit [CipherSuite] in
theorem exec_reply_of_error {α : Type} {x : Attempt Client α} {err : Error} {e' : Env Client}
    (hx : x.exec e = (.error err, e')) (g : α → Reply) :
    Fallible.exec (do return g (← x)) e = (.error err, e') := by
  rw [exec_bind, hx]

theorem next_of_exec {r : Request} {reply : Reply} {e' : Env Client}
    (hx : r.run.exec e = (.ok reply, e')) : recorder.next (.request r) e = e' :=
  congrArg Prod.snd hx

theorem facts_of_exec {r : Request} {reply : Reply} {e' : Env Client}
    (hx : r.run.exec e = (.ok reply, e')) :
    recorder.facts (.request r) e = r.read e'.state reply := by
  change r.facts e = _
  unfold Request.facts
  rw [hx]

theorem keeps {P : Client → List Fact → Prop}
    (hstep : ∀ c l f, P c l → Fact.Fits c f → P (f.next c) (l ++ [f])) {e : Env Client}
    (he : P e.state []) (inputs : List Input) :
    P (recorder.after e inputs).state (recorder.record e inputs) := by
  refine recorder.keeps (P := fun e l => P e.state l) (h := []) ?_ he inputs
  intro e l i hl
  cases i with
  | supply entropy => rwa [show recorder.facts (.supply entropy) e = [] from rfl, List.append_nil]
  | request r =>
    change P (r.run.exec e).2.state (l ++ r.facts e)
    rcases r.facts_cases e with ⟨f, hf, hfits, hstate⟩ | ⟨hf, hstate, -⟩
    · rw [hf, hstate]
      exact hstep e.state l f hl hfits
    · rw [hf, hstate, List.append_nil]
      exact hl

end

end Client

end SealedDatagram
